import AgentGovernor.DomainPrimitives

/-! The registry's agents and the decisions about their versions. -/

namespace AgentGovernor

inductive AgentRiskClass where
  | low | medium | high | critical
  deriving DecidableEq

inductive AgentStatus where
  | active | suspended | retired
  deriving DecidableEq

/-- The mutable registry record, as callers present it. -/
structure Agent where
  id : ID
  tenantID : ID
  name : String
  description : String
  ownerPrincipalID : ID
  sponsorPrincipalID : ID
  riskClass : AgentRiskClass
  status : AgentStatus
  createdAt : Time
  updatedAt : Time
  deriving DecidableEq

def Agent.validate (agent : Agent) : Except Failure Unit :=
  if agent.id.isZero ∨ agent.tenantID.isZero ∨ agent.ownerPrincipalID.isZero ∨
      agent.sponsorPrincipalID.isZero then
    .error (.plain "agent identifiers must be set")
  else if agent.ownerPrincipalID = agent.sponsorPrincipalID then
    .error (.plain "agent owner and sponsor must be different principals")
  else if !trimmed agent.name ∨ byteLength agent.name < 1 ∨ 200 < byteLength agent.name then
    .error (.plain "agent name must contain 1 to 200 trimmed characters")
  else if 2048 < byteLength agent.description then
    .error (.plain "agent description exceeds 2048 characters")
  else match requireUTC agent.createdAt with
    | .error _ => .error (.plain "agent creation time must be a non-zero UTC timestamp")
    | .ok created =>
      if created.isZero then
        .error (.plain "agent creation time must be a non-zero UTC timestamp")
      else match requireUTC agent.updatedAt with
        | .error _ => .error (.plain "agent update time must be UTC and not precede creation")
        | .ok updated =>
          if updated.nanos < created.nanos then
            .error (.plain "agent update time must be UTC and not precede creation")
          else .ok ()

/-! ### Decisions about versions -/

inductive ApprovalDecision where
  | approved | rejected | deprecated | revoked
  deriving DecidableEq

/-- What the decisions about a version have led to. -/
inductive AgentVersionState where
  | registered
  | decided (decision : ApprovalDecision)
  deriving DecidableEq

/-- The allowed state graph, also the `WHERE` of the statement that inserts a decision. -/
def AgentVersionState.canApply : AgentVersionState → ApprovalDecision → Bool
  | .registered, decision => decision = .approved || decision = .rejected
  | .decided .approved, decision => decision = .deprecated || decision = .revoked
  | .decided .deprecated, decision => decision = .revoked
  | .decided _, _ => false

/-- Rejected and revoked versions admit nothing any more. -/
def AgentVersionState.final : AgentVersionState → Bool
  | .decided .rejected | .decided .revoked => true
  | _ => false

theorem AgentVersionState.not_canApply_of_final {state : AgentVersionState}
    (h : state.final = true) (decision : ApprovalDecision) : state.canApply decision = false := by
  cases state with
  | registered => cases h
  | decided last =>
    cases last with
    | approved => cases h
    | deprecated => cases h
    | rejected => rfl
    | revoked => rfl

structure AgentVersionApproval where
  id : ID
  tenantID : ID
  agentID : ID
  agentVersionID : ID
  actorPrincipalID : ID
  policyDecisionID : ID
  decision : ApprovalDecision
  reasonCode : String
  approvalReference : String
  createdAt : Time
  deriving DecidableEq

/-- An identifier of a manifest: a letter or digit, then letters, digits, dots, underscores, colons and
hyphens. -/
def validIdentifier (maxLength : Nat) : String → Bool :=
  matchesPattern (fun c => isUpperLetter c || isLowerLetter c || isDigit c)
    (fun c => isUpperLetter c || isLowerLetter c || isDigit c || ['.', '_', ':', '-'].contains c)
    (maxLength - 1)

def AgentVersionApproval.validate (approval : AgentVersionApproval) : Except Failure Unit :=
  if approval.id.isZero ∨ approval.tenantID.isZero ∨ approval.agentID.isZero ∨
      approval.agentVersionID.isZero ∨ approval.actorPrincipalID.isZero ∨
      approval.policyDecisionID.isZero then
    .error (.plain "agent version approval identifiers must be set")
  else if !validIdentifier 128 approval.reasonCode then
    .error (.plain "agent version approval decision or reason code is invalid")
  else if 512 < byteLength approval.approvalReference ∨ !trimmed approval.approvalReference then
    .error (.plain "agent version approval reference is invalid")
  else if !approval.createdAt.utc ∨ approval.createdAt.isZero then
    .error (.plain "agent version approval time must be a non-zero UTC timestamp")
  else .ok ()

end AgentGovernor
