import AgentGovernor.DomainCanonical

/-! Revocations and their lifts as the domain package validates them, and the approvals that govern
privileged changes. -/

namespace AgentGovernor

/-! ### Texts -/

/-- `ParseID` of a text. The bytes of a text outside of ASCII are none of an identifier. -/
def parseID (value : String) : Option ID :=
  if value.toList.all (·.toNat < 128) then ID.parseID (value.toList.map Char.toUInt8) else none

theorem ID.string_ascii (id : ID) : ∀ c ∈ id.string.toList, c.toNat < 128 := by
  have hdigit : ∀ d < 16, (ID.hexDigit d).toNat < 128 := by decide
  have hhex : ∀ first count, ∀ c ∈ id.hex first count, c.toNat < 128 := by
    intro first count c hc
    obtain ⟨k, _, rfl⟩ := List.mem_map.mp hc
    exact hdigit _ (Nat.mod_lt _ (by decide))
  have hdash : ∀ c : Char, c = '-' → c.toNat < 128 := by
    rintro _ rfl
    decide
  intro c hc
  simp only [ID.string, String.toList_ofList, List.mem_append, List.mem_cons] at hc
  grind

theorem ofNat_toUInt8 {c : Char} (h : c.toNat < 128) : Char.ofNat c.toUInt8.toNat = c := by
  have hbyte : c.toUInt8.toNat = c.toNat := by
    rw [Char.toUInt8, UInt32.toNat_toUInt8]
    exact Nat.mod_eq_of_lt (Nat.lt_trans h (by decide))
  rw [hbyte, Char.ofNat_toNat]

theorem string_of_parseID {value : String} {id : ID} (h : parseID value = some id) : id.string = value := by
  unfold parseID at h
  split_ifs at h with hascii
  have hread : ∀ cs : List Char, (∀ c ∈ cs, c.toNat < 128) →
      (cs.map Char.toUInt8).map (fun b => Char.ofNat b.toNat) = cs := by
    intro cs hcs
    rw [List.map_map]
    exact (List.map_congr_left fun c hc => ofNat_toUInt8 (hcs c hc)).trans (List.map_id _)
  apply String.toList_injective
  rw [← hread _ id.string_ascii, ← hread value.toList (by simpa using hascii), ID.text_of_parseID h]
  rfl

/-- `strings.ToLower`, of ASCII letters. -/
def lowerText (s : String) : String := String.ofList (s.toList.map Char.toLower)

/-- A letter or digit, then up to 511 letters, digits, dots, underscores, colons, slashes and hyphens. -/
def revocationReferencePattern : String → Bool :=
  matchesPattern (fun c => isUpperLetter c || isLowerLetter c || isDigit c)
    (fun c => isUpperLetter c || isLowerLetter c || isDigit c || ['.', '_', ':', '/', '-'].contains c) 511

/-- `^[a-z][a-z0-9._-]{0,127}$`. -/
def revocationReasonPattern : String → Bool :=
  matchesPattern isLowerLetter
    (fun c => isLowerLetter c || isDigit c || ['.', '_', '-'].contains c) 127

/-! ### Revocations -/

/-- A scope is a text; `unknown` is any other than the nine. -/
inductive RevocationScope where
  | runID | agentID | agentVersion | skillDigest | principalID | tenantID | toolID | policyVersion | global
  | unknown (text : String)
  deriving DecidableEq

def RevocationScope.text : RevocationScope → String
  | .runID => "RUN_ID"
  | .agentID => "AGENT_ID"
  | .agentVersion => "AGENT_VERSION"
  | .skillDigest => "SKILL_DIGEST"
  | .principalID => "PRINCIPAL_ID"
  | .tenantID => "TENANT_ID"
  | .toolID => "TOOL_ID"
  | .policyVersion => "POLICY_VERSION"
  | .global => "GLOBAL"
  | .unknown text => text

def RevocationScope.valid : RevocationScope → Bool
  | .unknown _ => false
  | _ => true

inductive RevocationChangeType where
  | created | lifted
  deriving DecidableEq

structure Revocation where
  id : ID
  actorPrincipalID : ID
  tenantID : Option ID
  scope : RevocationScope
  target : String
  reasonCode : String
  detailReference : String
  approvalReference : String
  effectiveAt : Time
  expiresAt : Option Time
  createdAt : Time
  deriving DecidableEq

def invalidRevocation : Failure := .plain "invalid revocation"

/-- An instant that a revocation carries: UTC and not the zero value. -/
def revocationInstant (t : Time) : Except Failure Time := do
  let normalized ← (requireUTC t).mapError fun _ => invalidRevocation
  if normalized.isZero then .error invalidRevocation else .ok normalized

def validateRevocation (v : Revocation) : Except Failure Revocation := do
  if v.id.isZero ∨ v.actorPrincipalID.isZero ∨ !v.scope.valid ∨ byteLength v.target < 1 ∨
      512 < byteLength v.target ∨ !revocationReasonPattern v.reasonCode ∨
      1024 < byteLength v.detailReference ∨ 512 < byteLength v.approvalReference ∨
      (v.approvalReference ≠ "" ∧ !revocationReferencePattern v.approvalReference) ∨
      (v.scope = .global) ≠ (v.tenantID = none) then
    .error invalidRevocation
  let effectiveAt ← revocationInstant v.effectiveAt
  let createdAt ← revocationInstant v.createdAt
  match v.expiresAt with
  | none => .ok { v with effectiveAt := effectiveAt, createdAt := createdAt }
  | some expiry =>
    let expiresAt ← (requireUTC expiry).mapError fun _ => invalidRevocation
    if expiresAt.after effectiveAt then
      .ok { v with effectiveAt := effectiveAt, createdAt := createdAt, expiresAt := some expiresAt }
    else .error invalidRevocation

structure RevocationLift where
  revocationID : ID
  actorPrincipalID : ID
  tenantID : Option ID
  reasonCode : String
  approvalReference : String
  changedAt : Time
  deriving DecidableEq

def validateRevocationLift (v : RevocationLift) : Except Failure RevocationLift := do
  if v.revocationID.isZero ∨ v.actorPrincipalID.isZero ∨ !revocationReasonPattern v.reasonCode ∨
      !revocationReferencePattern v.approvalReference then
    .error invalidRevocation
  let changedAt ← revocationInstant v.changedAt
  .ok { v with changedAt := changedAt }

structure EpochVector where
  security : Int
  tenantPolicy : Int
  tenantRevocation : Int
  agentRevocation : Int
  deriving DecidableEq

structure RevocationResult where
  revocation : Revocation
  state : RevocationChangeType
  sequence : Int
  epochs : EpochVector
  deriving DecidableEq

/-! ### Governance approvals -/

inductive GovernanceApprovalAction where
  | trustRootRotation | globalRevocationChange | policyBypass | policyRollback | emergencyExpansion
  | privilegedAgentClass
  | unknown (text : String)
  deriving DecidableEq

def GovernanceApprovalAction.valid : GovernanceApprovalAction → Bool
  | .unknown _ => false
  | _ => true

inductive GovernanceApprovalState where
  | pending | approved | rejected | consumed | expired
  deriving DecidableEq

structure GovernanceApproval where
  id : ID
  tenantID : ID
  requesterPrincipalID : ID
  action : GovernanceApprovalAction
  resourceType : String
  resourceID : String
  requestDigest : String
  reasonCode : String
  provider : String
  providerReference : String
  state : GovernanceApprovalState
  approverPrincipalID : ID
  decisionReference : String
  requestedAt : Time
  expiresAt : Time
  decidedAt : Option Time
  consumedAt : Option Time
  deriving DecidableEq

namespace GovernanceApproval

/-- Nothing of a decision is set. -/
def undecided (a : GovernanceApproval) : Bool :=
  a.approverPrincipalID.isZero && a.decidedAt.isNone && a.consumedAt.isNone && a.decisionReference = ""

/-- Somebody else than the requester has decided. -/
def decidedByOther (a : GovernanceApproval) : Bool :=
  !a.approverPrincipalID.isZero && a.approverPrincipalID ≠ a.requesterPrincipalID && a.decidedAt.isSome &&
    a.decisionReference ≠ ""

def validateState (a : GovernanceApproval) : Except Failure Unit :=
  match a.state with
  | .pending =>
    if a.undecided then .ok () else .error (.plain "pending governance approval contains decision state")
  | .approved | .rejected =>
    if a.decidedByOther && a.consumedAt.isNone then .ok ()
    else .error (.plain "governance approval decision does not satisfy four-eyes state")
  | .consumed =>
    if a.decidedByOther && a.consumedAt.any (fun at' => a.decidedAt.all fun decided => !decided.after at')
    then .ok ()
    else .error (.plain "consumed governance approval is invalid")
  | .expired =>
    if a.undecided then .ok () else .error (.plain "expired governance approval contains decision state")

def validate (a : GovernanceApproval) : Except Failure Unit := do
  if a.id.isZero ∨ a.tenantID.isZero ∨ a.requesterPrincipalID.isZero ∨ !a.action.valid then
    .error (.plain "governance approval identifiers and action must be set")
  if [a.resourceType, a.resourceID, a.requestDigest, a.reasonCode, a.provider, a.providerReference].any
      (fun value => value = "" || !trimmed value) then
    .error (.plain "governance approval references must be non-empty and canonical")
  if 128 < byteLength a.resourceType ∨ 512 < byteLength a.resourceID ∨ byteLength a.requestDigest ≠ 71 ∨
      a.requestDigest.toList.take 7 ≠ "sha256:".toList ∨ 128 < byteLength a.reasonCode ∨
      128 < byteLength a.provider ∨ 512 < byteLength a.providerReference then
    .error (.plain "governance approval references exceed their contract bounds")
  if a.requestedAt.isZero ∨ a.expiresAt.isZero ∨ !a.expiresAt.after a.requestedAt then
    .error (.plain "governance approval validity window is invalid")
  if !a.requestedAt.utc then .error (.plain "governance approval request time must be UTC")
  if !a.expiresAt.utc then .error (.plain "governance approval expiry time must be UTC")
  a.validateState

def consume (a : GovernanceApproval) (digest : String) (at' : Time) : Except Failure GovernanceApproval := do
  if (a.validate matches .error _) ∨ a.state ≠ .approved ∨ digest ≠ a.requestDigest then
    .error (.plain "only a matching approved governance approval can be consumed")
  let consumedAt ← (requireUTC at').mapError fun _ =>
    .plain "governance approval consumption is outside its validity window"
  if a.decidedAt.all (fun decided => decided.after consumedAt) ∨ !a.expiresAt.after consumedAt then
    .error (.plain "governance approval consumption is outside its validity window")
  let consumed := { a with state := .consumed, consumedAt := some consumedAt }
  consumed.validate
  .ok consumed

end GovernanceApproval

end AgentGovernor
