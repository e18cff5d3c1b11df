import AgentGovernor.PolicyContract
import AgentGovernor.RevocationGovernance

/-! The service that changes revocations. It asks the policy before it reads anything, about the scope and
the target that the command carries; a lift takes both from the stored revocation. -/

namespace AgentGovernor

open Ledger Transaction RevocationSample

structure ChangeRevocation where
  tenantID : ID
  principalID : ID
  requestID : ID
  revocationID : ID
  roles : List String
  issuer : String
  scope : RevocationScope
  target : String
  reasonCode : String
  approvalReference : String
  securityState : Policy.SecurityState

/-- The identifiers that one call of the service generates. -/
structure RevocationIDs where
  decisionID : ID
  changeID : ID
  eventID : ID
  auditID : ID
  outboxID : ID

theorem revocationID_of_validateRevocationLift {l l' : RevocationLift}
    (h : validateRevocationLift l = .ok l') : l'.revocationID = l.revocationID := by
  unfold validateRevocationLift at h
  dsimp only at h
  split_ifs at h
  · cases h
  · obtain ⟨changedAt, _, h⟩ := bind_eq_ok.mp h
    cases h
    rfl

namespace ChangeRevocation

variable (c : ChangeRevocation) (evaluate : Policy.Evaluator) (ids : RevocationIDs) (now : Time)

/-- What `authorize` asks the policy. -/
def input (action : String) (decisionID : ID) : Policy.Input :=
  { contractVersion := Policy.contractVersion, decisionID := decisionID.string, requestTime := now
    subject :=
      { principalID := c.principalID.string, tenantID := c.tenantID.string, principalType := "human"
        roles := c.roles.insertionSort (· ≤ ·), authenticationMethods := [], issuer := c.issuer }
    action := action
    resource :=
      { type := "revocation", id := c.revocationID.string, tenantID := c.tenantID.string
        attributes := some [("scope", .text (lowerText c.scope.text)), ("target", .text c.target),
          ("reason_code", .text c.reasonCode), ("approval_reference", .text c.approvalReference)] }
    agent := none, requestedConstraints := some [], authorityConstraints := some []
    securityState := c.securityState
    context := { requestID := c.requestID.string, sourceWorkload := "" } }

def authorize (action : String) : Except Failure RevocationEvidence := do
  let result ← (evaluate (c.input now action ids.decisionID)).mapError fun _ =>
    .domain .unavailable "revocation policy is unavailable"
  if !result.decision.allow then
    .error (.domain .forbidden "revocation change is not authorized")
  else if result.decision.decisionID ≠ ids.decisionID.string then
    .error (.domain .unavailable "revocation policy returned invalid evidence")
  else
    .ok ⟨ids.changeID, ids.eventID, ids.auditID, ids.outboxID, c.requestID, ids.decisionID,
      result.decision.reasonCodes⟩

/-- What `Lift` asks the policy, if the clock is one of UTC. -/
def liftInput : Option Policy.Input :=
  (requireUTC now).toOption.map fun now => c.input now "revocations.lift" ids.decisionID

/-- What `Lift` gives to the repository. -/
def lift : Except Failure (RevocationLift × RevocationEvidence) := do
  let now ← requireUTC now
  let evidence ← c.authorize evaluate ids now "revocations.lift"
  let lift ← (validateRevocationLift ⟨c.revocationID, c.principalID, none, c.reasonCode, c.approvalReference,
    now⟩).mapError fun _ => .domain .invalidArgument "revocation lift is invalid"
  return (lift, evidence)

variable {c evaluate ids now} {action : String} {e : RevocationEvidence} {l : RevocationLift}

theorem authorize_spec (h : c.authorize evaluate ids now action = .ok e) :
    e.policyDecisionID = ids.decisionID ∧ ∃ result, evaluate (c.input now action ids.decisionID) = .ok result ∧
      result.decision.allow = true ∧ result.decision.decisionID = ids.decisionID.string := by
  obtain ⟨result, hresult, h⟩ := bind_eq_ok.mp h
  rw [mapError_eq_ok] at hresult
  obtain ⟨hallow, h⟩ := ite_error_eq_ok.mp h
  obtain ⟨hdecision, h⟩ := ite_error_eq_ok.mp h
  cases h
  exact ⟨rfl, result, hresult, by simpa using hallow, not_not.mp hdecision⟩

theorem lift_spec (h : c.lift evaluate ids now = .ok (l, e)) :
    l.revocationID = c.revocationID ∧ ∃ now', requireUTC now = .ok now' ∧
      c.authorize evaluate ids now' "revocations.lift" = .ok e := by
  obtain ⟨now', hnow, h⟩ := bind_eq_ok.mp h
  obtain ⟨e', he, h⟩ := bind_eq_ok.mp h
  obtain ⟨l', hl, h⟩ := bind_eq_ok.mp h
  cases h
  rw [mapError_eq_ok] at hl
  exact ⟨revocationID_of_validateRevocationLift hl, now', hnow, he⟩

end ChangeRevocation

/-- The input is about the scope and the target of the revocation. -/
def Policy.Input.Names (input : Policy.Input) (r : RevocationRow) : Prop :=
  input.attribute "scope" = some (.text (lowerText r.scope.text)) ∧
    input.attribute "target" = some (.text r.target)

/-- The decision in the evidence is one on the input, and allows it. -/
def Policy.Input.AllowedBy (input : Policy.Input) (evaluate : Policy.Evaluator) (e : RevocationEvidence) :
    Prop :=
  input.decisionID = e.policyDecisionID.string ∧ ∃ result, evaluate input = .ok result ∧
    result.decision.allow = true ∧ result.decision.decisionID = input.decisionID

theorem ChangeRevocation.names_input (c : ChangeRevocation) (now : Time) (action : String) (id : ID)
    (r : RevocationRow) : (c.input now action id).Names r ↔
      lowerText c.scope.text = lowerText r.scope.text ∧ c.target = r.target := by
  show some (PolicyValue.text (lowerText c.scope.text)) = _ ∧ some (PolicyValue.text c.target) = _ ↔ _
  simp

/-- The command that the handler of `POST /revocations/{revocation_id}/lift` makes of an authenticated
request: neither a scope nor a target. -/
def liftCommand (tenantID principalID requestID revocationID : ID) (roles : List String)
    (issuer reasonCode approvalReference : String) (securityState : Policy.SecurityState) :
    ChangeRevocation :=
  { tenantID, principalID, requestID, revocationID, roles, issuer, scope := .unknown "", target := ""
    reasonCode, approvalReference, securityState }

/-- A lift is about a stored revocation. -/
theorem exists_lifted {request : RevocationRequest} {response : RevocationResponse} {s t : RevocationStore}
    {tenantID found : ID} {sequence : Int} {l : RevocationLift} {e : RevocationEvidence}
    (h : revocationEngine.Commits revocationProgram request response s t)
    (hrequest : request = .lift tenantID l e sequence found) :
    ∃ r, s.revocations.get l.revocationID = some r := by
  obtain ⟨held, hexec⟩ := h
  subst hrequest
  obtain ⟨result, hlift, _⟩ := exec_answered hexec
  obtain ⟨l', _, _, hvalidated, h₁⟩ := Engine.exec_bind.mp hlift
  obtain ⟨hvalid, rfl, rfl⟩ := Engine.exec_ofExcept.mp hvalidated
  obtain ⟨_, _, _, hscope, h₂⟩ := Engine.exec_bind.mp h₁
  obtain ⟨_, rfl, rfl⟩ := Engine.exec_require.mp hscope
  obtain ⟨_, _, _, hchanges⟩ := exec_changeRevocation h₂
  rw [← revocationID_of_validateRevocationLift hvalid]
  cases hchanges.concerns with
  | lift _ r _ hr => exact ⟨r, hr⟩

/-- A lift that has committed was allowed by a decision on the scope and the target of the revocation just
when the command carried them. -/
theorem lifts_authorized {a : RevocationSystem × Int} (h : RevocationReachable a) {c : RevocationCommit}
    (hc : c ∈ a.1.log) {tenantID found : ID} {sequence : Int} {l : RevocationLift} {e : RevocationEvidence}
    (hrequest : c.request = .lift tenantID l e sequence found) {command : ChangeRevocation}
    {evaluate : Policy.Evaluator} {ids : RevocationIDs} {now : Time}
    (hservice : command.lift evaluate ids now = .ok (l, e)) :
    ∃ r, c.before.revocations.get command.revocationID = some r ∧
      ((∃ input, command.liftInput ids now = some input ∧ input.AllowedBy evaluate e ∧ input.Names r) ↔
        lowerText command.scope.text = lowerText r.scope.text ∧ command.target = r.target) := by
  obtain ⟨hid, now', hnow, hauthorize⟩ := ChangeRevocation.lift_spec hservice
  obtain ⟨hdecision, result, hresult, hallow, hown⟩ := ChangeRevocation.authorize_spec hauthorize
  obtain ⟨r, hr⟩ := exists_lifted (h.history.commits hc) hrequest
  have hasked : command.liftInput ids now = some (command.input now' "revocations.lift" ids.decisionID) := by
    simp [ChangeRevocation.liftInput, hnow, Except.toOption]
  have hallowed : (command.input now' "revocations.lift" ids.decisionID).AllowedBy evaluate e :=
    ⟨by rw [hdecision]; rfl, result, hresult, hallow, hown⟩
  refine ⟨r, hid ▸ hr, ?_⟩
  rw [← command.names_input now' "revocations.lift" ids.decisionID]
  constructor
  · rintro ⟨input, hinput, _, hnames⟩
    rw [hasked] at hinput
    cases hinput
    exact hnames
  · exact fun hnames => ⟨_, hasked, hallowed, hnames⟩

/-- No lift that comes through the handler is decided on the scope of what it lifts. -/
theorem liftCommand_scope (tenantID principalID requestID revocationID : ID) (roles : List String)
    (issuer reasonCode approvalReference : String) (securityState : Policy.SecurityState)
    {scope : RevocationScope} (h : scope.valid = true) :
    lowerText (liftCommand tenantID principalID requestID revocationID roles issuer reasonCode
      approvalReference securityState).scope.text ≠ lowerText scope.text := by
  show lowerText "" ≠ lowerText scope.text
  cases scope with
  | unknown => cases h
  | _ => decide

deriving instance DecidableEq for RevocationRequest

namespace RevocationSample

/-- A policy under which nobody may lift a global revocation. -/
def keepsGlobal : Policy.Evaluator := fun input =>
  let scope := match input.attribute "scope" with
    | some (.text scope) => scope
    | _ => ""
  .ok ⟨⟨Policy.contractVersion, input.decisionID, scope ≠ "global", ["governance.operation.allowed"], some [],
    some [], 0⟩, ⟨"", 1, "", ""⟩⟩

def liveState : Policy.SecurityState := ⟨0, 0, 0, 0, 0, 0, false, true⟩

/-- What a request to the handler makes, and what a caller who says what is lifted would. -/
def handled : ChangeRevocation :=
  liftCommand tenant (.ofNat 3) (.ofNat 502) (.ofNat 701) [] "issuer" "recovered" "change-2" liveState

def named (scope : RevocationScope) (target : String) : ChangeRevocation :=
  { handled with scope := scope, target := target }

def serviceIDs : RevocationIDs :=
  ⟨.ofNat 602, .ofNat 102, .ofNat 202, .ofNat 302, .ofNat 402⟩

/-- A revocation is created, and lifted at second 30 if the policy allows what the command says. -/
def liftedBy (command : ChangeRevocation) (owner : Option ID) (scope : RevocationScope) (target : String) :
    List RevocationRequest :=
  createAlone owner scope target ++ match command.lift keepsGlobal serviceIDs (instant 30) with
    | .ok (l, e) => [.lift tenant l e 2 tenant]
    | .error _ => []

/-- What the service gives to the repository for each of these commands. -/
def liftOf : RevocationLift × RevocationEvidence :=
  (⟨.ofNat 701, .ofNat 3, none, "recovered", "change-2", instant 30⟩,
    ⟨.ofNat 102, .ofNat 202, .ofNat 302, .ofNat 402, .ofNat 502, .ofNat 602,
      ["governance.operation.allowed"]⟩)

theorem lift_handled : handled.lift keepsGlobal serviceIDs (instant 30) = .ok liftOf := by
  decide +kernel

theorem lift_named :
    (named .principalID "principal-1").lift keepsGlobal serviceIDs (instant 30) = .ok liftOf := by
  decide +kernel

theorem liftedBy_handled :
    ∃ c ∈ (after (liftedBy handled none .global "all")).1.log,
      c.request = .lift tenant liftOf.1 liftOf.2 2 tenant ∧
        (c.before.revocations.get handled.revocationID).map RevocationRow.scope = some .global := by
  decide +kernel

theorem liftedBy_named :
    ∃ c ∈ (after (liftedBy (named .principalID "principal-1") (some tenant) .principalID
        "principal-1")).1.log,
      c.request = .lift tenant liftOf.1 liftOf.2 2 tenant ∧
        (c.before.revocations.get (named .principalID "principal-1").revocationID).map
          (fun r => (r.scope, r.target)) = some (.principalID, "principal-1") := by
  decide +kernel

end RevocationSample

theorem lifts_authorized_named :
    ∃ c ∈ (after (liftedBy
        (named .principalID "principal-1") (some tenant) .principalID
        "principal-1")).1.log,
      ∃ r, c.before.revocations.get (ID.ofNat 701) = some r ∧
        ∃ input, (named .principalID "principal-1").liftInput serviceIDs
            (instant 30) = some input ∧
          input.AllowedBy keepsGlobal liftOf.2 ∧ input.Names r := by
  obtain ⟨c, hc, hrequest, hrow⟩ := liftedBy_named
  obtain ⟨r, hr, hiff⟩ := lifts_authorized (reachable _) hc hrequest
    lift_named
  rw [hr] at hrow
  have hfields := Option.some.inj hrow
  have hscope : r.scope = .principalID := congrArg Prod.fst hfields
  have htarget : r.target = "principal-1" := congrArg Prod.snd hfields
  exact ⟨c, hc, r, hr, hiff.mpr ⟨by rw [hscope]; rfl, htarget.symm⟩⟩

/-- Under a policy that keeps global revocations, one is lifted through the handler. -/
theorem global_lift_unnamed :
    handled.lift keepsGlobal serviceIDs
        (instant 30) = .ok liftOf ∧
      ∃ c ∈ (after (liftedBy handled none .global
          "all")).1.log,
        c.request = .lift tenant liftOf.1 liftOf.2 2
          tenant ∧
        ∃ r, c.before.revocations.get handled.revocationID = some r ∧ r.scope = .global ∧
          ∀ input, handled.liftInput serviceIDs
            (instant 30) = some input → ¬input.Names r := by
  obtain ⟨c, hc, hrequest, hrow⟩ := liftedBy_handled
  obtain ⟨r, hr, hscope⟩ := Option.map_eq_some_iff.mp hrow
  refine ⟨lift_handled, c, hc, hrequest, r, hr, hscope, fun input hinput hnames => ?_⟩
  obtain ⟨now, _, rfl⟩ := Option.map_eq_some_iff.mp hinput
  refine liftCommand_scope tenant (.ofNat 3) (.ofNat 502) (.ofNat 701) [] "issuer"
    "recovered" "change-2" liveState (show RevocationScope.global.valid = true from rfl) ?_
  rw [← hscope]
  exact ((handled.names_input _ _ _ r).mp hnames).1

end AgentGovernor
