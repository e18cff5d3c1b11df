import AgentGovernor.DomainAgent
import AgentGovernor.PolicyConstraints

/-! The resolution of an agent version. The resolver asks the policy about each candidate in turn; the first
that may be invoked is taken, with constraints that the deployment, the approved manifest, the caller and the
policy have all bounded. -/

namespace AgentGovernor

open Policy

/-! ### Manifests -/

structure AgentLimits where
  maxExecutionTimeSeconds : Option Int
  maxBudgetUSDMicrounits : Option Int
  maxLLMTokens : Option Int
  maxToolCalls : Option Int
  maxToolCallsPerMinute : Option Int
  maxActiveChildren : Option Int
  maxTotalChildren : Option Int
  maxDelegationDepth : Option Int
  deriving DecidableEq

namespace AgentLimits

variable (limits : AgentLimits)

/-- The limits under their JSON names, with the greatest value and whether zero is allowed. -/
def bounded : List (String × Option Int × Int × Bool) :=
  [("max_execution_time_seconds", limits.maxExecutionTimeSeconds, 604800, false),
   ("max_budget_usd_microunits", limits.maxBudgetUSDMicrounits, maxInt64, true),
   ("max_llm_tokens", limits.maxLLMTokens, maxInt64, true),
   ("max_tool_calls", limits.maxToolCalls, maxInt64, true),
   ("max_tool_calls_per_minute", limits.maxToolCallsPerMinute, maxInt64, true),
   ("max_active_children", limits.maxActiveChildren, maxInt64, true),
   ("max_total_children", limits.maxTotalChildren, maxInt64, true),
   ("max_delegation_depth", limits.maxDelegationDepth, maxInt64, true)]

def validate : Except Failure Unit :=
  match limits.bounded.find? fun (_, value, max, zero) =>
      value.any fun v => v < 0 || (!zero && v = 0) || max < v with
  | some (name, _) => .error (.plain ("agent limit " ++ name ++ " is outside its allowed range"))
  | none =>
    if limits.maxActiveChildren.any fun active => limits.maxTotalChildren.any (· < active) then
      .error (.plain "max_active_children cannot exceed max_total_children")
    else .ok ()

/-- The limit with this JSON name. -/
def value (key : String) : Option Int := (limits.bounded.lookup key).bind (·.1)

/-- The limits in JSON and read again with `UseNumber`. -/
def approved : PolicyMap :=
  limits.bounded.filterMap fun (name, value, _) => value.map fun v => (name, .number (toString v))

end AgentLimits

/-- What a manifest declares that is read here. -/
structure AgentManifest where
  tools : List String
  skills : List String
  limits : AgentLimits
  deriving DecidableEq

structure ManifestVersion where
  id : ID
  tenantID : ID
  agentID : ID
  contentDigest : String
  manifest : AgentManifest
  deriving DecidableEq

structure AgentVersionCandidate where
  agent : Agent
  version : ManifestVersion
  approval : AgentVersionApproval
  state : AgentVersionState
  deriving DecidableEq

def AgentRiskClass.text : AgentRiskClass → String
  | .low => "LOW"
  | .medium => "MEDIUM"
  | .high => "HIGH"
  | .critical => "CRITICAL"

def AgentVersionState.text : AgentVersionState → String
  | .registered => "REGISTERED"
  | .decided .approved => "APPROVED"
  | .decided .rejected => "REJECTED"
  | .decided .deprecated => "DEPRECATED"
  | .decided .revoked => "REVOKED"

/-! ### The resolver -/

structure ResolveAgentVersion where
  runID : ID
  tenantID : ID
  agentID : ID
  principalID : ID
  requestID : ID
  roles : List String
  requestedVersionDigest : String
  requestedConstraints : Option PolicyMap
  authorityConstraints : Option PolicyMap
  securityState : SecurityState

/-- Either trusted source can supply a ceiling; of two the stricter one is taken. -/
def approvedAuthority (deployment : PolicyMap) (limits : AgentLimits) : Except Failure PolicyMap := do
  limits.validate
  let combined := deployment ++ limits.approved.filter fun x => (deployment.lookup x.1).isNone
  intersectConstraints combined limits.approved

/-- A value as the grants and the deadline read it. -/
def PolicyValue.constraint : PolicyValue → ConstraintValue
  | .int n => .int n
  | .int64 n => .int64 n
  | .number decimal => .number decimal
  | .float64 q _ => .float64 q
  | _ => .other

/-- The resolver's collaborators. `newID` gives each decision its identifier: candidate `n` uses number
`2 * n` for its selection and `2 * n + 1` for its invocation. -/
structure VersionResolver where
  candidates : ID → String → Except Failure (List AgentVersionCandidate)
  evaluate : Evaluator
  clock : Time
  newID : Nat → ID

namespace VersionResolver

variable (resolver : VersionResolver) (command : ResolveAgentVersion)

/-- What the policy is asked about a candidate. -/
def input (authority : PolicyMap) (candidate : AgentVersionCandidate) (action : String) (now : Time)
    (decisionID : ID) : Input :=
  { contractVersion := contractVersion, decisionID := decisionID.string, requestTime := now
    subject :=
      { principalID := command.principalID.string, tenantID := command.tenantID.string
        principalType := "human", roles := command.roles.insertionSort (· ≤ ·), authenticationMethods := []
        issuer := "" }
    action := action
    resource :=
      { type := "agent_version", id := candidate.version.contentDigest, tenantID := command.tenantID.string
        attributes := some [("selection_state", .text (lowerText candidate.state.text))] }
    agent := some
      { id := candidate.agent.id.string, versionDigest := candidate.version.contentDigest
        riskClass := lowerText candidate.agent.riskClass.text
        owner := candidate.agent.ownerPrincipalID.string, approved := true, revoked := false }
    requestedConstraints := some (command.requestedConstraints.getD [])
    authorityConstraints := some authority
    securityState := command.securityState
    context := { requestID := command.requestID.string, sourceWorkload := "" } }

def decide (authority : PolicyMap) (candidate : AgentVersionCandidate) (action : String) (now : Time)
    (decisionID : ID) : Except Failure Result := do
  let result ← (resolver.evaluate (input command authority candidate action now decisionID)).mapError fun _ =>
    .domain .unavailable "version resolution policy is unavailable"
  if result.decision.decisionID ≠ decisionID.string ∨ !validDigest result.metadata.policyDigest ∨
      result.metadata.policyVersion < 1 then
    .error (.domain .unavailable "version resolution policy returned invalid evidence")
  else .ok result

/-- The mode of a controlled selection and the policy's answer. -/
def authorizeSelection (authority : PolicyMap) (candidate : AgentVersionCandidate) (now : Time)
    (decisionID : ID) : Except Failure (VersionResolutionMode × Result) := do
  let (mode, action) := if candidate.state = .decided .deprecated then
      (VersionResolutionMode.rollback, "versions.rollback")
    else (.pinned, "versions.pin")
  let result ← resolver.decide command authority candidate action now decisionID
  if !result.decision.allow then
    .error (.domain .forbidden "requested version selection is not permitted")
  else .ok (mode, result)

/-- Without a requested digest nothing is selected. -/
def selection (authority : PolicyMap) (candidate : AgentVersionCandidate) (now : Time) (decisionID : ID) :
    Except Failure (Option (VersionResolutionMode × Result)) :=
  if command.requestedVersionDigest = "" then .ok none
  else (resolver.authorizeSelection command authority candidate now decisionID).map some

/-- The checks of a candidate before anything is asked. -/
def eligible (count : Nat) (candidate : AgentVersionCandidate) : Except Failure Unit :=
  if candidate.agent.tenantID ≠ command.tenantID ∨ candidate.agent.id ≠ command.agentID ∨
      candidate.version.tenantID ≠ command.tenantID ∨ candidate.version.agentID ≠ command.agentID ∨
      candidate.approval.agentVersionID ≠ candidate.version.id ∨ candidate.approval.decision ≠ .approved then
    .error (.domain .internal "version candidate crossed its authority boundary")
  else if (command.requestedVersionDigest = "" ∧ candidate.state ≠ .decided .approved) ∨
      (command.requestedVersionDigest ≠ "" ∧ (count ≠ 1 ∨
        candidate.version.contentDigest ≠ command.requestedVersionDigest ∨
        (candidate.state ≠ .decided .approved ∧ candidate.state ≠ .decided .deprecated))) then
    .error (.domain .internal "version repository returned an ineligible candidate")
  else .ok ()

/-- The evidence of an admitted candidate. -/
def resolution (candidate : AgentVersionCandidate) (selection : Option (VersionResolutionMode × Result))
    (invocation : Result) (resolved : PolicyMap) (now : Time) : Except Failure RunVersionResolution := do
  if selection.any fun s => s.2.metadata.policyDigest ≠ invocation.metadata.policyDigest ||
      s.2.metadata.policyVersion ≠ invocation.metadata.policyVersion then
    .error (.domain .unavailable "policy changed during controlled version selection")
  let invocationID ← (parseID invocation.decision.decisionID).elim
    (.error (.domain .unavailable "policy returned invalid resolution evidence")) .ok
  let selectionID ← selection.elim (.ok (.ofNat 0)) fun s => (parseID s.2.decision.decisionID).elim
    (.error (.domain .unavailable "policy returned invalid selection evidence")) .ok
  let resolution : RunVersionResolution :=
    { runID := command.runID, tenantID := command.tenantID, agentID := command.agentID
      agentVersionID := candidate.version.id, approvalID := candidate.approval.id
      agentContentDigest := candidate.version.contentDigest
      policyBundleDigest := invocation.metadata.policyDigest
      policyActivationVersion := invocation.metadata.policyVersion
      mode := selection.elim .automatic (·.1)
      invocationDecisionID := invocationID, selectionDecisionID := selectionID
      resolvedConstraints := some (resolved.map fun x => (x.1, x.2.constraint)), resolvedAt := now }
  resolution.validate.mapError fun _ => .domain .internal "resolved version evidence is invalid"
  return resolution

/-- One round of the loop: a resolution, or on to the next candidate. -/
def resolveCandidate (authority : PolicyMap) (count : Nat) (now : Time) (index : Nat)
    (candidate : AgentVersionCandidate) : Except Failure (Option RunVersionResolution) := do
  eligible command count candidate
  let authority ← (approvedAuthority authority candidate.version.manifest.limits).mapError fun _ =>
    .domain .unavailable "approved authority is invalid"
  let selection ← resolver.selection command authority candidate now (resolver.newID (2 * index))
  let invocation ← resolver.decide command authority candidate "runs.create" now
    (resolver.newID (2 * index + 1))
  if !invocation.decision.allow then
    if command.requestedVersionDigest ≠ "" then
      .error (.domain .forbidden "agent version invocation is not permitted")
    else .ok none
  else if authority.isEmpty then
    .error (.domain .unavailable "admission requires authoritative constraints")
  else
    let resolved ← (resolveConstraints authority (command.requestedConstraints.getD [])
      invocation.decision.resolvedConstraints).mapError fun _ =>
        .domain .unavailable "policy resolved invalid constraints"
    (resolution command candidate selection invocation resolved now).map some

def resolveCandidates (authority : PolicyMap) (count : Nat) (now : Time) :
    Nat → List AgentVersionCandidate → Except Failure RunVersionResolution
  | _, [] => .error (.domain .forbidden "no eligible agent version is permitted")
  | index, candidate :: rest => do
    match ← resolver.resolveCandidate command authority count now index candidate with
    | some resolution => .ok resolution
    | none => resolveCandidates authority count now (index + 1) rest

def resolve : Except Failure RunVersionResolution :=
  match command.authorityConstraints with
  | none => .error (.domain .invalidArgument "version resolution request is invalid")
  | some authority => do
    if command.runID.isZero ∨ command.tenantID.isZero ∨ command.agentID.isZero ∨
        command.principalID.isZero ∨ command.requestID.isZero then
      .error (.domain .invalidArgument "version resolution request is invalid")
    if command.requestedVersionDigest ≠ "" ∧ !validDigest command.requestedVersionDigest then
      .error (.domain .invalidArgument "requested version digest is invalid")
    let candidates ← resolver.candidates command.agentID command.requestedVersionDigest
    if candidates.isEmpty then .error (.domain .notFound "no eligible agent version found")
    let now ← (requireUTC resolver.clock).mapError fun _ =>
      .domain .internal "version resolver clock is invalid"
    resolver.resolveCandidates command authority candidates.length now 0 candidates

/-! ### What a resolution rests on -/

variable {resolver command} {r : RunVersionResolution} {candidate : AgentVersionCandidate}
  {authority : PolicyMap} {now : Time}

theorem decide_spec {action : String} {decisionID : ID} {result : Result}
    (h : resolver.decide command authority candidate action now decisionID = .ok result) :
    resolver.evaluate (input command authority candidate action now decisionID) = .ok result ∧
      validDigest result.metadata.policyDigest = true := by
  obtain ⟨result', hresult, h⟩ := bind_eq_ok.mp h
  obtain ⟨hvalid, h⟩ := ite_error_eq_ok.mp h
  cases h
  simp only [not_or, Bool.not_eq_true', Bool.not_eq_false] at hvalid
  exact ⟨mapError_eq_ok.mp hresult, hvalid.2.1⟩

theorem resolution_spec {selection : Option (VersionResolutionMode × Result)} {invocation : Result}
    {resolved : PolicyMap} (h : resolution command candidate selection invocation resolved now = .ok r) :
    r.runID = command.runID ∧ r.agentVersionID = candidate.version.id ∧
      r.agentContentDigest = candidate.version.contentDigest ∧
      parseID invocation.decision.decisionID = some r.invocationDecisionID ∧
      r.resolvedConstraints = some (resolved.map fun x => (x.1, x.2.constraint)) := by
  obtain ⟨_, h⟩ := ite_error_eq_ok.mp h
  obtain ⟨invocationID, hinvocation, h⟩ := bind_eq_ok.mp h
  obtain ⟨selectionID, _, h⟩ := bind_eq_ok.mp h
  obtain ⟨_, _, h⟩ := bind_eq_ok.mp h
  cases h
  refine ⟨rfl, rfl, rfl, ?_, rfl⟩
  cases hid : parseID invocation.decision.decisionID with
  | none => rw [hid] at hinvocation; cases hinvocation
  | some id => rw [hid] at hinvocation; cases hinvocation; rfl

/-- What the resolver did for the candidate that it took: the manifest was combined with the deployment's
ceilings, the policy allowed the invocation, and its constraints were resolved. -/
structure Takes (resolver : VersionResolver) (command : ResolveAgentVersion) (deployment : PolicyMap)
    (now : Time) (index : Nat) (candidate : AgentVersionCandidate) (r : RunVersionResolution) : Prop where
  agent : candidate.agent.id = command.agentID
  version : r.agentVersionID = candidate.version.id
  digest : r.agentContentDigest = candidate.version.contentDigest
  run : r.runID = command.runID
  decided : ∃ authority invocation resolved,
    approvedAuthority deployment candidate.version.manifest.limits = .ok authority ∧
      resolver.decide command authority candidate "runs.create" now (resolver.newID (2 * index + 1)) =
        .ok invocation ∧
      invocation.decision.allow = true ∧
      parseID invocation.decision.decisionID = some r.invocationDecisionID ∧
      resolveConstraints authority (command.requestedConstraints.getD [])
        invocation.decision.resolvedConstraints = .ok resolved ∧
      r.resolvedConstraints = some (resolved.map fun x => (x.1, x.2.constraint))

theorem resolveCandidate_spec {deployment : PolicyMap} {count index : Nat}
    (h : resolver.resolveCandidate command deployment count now index candidate = .ok (some r)) :
    Takes resolver command deployment now index candidate r := by
  obtain ⟨_, heligible, h⟩ := bind_eq_ok.mp h
  have hagent : candidate.agent.id = command.agentID := by
    obtain ⟨hboundary, _⟩ := ite_error_eq_ok.mp heligible
    simp only [not_or, not_not] at hboundary
    exact hboundary.2.1
  obtain ⟨authority, hauthority, h⟩ := bind_eq_ok.mp h
  obtain ⟨selection, _, h⟩ := bind_eq_ok.mp h
  obtain ⟨invocation, hinvocation, h⟩ := bind_eq_ok.mp h
  by_cases hdenied : (!invocation.decision.allow) = true
  · rw [if_pos hdenied] at h
    cases (ite_error_eq_ok.mp h).2
  · rw [if_neg hdenied] at h
    obtain ⟨_, h⟩ := ite_error_eq_ok.mp h
    obtain ⟨resolved, hresolved, h⟩ := bind_eq_ok.mp h
    obtain ⟨r', hresolution, hsome⟩ := map_eq_ok.mp h
    cases hsome
    obtain ⟨hrun, hversion, hcontent, hid, hconstraints⟩ := resolution_spec hresolution
    exact ⟨hagent, hversion, hcontent, hrun, authority, invocation, resolved, mapError_eq_ok.mp hauthority,
      hinvocation, by simpa using hdenied, hid, mapError_eq_ok.mp hresolved, hconstraints⟩

theorem resolveCandidates_spec {deployment : PolicyMap} {count index : Nat}
    {candidates : List AgentVersionCandidate}
    (h : resolver.resolveCandidates command deployment count now index candidates = .ok r) :
    ∃ candidate ∈ candidates, ∃ n, Takes resolver command deployment now n candidate r := by
  induction candidates generalizing index with
  | nil => cases h
  | cons candidate rest ih =>
    obtain ⟨answer, hanswer, h⟩ := bind_eq_ok.mp h
    cases answer with
    | some r' =>
      cases h
      exact ⟨candidate, List.mem_cons_self, index, resolveCandidate_spec hanswer⟩
    | none =>
      obtain ⟨candidate', hmem, n, htakes⟩ := ih h
      exact ⟨candidate', List.mem_cons_of_mem _ hmem, n, htakes⟩

/-- A resolution is of a listed candidate that the resolver took. -/
theorem resolve_spec (h : resolver.resolve command = .ok r) :
    ∃ deployment candidates now, command.authorityConstraints = some deployment ∧
      resolver.candidates command.agentID command.requestedVersionDigest = .ok candidates ∧
      command.tenantID.isZero = false ∧
      ∃ candidate ∈ candidates, ∃ n, Takes resolver command deployment now n candidate r := by
  unfold resolve at h
  cases hauthority : command.authorityConstraints with
  | none =>
    rw [hauthority] at h
    cases h
  | some deployment =>
    rw [hauthority] at h
    obtain ⟨hset, h⟩ := ite_error_eq_ok.mp h
    obtain ⟨_, h⟩ := ite_error_eq_ok.mp h
    obtain ⟨candidates, hcandidates, h⟩ := bind_eq_ok.mp h
    obtain ⟨_, h⟩ := ite_error_eq_ok.mp h
    obtain ⟨now, _, h⟩ := bind_eq_ok.mp h
    simp only [not_or, Bool.not_eq_true] at hset
    exact ⟨deployment, candidates, now, rfl, hcandidates, hset.2.1, resolveCandidates_spec h⟩

end VersionResolver

end AgentGovernor
