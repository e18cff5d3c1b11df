import AgentGovernor.VersionResolution
import AgentGovernor.WorkerRevocations

/-! The evaluator that looks at the revocations in force before the policy is asked. It finds what a
revocation is about in the policy's input; what the input does not carry is never matched. -/

namespace AgentGovernor

open Ledger Transaction Engine RevocationSample

namespace Policy

def denied (input : Input) (reason : String) : Result where
  decision :=
    { contractVersion := contractVersion, decisionID := input.decisionID, allow := false
      reasonCodes := [reason], resolvedConstraints := some [], obligations := some [], decisionTTLSeconds := 0 }
  metadata := { policyDigest := "", policyVersion := 0, inputDigest := "", cacheStatus := "" }

/-- `strings.TrimSpace`. -/
def trimSpace (s : String) : List Char :=
  ((s.toList.dropWhile isSpace).reverse.dropWhile isSpace).reverse

def asString : PolicyValue → String
  | .text s => s
  | _ => ""

/-- Whether the attribute of the resource names the target. -/
def Input.names (input : Input) (key want : String) : Bool :=
  match input.attribute key with
  | some (.text x) => x = want
  | some (.texts xs) => xs.contains want
  | some (.list xs) => xs.any fun x => trimSpace want = trimSpace (asString x)
  | _ => false

def revocationMatches (v : Revocation) (input : Input) : Bool :=
  match v.scope with
  | .global => true
  | .tenantID => v.target = input.subject.tenantID
  | .principalID => v.target = input.subject.principalID
  | .runID => v.target = input.resource.id && input.resource.type = "run"
  | .agentID => input.agent.any fun agent => v.target = agent.id
  | .agentVersion => input.agent.any fun agent => v.target = agent.versionDigest
  | .policyVersion => input.names "policy_version" v.target
  | .skillDigest => input.names "skill_digest" v.target
  | .toolID => input.names "tool_id" v.target
  | .unknown _ => false

/-- The input with the epochs of the authority. -/
def Input.established (input : Input) (epochs : EpochVector) : Input :=
  { input with securityState := { input.securityState with
      globalEpoch := epochs.security
      tenantPolicyEpoch := epochs.tenantPolicy
      tenantRevocationEpoch := epochs.tenantRevocation
      agentRevocationEpoch := epochs.agentRevocation
      ageSeconds := 0
      hasGap := false
      authoritative := true } }

/-- A caller that is not authoritative has to present the epochs of the authority. -/
def Input.stale (input : Input) (epochs : EpochVector) : Bool :=
  !input.securityState.authoritative &&
    (input.securityState.globalEpoch ≠ epochs.security ||
      input.securityState.tenantPolicyEpoch ≠ epochs.tenantPolicy ||
      input.securityState.tenantRevocationEpoch ≠ epochs.tenantRevocation ||
      (input.agent.isSome && input.securityState.agentRevocationEpoch ≠ epochs.agentRevocation))

def revocationReason (scope : RevocationScope) : String :=
  if scope = .policyVersion ∨ scope = .tenantID ∨ scope = .global then "policy.revoked"
  else if scope = .principalID then "principal.revoked"
  else "agent.revoked"

/-- `RevocationEvaluator.Decide` over a store of revocations. -/
def revocationEvaluator (s : RevocationStore) (clock : Time) (next : Evaluator) : Evaluator := fun input =>
  match parseID input.subject.tenantID with
  | none => .error (.domain .unavailable "revocation authority input is invalid")
  | some tenant =>
    let agentID := (input.agent.bind fun agent => parseID agent.id).getD (.ofNat 0)
    match revocationEngine.run (authoritativeRevocations tenant agentID ⟨clock.nanos, true⟩) s with
    | .error _ => .error (.domain .unavailable "revocation authority is unavailable")
    | .ok ((epochs, active), _) =>
      if input.stale epochs then .ok (denied input "security_state.stale")
      else match active.find? (revocationMatches · (input.established epochs)) with
        | some v => .ok (denied input (revocationReason v.scope))
        | none => next (input.established epochs)

theorem active_of_authoritativeRevocations {s t : RevocationStore} {tenantID agentID : ID} {now : Time}
    {epochs : EpochVector} {active : List Revocation}
    (h : revocationEngine.run (authoritativeRevocations tenantID agentID now) s = .ok ((epochs, active), t)) :
    active = s.active tenantID now.stored := by
  by_cases hvalid : !tenantID.isZero ∧ !now.isZero
  · rw [run_authoritativeRevocations s agentID (by simpa using hvalid.1) (by simpa using hvalid.2)] at h
    cases h
    rfl
  · have hrefused : revocationEngine.run (revocationSnapshot tenantID now) s =
        .error (.plain "revocation snapshot query is invalid") := by
      unfold revocationSnapshot Tx.require
      rw [if_neg hvalid]
      rfl
    unfold authoritativeRevocations at h
    rw [bind_eq, run_bind, hrefused] at h
    cases h

/-- An answer with the digest of a policy came from the next evaluator, and no active revocation matched. -/
theorem revocationEvaluator_spec {s : RevocationStore} {clock : Time} {next : Evaluator} {input : Input}
    {result : Result} {tenantID : ID} (htenant : input.subject.tenantID = tenantID.string)
    (h : revocationEvaluator s clock next input = .ok result)
    (hdigest : validDigest result.metadata.policyDigest = true) :
    ∃ epochs, next (input.established epochs) = .ok result ∧
      ∀ v ∈ s.active tenantID clock.stored, revocationMatches v (input.established epochs) = false := by
  unfold revocationEvaluator at h
  cases hparse : parseID input.subject.tenantID with
  | none =>
    rw [hparse] at h
    cases h
  | some tenant =>
    have hsame : tenant = tenantID := ID.string_injective ((string_of_parseID hparse).trans htenant)
    subst hsame
    rw [hparse] at h
    dsimp only at h
    split at h
    · cases h
    · rename_i epochs active t hread
      cases active_of_authoritativeRevocations hread
      split_ifs at h with hstale
      · cases h
        cases hdigest
      · split at h
        · cases h
          cases hdigest
        · rename_i hfind
          exact ⟨epochs, h, fun v hv => by simpa using List.find?_eq_none.mp hfind v hv⟩

end Policy

/-! ### Enforcement -/

/-- What the revocation of a scope and a target is about, for a request that would resolve to the candidate
while `activePolicy` names the active policy version. -/
def targetsVersion (command : ResolveAgentVersion) (candidate : AgentVersionCandidate) (activePolicy : String)
    (scope : RevocationScope) (target : String) : Bool :=
  match scope with
  | .global => true
  | .tenantID => target = command.tenantID.string
  | .principalID => target = command.principalID.string
  | .agentID => target = command.agentID.string
  | .agentVersion => target = candidate.version.contentDigest
  | .skillDigest => candidate.version.manifest.skills.contains target
  | .toolID => candidate.version.manifest.tools.contains target
  | .policyVersion => target = activePolicy
  | .runID | .unknown _ => false

/-- The scopes whose targets the resolver does not put into the policy's input. -/
def RevocationScope.unasked : RevocationScope → Bool
  | .skillDigest | .toolID | .policyVersion => true
  | _ => false

/-- The input of the resolver shows the targets of all other scopes. -/
theorem matches_of_targets {command : ResolveAgentVersion} {candidate : AgentVersionCandidate}
    {authority : PolicyMap} {action activePolicy : String} {now : Time} {decisionID : ID} {epochs : EpochVector}
    {v : Revocation} (hagent : candidate.agent.id = command.agentID)
    (htargets : targetsVersion command candidate activePolicy v.scope v.target = true)
    (hasked : v.scope.unasked = false) :
    Policy.revocationMatches v ((VersionResolver.input command authority candidate action now
      decisionID).established epochs) = true := by
  unfold targetsVersion at htargets
  unfold Policy.revocationMatches
  cases hscope : v.scope with
  | skillDigest | toolID | policyVersion =>
    rw [hscope] at hasked
    cases hasked
  | runID | unknown =>
    rw [hscope] at htargets
    cases htargets
  | global => rfl
  | tenantID | principalID =>
    rw [hscope] at htargets
    exact htargets
  | agentID =>
    rw [hscope, ← hagent] at htargets
    exact htargets
  | agentVersion =>
    rw [hscope] at htargets
    exact htargets

/-- A resolution that the resolver returns over the revocations in force is of a version that none of them
targets exactly when none of a skill, tool or policy version does. -/
theorem resolved_version_unrevoked_iff (s : RevocationStore) (clock : Time) (next : Policy.Evaluator)
    {resolver : VersionResolver} (hevaluate : resolver.evaluate = Policy.revocationEvaluator s clock next)
    {command : ResolveAgentVersion} {r : RunVersionResolution} (h : resolver.resolve command = .ok r) :
    ∃ candidates, resolver.candidates command.agentID command.requestedVersionDigest = .ok candidates ∧
      ∃ candidate ∈ candidates, candidate.version.id = r.agentVersionID ∧
        candidate.version.contentDigest = r.agentContentDigest ∧ ∀ activePolicy,
        ((∀ v ∈ s.revocations.rows, s.inForceFor command.tenantID clock.stored v = true →
            targetsVersion command candidate activePolicy v.scope v.target = false) ↔
          ∀ v ∈ s.revocations.rows, s.inForceFor command.tenantID clock.stored v = true →
            v.scope.unasked = true →
            targetsVersion command candidate activePolicy v.scope v.target = false) := by
  obtain ⟨deployment, candidates, now, _, hcandidates, _, candidate, hmem, n, htakes⟩ :=
    VersionResolver.resolve_spec h
  obtain ⟨authority, invocation, resolved, _, hdecide, _, _, _⟩ := htakes.decided
  obtain ⟨hresult, hdigest⟩ := VersionResolver.decide_spec hdecide
  rw [hevaluate] at hresult
  have htenant : (VersionResolver.input command authority candidate "runs.create" now
      (resolver.newID (2 * n + 1))).subject.tenantID = command.tenantID.string := rfl
  obtain ⟨epochs, _, hclear⟩ := Policy.revocationEvaluator_spec htenant hresult hdigest
  refine ⟨candidates, hcandidates, candidate, hmem, htakes.version.symm, htakes.digest.symm,
    fun activePolicy => ⟨fun hall v hv hforce _ => hall v hv hforce, fun hunasked v hv hforce => ?_⟩⟩
  cases hscope : v.scope.unasked with
  | true => exact hunasked v hv hforce hscope
  | false =>
    -- A revocation of a scope that the input shows would have been matched.
    by_contra htargets
    have hactive : v.revocation ∈ s.active command.tenantID clock.stored :=
      (active_perm s command.tenantID clock.stored).mem_iff.mpr
        (List.mem_map_of_mem (List.mem_filter.mpr ⟨hv, hforce⟩))
    have htarget : targetsVersion command candidate activePolicy v.scope v.target = true := by
      simpa using htargets
    have hmissed := hclear _ hactive
    rw [matches_of_targets (v := v.revocation) htakes.agent htarget hscope] at hmissed
    cases hmissed

namespace RevocationSample

/-- A version of agent 9 that declares a skill and a tool. -/
def declaringCandidate : AgentVersionCandidate where
  agent := ⟨identifier 9, tenant, "planner", "", .ofNat 4, .ofNat 7, .low, .active, instant 1, instant 1⟩
  version := ⟨.ofNat 10, tenant, identifier 9, "sha256:" ++ String.ofList (List.replicate 64 'a'),
    ⟨["shell"], ["sha256:skill"], ⟨some 60, none, none, some 5, none, none, none, none⟩⟩⟩
  approval := ⟨.ofNat 11, tenant, identifier 9, .ofNat 10, .ofNat 7, .ofNat 12, .approved, "reviewed", "", instant 2⟩
  state := .decided .approved

/-- A policy that allows every request and decides no constraint. -/
def permissive : Policy.Evaluator := fun input =>
  .ok { decision :=
          { contractVersion := Policy.contractVersion, decisionID := input.decisionID, allow := true
            reasonCodes := ["agent.invoke.allowed"], resolvedConstraints := some [], obligations := some []
            decisionTTLSeconds := 0 }
        metadata := ⟨"sha256:" ++ String.ofList (List.replicate 64 'b'), 1, "", ""⟩ }

/-- The resolver over these revocations at second 50. -/
def resolver (s : RevocationStore) : VersionResolver where
  candidates _ _ := .ok [declaringCandidate]
  evaluate := Policy.revocationEvaluator s (instant 50) permissive
  clock := instant 50
  newID n := identifier (40 + n)

def createRun : ResolveAgentVersion where
  runID := .ofNat 20
  tenantID := tenant
  agentID := identifier 9
  principalID := .ofNat 4
  requestID := .ofNat 30
  roles := []
  requestedVersionDigest := ""
  requestedConstraints := none
  authorityConstraints := some []
  securityState := ⟨0, 0, 0, 0, 0, 0, false, true⟩

/-- Whether the resolver returns version 10 while this revocation is in force. -/
def resolvesRevoked (scope : RevocationScope) (target : String) : Bool :=
  ((resolver (revokedStore scope target)).resolve createRun).toOption.any (·.agentVersionID = .ofNat 10) &&
    (revokedStore scope target).revocations.rows.any fun v =>
      (revokedStore scope target).inForceFor tenant (instant 50).stored v && v.scope = scope && v.target = target

theorem resolvesRevoked_spec {scope : RevocationScope} {target : String}
    (h : resolvesRevoked scope target = true) :
    (∃ r, (resolver (revokedStore scope target)).resolve createRun = .ok r ∧ r.agentVersionID = .ofNat 10) ∧
      ∃ v ∈ (revokedStore scope target).revocations.rows,
        (revokedStore scope target).inForceFor tenant (instant 50).stored v = true ∧ v.scope = scope ∧
          v.target = target := by
  simp only [resolvesRevoked, Bool.and_eq_true, Option.any_eq_true, List.any_eq_true, decide_eq_true_eq] at h
  obtain ⟨⟨r, hr, hversion⟩, v, hv, ⟨hforce, hscope⟩, htarget⟩ := h
  refine ⟨⟨r, ?_, hversion⟩, v, hv, hforce, hscope, htarget⟩
  cases hresolve : (resolver (revokedStore scope target)).resolve createRun with
  | error => rw [hresolve] at hr; cases hr
  | ok => rw [hresolve] at hr; cases hr; rfl

/-- The resolver returns the version although a revocation in force targets it. -/
def Overlooked (scope : RevocationScope) (target : String) : Prop :=
  (∃ r, (resolver (revokedStore scope target)).resolve createRun = .ok r ∧
      r.agentVersionID = declaringCandidate.version.id) ∧
    ∃ v ∈ (revokedStore scope target).revocations.rows,
      (revokedStore scope target).inForceFor tenant (instant 50).stored v = true ∧
      targetsVersion createRun declaringCandidate "1" v.scope v.target = true

theorem overlooked_of_resolved {scope : RevocationScope} {target : String}
    (h : resolvesRevoked scope target = true)
    (htargets : targetsVersion createRun declaringCandidate "1" scope target = true) :
    Overlooked scope target := by
  obtain ⟨hr, v, hv, hforce, hscope, htarget⟩ := resolvesRevoked_spec h
  exact ⟨hr, v, hv, hforce, by rw [hscope, htarget]; exact htargets⟩

theorem unasked_resolved : resolvesRevoked .toolID "shell" = true ∧
    resolvesRevoked .skillDigest "sha256:skill" = true ∧ resolvesRevoked .policyVersion "1" = true := by
  decide +kernel

theorem other_resolved : resolvesRevoked .principalID (ID.ofNat 5).string = true ∧
    (revokedStore .principalID (ID.ofNat 5).string).revocations.rows.all (!·.scope.unasked) = true := by
  decide +kernel

end RevocationSample

theorem resolved_version_unrevoked_other : ∃ r candidate,
    (resolver (revokedStore .principalID (ID.ofNat 5).string)).resolve
        createRun = .ok r ∧ candidate.version.id = r.agentVersionID ∧
      ∀ v ∈ (revokedStore .principalID (ID.ofNat 5).string).revocations.rows,
        (revokedStore .principalID (ID.ofNat 5).string).inForceFor tenant
          (instant 50).stored v = true →
        targetsVersion createRun candidate "1" v.scope v.target = false := by
  obtain ⟨⟨r, hr, _⟩, _⟩ := resolvesRevoked_spec other_resolved.1
  obtain ⟨_, _, candidate, _, hversion, _, hiff⟩ := resolved_version_unrevoked_iff _ _ _ rfl hr
  refine ⟨r, candidate, hr, hversion, (hiff "1").mpr fun v hv _ hunasked => ?_⟩
  have hnone := List.all_eq_true.mp other_resolved.2 v hv
  rw [hunasked] at hnone
  cases hnone

/-- A revoked tool, a revoked skill and a revoked policy version do not stop a version that declares them. -/
theorem revoked_capability_resolved :
    Overlooked .toolID "shell" ∧ Overlooked .skillDigest "sha256:skill" ∧
      Overlooked .policyVersion "1" := by
  obtain ⟨htool, hskill, hpolicy⟩ := unasked_resolved
  exact ⟨overlooked_of_resolved htool rfl, overlooked_of_resolved hskill rfl,
    overlooked_of_resolved hpolicy rfl⟩

end AgentGovernor
