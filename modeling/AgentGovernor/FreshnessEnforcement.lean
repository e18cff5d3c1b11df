import AgentGovernor.FreshnessTracker
import AgentGovernor.PolicyRevocation

/-! The evaluator that puts the security state of the process before every decision. The state has one epoch
for all agents of a tenant, the largest; the evaluator of revocations behind it compares the epoch of the
agent that the request is about. -/

namespace AgentGovernor

open Ledger Transaction Engine RevocationSample

namespace Policy

inductive ActionRisk where
  | lowRead | sensitiveRead | normalWrite | privilegedWrite
  deriving DecidableEq

/-- `strings.ToLower` of a character, where the result is an ASCII letter: two others have one. -/
def toLower (c : Char) : Char := if c = '\u0130' then 'i' else if c = '\u212a' then 'k' else c.toLower

def foldText (s : String) : String := String.ofList ((trimSpace s).map toLower)

def classifyAction (action agentRisk : String) : ActionRisk :=
  let action := foldText action
  if action = "agents.list" then .lowRead
  else if ["agents.describe", "runs.read", "runs.events.read", "role_mappings.read",
      "integrations.read"].contains action then .sensitiveRead
  else if ["runs.signal", "runs.cancel"].contains action then .normalWrite
  else if ["runs.create", "runs.claim", "runs.heartbeat", "runs.complete"].contains action &&
      ["low", "medium"].contains (foldText agentRisk) then .normalWrite
  else .privilegedWrite

end Policy

inductive FreshnessClass where
  | highRiskWrite | normalWrite | sensitiveRead | lowRiskRead
  deriving DecidableEq

def classifyFreshness (input : Policy.Input) : FreshnessClass :=
  match Policy.classifyAction input.action (input.agent.elim "" Policy.Agent.riskClass) with
  | .lowRead => .lowRiskRead
  | .sensitiveRead => .sensitiveRead
  | .normalWrite => .normalWrite
  | .privilegedWrite => .highRiskWrite

/-- The bounds, in nanoseconds, as the constructor of the evaluator accepts them. -/
structure RevocationFreshnessPolicy where
  normalWriteMaxAge : Int
  sensitiveReadMaxAge : Int
  lowRiskReadMaxAge : Int
  normalWrite : 0 < normalWriteMaxAge ∧ normalWriteMaxAge ≤ 30000000000 ∧ normalWriteMaxAge % 1000000000 = 0
  sensitiveRead :
    0 < sensitiveReadMaxAge ∧ sensitiveReadMaxAge ≤ 60000000000 ∧ sensitiveReadMaxAge % 1000000000 = 0
  lowRiskRead : 0 < lowRiskReadMaxAge ∧ lowRiskReadMaxAge % 1000000000 = 0

def RevocationFreshnessPolicy.maxAge (bounds : RevocationFreshnessPolicy) : FreshnessClass → Int
  | .normalWrite => bounds.normalWriteMaxAge
  | .sensitiveRead => bounds.sensitiveReadMaxAge
  | _ => bounds.lowRiskReadMaxAge

/-- `FreshnessEnforcingEvaluator.Decide` at a reading of the monotonic clock, with the tracker it leaves. -/
def RevocationFreshnessTracker.decide (t : RevocationFreshnessTracker) (bounds : RevocationFreshnessPolicy)
    (now : Int) (next : Policy.Evaluator) (input : Policy.Input) :
    Except Failure Policy.Result × RevocationFreshnessTracker :=
  match parseID input.subject.tenantID with
  | none => (.error (.domain .unavailable "revocation freshness input is invalid"), t)
  | some tenant =>
    let t := t.trackTenant tenant
    if classifyFreshness input = .highRiskWrite then
      match next { input with securityState := ⟨0, 0, 0, 0, 0, 0, false, true⟩ } with
      | .ok result =>
        if result.decision.allow && result.decision.decisionTTLSeconds ≠ 0 then
          (.error (.domain .unavailable "authoritative policy decision is not cache safe"), t)
        else (.ok result, t)
      | .error error => (.error error, t)
    else
      let state := t.snapshot tenant now
      let maxAge := bounds.maxAge (classifyFreshness input)
      if !state.hasAuthoritativeState || !state.monotonicClockHealthy || maxAge < state.age then
        (.ok (Policy.denied input "security_state.stale"), t)
      else
        let epochs := state.lastAppliedEpochs
        -- The age is rounded up to whole seconds.
        (next { input with securityState :=
          ⟨epochs.security, epochs.tenantPolicy, epochs.tenantRevocation, epochs.agentRevocation,
            (state.age + 1000000000 - 1) / 1000000000, maxAge / 1000000000, false, false⟩ }, t)

/-- What a row of `LoadRuntimeSecurityState` says about the revocations of its tenant. Its query selects what
the head of a snapshot does. -/
def RevocationStore.runtimeState (s : RevocationStore) (tenantID : ID) : Int × EpochVector :=
  s.snapshotHead tenantID

/-- The process records this state as a reconciliation. -/
def reconciliation (s : RevocationStore) (tenantID : ID) (wall : Time) (elapsed : Int) : FreshnessCall :=
  .recordReconciliation tenantID (s.runtimeState tenantID).1 (s.runtimeState tenantID).2 wall elapsed

/-! ### The tracker after a reconciliation -/

variable {t t' : RevocationFreshnessTracker} {s : RevocationStore} {tenantID : ID} {wall : Time} {elapsed : Int}
  {receipt : FreshnessReceipt}

theorem mergeEpochs_eq {current observed : EpochVector} (h : ¬epochRegresses observed current = true) :
    mergeEpochs current observed = observed := by
  simp only [epochRegresses, Bool.or_eq_true, decide_eq_true_eq, not_or, not_lt] at h
  obtain ⟨⟨⟨hsecurity, hpolicy⟩, hrevocation⟩, hagent⟩ := h
  simp [mergeEpochs, hsecurity, hpolicy, hrevocation, hagent]

theorem not_epochRegresses_zero {v : EpochVector} (h : validEpochVector v = true) :
    ¬epochRegresses v ⟨0, 0, 0, 0⟩ = true := by
  simpa [validEpochVector, epochRegresses, and_assoc] using h

/-- A reconciliation that is recorded is applied as it is: the epochs are those that were loaded. -/
theorem state_of_reconciliation (h : t.call (reconciliation s tenantID wall elapsed) = (.ok receipt, t')) :
    tenantID.isZero = false ∧ (t'.states.get tenantID).isSome = true ∧ (t'.state tenantID).hasObservation = true ∧
      (t'.state tenantID).gap = false ∧ (t'.state tenantID).observedElapsed = elapsed ∧
      (t'.state tenantID).lastAppliedSequence = (s.runtimeState tenantID).1 ∧
      (t'.state tenantID).lastAppliedEpochs = (s.runtimeState tenantID).2 ∧
      (t'.state tenantID).authoritativeSequence =
        max (t.state tenantID).authoritativeSequence (s.runtimeState tenantID).1 := by
  simp only [RevocationFreshnessTracker.call, reconciliation, RevocationFreshnessTracker.record] at h
  split at h
  · cases h
  rename_i hadmitted
  obtain ⟨htenant, _, hepochs⟩ := FreshnessObservation.admitted_spec hadmitted
  simp only [RevocationFreshnessTracker.observe, Bool.not_false, Bool.and_true, Bool.and_false,
    Bool.false_and, Bool.false_eq_true, if_false] at h
  split_ifs at h with _ _ hregresses
  · cases h
  · cases h
  · cases h
  cases h
  have hmerge : mergeEpochs (t.state tenantID).lastAppliedEpochs (s.runtimeState tenantID).2 =
      (s.runtimeState tenantID).2 := by
    apply mergeEpochs_eq
    cases hknown : (t.states.get tenantID).isSome with
    | true => simpa [hknown] using hregresses
    | false =>
      rw [RevocationFreshnessTracker.state_of_absent hknown]
      exact not_epochRegresses_zero hepochs
  refine ⟨htenant, ?_, ?_⟩
  · simp [RevocationFreshnessTracker.setState]
  · rw [RevocationFreshnessTracker.state_setState, if_pos rfl]
    exact ⟨rfl, rfl, rfl, rfl, hmerge, rfl⟩

variable {now : Int}

/-- While nothing is known of a later head, the snapshot shows what was loaded, and its age. -/
theorem snapshot_of_reconciliation (h : t.call (reconciliation s tenantID wall elapsed) = (.ok receipt, t'))
    (hnow : elapsed ≤ now) :
    (t'.snapshot tenantID now).hasAuthoritativeState =
        decide ((t.state tenantID).authoritativeSequence ≤ (s.runtimeState tenantID).1) ∧
      (t'.snapshot tenantID now).monotonicClockHealthy = true ∧
      (t'.snapshot tenantID now).lastAppliedEpochs = (s.runtimeState tenantID).2 ∧
      ((t.state tenantID).authoritativeSequence ≤ (s.runtimeState tenantID).1 →
        (t'.snapshot tenantID now).age = now - elapsed) := by
  obtain ⟨htenant, hknown, hobserved, hgap, helapsed, hsequence, hepochs, hhead⟩ := state_of_reconciliation h
  have hisNone : (t'.states.get tenantID).isNone = false := by simpa using hknown
  unfold RevocationFreshnessTracker.snapshot
  simp only [htenant, hisNone, hobserved, hgap, hsequence, hepochs, hhead, helapsed, Bool.false_eq_true, if_false,
    Bool.not_true, Bool.or_false, Bool.false_or, decide_eq_true_eq, not_lt.mpr hnow]
  by_cases hle : (t.state tenantID).authoritativeSequence ≤ (s.runtimeState tenantID).1
  · rw [if_neg (by omega)]
    simp [hle]
  · rw [if_pos (by omega)]
    simp [hle]

/-! ### The two evaluators -/

variable {clock : Time} {next : Policy.Evaluator} {input : Policy.Input}

/-- The result of an evaluation is not that the security state is stale. -/
def Policy.NotStale (result : Except Failure Policy.Result) : Prop :=
  ∀ r, result = .ok r → "security_state.stale" ∉ r.decision.reasonCodes

/-- A policy finds no fault with a state that the authority has established. -/
def Policy.Evaluator.Trusts (next : Policy.Evaluator) : Prop :=
  ∀ input : Policy.Input, input.securityState.authoritative = true → input.securityState.hasGap = false →
    Policy.NotStale (next input)

/-- The agent that the authority is asked about. -/
def Policy.Input.agentID (input : Policy.Input) : ID :=
  (input.agent.bind fun agent => parseID agent.id).getD (.ofNat 0)

theorem Policy.denied_notStale {reason : String} (h : reason ≠ "security_state.stale") :
    Policy.NotStale (.ok (Policy.denied input reason)) := by
  intro r hr
  cases hr
  simpa [Policy.denied] using h.symm

theorem revocationEvaluator_notStale_iff (hnext : next.Trusts) (hzero : tenantID.isZero = false)
    (htenant : parseID input.subject.tenantID = some tenantID) (hclock : clock.isZero = false) :
    Policy.NotStale (Policy.revocationEvaluator s clock next input) ↔
      input.stale (s.authorityEpochs tenantID input.agentID) = false := by
  unfold Policy.revocationEvaluator
  rw [htenant]
  dsimp only
  rw [run_authoritativeRevocations s _ hzero]
  swap
  · exact hclock
  dsimp only
  rw [← Policy.Input.agentID]
  cases hstale : input.stale (s.authorityEpochs tenantID input.agentID) with
  | true =>
    simp only [if_true, Bool.true_eq_false, iff_false]
    intro h
    exact h _ rfl (by simp [Policy.denied])
  | false =>
    simp only [Bool.false_eq_true, if_false, iff_true]
    split
    · apply Policy.denied_notStale
      unfold Policy.revocationReason
      split_ifs <;> decide
    · exact hnext _ rfl rfl

/-- The epoch of the agent that the request names, if it names one, is the largest of its tenant. -/
def RevocationStore.Leads (s : RevocationStore) (tenantID : ID) (input : Policy.Input) : Prop :=
  ∀ agent, input.agent = some agent → ∀ id, parseID agent.id = some id → id.isZero = false →
    (s.runtimeState tenantID).2.agentRevocation =
      (s.agentEpochs.get (tenantID, id)).elim 0 AgentEpoch.revocationEpoch

/-- A process that has reconciled takes itself for stale unless the agent's epoch is the tenant's largest:
it presents the latter, and the authority compares the former. -/
theorem reconciled_not_stale_iff (bounds : RevocationFreshnessPolicy) (hnext : next.Trusts)
    (hreconciled : t.call (reconciliation s tenantID wall elapsed) = (.ok receipt, t'))
    (htenant : parseID input.subject.tenantID = some tenantID)
    (hclass : classifyFreshness input ≠ .highRiskWrite) (hclock : clock.isZero = false)
    (hage : elapsed ≤ now ∧ now - elapsed ≤ bounds.maxAge (classifyFreshness input)) :
    Policy.NotStale (t'.decide bounds now (Policy.revocationEvaluator s clock next) input).1 ↔
      (t.state tenantID).authoritativeSequence ≤ (s.runtimeState tenantID).1 ∧ s.Leads tenantID input := by
  obtain ⟨hzero, hknown, _⟩ := state_of_reconciliation hreconciled
  obtain ⟨hauthoritative, hhealthy, hepochs, hcurrent⟩ := snapshot_of_reconciliation hreconciled hage.1
  have htracked : t'.trackTenant tenantID = t' := by simp [RevocationFreshnessTracker.trackTenant, hknown]
  unfold RevocationFreshnessTracker.decide
  rw [htenant]
  dsimp only
  rw [htracked, if_neg hclass, hauthoritative, hhealthy, hepochs]
  by_cases hhead : (t.state tenantID).authoritativeSequence ≤ (s.runtimeState tenantID).1
  · rw [if_neg (by simpa [hhead, hcurrent hhead] using hage.2), and_iff_right hhead]
    refine Iff.trans (revocationEvaluator_notStale_iff hnext hzero ?_ hclock) ?_
    · exact htenant
    unfold RevocationStore.Leads Policy.Input.stale Policy.Input.agentID RevocationStore.authorityEpochs
      RevocationStore.runtimeState
    have hnobody : (ID.ofNat 0).isZero = true := rfl
    cases input.agent with
    | none => simp [hnobody]
    | some agent =>
      cases hid : parseID agent.id with
      | none => simp [hid, hnobody]
      | some id =>
        cases hidZero : id.isZero with
        | true => simp [hid, hidZero]
        | false => simp [hid, hidZero]
  · rw [if_pos (by simp [hhead])]
    refine iff_of_false (fun h => ?_) fun h => hhead h.1
    exact h _ rfl (by simp [Policy.denied])

namespace RevocationSample

theorem permissive_trusts : permissive.Trusts := by
  intro input _ _ r hr
  cases hr
  simp

def bounds : RevocationFreshnessPolicy :=
  ⟨30000000000, 60000000000, 60000000000, by decide, by decide, by decide⟩

/-- Of two agents one is revoked, so the other's epoch stays behind. -/
def twoAgents : List RevocationRequest :=
  [.registerAgent tenant (identifier 8), .registerAgent tenant (identifier 9),
    create 1 .agentID (identifier 9).string 10 1]

/-- The process reconciles at second 20. -/
def reconciled : Except FreshnessError FreshnessReceipt × RevocationFreshnessTracker :=
  RevocationFreshnessTracker.new.call
    (reconciliation (after twoAgents).1.committed tenant (instant 20) 20000000000)

def cancelRequest (agent : ID) : Policy.Input where
  contractVersion := Policy.contractVersion
  decisionID := (ID.ofNat 40).string
  requestTime := instant 21
  subject := ⟨(ID.ofNat 4).string, tenant.string, "user", ["agent-invoker"], [], ""⟩
  action := "runs.cancel"
  resource := ⟨"run", (ID.ofNat 20).string, tenant.string, none⟩
  agent := some ⟨agent.string, "", "low", "", true, false⟩
  requestedConstraints := none
  authorityConstraints := none
  securityState := ⟨0, 0, 0, 0, 0, 0, false, false⟩
  context := ⟨(ID.ofNat 30).string, ""⟩

/-- The request is decided one second later. -/
def cancels (agent : ID) : Except Failure Policy.Result :=
  (reconciled.2.decide bounds 21000000000
    (Policy.revocationEvaluator (after twoAgents).1.committed (instant 21) permissive) (cancelRequest agent)).1

theorem reconciled_applied : reconciled.1 = .ok (.applied tenant.string) := by
  decide +kernel

theorem revoked_leads : (after twoAgents).1.committed.Leads tenant (cancelRequest (identifier 9)) := by
  intro agent hagent id hid _
  cases hagent
  have hsame : id = identifier 9 := ID.string_injective (string_of_parseID hid)
  subst hsame
  decide +kernel

theorem cancels_stale : (cancels (identifier 8)).toOption.any
    (·.decision.reasonCodes.contains "security_state.stale") = true := by
  decide +kernel

end RevocationSample

theorem reconciled_not_stale_revoked : Policy.NotStale (cancels (identifier 9)) :=
  (reconciled_not_stale_iff bounds permissive_trusts
    (Prod.ext reconciled_applied rfl) (by decide +kernel) (by decide +kernel) (by decide)
    (by decide)).mpr ⟨by decide +kernel, revoked_leads⟩

/-- The process has just reconciled, nothing has changed since, and a request for the agent that was not
revoked is denied. -/
theorem reconciled_stale :
    RevocationReachable (after twoAgents) ∧
      reconciled.1 = .ok (.applied tenant.string) ∧
      ¬Policy.NotStale (cancels (identifier 8)) := by
  refine ⟨reachable _, reconciled_applied, fun h => ?_⟩
  have hstale := cancels_stale
  cases hresult : cancels (identifier 8) with
  | error _ =>
    rw [hresult] at hstale
    cases hstale
  | ok r =>
    rw [hresult] at hstale
    exact h r hresult (by simpa [Except.toOption] using hstale)

end AgentGovernor
