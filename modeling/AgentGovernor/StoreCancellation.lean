import AgentGovernor.StoreProgress
import AgentGovernor.StoreSignals

/-! Cancellations that get through. The service puts a prefix before the caller's key and the repository stores
the cancellation among the signals of the run, where that key may be taken: callers of signals choose their
keys freely. -/

namespace AgentGovernor

open Ledger Handle Transaction Engine Sample

variable {s t : Store} {dep : Deployment}

/-! ### The service -/

structure CancelRun where
  tenantID : ID
  principalID : ID
  requestID : ID
  runID : ID
  idempotencyKey : String
  reasonCode : String
  expectedStateVersion : Option Int
  deriving DecidableEq

/-- What the service passes to the repository, at the time that its clock shows. -/
def CancelRun.cancellation (command : CancelRun) (now : Time) : RunCancellation :=
  { tenantID := command.tenantID
    runID := command.runID
    actorPrincipalID := command.principalID
    idempotencyKey := "cancel:" ++ command.idempotencyKey
    reasonCode := command.reasonCode
    expectedStateVersion := command.expectedStateVersion
    createdAt := now }

/-- `RunCancellationService.Cancel`, given the clock, the policy's decision and the new identifiers. -/
def cancel (dep : Deployment) (command : CancelRun) (clock : Time) (allow : Bool)
    (evidence : RunCancellationEvidence) : Op Unit := do
  Tx.require (command.tenantID.isZero = false ∧ command.principalID.isZero = false ∧
      command.requestID.isZero = false ∧ command.runID.isZero = false ∧ command.idempotencyKey ≠ "")
    (.domain .invalidArgument "run cancellation is invalid")
  let found ← Tx.snapshot fun v => v.runs.get command.runID
  let _ ← Tx.orThrow found (.domain .notFound "run not found")
  Tx.require (dep.tenantID = command.tenantID)
    (.domain .internal "run cancellation repository crossed its authority boundary")
  let now ← Tx.ofExcept ((requireUTC clock).mapError fun _ =>
    .domain .internal "run cancellation clock is invalid")
  Tx.require (allow = true) (.domain .notFound "run not found")
  Tx.ofExcept ((command.cancellation now).validate.mapError fun _ =>
    .domain .invalidArgument "run cancellation is invalid")
  cancelRun dep (command.cancellation now) evidence

/-! ### The transition -/

/-- The row of a run that has not ended is a lifecycle, unless its last update is the zero time. -/
theorem RunLifecycle.validate_active {state : RunState} {version updatedAt : Int}
    (hactive : state.terminal = false) (hpositive : 0 < version) :
    RunLifecycle.validate ⟨state, version, .ofStored updatedAt, none⟩ =
      if (Time.ofStored updatedAt).isZero then
        .error (.plain "run update time must be a non-zero UTC timestamp")
      else .ok () := by
  have hutc : requireUTC (.ofStored updatedAt) = .ok ⟨wrapInt64 (1000 * updatedAt), true⟩ := rfl
  unfold RunLifecycle.validate
  simp only [hutc, hactive, not_le.mpr hpositive, if_false, Option.isSome_none, ne_eq, not_true_eq_false]
  split_ifs <;> rfl

variable {cancellation : RunCancellation} {r : Run}

/-- From a state with a way to `CANCELLED`, at its version and not before its last update, a run can be
cancelled, unless its version is the largest one or its last update the zero time. -/
theorem cancelTransition_iff (hcheck : r.check = true)
    (hallowed : transitionAllowed r.state .cancelled = true)
    (hversion : cancellation.expectedStateVersion.all (· = r.stateVersion) = true)
    (hutc : cancellation.createdAt.utc = true) (hset : cancellation.createdAt.isZero = false)
    (hnow : cancellation.createdAt.representable = true)
    (htime : (Time.ofStored r.updatedAt).nanos ≤ cancellation.createdAt.nanos) :
    (∃ next, cancelTransition cancellation r = .ok next) ↔
      r.stateVersion ≠ maxInt64 ∧ (Time.ofStored r.updatedAt).isZero = false := by
  have hactive : r.state.terminal = false := by
    cases hterminal : r.state.terminal with
    | false => rfl
    | true =>
      rw [transitionAllowed_of_terminal hterminal] at hallowed
      cases hallowed
  have hexpected : cancellation.expectedStateVersion.getD r.stateVersion = r.stateVersion := by
    cases hcase : cancellation.expectedStateVersion with
    | none => rfl
    | some version => simpa [hcase] using hversion
  have hactor : actorAllowed r.state .cancelled .caller = true := by
    revert hallowed
    cases r.state <;> decide
  have hpositive : 0 < r.stateVersion := by
    simp only [Run.check, Bool.and_eq_true, decide_eq_true_eq] at hcheck
    exact hcheck.1.1.1.1.1
  have hinstant : requireUTC cancellation.createdAt = .ok cancellation.createdAt := by
    have hnanos : wrapInt64 cancellation.createdAt.nanos = cancellation.createdAt.nanos :=
      of_decide_eq_true hnow
    rw [requireUTC, if_pos hutc, hnanos, ← hutc]
  unfold cancelTransition RunLifecycle.transition
  simp only [RunLifecycle.validate_active hactive hpositive, hexpected, hinstant]
  cases hzero : (Time.ofStored r.updatedAt).isZero with
  | true => simp
  | false =>
    have hordered : ¬(cancellation.createdAt.isZero = true ∨
        cancellation.createdAt.nanos < (Time.ofStored r.updatedAt).nanos) := by
      simp only [hset, Bool.false_eq_true, false_or, not_lt]
      exact htime
    simp only [Bool.false_eq_true, if_false, if_neg hordered, not_le.mpr hpositive, hactive, hallowed,
      hactor, Bool.not_true, ne_eq, not_true_eq_false, and_true]
    by_cases hmax : r.stateVersion = maxInt64
    · simp [hmax]
    · simp [hmax]

/-! ### The writes -/

/-- The identifiers of a cancellation are new. -/
structure RunCancellationEvidence.Fresh (evidence : RunCancellationEvidence) (s : Store) : Prop where
  signal : s.signals.get evidence.signalID = none
  event : s.events.get evidence.eventID = none
  audit : s.audits.get evidence.auditID = none
  outbox : s.outbox.get evidence.outboxID = none

variable {next : RunLifecycle} {evidence : RunCancellationEvidence}

/-- Only the key of the cancellation can be taken. -/
theorem succeeds_persistCancellation
    (hr : s.runs.get cancellation.runID = some r)
    (hcheck : r.check = true) (hactive : r.state.terminal = false)
    (hnow : cancellation.createdAt.representable = true)
    (hnext : cancelTransition cancellation r = .ok next)
    (hactor : (s.principals.get cancellation.actorPrincipalID).isSome = true) (hfresh : evidence.Fresh s) :
    storeEngine.Succeeds (persistCancellation cancellation evidence r next
        (s.lastSequence cancellation.runID + 1)) s ↔
      ∀ x ∈ s.signals.rows, x.runID = cancellation.runID →
        x.idempotencyKey ≠ cancellation.idempotencyKey := by
  obtain ⟨_, htransition⟩ := cancelTransition_spec hnext
  unfold persistCancellation updateRun
  refine (succeeds_bind_of_run (run_snapshot _)).trans ((succeeds_bind_of_run (run_require hactor)).trans ?_)
  refine (succeeds_bind_of_run (run_update (H := runRows) hr
    (if_pos (Run.check_ended hcheck hactive hnow rfl htransition)))).trans ?_
  refine (succeeds_bind_iff (D := True) succeeds_insert fun _ u hinsert => ?_).trans
    ((and_iff_left trivial).trans ?_)
  · obtain ⟨_, hexec⟩ := exec_of_run [] hinsert
    obtain ⟨_, _, rfl⟩ := exec_insert.mp hexec
    refine iff_of_true ((succeeds_bind_of_run (run_insert (H := eventRows) ?_)).mpr
      ((succeeds_bind_of_run (run_insert (H := auditRows) ?_)).mpr
        (succeeds_insert.mpr ?_))) trivial
    rotate_left
    · exact clash_of_none hfresh.audit
    · exact clash_of_none hfresh.outbox
    intro e he
    have hid := clash_of_none hfresh.event e he
    have hsequence := sequence_free s cancellation.runID e he
    simp only [Bool.or_eq_false_iff]
    exact ⟨hid, by simpa using hsequence⟩
  · have hfree := Table.get_eq_none_iff.mp hfresh.signal
    constructor
    · intro hclash x hx hrun hkey
      have hother := hclash x hx
      simp [hrun, hkey] at hother
    · intro hkeys x hx
      have hid := hfree x hx
      have hkey := hkeys x hx
      simp only [Bool.or_eq_false_iff, decide_eq_false_iff_not, Bool.and_eq_false_imp, decide_eq_true_eq]
      exact ⟨hid, hkey⟩

theorem succeeds_cancelRun
    (htenant : cancellation.tenantID = dep.tenantID) (hvalid : cancellation.validate = .ok ())
    (hevidence : evidence.valid = true) (hr : s.runs.get cancellation.runID = some r)
    (hcheck : r.check = true) (hallowed : transitionAllowed r.state .cancelled = true)
    (hversion : cancellation.expectedStateVersion.all (· = r.stateVersion) = true)
    (hnow : cancellation.createdAt.representable = true)
    (htime : (Time.ofStored r.updatedAt).nanos ≤ cancellation.createdAt.nanos)
    (hactor : (s.principals.get cancellation.actorPrincipalID).isSome = true) (hfresh : evidence.Fresh s) :
    storeEngine.Succeeds (cancelRun dep cancellation evidence) s ↔
      (r.stateVersion ≠ maxInt64 ∧ (Time.ofStored r.updatedAt).isZero = false) ∧
        r.fencingToken ≠ maxInt64 ∧ ∀ x ∈ s.signals.rows, x.runID = cancellation.runID →
          x.idempotencyKey ≠ cancellation.idempotencyKey := by
  have hactive : r.state.terminal = false := by
    cases hterminal : r.state.terminal with
    | false => rfl
    | true =>
      rw [transitionAllowed_of_terminal hterminal] at hallowed
      cases hallowed
  have hinstant : cancellation.createdAt.utc = true ∧ cancellation.createdAt.isZero = false := by
    unfold RunCancellation.validate at hvalid
    simp only [ite_error_eq_ok] at hvalid
    simpa using hvalid.2.2.2.1
  have hbody : storeEngine.run (.ofExcept cancellation.validate : Op Unit) s = .ok ((), s) := by
    rw [hvalid]
    rfl
  unfold cancelRun
  refine (succeeds_bind_of_run (run_require htenant)).trans ((succeeds_bind_of_run hbody).trans
    ((succeeds_bind_of_run (run_require hevidence)).trans ((succeeds_bind_of_run
      (run_lock (H := runRows) hr rfl)).trans ?_)))
  rw [if_neg (by simp [hactive])]
  rw [← cancelTransition_iff hcheck hallowed hversion hinstant.1 hinstant.2 hnow htime]
  cases hnext : cancelTransition cancellation r with
  | error error =>
    refine iff_of_false ?_ ?_
    · rintro ⟨_, _, hrun⟩
      cases hrun
    · rintro ⟨⟨_, hok⟩, _⟩
      cases hok
  | ok next =>
    rw [and_iff_right ⟨next, rfl⟩]
    have hlifecycle : storeEngine.run (.ofExcept (.ok next) : Op RunLifecycle) s = .ok (next, s) := rfl
    refine (succeeds_bind_of_run hlifecycle).trans
      (succeeds_bind_iff succeeds_require fun _ u hrun => ?_)
    rw [run_require_eq hrun]
    exact (succeeds_bind_of_run (run_snapshot _)).trans
      (succeeds_persistCancellation hr hcheck hactive hnow hnext hactor hfresh)

/-! ### Every cancellation -/

/-- A well-formed command of a registered principal of the tenant, at the time that the service's clock
shows. -/
structure CancelRun.Sent (dep : Deployment) (s : Store) (command : CancelRun) (clock now : Time)
    (evidence : RunCancellationEvidence) : Prop where
  tenant : command.tenantID = dep.tenantID
  principal : (s.principals.get command.principalID).isSome = true
  request : command.requestID.isZero = false
  key : command.idempotencyKey ≠ ""
  clock : requireUTC clock = .ok now
  valid : (command.cancellation now).validate = .ok ()
  evidence : evidence.valid = true

/-- The run is in a state that can be cancelled, at the version that the command expects, and was not updated
after the time of the command. -/
structure Run.Cancellable (r : Run) (command : CancelRun) (now : Time) : Prop where
  state : transitionAllowed r.state .cancelled = true
  version : command.expectedStateVersion.all (· = r.stateVersion) = true
  time : (Time.ofStored r.updatedAt).nanos ≤ now.nanos

/-- Once the policy has allowed it, the service comes to the repository. -/
theorem run_cancel {command : CancelRun} {clock now : Time}
    (hsent : command.Sent dep s clock now evidence) (hr : s.runs.get command.runID = some r) :
    storeEngine.run (cancel dep command clock true evidence) s =
      storeEngine.run (cancelRun dep (command.cancellation now) evidence) s := by
  have hids : command.tenantID.isZero = false ∧ command.runID.isZero = false ∧
      command.principalID.isZero = false := by
    have hvalid := hsent.valid
    unfold RunCancellation.validate at hvalid
    split_ifs at hvalid with hidentity
    simp only [CancelRun.cancellation, not_or, Bool.not_eq_true] at hidentity
    exact ⟨hidentity.1, hidentity.2.1, hidentity.2.2.1⟩
  have hclock : storeEngine.run (.ofExcept ((requireUTC clock).mapError fun _ =>
      .domain .internal "run cancellation clock is invalid") : Op Time) s = .ok (now, s) := by
    rw [hsent.clock]
    rfl
  have hvalid : storeEngine.run (.ofExcept ((command.cancellation now).validate.mapError fun _ =>
      .domain .invalidArgument "run cancellation is invalid") : Op Unit) s = .ok ((), s) := by
    rw [hsent.valid]
    rfl
  unfold cancel
  refine (run_bind_of_run (run_require ⟨hids.1, hids.2.2, hsent.request, hids.2.1, hsent.key⟩)).trans ?_
  refine (run_bind_of_run (run_snapshot _)).trans ?_
  rw [hr]
  refine (run_bind_of_run (show storeEngine.run (.orThrow (some r) _ : Op Run) s = .ok (r, s) from rfl)).trans
    ?_
  exact (run_bind_of_run (run_require hsent.tenant.symm)).trans ((run_bind_of_run hclock).trans
    ((run_bind_of_run (run_require rfl)).trans (run_bind_of_run hvalid)))

/-- Whatever happened before, an authorized cancellation with new identifiers of a run that can be cancelled
commits exactly when no signal of the run has the key of the command behind the prefix, and neither the
counters of the run are used up nor its last update is the zero time. -/
theorem cancellations_commit_iff {governor : Governor} (h : Reachable dep governor) {command : CancelRun}
    {clock now : Time} {evidence : RunCancellationEvidence} {r : Run}
    (hsent : command.Sent dep governor.committed clock now evidence)
    (hfresh : evidence.Fresh governor.committed)
    (hr : governor.committed.runs.get command.runID = some r) (hcancellable : r.Cancellable command now) :
    (∃ t r', storeEngine.run (cancel dep command clock true evidence) governor.committed = .ok ((), t) ∧
        t.runs.get command.runID = some r' ∧ r'.state = .cancelled) ↔
      (∀ x ∈ governor.committed.signals.rows, x.runID = command.runID → x.signalType ≠ .cancel →
        x.idempotencyKey ≠ "cancel:" ++ command.idempotencyKey) ∧
      r.fencingToken ≠ maxInt64 ∧ r.stateVersion ≠ maxInt64 ∧
      (Time.ofStored r.updatedAt).isZero = false := by
  have hactive : r.state.terminal = false := by
    cases hterminal : r.state.terminal with
    | false => rfl
    | true =>
      have hstate := hcancellable.state
      rw [transitionAllowed_of_terminal hterminal] at hstate
      cases hstate
  -- A run that has not ended has no cancellation among its signals.
  have hkeys : (∀ x ∈ governor.committed.signals.rows, x.runID = command.runID → x.signalType ≠ .cancel →
      x.idempotencyKey ≠ "cancel:" ++ command.idempotencyKey) ↔
      ∀ x ∈ governor.committed.signals.rows, x.runID = command.runID →
        x.idempotencyKey ≠ "cancel:" ++ command.idempotencyKey := by
    refine forall_congr' fun x => forall_congr' fun hx => forall_congr' fun hrun => ?_
    refine ⟨fun hkey => hkey fun hcancel => ?_, fun hkey _ => hkey⟩
    obtain ⟨r₀, hr₀, hterminal⟩ := h.signalled.1.cancelled x hx hcancel
    rw [hrun] at hr₀
    cases hr.symm.trans hr₀
    rw [hterminal] at hactive
    cases hactive
  have hsucceeds := succeeds_cancelRun hsent.tenant hsent.valid hsent.evidence hr
    (h.journaled.check _ r hr) hcancellable.state hcancellable.version
    (representable_of_requireUTC hsent.clock) hcancellable.time hsent.principal hfresh
  rw [run_cancel hsent hr, hkeys]
  constructor
  · rintro ⟨t, _, hrun, _⟩
    obtain ⟨⟨hversion, hzero⟩, hfence, hfree⟩ := hsucceeds.mp ⟨_, t, hrun⟩
    exact ⟨hfree, hfence, hversion, hzero⟩
  · rintro ⟨hfree, hfence, hversion, hzero⟩
    obtain ⟨_, t, hrun⟩ := hsucceeds.mpr ⟨⟨hversion, hzero⟩, hfence, hfree⟩
    obtain ⟨_, hexec⟩ := exec_of_run [] hrun
    obtain ⟨run, hget, hid, ⟨hterminal, _⟩ | ⟨run', e, _, hadvances⟩⟩ := advances_cancelRun .done hexec
    · rw [hid] at hget
      cases hr.symm.trans hget
      rw [hterminal] at hactive
      cases hactive
    · refine ⟨t, run', hrun, ?_, ?_⟩
      · rw [hadvances.runs_eq, show command.runID = run.id from hid.symm, ← hadvances.move.id_eq,
          Table.get_put_self]
      · cases hadvances.move
        rfl

namespace Sample

def cancelCommand : CancelRun :=
  ⟨.ofNat 1, .ofNat 7, .ofNat 50, .ofNat 100, "operator-key-0001", "caller.request", some 2⟩

def cancelEvidence : RunCancellationEvidence :=
  ⟨.ofNat 900, .ofNat 901, .ofNat 902, .ofNat 903, .ofNat 50, .ofNat 5, ["allowed"]⟩

/-- A custom signal under this key, after the run was started. -/
def signalledUnder (key : String) : List Request :=
  provision ++ [admitRoot 100 (("max_tool_calls", .int 2) :: limits)] ++ start 100 ++
    [.appendRunSignal (submission 800 4 (.custom "checkpoint" []) key 120) (signalEvidence 800)]

/-- What stands in the way of the command. -/
def awaitsCancellation (s : Store) : Bool :=
  ((s.runs.get (.ofNat 100)).any fun r => r.state = .running && r.stateVersion = 2 &&
      r.fencingToken = 1 && r.updatedAt = 110000000) &&
    (s.principals.get (.ofNat 7)).isSome && (s.signals.get (.ofNat 900)).isNone && (s.events.get (.ofNat 901)).isNone &&
    (s.audits.get (.ofNat 902)).isNone && (s.outbox.get (.ofNat 903)).isNone

theorem signalledUnder_evaluated :
    (awaitsCancellation (after (signalledUnder "operator-key-0002")).committed = true ∧
      (after (signalledUnder "operator-key-0002")).committed.signals.rows.map (·.idempotencyKey) =
        ["operator-key-0002"]) ∧
    awaitsCancellation (after (signalledUnder "cancel:operator-key-0001")).committed = true ∧
    (match storeEngine.run (cancel deployment cancelCommand (instant 200) true cancelEvidence)
        (after (signalledUnder "cancel:operator-key-0001")).committed with
      | .ok _ => false
      | .error error => error = .database "cancel run with evidence") = true := by
  decide +kernel

theorem awaitsCancellation_spec (h : awaitsCancellation s = true) :
    cancelCommand.Sent deployment s (instant 200) (instant 200) cancelEvidence ∧ cancelEvidence.Fresh s ∧
      ∃ r, s.runs.get cancelCommand.runID = some r ∧
      r.Cancellable cancelCommand (instant 200) ∧ r.fencingToken ≠ maxInt64 ∧ r.stateVersion ≠ maxInt64 ∧
      (Time.ofStored r.updatedAt).isZero = false := by
  simp only [awaitsCancellation, Bool.and_eq_true, Option.any_eq_true, decide_eq_true_eq,
    Option.isNone_iff_eq_none] at h
  obtain ⟨⟨⟨⟨⟨⟨r, hr, ⟨⟨hstate, hversion⟩, htoken⟩, hupdated⟩, hactor⟩, hsignal⟩, hevent⟩, haudit⟩,
    houtbox⟩ := h
  refine ⟨⟨rfl, hactor, by decide, by decide, by decide, by decide, by decide⟩,
    ⟨hsignal, hevent, haudit, houtbox⟩, r, hr, ⟨?_, ?_, ?_⟩, ?_, ?_, ?_⟩
  · rw [hstate]
    rfl
  · rw [hversion]
    rfl
  · rw [hupdated]
    decide
  · rw [htoken]
    decide
  · rw [hversion]
    decide
  · rw [hupdated]
    decide

end Sample

theorem cancellations_commit_running : ∃ t r',
    storeEngine.run (cancel deployment cancelCommand (instant 200) true
      cancelEvidence) (after (signalledUnder "operator-key-0002")).committed =
        .ok ((), t) ∧ t.runs.get (.ofNat 100) = some r' ∧ r'.state = .cancelled := by
  obtain ⟨⟨hawaits, hkeys⟩, _⟩ := signalledUnder_evaluated
  obtain ⟨hsent, hfresh, r, hr, hcancellable, hcounters⟩ := awaitsCancellation_spec hawaits
  refine (cancellations_commit_iff (reachable _) hsent hfresh hr hcancellable).mpr
    ⟨fun x hx _ _ hkey => ?_, hcounters⟩
  have hmem := List.mem_map_of_mem (f := RunSignal.idempotencyKey) hx
  rw [hkeys, List.mem_singleton, hkey] at hmem
  exact absurd hmem (by decide)

/-- A signal was accepted under the caller's key with the prefix, and the run cannot be cancelled under that
key. -/
theorem cancellation_blocked :
    Reachable deployment (after (signalledUnder "cancel:operator-key-0001")) ∧
    cancelCommand.Sent deployment (after (signalledUnder "cancel:operator-key-0001")).committed
      (instant 200) (instant 200) cancelEvidence ∧
    cancelEvidence.Fresh
      (after (signalledUnder "cancel:operator-key-0001")).committed ∧
    (∃ r, (after (signalledUnder "cancel:operator-key-0001")).committed.runs.get
      cancelCommand.runID = some r ∧ r.Cancellable cancelCommand (instant 200)) ∧
    ∀ t, storeEngine.run (cancel deployment cancelCommand (instant 200) true
      cancelEvidence) (after (signalledUnder "cancel:operator-key-0001")).committed ≠
        .ok ((), t) := by
  obtain ⟨_, hawaits, hrefused⟩ := signalledUnder_evaluated
  obtain ⟨hsent, hfresh, r, hr, hcancellable, _⟩ := awaitsCancellation_spec hawaits
  refine ⟨reachable _, hsent, hfresh, ⟨r, hr, hcancellable⟩, fun t hrun => ?_⟩
  rw [hrun] at hrefused
  cases hrefused

end AgentGovernor
