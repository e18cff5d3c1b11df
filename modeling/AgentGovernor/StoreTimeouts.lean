import AgentGovernor.StoreFencing

/-! How runs end under a worker's lease. A worker may ask for a timeout at any time: only reconciliation
compares the time with what is stored. The operation that ends a run clears the lease, so that the worker
is refused when it sends the operation again. -/

namespace AgentGovernor

open Ledger Transaction Engine Sample

variable {s t : Store} {dep : Deployment} {request : Request} {response : Response} {r r' : Run}

/-- A run that has ended has no lease. -/
theorem RunMove.unleased (h : RunMove dep request response r r')
    (hr : r.state.terminal = true → r.leaseID = none) :
    r'.state.terminal = true → r'.leaseID = none := by
  intro hterminal
  have hactive := h.active
  cases h with
  | claim | heartbeat => simp [hactive] at hterminal
  | operate _ operation => exact if_pos hterminal
  | signal => exact hr hterminal
  | extend _ _ _ _ _ _ state _ _ _ hstate =>
    rcases extendedState_spec hstate with ⟨_, next, _, hnext, rfl⟩ | ⟨_, rfl⟩
    · have hrunning : next.state = .running := (RunLifecycle.transition_path hnext rfl).2.2
      simp [hrunning, RunState.terminal] at hterminal
    · simp [hactive] at hterminal
  | cancel | exhaust | timeout => rfl

theorem Reachable.unleased {governor : Governor} (h : Reachable dep governor) {id : ID} :
    (∀ r, governor.committed.runs.get id = some r → r.state.terminal = true → r.leaseID = none) ∧
      ∀ c ∈ governor.log, ∀ r, c.before.runs.get id = some r → r.state.terminal = true →
        r.leaseID = none := by
  have hinvariant := h.history.invariant
    (P := fun s => ∀ r, s.runs.get id = some r → r.state.terminal = true → r.leaseID = none)
    (fun _ hr => by cases hr) fun request response s t hcommit hs r hr => by
      cases hold : s.runs.get id with
      | none =>
        obtain ⟨_, _, _, _, _, rfl⟩ := (commits_journals hcommit).run_new hold hr
        exact fun hterminal => nomatch hterminal
      | some r₀ =>
        obtain ⟨r', hr', hmove⟩ := (commits_journals hcommit).run_get hold
        cases hr.symm.trans hr'
        rcases hmove with rfl | hmove
        · exact hs _ hold
        · exact hmove.unleased (hs r₀ hold)
  exact ⟨hinvariant.1, fun c hc => (hinvariant.2 c hc).1⟩

/-! ### Timeouts -/

/-- What times a run out is a worker's operation or a reconciliation. -/
theorem RunMove.timesOut (h : RunMove dep request response r r') (hstate : r.state ≠ .timedOut)
    (hstate' : r'.state = .timedOut) :
    (∃ lease eventID now, request = .mutateWorkerRun lease .timeout eventID now ∧ r.id = lease.runID ∧
      r'.updatedAt = now.stored) ∨ ∃ reconciliation, request = .reconcileNextReservation reconciliation := by
  cases h with
  | claim | heartbeat | signal => exact absurd hstate' hstate
  | operate lease operation eventID now _ _ _ hlease =>
    cases operation with
    | timeout => exact Or.inl ⟨lease, eventID, now, rfl, hlease.run, rfl⟩
    | _ => cases hstate'
  | cancel => cases hstate'
  | exhaust _ _ _ disposition _ _ _ _ _ _ _ hnext =>
    have hfinal : disposition.state = .timedOut := (exhaustion_final hnext).symm.trans hstate'
    unfold ExhaustionDisposition.state at hfinal
    split_ifs at hfinal
  | extend _ _ _ _ _ _ _ _ _ _ hnext =>
    rcases extendedState_spec hnext with ⟨_, next, _, hrunning, rfl⟩ | ⟨_, rfl⟩
    · have hrun : next.state = .running := (RunLifecycle.transition_path hrunning rfl).2.2
      cases hrun.symm.trans hstate'
    · exact absurd hstate' hstate
  | timeout reconciliation => exact Or.inr ⟨reconciliation, rfl⟩

theorem RunState.terminal_of_orphaned {state : RunState} (h : state.orphaned = true) :
    state.terminal = true := by
  cases state with
  | completed | failed | cancelled | timedOut | failedBudget => rfl
  | _ => cases h

/-- A run that a reconciliation times out is the child of an open reservation that has expired. -/
theorem commits_reconciled {reconciliation : ResourceReconciliation} {id : ID}
    (h : storeEngine.Commits (program dep) (.reconcileNextReservation reconciliation) response s t)
    (hr : s.runs.get id = some r) (hr' : t.runs.get id = some r') (hstate : r.state ≠ .timedOut)
    (hstate' : r'.state = .timedOut) :
    ∃ reservation expiry, s.reservations.get reservation.id = some reservation ∧
      reservation.state = .opened ∧ reservation.childRunID = id ∧
      reservation.expiresAt = some expiry ∧ expiry ≤ r'.updatedAt := by
  obtain ⟨_, hexec⟩ := h
  obtain ⟨_, hbody, _⟩ := exec_respond hexec
  obtain ⟨now, run, _, reservation, _, hvalid, hcloses, hrun, _, hreconcilable, htimesOut⟩ :=
    exec_reconcileNextReservation hbody
  have hreservation : s.reservations.get reservation.id = some reservation := hcloses.reservation
  have hchild : run.id = reservation.childRunID := Table.key_of_get hrun
  rcases htimesOut with hkeep | ⟨hactive, hmoves⟩
  · rw [(Store.journal_eq.mp hkeep).1, hr] at hr'
    cases hr'
    exact absurd hstate' hstate
  · obtain ⟨run', e, hadvances⟩ := hmoves response
    rw [hadvances.runs_eq, Table.get_put, hadvances.move.id_eq] at hr'
    split_ifs at hr' with hid
    · cases hr'
      subst hid
      simp only [reconcilable, Bool.and_eq_true, Bool.or_eq_true, decide_eq_true_eq] at hreconcilable
      obtain ⟨hopened, horphaned | ⟨hexpired, _⟩⟩ := hreconcilable
      · rw [RunState.terminal_of_orphaned horphaned] at hactive
        cases hactive
      · obtain ⟨expiry, hexpiry, hle⟩ := (Option.any_eq_true _ _).mp hexpired
        refine ⟨reservation, expiry, hreservation, hopened, hchild.symm, hexpiry, ?_⟩
        cases hadvances.move with
        | timeout _ now' _ _ _ hvalid' =>
          cases hvalid.symm.trans hvalid'
          exact of_decide_eq_true hle
    · cases hr.symm.trans hr'
      exact absurd hstate' hstate

/-- A commit that times a run out does so at or after the deadline that is stored with the run, or, when
it reconciles a reservation of the run, at or after the expiry of that. -/
def TimeoutsEarned (c : Commit Store Response Request) : Prop :=
  ∀ id r r', c.before.runs.get id = some r → c.after.runs.get id = some r' → r.state ≠ .timedOut →
    r'.state = .timedOut → (∃ deadline, r.deadlineAt = some deadline ∧ deadline ≤ r'.updatedAt) ∨
      ∃ reconciliation reservation expiry, c.request = .reconcileNextReservation reconciliation ∧
        c.before.reservations.get reservation.id = some reservation ∧ reservation.state = .opened ∧
        reservation.childRunID = id ∧ reservation.expiresAt = some expiry ∧ expiry ≤ r'.updatedAt

/-- A worker asks for a timeout of a run with a deadline, and not before it. -/
def Request.due (s : Store) : Request → Bool
  | .mutateWorkerRun lease .timeout _ now =>
    (s.runs.get lease.runID).any fun r => r.deadlineAt.any (· ≤ now.stored)
  | _ => true

/-- A worker's timeout that commits times its run out. -/
theorem commits_timedOut {lease : RunLease} {eventID : ID} {now : Time}
    (h : storeEngine.Commits (program dep) (.mutateWorkerRun lease .timeout eventID now) response s t)
    (hunleased : ∀ r, s.runs.get lease.runID = some r → r.state.terminal = true → r.leaseID = none) :
    ∃ r r', s.runs.get lease.runID = some r ∧ t.runs.get lease.runID = some r' ∧
      r.state ≠ .timedOut ∧ r'.state = .timedOut ∧ r'.updatedAt = now.stored := by
  obtain ⟨_, hexec⟩ := h
  obtain ⟨_, hbody, _⟩ := exec_respond hexec
  obtain ⟨run, hrun, hlease, hmoved⟩ := advances_mutateWorkerRun response hbody
  rw [hlease.run] at hrun
  rcases hmoved with ⟨hterminal, _⟩ | ⟨run', e, _, hadvances⟩
  · have hnone := hunleased run hrun hterminal
    rw [hlease.leaseID] at hnone
    cases hnone
  · have hget : t.runs.get lease.runID = some run' := by
      rw [hadvances.runs_eq, ← hlease.run, ← hadvances.move.id_eq, Table.get_put_self]
    refine ⟨run, run', hrun, hget, ?_⟩
    cases hadvances.move with
    | operate _ _ _ _ _ _ _ _ hactive =>
      refine ⟨fun hstate => ?_, rfl, rfl⟩
      simp [hstate, RunState.terminal] at hactive

/-- Over every interleaving, the timeouts of a commit are earned exactly when the commit is no timeout by a
worker of a run without a deadline, or before the deadline that is stored with the run. -/
theorem timeouts_earned_iff {governor : Governor} (h : Reachable dep governor)
    {c : Commit Store Response Request} (hc : c ∈ governor.log) :
    TimeoutsEarned c ↔ c.request.due c.before = true := by
  have hcommit := h.commits hc
  constructor
  · intro hearned
    unfold Request.due
    split
    · rename_i lease eventID now hrequest
      rw [hrequest] at hcommit
      obtain ⟨r, r', hr, hr', hstate, hstate', hupdated⟩ :=
        commits_timedOut hcommit (h.unleased.2 c hc)
      rcases hearned _ r r' hr hr' hstate hstate' with hdeadline | ⟨_, _, _, hother, _⟩
      · rw [hupdated] at hdeadline
        simpa [hr, Option.any_eq_true] using hdeadline
      · cases hrequest.symm.trans hother
    · rfl
  · intro hdue id r r' hr hr' hstate hstate'
    obtain ⟨x, hx, hmove⟩ := (commits_journals hcommit).run_get hr
    cases hr'.symm.trans hx
    rcases hmove with rfl | hmove
    · exact absurd hstate' hstate
    · rcases hmove.timesOut hstate hstate' with
        ⟨lease, eventID, now, hrequest, hrun, hupdated⟩ | ⟨reconciliation, hrequest⟩
      · left
        rw [hrequest, Request.due, ← hrun, Table.key_of_get hr, hr] at hdue
        rw [hupdated]
        simpa [Option.any_eq_true] using hdue
      · right
        rw [hrequest] at hcommit
        obtain ⟨reservation, expiry, hreservation⟩ := commits_reconciled hcommit hr hr' hstate hstate'
        exact ⟨reconciliation, reservation, expiry, hrequest, hreservation⟩

namespace Sample

/-- A worker times its run out at the given second; the deadline is second 500. -/
def timedOut (seconds : Int) : List Request :=
  provision ++ [.admitRun (admission 100 (some (instant 500)))
    (resolution 100 (("max_tool_calls", .int 2) :: limits)) (evidence 100)] ++ start 100 ++
    [.mutateWorkerRun (lease 100) .timeout (.ofNat 130) (instant seconds)]

/-- The commit is a worker's timeout of the run at this time, in microseconds. -/
def timesOut (time : Int) (c : Commit Store Response Request) : Bool :=
  (match c.request with
    | .mutateWorkerRun _ .timeout _ _ => true
    | _ => false) &&
  ((c.before.runs.get (.ofNat 100)).any fun r => r.state = .running && r.deadlineAt = some 500000000) &&
  (c.after.runs.get (.ofNat 100)).any fun r => r.state = .timedOut && r.updatedAt = time

theorem timedOut_evaluated :
    (∃ c ∈ (after (timedOut 600)).log, timesOut 600000000 c = true ∧ c.request.due c.before = true) ∧
      ∃ c ∈ (after (timedOut 200)).log, timesOut 200000000 c = true := by
  decide +kernel

end Sample

theorem timeouts_earned_due : ∃ c ∈ (after (timedOut 600)).log,
    timesOut 600000000 c = true ∧ TimeoutsEarned c := by
  obtain ⟨c, hc, htimeout, hdue⟩ := timedOut_evaluated.1
  exact ⟨c, hc, htimeout, (timeouts_earned_iff (reachable _) hc).mpr hdue⟩

/-- Three hundred seconds before its deadline a run is timed out. -/
theorem timeout_unearned : Reachable deployment (after (timedOut 200)) ∧
    ∃ c ∈ (after (timedOut 200)).log, ¬TimeoutsEarned c := by
  obtain ⟨c, hc, htimeout⟩ := timedOut_evaluated.2
  simp only [timesOut, Bool.and_eq_true, Option.any_eq_true, decide_eq_true_eq] at htimeout
  obtain ⟨⟨hrequest, r, hr, hstate, hdeadline⟩, r', hr', hstate', hupdated⟩ := htimeout
  refine ⟨reachable _, c, hc, fun hearned => ?_⟩
  rcases hearned _ r r' hr hr' (by simp [hstate]) hstate' with hdue | ⟨_, _, _, hother, _⟩
  · obtain ⟨_, hsome, hle⟩ := hdue
    cases hdeadline.symm.trans hsome
    omega
  · simp [hother] at hrequest

/-! ### Retries -/

section Retries

variable {lease : RunLease} {operation : WorkerRunOperation} {eventID : ID} {now : Time}

/-- A worker whose lease is not the stored one is refused. -/
theorem concludes_mutateWorkerRun (hvalid : lease.validate = true) (hevent : eventID.isZero = false) :
    (mutateWorkerRun dep lease operation eventID now).Concludes
      (fun s => ∀ r, s.runs.get lease.runID = some r →
        ¬(r.leaseID = some lease.leaseID ∧ r.fencingToken = lease.fencingToken))
      (· = .error staleLease) := by
  refine Tx.Concludes.require (fun _ => ?_) fun hinvalid => absurd ⟨hvalid, hevent⟩ hinvalid
  refine Tx.Concludes.bind (R := fun outcome => outcome = .error staleLease) ?_
    (fun _ hok => nomatch hok) fun _ he => congrArg _ (Except.error.inj he)
  refine Tx.Concludes.require (fun _ => ?_) fun _ => rfl
  refine Tx.Concludes.select fun s hs => ?_
  dsimp only
  cases hr : (runRows.table s).get lease.runID with
  | none => rfl
  | some r =>
    have hother := hs r hr
    exact if_neg fun hholds => hother ⟨hholds.1, hholds.2.1⟩

/-- The operation that ended a run cleared the lease under which it was sent. -/
theorem commits_cleared {c : StoreCommit}
    (h : storeEngine.Commits (program dep) c.request c.response c.before c.after)
    (hrequest : c.request = .mutateWorkerRun lease operation eventID now)
    (hterminal : operation.target.1.terminal = true)
    (hunleased : ∀ r, c.before.runs.get lease.runID = some r → r.state.terminal = true → r.leaseID = none) :
    lease.validate = true ∧ ClearedBy lease c := by
  rw [hrequest] at h
  obtain ⟨_, hexec⟩ := h
  obtain ⟨_, hbody, _⟩ := exec_respond hexec
  obtain ⟨run, hrun, hlease, hmoved⟩ := advances_mutateWorkerRun c.response hbody
  obtain ⟨_, _, _, hvalid, _⟩ := exec_bind.mp hbody
  refine ⟨(exec_require.mp hvalid).1.1, ?_⟩
  rw [hlease.run] at hrun
  rcases hmoved with ⟨hended, _⟩ | ⟨run', e, _, hadvances⟩
  · have hnone := hunleased run hrun hended
    rw [hlease.leaseID] at hnone
    cases hnone
  · refine ⟨run, run', hrun, ?_, hlease.leaseID, hlease.token, ?_⟩
    · rw [hadvances.runs_eq, ← hlease.run, ← hadvances.move.id_eq, Table.get_put_self]
    · cases hadvances.move
      exact if_pos hterminal

/-- Once an operation that ends a run has committed, the same operation under the same lease and token is
refused, whenever it is sent again: alone, and in every session that starts later, whatever runs beside
it. -/
theorem terminal_retries_refused {governor : Governor} (h : Reachable dep governor)
    {c : Commit Store Response Request} (hc : c ∈ governor.log)
    (hrequest : c.request = .mutateWorkerRun lease operation eventID now)
    (hterminal : operation.target.1.terminal = true) {eventID' : ID} (hevent : eventID'.isZero = false)
    (now' : Time) :
    storeEngine.run (program dep (.mutateWorkerRun lease operation eventID' now')) governor.committed =
        .error staleLease ∧
      ∀ (governor' : Governor) (i : Nat) (session : Session Store Lock Write Failure Response Request),
        Later dep governor governor' → governor.sessions i = none → governor'.sessions i = some session →
        session.request = .mutateWorkerRun lease operation eventID' now' →
        session.Answers (· = .error staleLease) := by
  obtain ⟨hvalid, x, x', hx, hx', _, hxtoken, hnone⟩ :=
    commits_cleared (h.commits hc) hrequest hterminal (h.unleased.2 c hc)
  -- Under its token the run never gets the lease back.
  have hstale : ∀ governor', Later dep governor governor' → ∀ r,
      governor'.committed.runs.get lease.runID = some r →
      ¬(r.leaseID = some lease.leaseID ∧ r.fencingToken = lease.fencingToken) := by
    rintro governor' hlater r hr ⟨hlease, htoken⟩
    have hcommit := (h.later hlater).commits (Engine.Later.log_subset hlater hc)
    obtain ⟨y, hy, hfenced⟩ := commits_fenced hcommit _ x hx
    cases hx'.symm.trans hy
    obtain ⟨z, hz, hfenced'⟩ := (h.later hlater).history.since
      (R := fun s t => s.runs.Keeps Run.Fenced t.runs) (fun s => .refl Run.Fenced.refl s.runs)
      (fun _ _ _ hst htu => hst.trans Run.Fenced.trans htu)
      (fun c' hc' => commits_fenced ((h.later hlater).commits hc')) c
      (Engine.Later.log_subset hlater hc) _ x' hx'
    cases hr.symm.trans hz
    have hkept : r.fencingToken = x'.fencingToken := by
      have hle := hfenced.token
      have hle' := hfenced'.token
      omega
    rcases hfenced'.lease hkept with hback | hback <;> simp [hback, hnone] at hlease
  have hbody : (program dep (.mutateWorkerRun lease operation eventID' now')).Concludes
      (fun s => ∀ r, s.runs.get lease.runID = some r →
        ¬(r.leaseID = some lease.leaseID ∧ r.fencingToken = lease.fencingToken))
      (· = .error staleLease) :=
    (concludes_mutateWorkerRun hvalid hevent).bind (fun _ hok => nomatch hok)
      fun _ he => congrArg _ (Except.error.inj he)
  refine ⟨?_, fun governor' i session hlater hidle hsession hretry => ?_⟩
  · obtain ⟨_, rfl, hrun⟩ := hbody.run (E := storeEngine) (hstale governor Relation.ReflTransGen.refl)
    exact hrun
  · exact answers_of_later hidle hbody hlater (fun mid hmid _ => hstale mid hmid) hsession hretry

end Retries

namespace Sample

def ended : List Request :=
  provision ++ [admitRoot 100 (("max_tool_calls", .int 2) :: limits)] ++ start 100 ++ [complete 100]

/-- The completion once more, a hundred seconds later. -/
def completeAgain : Request := .mutateWorkerRun (lease 100) .complete (.ofNat 131) (instant 300)

theorem ended_evaluated :
    ((after ended).log.any fun c => match c.request with
      | .mutateWorkerRun presented .complete _ _ => presented = lease 100
      | _ => false) = true ∧
    ((after ended).committed.runs.get (.ofNat 100)).any (·.state = .completed) = true ∧
    (match storeEngine.run (program deployment completeAgain) (after ended).committed with
      | .ok _ => false
      | .error error => error = staleLease) = true := by
  decide +kernel

end Sample

theorem terminal_retries_refused_completed :
    storeEngine.run (program deployment completeAgain) (after ended).committed =
      .error staleLease := by
  obtain ⟨c, hc, hcomplete⟩ := List.any_eq_true.mp ended_evaluated.1
  split at hcomplete
  · rename_i lease eventID now hrequest
    cases of_decide_eq_true hcomplete
    exact (terminal_retries_refused (reachable _) hc hrequest rfl (by decide) _).1
  · cases hcomplete

/-- A worker that sends its completion again, seven hundred seconds before the lease expires, is not told
that the run has completed. -/
theorem terminal_retry_fails : Reachable deployment (after ended) ∧
    (∃ r, (after ended).committed.runs.get (.ofNat 100) = some r ∧
      r.state = .completed) ∧
    (Sample.lease 100).expiresAt = instant 1000 ∧
    ∀ response t, storeEngine.run (program deployment completeAgain)
      (after ended).committed ≠ .ok (response, t) := by
  obtain ⟨_, hrow, hrefused⟩ := ended_evaluated
  obtain ⟨r, hr, hstate⟩ := (Option.any_eq_true _ _).mp hrow
  refine ⟨reachable _, ⟨r, hr, of_decide_eq_true hstate⟩, rfl, fun response t hrun => ?_⟩
  rw [hrun] at hrefused
  cases hrefused

end AgentGovernor
