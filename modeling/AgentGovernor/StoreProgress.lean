import AgentGovernor.StoreClosure
import AgentGovernor.StoreLifecycle
import AgentGovernor.TransactionAlone

/-! Progress of reconciliation. Alone on a reachable tenant, a call takes the first eligible reservation
and settles it exactly when its child has no more available than was reserved for it, and when nothing
else about that one row stands in the way. A reservation that cannot be settled stays the first one. -/

namespace AgentGovernor

open Ledger Table Handle Transaction Engine Sample List Option

variable {s t u : Store} {dep : Deployment}

/-! ### Closing a reservation alone -/

/-- A change that moves amounts between the terms of a balance meets its checks. -/
theorem Balance.change_of_moved (b : Balance) (available direct allocated updatedAt : Int)
    (violation : Failure) (havailable : 0 ≤ b.availableValue + available)
    (hdirect : 0 ≤ b.directConsumedValue + direct) (hallocated : 0 ≤ b.allocatedOpenValue + allocated)
    (hsum : available + direct + allocated = 0) :
    ∃ b', b.change available direct allocated updatedAt violation = .ok b' := by
  have hle := b.sum_le
  have hcheck : 0 ≤ b.availableValue + available ∧ 0 ≤ b.directConsumedValue + direct ∧
      0 ≤ b.allocatedOpenValue + allocated ∧ b.availableValue + available +
        (b.directConsumedValue + direct) + (b.allocatedOpenValue + allocated) ≤ maxInt64 :=
    ⟨havailable, hdirect, hallocated, by omega⟩
  unfold Balance.change Balance.check
  rw [dif_pos hcheck]
  exact ⟨_, rfl⟩

variable {changed : Failure} {l : LockedItem} {parent : ID} {settledAt : Int}

variable {b : Balance}

/-- The parent's credit goes through unless the version of its row is exhausted. -/
theorem succeeds_creditParent
    (hb : s.balances.get (parent, l.dimensionID) = some b)
    (havailable : 0 ≤ l.available ∧ l.available ≤ l.reserved)
    (hreserved : l.reserved ≤ b.allocatedOpenValue) :
    storeEngine.Succeeds (creditParent parent l settledAt changed) s ↔ b.stateVersion < maxInt64 := by
  have hsum := b.sum_le
  have hnonneg := b.available_nonneg
  have hdirect := b.directConsumed_nonneg
  rw [creditParent, succeeds_update (H := balanceRows) hb]
  constructor
  · rintro ⟨_, hchange⟩
    split_ifs at hchange with hguard
    exact hguard.2.2.2
  · intro hversion
    obtain ⟨b', hb'⟩ := b.change_of_moved l.available (l.reserved - l.available) (-l.reserved) settledAt
      changed (by omega) (by omega) (by omega) (by omega)
    refine ⟨((), b'), ?_⟩
    rw [if_pos ⟨by omega, by omega, hreserved, hversion⟩, hb']
    rfl

variable {error : Failure} {x : Settlement}

theorem succeeds_insertSettlementItem
    (hx : s.settlements.get x.id = some x) (hfree : l.dimensionID ∉ x.items.map (·.dimensionID))
    (havailable : 0 ≤ l.available ∧ l.available ≤ l.reserved) :
    storeEngine.Succeeds (insertSettlementItem x.id l error) s := by
  rw [insertSettlementItem, succeeds_update (H := settlementRows) hx]
  have hdup : ¬x.items.any (·.dimensionID = l.dimensionID) = true := by
    simpa [List.any_eq_true] using hfree
  rw [LockedItem.settle, dif_pos havailable]
  exact ⟨_, if_neg hdup⟩

variable {itemError : Failure}

/-- One round of a close. -/
theorem succeeds_settleItem
    (hx : s.settlements.get x.id = some x)
    (hfree : l.dimensionID ∉ x.items.map (·.dimensionID))
    (hb : s.balances.get (parent, l.dimensionID) = some b)
    (havailable : 0 ≤ l.available ∧ l.available ≤ l.reserved)
    (hreserved : l.reserved ≤ b.allocatedOpenValue) :
    storeEngine.Succeeds (settleItem x.id parent settledAt itemError changed l) s ↔
      b.stateVersion < maxInt64 := by
  have hinsert : storeEngine.Succeeds (insertSettlementItem x.id l itemError) s ↔ True :=
    iff_of_true (succeeds_insertSettlementItem hx hfree havailable) trivial
  refine (succeeds_bind_iff hinsert fun _ u hrun => ?_).trans (and_iff_right trivial)
  obtain ⟨_, hexec⟩ := exec_of_run [] hrun
  obtain ⟨_, _, _, _, _, rfl⟩ := exec_update.mp hexec
  exact succeeds_creditParent hb havailable hreserved

/-- The item returns no more than was reserved, and the parent has that much allocated. -/
structure Creditable (parent : ID) (balances : Table fun b : Balance => (b.envelopeID, b.dimensionID))
    (l : LockedItem) : Prop where
  available : 0 ≤ l.available ∧ l.available ≤ l.reserved
  balance : ∃ b, balances.get (parent, l.dimensionID) = some b ∧ l.reserved ≤ b.allocatedOpenValue

variable {locked : List LockedItem}

theorem succeeds_settleItems
    (hempty : x.items = [])
    (hx : s.settlements.get x.id = some x) (hnodup : (locked.map (·.dimensionID)).Nodup)
    (hcredit : ∀ l ∈ locked, Creditable parent s.balances l) :
    storeEngine.Succeeds (.forEach locked (settleItem x.id parent settledAt itemError changed)) s ↔
      ∀ l ∈ locked, ∃ b, s.balances.get (parent, l.dimensionID) = some b ∧ b.stateVersion < maxInt64 := by
  -- The remaining items are of dimensions that no round has settled, with the parent's balances as they were.
  refine succeeds_forEach (P := fun rest u =>
    (∃ items, u.settlements.get x.id = some { x with items := items } ∧
      ∀ l ∈ rest, l.dimensionID ∉ items.map (·.dimensionID)) ∧ (rest.map (·.dimensionID)).Nodup ∧
    (∀ l ∈ rest, Creditable parent s.balances l) ∧
    ∀ l ∈ rest, u.balances.get (parent, l.dimensionID) = s.balances.get (parent, l.dimensionID)) ?_
    ⟨⟨[], by rw [← hempty]; exact hx, by simp⟩, hnodup, hcredit, fun _ _ => rfl⟩
  rintro l rest u ⟨⟨items, hitems, hfree⟩, hdistinct, hcreditable, hsame⟩
  obtain ⟨havailable, b, hb, hreserved⟩ := hcreditable l mem_cons_self
  have hub := hsame l mem_cons_self
  have hrow : u.settlements.get ({ x with items := items } : Settlement).id =
    some { x with items := items } := hitems
  constructor
  · rw [succeeds_settleItem hrow (hfree l mem_cons_self) (hub.trans hb) havailable hreserved, hb]
    simp
  · intro _ v hrun
    obtain ⟨_, hexec⟩ := exec_of_run [] hrun
    obtain ⟨i, balances, hsettle, _, hposts, rfl⟩ := exec_settleItem hrow hexec
    obtain ⟨hdimension, _⟩ := LockedItem.settle_spec hsettle
    rw [map_cons, nodup_cons] at hdistinct
    have hother : ∀ l' ∈ rest, l'.dimensionID ≠ l.dimensionID := fun l' hl' heq =>
      hdistinct.1 (heq ▸ List.mem_map_of_mem hl')
    refine ⟨⟨items ++ [i], get_put_self _ _, fun l' hl' hmem => ?_⟩, hdistinct.2,
      fun l' hl' => hcreditable l' (mem_cons_of_mem l hl'), fun l' hl' => ?_⟩
    · rw [map_append, mem_append] at hmem
      rcases hmem with hmem | hmem
      · exact hfree l' (mem_cons_of_mem l hl') hmem
      · exact hother l' hl' ((mem_singleton.mp hmem).trans hdimension)
    · refine Eq.trans (hposts.untouched ?_).2 (hsame l' (mem_cons_of_mem l hl'))
      intro y hy heq
      cases mem_singleton.mp hy
      exact hother l' hl' ((Prod.mk.inj heq).2.symm.trans hdimension)

/-- Nothing stored clashes with the settlement. -/
def Settlement.FreeIn (x : Settlement) (s : Store) : Prop :=
  ∀ y ∈ s.settlements.rows, y.id ≠ x.id ∧ y.reservationID ≠ x.reservationID ∧
    ¬(y.actorPrincipalID = x.actorPrincipalID ∧ y.idempotencyKey = x.idempotencyKey)

theorem succeeds_insertSettlement (hcheck : x.check = true) :
    storeEngine.Succeeds (insertSettlement x error) s ↔ x.FreeIn s := by
  refine (succeeds_bind_of_run (run_require hcheck)).trans ?_
  rw [succeeds_insert (H := settlementRows)]
  simp only [Settlement.FreeIn, Bool.or_eq_false_iff, Bool.and_eq_false_iff, decide_eq_false_iff_not,
    not_and_or, and_assoc]
  rfl

variable {id : ID} {r : Reservation}

theorem succeeds_closeReservation {state : ReservationState}
    (hr : s.reservations.get id = some r) (hopen : r.state = .opened) :
    storeEngine.Succeeds (closeReservation id state settledAt error) s ↔
      ({ r with state := state, settledAt := some settledAt } : Reservation).check = true := by
  rw [closeReservation, succeeds_update (H := reservationRows) hr]
  constructor
  · rintro ⟨_, hchange⟩
    dsimp only at hchange
    split_ifs at hchange with hclosed
    exact hclosed.2
  · exact fun hclosed => ⟨_, if_pos ⟨hopen, hclosed⟩⟩

theorem succeeds_close {c : Closing}
    (hempty : c.settlement.items = []) (hcheck : c.settlement.check = true)
    (hr : s.reservations.get c.settlement.reservationID = some r) (hopen : r.state = .opened)
    (hnodup : (locked.map (·.dimensionID)).Nodup)
    (hcredit : ∀ l ∈ locked, Creditable c.parentEnvelopeID s.balances l) :
    storeEngine.Succeeds (close c locked) s ↔ c.settlement.FreeIn s ∧
      (∀ l ∈ locked, ∃ b, s.balances.get (c.parentEnvelopeID, l.dimensionID) = some b ∧
        b.stateVersion < maxInt64) ∧
      ({ r with state := c.state, settledAt := some c.settlement.settledAt } : Reservation).check = true := by
  refine succeeds_bind_iff (succeeds_insertSettlement hcheck) fun _ u hrun => ?_
  obtain ⟨_, hexec⟩ := exec_of_run [] hrun
  obtain ⟨_, rfl⟩ := exec_insertSettlement hexec
  refine succeeds_bind_iff
    (succeeds_settleItems hempty (get_put_self _ _) hnodup hcredit) fun _ v hloop => ?_
  obtain ⟨_, hexec⟩ := exec_of_run [] hloop
  obtain ⟨_, _, _, _, _, rfl⟩ := exec_settleItems hempty hexec
  exact succeeds_closeReservation hr hopen

/-! ### The items of a reservation alone -/

theorem run_lockItem {i : ReservationItem} :
    storeEngine.run (lockItem dep r.parentEnvelopeID r.childEnvelopeID i) s =
      .ok (joinedItem dep s r i, s) := by
  refine (run_bind_of_run (run_read (H := balanceRows) rfl)).trans ?_
  exact run_bind_of_run (run_read (H := balanceRows) rfl)

variable {empty invalid : Failure}

theorem succeeds_lockItems :
    storeEngine.Succeeds (lockItems dep r empty invalid) s ↔ joinedItems dep s r ≠ [] ∧
      ∀ l ∈ joinedItems dep s r, l.allocated = 0 ∧ l.available ≤ l.reserved := by
  refine (succeeds_bind_of_run (run_traverse fun i _ => run_lockItem)).trans ?_
  have hitems : (((r.items.insertionSort fun a b => ID.le a.dimensionID b.dimensionID).map
      (joinedItem dep s r)).filterMap id) = joinedItems dep s r := by
    rw [joinedItems, filterMap_map, Function.id_comp]
  dsimp only
  rw [hitems]
  refine succeeds_bind_iff succeeds_require fun _ u hrun => ?_
  cases run_require_eq hrun
  refine (succeeds_bind_iff (D := True) succeeds_require fun _ u hrun => ?_).trans (and_iff_left trivial)
  exact iff_of_true (succeeds_pure _) trivial

/-! ### The timeout alone -/

/-- The identifiers of a call are new. -/
structure ResourceReconciliationEvidence.Fresh (evidence : ResourceReconciliationEvidence) (s : Store) :
    Prop where
  settlement : s.settlements.get evidence.settlementID = none
  audit : s.audits.get evidence.auditID = none
  outbox : s.outbox.get evidence.outboxID = none
  event : s.events.get evidence.runEventID = none
  message : s.outbox.get evidence.runEventID = none
  distinct : evidence.outboxID ≠ evidence.runEventID

theorem clash_of_none {ρ κ : Type} [DecidableEq κ] {key : ρ → κ} {table : Table key} {k : κ}
    (h : table.get k = none) : ∀ r ∈ table.rows, decide (key r = k) = false := fun r hr =>
  decide_eq_false (get_eq_none_iff.mp h r hr)

/-- The next sequence number of a run is free. -/
theorem sequence_free (s : Store) (runID : ID) :
    ∀ e ∈ s.events.rows, ¬(e.runID = runID ∧ e.sequence = s.lastSequence runID + 1) := by
  rintro e he ⟨hrun, hsequence⟩
  have hmem : e ∈ s.eventsOf runID := mem_filter.mpr ⟨he, decide_eq_true hrun⟩
  have hle : e.sequence ≤ s.lastSequence runID := (foldl_max_spec (s.eventsOf runID) 0).2.1 e hmem
  omega

variable {run : Run}

variable {next : RunLifecycle} {now : Time}

theorem run_persistTimeout
    (hrun : s.runs.get run.id = some run) (hcheck : run.check = true)
    (hactive : run.state.terminal = false) (hnow : now.representable = true)
    (hnext : timeoutTransition run now = .ok next) :
    ∃ u, storeEngine.run (persistTimeout run next now.stored) s = .ok ((), u) ∧
      ∃ runs, u = { s with runs := runs } := by
  refine ⟨_, run_update (H := runRows) hrun
    (if_pos ⟨rfl, Run.check_ended hcheck hactive hnow rfl (timeoutTransition_spec hnext)⟩), _, rfl⟩

variable {request : ResourceReconciliation}

/-- A child that has not ended is timed out when its lifecycle allows it. -/
theorem succeeds_timeOutWhenExpired
    (hrun : s.runs.get run.id = some run) (hcheck : run.check = true) (hnow : now.representable = true)
    (hfresh : request.evidence.Fresh s) :
    storeEngine.Succeeds (timeOutWhenExpired request now run) s ↔
      (run.state.terminal = false → ∃ next, timeoutTransition run now = .ok next) := by
  unfold timeOutWhenExpired
  split_ifs with hterminal
  · exact iff_of_true (succeeds_pure ()) fun hactive => by rw [hterminal] at hactive; cases hactive
  · have hactive : run.state.terminal = false := by simpa using hterminal
    constructor
    · rintro ⟨_, _, htimeout⟩ _
      obtain ⟨_, hexec⟩ := exec_of_run [] htimeout
      obtain ⟨next, _, _, hnext, _⟩ := exec_bind.mp hexec
      exact ⟨next, (exec_ofExcept.mp hnext).1⟩
    · intro hnext
      obtain ⟨next, hnext⟩ := hnext hactive
      obtain ⟨u, hpersist, runs, rfl⟩ := run_persistTimeout hrun hcheck hactive hnow hnext
      have hlifecycle : storeEngine.run (.ofExcept (timeoutTransition run now) : Op RunLifecycle) s =
          .ok (next, s) := by
        rw [hnext]
        rfl
      refine (succeeds_bind_of_run hlifecycle).mpr ((succeeds_bind_of_run hpersist).mpr
        ((succeeds_bind_of_run (run_snapshot _)).mpr ((succeeds_bind_of_run
          (run_insert (H := eventRows) ?_)).mpr (succeeds_insert.mpr ?_))))
      · intro e he
        have hid := clash_of_none hfresh.event e he
        have hsequence := sequence_free s run.id e he
        simp only [Bool.or_eq_false_iff]
        refine ⟨hid, ?_⟩
        simpa [Store.lastSequence, Store.eventsOf] using hsequence
      · exact clash_of_none hfresh.message

/-- What a timeout leaves as it is. -/
theorem run_timeOut_frame {a : Unit}
    (hrun : storeEngine.run (timeOutWhenExpired request now run) s = .ok (a, u)) :
    u.settlements = s.settlements ∧ u.balances = s.balances ∧ u.reservations = s.reservations ∧
      u.audits = s.audits ∧ ∀ id, id ≠ request.evidence.runEventID → u.outbox.get id = s.outbox.get id := by
  obtain ⟨_, h⟩ := exec_of_run [] hrun
  unfold timeOutWhenExpired at h
  split_ifs at h with hterminal
  · obtain ⟨_, _, rfl⟩ := h
    exact ⟨rfl, rfl, rfl, rfl, fun _ _ => rfl⟩
  · obtain ⟨next, _, h₁⟩ := exec_bind_ofExcept.mp h
    obtain ⟨_, _, _, hpersist, h₂⟩ := exec_bind.mp h₁
    obtain ⟨_, _, _, _, _, rfl⟩ := exec_update.mp hpersist
    obtain ⟨_, _, h₃⟩ := exec_bind_snapshot.mp h₂
    obtain ⟨_, _, _, hevent, houtbox⟩ := exec_bind.mp h₃
    obtain ⟨_, _, rfl⟩ := exec_insert.mp hevent
    obtain ⟨_, _, rfl⟩ := exec_insert.mp houtbox
    exact ⟨rfl, rfl, rfl, rfl, fun id hid => get_put_of_ne _ hid⟩

/-! ### The first eligible reservation -/

/-- The states that a stored run can have. -/
def RunState.kept (state : RunState) : Bool :=
  state.orphaned || [.admitted, .running, .pausedForBudget].contains state

theorem RunMove.kept {request : Request} {response : Response} {r r' : Run}
    (h : RunMove dep request response r r') (hr : r.state.kept = true) : r'.state.kept = true := by
  cases h with
  | claim | heartbeat | signal => exact hr
  | operate _ operation => cases operation <;> rfl
  | cancel | timeout => rfl
  | exhaust _ _ _ disposition _ _ _ _ final _ _ hnext =>
    show final.state.kept = true
    rw [exhaustion_final hnext, ExhaustionDisposition.state]
    split_ifs <;> rfl
  | extend _ _ _ _ _ _ _ _ _ _ hstate =>
    rcases extendedState_spec hstate with ⟨_, next, _, hnext, rfl⟩ | ⟨_, rfl⟩
    · show next.state.kept = true
      rw [(RunLifecycle.transition_path hnext rfl).2.2]
      rfl
    · exact hr

theorem Reachable.kept {governor : Governor} (h : Reachable dep governor) :
    ∀ id r, governor.committed.runs.get id = some r → r.state.kept = true := by
  refine (h.history.invariant (P := fun s => ∀ id r, s.runs.get id = some r → r.state.kept = true)
    (fun _ _ hr => by cases hr) fun request response s t hcommit hs id r hr => ?_).1
  cases hold : s.runs.get id with
  | none =>
    obtain ⟨_, _, _, _, _, rfl⟩ := (commits_journals hcommit).run_new hold hr
    rfl
  | some r₀ =>
    obtain ⟨r', hr', hmove⟩ := (commits_journals hcommit).run_get hold
    cases hr.symm.trans hr'
    rcases hmove with rfl | hmove
    · exact hs id _ hold
    · exact hmove.kept (hs id r₀ hold)

/-- An open reservation whose child has ended, or has expired and not ended, and whose child envelope has
no open allocation. -/
structure Eligible (s : Store) (now : Int) (r : Reservation) (run : Run) : Prop where
  row : s.reservations.get r.id = some r
  opened : r.state = .opened
  run_get : s.runs.get r.childRunID = some run
  ended : run.state.terminal = true ∨ r.expiresAt.any (· ≤ now) = true
  unallocated : ∀ b ∈ s.balances.rows, b.envelopeID = r.childEnvelopeID → b.allocatedOpenValue = 0

variable {now : Int}

theorem reconcilable_iff (hkept : run.state.kept = true) :
    reconcilable now r run = true ↔
      r.state = .opened ∧ (run.state.terminal = true ∨ r.expiresAt.any (· ≤ now) = true) := by
  have hstate : run.state.orphaned = run.state.terminal ∧
      (run.state.terminal = false → [.admitted, .running, .pausedForBudget].contains run.state = true) := by
    revert hkept
    cases run.state <;> decide
  obtain ⟨horphaned, hactive⟩ := hstate
  simp only [reconcilable, Bool.and_eq_true, Bool.or_eq_true, decide_eq_true_eq, horphaned]
  refine and_congr_right fun _ => ?_
  cases hterminal : run.state.terminal with
  | true => simp
  | false => simp only [Bool.false_eq_true, false_or, hactive hterminal, and_true]

/-- The query's condition is eligibility. -/
theorem candidate_iff
    (hkept : ∀ id run, s.runs.get id = some run → run.state.kept = true) (hr : r ∈ s.reservations.rows) :
    (∃ order, reconciliationCandidate s now r = some (r, order)) ↔ ∃ run, Eligible s now r run := by
  unfold reconciliationCandidate
  constructor
  · rintro ⟨order, h⟩
    simp only [bind_eq_bind, bind_eq_some_iff] at h
    obtain ⟨run, hrun, h⟩ := h
    split_ifs at h with hcondition
    obtain ⟨hreconcilable, hallocated⟩ := hcondition
    obtain ⟨hopen, hended⟩ := (reconcilable_iff (hkept _ run hrun)).mp hreconcilable
    refine ⟨run, get_of_mem hr, hopen, hrun, hended, fun b hb hchild => ?_⟩
    by_contra hne
    exact hallocated (List.any_eq_true.mpr ⟨b, hb, by simp [hchild, hne]⟩)
  · rintro ⟨run, h⟩
    have hreconcilable := (reconcilable_iff (hkept _ run h.run_get)).mpr ⟨h.opened, h.ended⟩
    have hallocated : ¬(s.balances.rows.any fun b =>
        b.envelopeID = r.childEnvelopeID && b.allocatedOpenValue ≠ 0) = true := by
      rw [List.any_eq_true]
      rintro ⟨b, hb, hopen⟩
      simp only [Bool.and_eq_true, decide_eq_true_eq] at hopen
      exact hopen.2 (h.unallocated b hb hopen.1)
    refine ⟨reconciliationOrder r run, ?_⟩
    simp only [h.run_get, bind_eq_bind, bind_some]
    rw [if_pos ⟨hreconcilable, hallocated⟩]

theorem candidate_fst {x : Reservation × Nat × Int × Nat}
    (h : reconciliationCandidate s now r = some x) : x.1 = r := by
  simp only [reconciliationCandidate, bind_eq_bind, bind_eq_some_iff] at h
  obtain ⟨_, _, h⟩ := h
  split_ifs at h
  cases h
  rfl

/-- The states that the query lists leave nothing out: in every reachable tenant it finds exactly the open
reservations whose child has ended, or has expired, and has nothing allocated. -/
theorem reconciliation_query_complete {governor : Governor} (h : Reachable dep governor)
    (hr : r ∈ governor.committed.reservations.rows) :
    (reconciliationCandidate governor.committed now r).isSome = true ↔
      ∃ run, Eligible governor.committed now r run := by
  rw [isSome_iff_exists, ← candidate_iff h.kept hr]
  constructor
  · rintro ⟨x, hx⟩
    exact ⟨x.2, hx.trans (by rw [← candidate_fst hx])⟩
  · rintro ⟨order, horder⟩
    exact ⟨_, horder⟩

/-- When something is eligible, the query returns an eligible reservation. -/
theorem nextReconciliation_eligible
    (hkept : ∀ id run, s.runs.get id = some run → run.state.kept = true)
    (htenant : request.tenantID = dep.tenantID) (hskipped : request.skipped = [])
    (hprincipal : systemPrincipal s request.systemPrincipalID = true)
    (h : ∃ r run, Eligible s now r run) :
    ∃ r run, nextReconciliation dep request now s = some r ∧ Eligible s now r run := by
  obtain ⟨r₀, run₀, h₀⟩ := h
  cases hnext : nextReconciliation dep request now s with
  | none =>
    rw [nextReconciliation, if_pos ⟨htenant, hprincipal⟩, map_eq_none_iff, head?_eq_none_iff]
      at hnext
    have hempty := perm_nil.mp (hnext ▸ (perm_insertionSort _ _).symm)
    obtain ⟨order, horder⟩ := (candidate_iff hkept (mem_of_get h₀.row)).mpr ⟨run₀, h₀⟩
    have hseen : r₀ ∈ s.reservations.rows.filter fun r => !request.skipped.contains r.id :=
      mem_filter.mpr ⟨mem_of_get h₀.row, by rw [hskipped]; rfl⟩
    have hmem := mem_filterMap.mpr ⟨r₀, hseen, horder⟩
    rw [hempty] at hmem
    cases hmem
  | some r =>
    rw [nextReconciliation, if_pos ⟨htenant, hprincipal⟩, map_eq_some_iff] at hnext
    obtain ⟨x, hhead, rfl⟩ := hnext
    have hmem := (perm_insertionSort _ _).mem_iff.mp (mem_of_head? hhead)
    obtain ⟨r, hr, hcandidate⟩ := mem_filterMap.mp hmem
    have hfst := candidate_fst hcandidate
    have horder : ∃ order, reconciliationCandidate s now r = some (r, order) :=
      ⟨x.2, hcandidate.trans (by rw [← hfst])⟩
    obtain ⟨run, heligible⟩ := (candidate_iff hkept (mem_filter.mp hr).1).mp horder
    exact ⟨x.1, run, rfl, hfst ▸ heligible⟩

/-! ### Progress -/

/-- What a call needs of the reservation that it takes: the child has no more available than was reserved
for it; a child that has not ended can be timed out; the key of the settlement is free; the closed row
meets its checks; and no version of a parent's balance is exhausted. -/
structure Settleable (dep : Deployment) (request : ResourceReconciliation) (now : Time) (s : Store)
    (r : Reservation) (run : Run) : Prop where
  covered : ∀ i ∈ r.items, s.accounts.available r.childEnvelopeID i.dimensionID ≤ i.reservedValue
  ends : run.state.terminal = false → ∃ next, timeoutTransition run now = .ok next
  key : ∀ x ∈ s.settlements.rows, ¬(x.actorPrincipalID = request.systemPrincipalID ∧
    x.idempotencyKey = "reconcile:" ++ r.id.string)
  check : ({ r with
    state := (reconciliationClosing dep request now.stored r run).state
    settledAt := some now.stored } : Reservation).check = true
  versions : ∀ i ∈ r.items, ∃ b, s.balances.get (r.parentEnvelopeID, i.dimensionID) = some b ∧
    b.stateVersion < maxInt64

theorem run_claimReconciliation
    (hnext : nextReconciliation dep request now s = some r) (h : Eligible s now r run)
    (hkept : run.state.kept = true) :
    storeEngine.run (claimReconciliation dep request now) s = .ok ((r, run), s) := by
  refine (run_bind_of_run (run_snapshot _)).trans ?_
  rw [hnext]
  refine (run_bind_of_run (u := s) (a := r) rfl).trans ?_
  refine (run_bind_of_run (run_lock (H := reservationRows) h.row rfl)).trans ?_
  refine (run_bind_of_run (run_lock (H := runRows) h.run_get rfl)).trans ?_
  exact run_bind_of_run (run_require ((reconcilable_iff hkept).mpr ⟨h.opened, h.ended⟩))

/-- The items of an eligible reservation pass the check exactly when the child has no more than was
reserved. -/
theorem Eligible.items_valid (h : Eligible s now r run)
    (hdelegated : Delegated dep s) :
    (joinedItems dep s r ≠ [] ∧ ∀ l ∈ joinedItems dep s r, l.allocated = 0 ∧ l.available ≤ l.reserved) ↔
      ∀ i ∈ r.items, s.accounts.available r.childEnvelopeID i.dimensionID ≤ i.reservedValue := by
  have hallocated : ∀ i ∈ r.items, s.accounts.allocatedOpen r.childEnvelopeID i.dimensionID = 0 := by
    intro i hi
    obtain ⟨⟨b, hb⟩, _⟩ := hdelegated.accounts _ r h.row i hi
    have hkey : (b.envelopeID, b.dimensionID) = (r.childEnvelopeID, i.dimensionID) :=
      key_of_get (t := s.balances) hb
    exact (column_of_get hb).trans
      (h.unallocated b (mem_of_get hb) (Prod.mk.inj hkey).1)
  have hnonempty : joinedItems dep s r ≠ [] := by
    rw [hdelegated.joinedItems_eq h.row]
    intro hnil
    exact hdelegated.nonempty _ r h.row (perm_nil.mp
      (map_eq_nil_iff.mp hnil ▸ (perm_insertionSort _ _).symm))
  rw [and_iff_right hnonempty, hdelegated.joinedItems_eq h.row, List.forall_mem_map]
  constructor
  · intro hall i hi
    exact (hall i ((perm_insertionSort _ _).mem_iff.mpr hi)).2
  · intro hall i hi
    have hmem := (perm_insertionSort _ _).mem_iff.mp hi
    exact ⟨hallocated i hmem, hall i hmem⟩

/-- Reserved amounts are part of what the parent has allocated. -/
theorem Eligible.creditable (h : Eligible s now r run)
    (hdelegated : Delegated dep s) (hbalanced : Balanced s)
    (hl : l ∈ joinedItems dep s r) (hvalid : l.available ≤ l.reserved) :
    Creditable r.parentEnvelopeID s.balances l := by
  rw [hdelegated.joinedItems_eq h.row] at hl
  obtain ⟨i, hi, rfl⟩ := List.mem_map.mp hl
  have hmem := (perm_insertionSort _ _).mem_iff.mp hi
  obtain ⟨_, b, hb⟩ := hdelegated.accounts _ r h.row i hmem
  refine ⟨⟨s.accounts.available_nonneg _ _, hvalid⟩, b, hb, ?_⟩
  have hopen := hdelegated.reserved_le_openReserved (mem_of_get h.row) h.opened i.dimensionID
  rw [hdelegated.reserved_of_mem h.row hmem, ← hbalanced.allocated] at hopen
  exact hopen.trans_eq (column_of_get hb)

theorem joinedItems_nodup (hdelegated : Delegated dep s)
    (hr : s.reservations.get id = some r) :
    ((joinedItems dep s r).map (·.dimensionID)).Nodup := by
  rw [hdelegated.joinedItems_eq hr, List.map_map]
  exact (((perm_insertionSort _ r.items).map _).nodup_iff).mpr (hdelegated.nodup id r hr)

theorem joinedItems_versions (hdelegated : Delegated dep s)
    (hr : s.reservations.get id = some r) {P : ID → Prop} :
    (∀ l ∈ joinedItems dep s r, P l.dimensionID) ↔ ∀ i ∈ r.items, P i.dimensionID := by
  rw [hdelegated.joinedItems_eq hr, List.forall_mem_map]
  exact forall_congr' fun i => imp_congr_left (perm_insertionSort _ _).mem_iff

/-- An open reservation has no settlement, so with a new identifier only the key can be taken. -/
theorem reconciliation_free
    (hsettled : Settled s) (hr : s.reservations.get r.id = some r) (hopen : r.state = .opened)
    (hfresh : request.evidence.Fresh s) :
    (reconciliationClosing dep request now r run).settlement.FreeIn s ↔
      ∀ x ∈ s.settlements.rows, ¬(x.actorPrincipalID = request.systemPrincipalID ∧
        x.idempotencyKey = "reconcile:" ++ r.id.string) := by
  refine forall_congr' fun x => imp_congr_right fun hx => ⟨fun hfree => hfree.2.2, fun hkey => ?_⟩
  refine ⟨get_eq_none_iff.mp hfresh.settlement x hx, fun hsame => ?_, hkey⟩
  obtain ⟨r', hr', hclosed, _⟩ := hsettled.reservation _ x (get_of_mem hx)
  have hid : x.reservationID = r.id := hsame
  rw [hid, hr] at hr'
  cases hr'
  exact hclosed hopen

variable {auditError outboxError : Failure}

/-- The evidence of a call and the reading of its settlement. -/
theorem succeeds_reported {audit : AuditEvent} {message : OutboxMessage}
    {settledAt : Time} {α : Type} {answer : ResourceSettlementResult → α}
    (haudit : s.audits.get audit.id = none) (hmessage : s.outbox.get message.id = none)
    (hx : s.settlements.get id = some x) :
    storeEngine.Succeeds (do
      insertAudit audit auditError
      insertOutbox message outboxError
      let settlement ← loadSettlementResult dep id settledAt false
      return answer settlement) s := by
  refine (succeeds_bind_of_run (run_insert (H := auditRows) (clash_of_none haudit))).mpr ?_
  refine (succeeds_bind_of_run (run_insert (H := outboxRows)
    (s := storeEngine.apply (auditRows.write audit) s) (clash_of_none hmessage))).mpr ?_
  have hload : ∀ w : Store, w.settlements.get id = some x →
      storeEngine.run (loadSettlementResult dep id settledAt false) w =
        .ok (settlementResult dep x settledAt false, w) := fun w hw =>
    run_lock (H := settlementRows) hw rfl
  refine (succeeds_bind_of_run (hload _ ?_)).mpr (succeeds_pure _)
  exact hx

theorem reconciliationClosing_check
    (hkept : run.state.kept = true) :
    (reconciliationClosing dep request now r run).settlement.check = true := by
  simp only [reconciliationClosing, Settlement.check]
  revert hkept
  cases run.state <;> decide

/-- Once the child has ended, the call closes the claimed reservation when its items are covered, the key
is free, the parent's versions are not exhausted and the closed row meets its checks. -/
theorem Eligible.succeeds_closing {now : Time}
    (h : Eligible s now.stored r run)
    (hsound : Sound dep s) (hbalanced : Balanced s) (hkept : run.state.kept = true)
    (hfresh : request.evidence.Fresh s) (hsettlements : u.settlements = s.settlements)
    (hbalances : u.balances = s.balances) (hreservations : u.reservations = s.reservations)
    (haudits : u.audits = s.audits)
    (houtbox : u.outbox.get request.evidence.outboxID = s.outbox.get request.evidence.outboxID) :
    storeEngine.Succeeds (do
      let items ← lockItems dep r empty invalid
      close (reconciliationClosing dep request now.stored r run) items
      insertAudit (request.audit r.id now) auditError
      insertOutbox ⟨request.evidence.outboxID, r.id.string, "resource.reservation.reconciled", now.stored⟩
        outboxError
      let settlement ← loadSettlementResult dep request.evidence.settlementID now false
      return (⟨settlement, !run.state.terminal⟩ : ResourceReconciliationResult)) u ↔
      (∀ i ∈ r.items, s.accounts.available r.childEnvelopeID i.dimensionID ≤ i.reservedValue) ∧
        (reconciliationClosing dep request now.stored r run).settlement.FreeIn s ∧
        (∀ i ∈ r.items, ∃ b, s.balances.get (r.parentEnvelopeID, i.dimensionID) = some b ∧
          b.stateVersion < maxInt64) ∧
        ({ r with
          state := (reconciliationClosing dep request now.stored r run).state
          settledAt := some now.stored } : Reservation).check = true := by
  have hjoined : joinedItems dep u r = joinedItems dep s r := by
    unfold joinedItems joinedItem
    rw [hbalances]
  have hitems : storeEngine.Succeeds (lockItems dep r empty invalid) u ↔ ∀ i ∈ r.items,
      s.accounts.available r.childEnvelopeID i.dimensionID ≤ i.reservedValue := by
    rw [succeeds_lockItems, hjoined, h.items_valid hsound.delegated]
  refine succeeds_bind_iff hitems fun items v hlocked => ?_
  obtain ⟨_, hexec⟩ := exec_of_run [] hlocked
  obtain ⟨rfl, rfl, _, hvalid⟩ := exec_lockItems hexec
  rw [hjoined] at hvalid
  have hclose : storeEngine.Succeeds (close (reconciliationClosing dep request now.stored r run)
      (joinedItems dep v r)) v ↔ _ := succeeds_close (r := r) rfl (reconciliationClosing_check hkept)
    (hreservations ▸ h.row) h.opened (hjoined ▸ joinedItems_nodup hsound.delegated h.row)
    (fun l hl => hbalances ▸ h.creditable hsound.delegated hbalanced (hjoined ▸ hl)
      (hvalid l (hjoined ▸ hl)).2)
  refine ((succeeds_bind_iff (D := True) hclose fun _ w hclosed => ?_).trans (and_iff_left trivial)).trans ?_
  · obtain ⟨_, hexec⟩ := exec_of_run [] hclosed
    obtain ⟨items, balances, r₀, _, _, _, _, _, _, rfl⟩ := exec_close rfl hexec
    refine iff_of_true (succeeds_reported ?_ ?_ (get_put_self _ _)) trivial
    · show v.audits.get _ = none
      rw [haudits]
      exact hfresh.audit
    · exact houtbox.trans hfresh.outbox
  · rw [hjoined, hbalances]
    refine and_congr ?_ (and_congr_left' (joinedItems_versions hsound.delegated h.row (P := fun d => ∃ b,
      s.balances.get (r.parentEnvelopeID, d) = some b ∧ b.stateVersion < maxInt64)))
    unfold Settlement.FreeIn
    rw [hsettlements]

/-- What follows the claim gets through exactly when the claimed reservation can be settled. -/
theorem Eligible.succeeds_claimed {now : Time}
    (h : Eligible s now.stored r run) (hsound : Sound dep s) (hbalanced : Balanced s)
    (hkept : run.state.kept = true) (hcheck : run.check = true) (hnow : now.representable = true)
    (hfresh : request.evidence.Fresh s) :
    storeEngine.Succeeds (reconcileClaimed dep request now r run) s ↔
      Settleable dep request now s r run := by
  have hid : run.id = r.childRunID := key_of_get h.run_get
  have hrun : s.runs.get run.id = some run := hid ▸ h.run_get
  refine (succeeds_bind_iff (succeeds_timeOutWhenExpired hrun hcheck hnow hfresh) fun _ u htimeout =>
    let ⟨hsettlements, hbalances, hreservations, haudits, houtbox⟩ := run_timeOut_frame htimeout
    h.succeeds_closing hsound hbalanced hkept hfresh hsettlements hbalances hreservations haudits
      (houtbox _ hfresh.distinct)).trans ?_
  rw [reconciliation_free hsound.settled h.row h.opened hfresh]
  constructor
  · rintro ⟨hends, hcovered, hkey, hversions, hclosed⟩
    exact ⟨hcovered, hends, hkey, hclosed, hversions⟩
  · rintro ⟨hcovered, hends, hkey, hclosed, hversions⟩
    exact ⟨hends, hcovered, hkey, hversions, hclosed⟩

theorem Eligible.run_reconcile {now : Time}
    (h : Eligible s now.stored r run) (hvalid : validateReconciliation request = .ok now)
    (hnext : nextReconciliation dep request now.stored s = some r) (hkept : run.state.kept = true) :
    storeEngine.run (program dep (.reconcileNextReservation request)) s =
      storeEngine.run ((reconcileClaimed dep request now r run).bind fun result =>
        .pure (.reconciled result)) s := by
  have hnow : storeEngine.run (.ofExcept (validateReconciliation request) : Op Time) s = .ok (now, s) := by
    rw [hvalid]
    rfl
  have hclaimed : storeEngine.run (reconcileNextReservation dep request) s =
      storeEngine.run (reconcileClaimed dep request now r run) s := by
    rw [reconcileNextReservation_eq]
    exact (run_bind_of_run hnow).trans (run_bind_of_run (run_claimReconciliation hnext h hkept))
  rw [program, run_bind, run_bind, hclaimed]

/-- Alone on a reachable tenant with something eligible, under a system principal and with new
identifiers, a call settles an eligible reservation exactly when the first one in the order of the query
can be settled. -/
theorem reconciliation_progress_iff {governor : Governor} (h : Reachable dep governor)
    {request : ResourceReconciliation} {now : Time} (hvalid : validateReconciliation request = .ok now)
    (htenant : request.tenantID = dep.tenantID) (hskipped : request.skipped = [])
    (hprincipal : systemPrincipal governor.committed request.systemPrincipalID = true)
    (hfresh : request.evidence.Fresh governor.committed)
    (heligible : ∃ r run, Eligible governor.committed now.stored r run) :
    (∃ response t r run r', storeEngine.run (program dep (.reconcileNextReservation request))
        governor.committed = .ok (response, t) ∧ Eligible governor.committed now.stored r run ∧
      t.reservations.get r.id = some r' ∧ r'.state ≠ .opened) ↔
      ∃ r run, nextReconciliation dep request now.stored governor.committed = some r ∧
        governor.committed.runs.get r.childRunID = some run ∧
        Settleable dep request now governor.committed r run := by
  obtain ⟨hsound, hbalanced⟩ := h.balanced
  obtain ⟨r, run, hnext, hr⟩ := nextReconciliation_eligible h.kept htenant hskipped hprincipal heligible
  have hkept := h.kept _ run hr.run_get
  have hcheck := h.journaled.check _ run hr.run_get
  have hnow := representable_of_requireUTC (requireUTC_of_validateReconciliation hvalid)
  have hsettles := hr.succeeds_claimed hsound hbalanced hkept hcheck hnow hfresh
  have hrun := hr.run_reconcile hvalid hnext hkept
  constructor
  · rintro ⟨response, t, _, _, _, hok, _⟩
    rw [hrun] at hok
    obtain ⟨_, _, hclaimed, _⟩ := succeeds_bind.mp (succeeds_of_run hok)
    exact ⟨r, run, hnext, hr.run_get, hsettles.mp (succeeds_of_run hclaimed)⟩
  · rintro ⟨_, run', hnext', hrun', hsettleable⟩
    cases hnext.symm.trans hnext'
    cases hr.run_get.symm.trans hrun'
    obtain ⟨result, t, hok⟩ := hsettles.mpr hsettleable
    obtain ⟨_, hexec⟩ := exec_of_run [] hok
    obtain ⟨⟨_, r', hcloses⟩, _⟩ := @exec_reconcileClaimed _ _ _ _ dep _ _ _ _ _ hr.row hr.run_get hexec
    have hclosed : t.reservations.get r.id = some r' := by
      rw [hcloses.store_eq.reservations, show r.id = r'.id from hcloses.row_id.symm]
      exact get_put_self _ _
    refine ⟨.reconciled result, t, r, run, r', ?_, hr, hclosed, hcloses.closed⟩
    rw [hrun, run_bind_of_run hok]
    rfl

namespace Sample

/-- Two children of run 100 that have ended and wait for reconciliation. -/
def waiting (requests : List Request) : List Request :=
  provision ++ [admitRoot 100 (("max_tool_calls", .int 10) :: limits)] ++ start 100 ++
    [admitChild 200 100 limits 2] ++ start 200 ++ [admitChild 300 100 limits 3] ++ start 300 ++ requests ++
    [.mutateWorkerRun (lease 200) .complete (.ofNat 210) (instant 420),
      .mutateWorkerRun (lease 300) .complete (.ofNat 310) (instant 420)]

def reconciliation : ResourceReconciliation :=
  ⟨.ofNat 1, .ofNat 8, instant 500, ⟨.ofNat 800, .ofNat 5, .ofNat 801, .ofNat 802, .ofNat 803⟩, []⟩

theorem reconciliation_valid : validateReconciliation reconciliation = .ok (instant 500) := by
  decide +kernel

def eligibleAt (s : Store) (now : Int) (id : ID) : Bool :=
  (s.reservations.get id).any fun r => (reconciliationCandidate s now r).isSome

variable {governor : Governor}

theorem eligibleAt_spec (h : Reachable deployment governor)
    (heligible : eligibleAt governor.committed now id = true) :
    ∃ r run, r.id = id ∧ Eligible governor.committed now r run := by
  obtain ⟨r, hr, hcandidate⟩ := (Option.any_eq_true _ _).mp heligible
  obtain ⟨x, hx⟩ := isSome_iff_exists.mp hcandidate
  have hfst := candidate_fst hx
  have horder : ∃ order, reconciliationCandidate governor.committed now r = some (r, order) :=
    ⟨x.2, hx.trans (by rw [← hfst])⟩
  obtain ⟨run, hrun⟩ := (candidate_iff h.kept (mem_of_get hr)).mp horder
  exact ⟨r, run, key_of_get hr, hrun⟩

/-- The identifiers of the call are new, its principal is a system principal, both children are eligible
and no run was updated later. -/
def awaits (s : Store) : Bool :=
  (s.settlements.get (.ofNat 800)).isNone && (s.audits.get (.ofNat 801)).isNone &&
    (s.outbox.get (.ofNat 802)).isNone && (s.events.get (.ofNat 803)).isNone &&
    (s.outbox.get (.ofNat 803)).isNone && systemPrincipal s (.ofNat 8) &&
    eligibleAt s (instant 500).stored (.ofNat 206) && eligibleAt s (instant 500).stored (.ofNat 306) &&
    s.runs.rows.all fun run => decide (run.updatedAt ≤ (instant 500).stored)

structure Awaits (governor : Governor) : Prop where
  fresh : reconciliation.evidence.Fresh governor.committed
  principal : systemPrincipal governor.committed reconciliation.systemPrincipalID = true
  first : ∃ r run, r.id = .ofNat 206 ∧ Eligible governor.committed (instant 500).stored r run
  second : ∃ r run, r.id = .ofNat 306 ∧ Eligible governor.committed (instant 500).stored r run
  updated : ∀ run ∈ governor.committed.runs.rows, run.updatedAt ≤ (instant 500).stored

theorem awaits_spec (h : Reachable deployment governor)
    (hawaits : awaits governor.committed = true) : Awaits governor := by
  simp only [awaits, Bool.and_eq_true, isNone_iff_eq_none, List.all_eq_true, decide_eq_true_eq]
    at hawaits
  obtain ⟨⟨⟨⟨⟨⟨⟨⟨hsettlement, haudit⟩, houtbox⟩, hevent⟩, hmessage⟩, hprincipal⟩, hfirst⟩, hsecond⟩,
    hupdated⟩ := hawaits
  exact ⟨⟨hsettlement, haudit, houtbox, hevent, hmessage, by decide⟩, hprincipal, eligibleAt_spec h hfirst,
    eligibleAt_spec h hsecond, hupdated⟩

/-- Whether the next reservation meets the conditions of its settlement. -/
def nextSettleable (s : Store) : Bool :=
  (nextReconciliation deployment reconciliation (instant 500).stored s).any fun r =>
    (s.runs.get r.childRunID).any fun run => run.state.terminal &&
      (r.items.all fun i => s.accounts.available r.childEnvelopeID i.dimensionID ≤ i.reservedValue) &&
      s.settlements.rows.isEmpty &&
      ({ r with
        state := (reconciliationClosing deployment reconciliation (instant 500).stored r run).state
        settledAt := some (instant 500).stored } : Reservation).check &&
      r.items.all fun i => (s.balances.get (r.parentEnvelopeID, i.dimensionID)).any
        (·.stateVersion < maxInt64)

theorem nextSettleable_spec (h : nextSettleable s = true) :
    ∃ r run, nextReconciliation deployment reconciliation (instant 500).stored s = some r ∧
      s.runs.get r.childRunID = some run ∧
      Settleable deployment reconciliation (instant 500) s r run := by
  simp only [nextSettleable, Option.any_eq_true, Bool.and_eq_true, List.all_eq_true, decide_eq_true_eq,
    List.isEmpty_iff] at h
  obtain ⟨r, hr, run, hrun, ⟨⟨⟨hterminal, hcovered⟩, hempty⟩, hcheck⟩, hversions⟩ := h
  refine ⟨r, run, hr, hrun, hcovered, fun hactive => ?_, fun x hx => ?_, hcheck, hversions⟩
  · rw [hterminal] at hactive
    cases hactive
  · rw [hempty] at hx
    cases hx

theorem waiting_settles : awaits (after (waiting [])).committed = true ∧
    nextSettleable (after (waiting [])).committed = true := by
  decide +kernel

/-- The call fails with this message. -/
def refuses (s : Store) (message : String) : Bool :=
  match storeEngine.run (program deployment (.reconcileNextReservation reconciliation)) s with
  | .ok _ => false
  | .error error => error = conflict message

theorem refuses_spec {message : String} (h : refuses s message = true) :
    storeEngine.run (program deployment (.reconcileNextReservation reconciliation)) s =
      .error (conflict message) := by
  unfold refuses at h
  split at h
  · cases h
  · rename_i error herror
    rw [herror, of_decide_eq_true h]

/-- The first child was extended by four calls, which it did not use. -/
theorem extended_refuses : awaits (after (waiting [extend 700 200])).committed = true ∧
    refuses (after (waiting [extend 700 200])).committed "reconciliation child balance is unsafe" = true := by
  decide +kernel

end Sample

theorem reconciliation_progress_waiting : ∃ response t r run r',
    storeEngine.run (program deployment (.reconcileNextReservation reconciliation))
        (after (waiting [])).committed = .ok (response, t) ∧
      Eligible (after (waiting [])).committed (instant 500).stored r run ∧
      t.reservations.get r.id = some r' ∧ r'.state ≠ .opened := by
  have hreachable := reachable (waiting [])
  have hawaits := awaits_spec hreachable waiting_settles.1
  obtain ⟨r, run, _, heligible⟩ := hawaits.first
  exact (reconciliation_progress_iff hreachable reconciliation_valid rfl rfl hawaits.principal
    hawaits.fresh ⟨r, run, heligible⟩).mpr (nextSettleable_spec waiting_settles.2)

theorem reconciliation_query_waiting : ∃ r ∈ (after (waiting [])).committed.reservations.rows,
    ∃ run, Eligible (after (waiting [])).committed (instant 500).stored r run := by
  obtain ⟨r, hr, hsome⟩ := List.any_eq_true.mp (show (after (waiting [])).committed.reservations.rows.any
    (fun r => (reconciliationCandidate (after (waiting [])).committed (instant 500).stored r).isSome) = true by
      decide +kernel)
  exact ⟨r, hr, (reconciliation_query_complete (reachable _) hr).mp hsome⟩

/-- An ended child with more than was reserved for it is refused, and so is the call, although another
eligible reservation waits. -/
theorem reconciliation_blocked :
    Reachable deployment (after (waiting [extend 700 200])) ∧
      Awaits (after (waiting [extend 700 200])) ∧
      storeEngine.run (program deployment (.reconcileNextReservation reconciliation))
        (after (waiting [extend 700 200])).committed =
          .error (conflict "reconciliation child balance is unsafe") :=
  have hreachable := reachable (waiting [extend 700 200])
  ⟨hreachable, awaits_spec hreachable extended_refuses.1,
    refuses_spec extended_refuses.2⟩

end AgentGovernor
