import AgentGovernor.CommitRun

/-! What settlement and reconciliation commit. -/

namespace AgentGovernor

open Ledger Table Handle Transaction Engine List

variable {held held' : List Lock} {s t : Store} {dep : Deployment}

/-! ### The items of a reservation -/

/-- An item of the reservation joined with the two balances. -/
def joinedItem (dep : Deployment) (s : Store) (r : Reservation) (i : ReservationItem) :
    Option LockedItem :=
  match dep.byID i.dimensionID, s.balances.get (r.childEnvelopeID, i.dimensionID),
      s.balances.get (r.parentEnvelopeID, i.dimensionID) with
  | some _, some c, some _ => some ⟨i.dimensionID, i.unit, i.scale, i.reservedValue,
      c.availableValue, c.allocatedOpenValue⟩
  | _, _, _ => none

def joinedItems (dep : Deployment) (s : Store) (r : Reservation) : List LockedItem :=
  (r.items.insertionSort fun a b => ID.le a.dimensionID b.dimensionID).filterMap (joinedItem dep s r)

variable {r : Reservation}

theorem exec_lockItem {i : ReservationItem} {x : Option LockedItem}
    (h : storeEngine.Exec (lockItem dep r.parentEnvelopeID r.childEnvelopeID i) held s x held' t) :
    t = s ∧ x = joinedItem dep s r i := by
  obtain ⟨c, _, _, hchild, h₁⟩ := exec_bind.mp h
  obtain ⟨hc, _, rfl⟩ := exec_read.mp hchild
  cases hc
  obtain ⟨p, _, _, hparent, hpure⟩ := exec_bind.mp h₁
  obtain ⟨hp, _, rfl⟩ := exec_read.mp hparent
  cases hp
  obtain ⟨rfl, _, rfl⟩ := hpure
  exact ⟨rfl, rfl⟩

theorem exec_lockItemRows {is : List ReservationItem} {xs : List (Option LockedItem)}
    (h : storeEngine.Exec (.traverse is (lockItem dep r.parentEnvelopeID r.childEnvelopeID)) held s xs
      held' t) : t = s ∧ xs = is.map (joinedItem dep s r) := by
  induction is generalizing held s xs with
  | nil =>
    obtain ⟨rfl, _, rfl⟩ := exec_traverse_nil.mp h
    exact ⟨rfl, rfl⟩
  | cons i is ih =>
    obtain ⟨x, _, _, rest, hfirst, hrest, rfl⟩ := exec_traverse_cons.mp h
    obtain ⟨rfl, rfl⟩ := exec_lockItem hfirst
    obtain ⟨rfl, rfl⟩ := ih hrest
    exact ⟨rfl, rfl⟩

theorem exec_lockItems {empty invalid : Failure} {items : List LockedItem}
    (h : storeEngine.Exec (lockItems dep r empty invalid) held s items held' t) :
    t = s ∧ items = joinedItems dep s r ∧ items ≠ [] ∧
      ∀ x ∈ items, x.allocated = 0 ∧ x.available ≤ x.reserved := by
  obtain ⟨rows, _, _, hrows, h₁⟩ := exec_bind.mp h
  obtain ⟨rfl, rfl⟩ := exec_lockItemRows hrows
  obtain ⟨hne, h₂⟩ := exec_bind_require.mp h₁
  obtain ⟨hall, hpure⟩ := exec_bind_require.mp h₂
  obtain ⟨rfl, _, rfl⟩ := hpure
  refine ⟨rfl, ?_, hne, hall⟩
  rw [joinedItems, filterMap_map, Function.id_comp]

/-! ### The close -/

/-- What a settlement posts to the parent: each item leaves the open allocation, what was returned goes
back to availability and the rest counts as consumed. -/
def Settlement.entries (x : Settlement) (parent : ID) : List Entry :=
  x.items.map fun i => .move parent i.dimensionID i.returnedValue i.consumedValue (-i.reservedValue)

theorem LockedItem.settle_spec {x : LockedItem} {i : SettlementItem} (h : x.settle = some i) :
    i.dimensionID = x.dimensionID ∧ i.reservedValue = x.reserved ∧ i.returnedValue = x.available ∧
      i.consumedValue = x.reserved - x.available := by
  unfold LockedItem.settle at h
  split_ifs at h
  cases h
  exact ⟨rfl, rfl, rfl, rfl⟩

variable {changed itemError : Failure} {parent : ID} {settledAt : Int} {x : Settlement}

/-- One round: the settlement grows by the item, and its entry is posted. -/
theorem exec_settleItem
    {l : LockedItem} {r : Unit} (hx : s.settlements.get x.id = some x)
    (h : storeEngine.Exec (settleItem x.id parent settledAt itemError changed l) held s r held' t) :
    ∃ i balances, l.settle = some i ∧ i.dimensionID ∉ x.items.map (·.dimensionID) ∧
      Posts [.move parent i.dimensionID i.returnedValue i.consumedValue (-i.reservedValue)] s.accounts
        ⟨s.grants, balances⟩ ∧
      t = { s with
        settlements := s.settlements.put { x with items := x.items ++ [i] }
        balances := balances } := by
  obtain ⟨_, _, _, hitem, hcredit⟩ := exec_bind.mp h
  obtain ⟨old, new, hold, hchange, _, rfl⟩ := exec_update.mp hitem
  have hsame : x = old := Option.some.inj (hx.symm.trans hold)
  subst hsame
  cases hsettle : l.settle with
  | none =>
    rw [hsettle] at hchange
    cases hchange
  | some i =>
    rw [hsettle] at hchange
    dsimp only at hchange
    split_ifs at hchange with hdup
    cases hchange
    obtain ⟨b, b', hget, _, _, hkey, havailable, hdirect, hallocated, rfl⟩ :=
      exec_moveBalance (fun _ => rfl) hcredit
    obtain ⟨hdimension, hreserved, hreturned, hconsumed⟩ := LockedItem.settle_spec hsettle
    refine ⟨i, _, rfl, ?_, ?_, rfl⟩
    · intro hmem
      apply hdup
      simpa [List.any_eq_true] using hmem
    · rw [hdimension, hreserved, hreturned, hconsumed]
      exact .move b b' hget hkey havailable hdirect hallocated (.nil _)

variable {locked : List LockedItem}

/-- The loop over the items, from the inserted settlement on. -/
theorem exec_settleItems
    {r : Unit} (hempty : x.items = [])
    (h : storeEngine.Exec (.forEach locked (settleItem x.id parent settledAt itemError changed)) held
      { s with settlements := s.settlements.put x } r held' t) :
    ∃ items balances, List.Forall₂ (fun l i => l.settle = some i) locked items ∧
      (items.map (·.dimensionID)).Nodup ∧
      Posts ({ x with items := items }.entries parent) s.accounts ⟨s.grants, balances⟩ ∧
      t = { s with
        settlements := s.settlements.put { x with items := items }
        balances := balances } := by
  let P : List LockedItem → List Lock → Store → Prop := fun rest _ u =>
    ∃ done items balances, locked = done ++ rest ∧
      List.Forall₂ (fun (l : LockedItem) i => l.settle = some i) done items ∧
      (items.map (·.dimensionID)).Nodup ∧
      Posts ({ x with items := items }.entries parent) s.accounts ⟨s.grants, balances⟩ ∧
      u = { s with
        settlements := s.settlements.put { x with items := items }
        balances := balances }
  have hend : P [] held' t := by
    refine exec_forEach (P := P) ?_ h
      ⟨[], [], s.balances, rfl, .nil, nodup_nil, .nil _, by rw [← hempty]⟩
    rintro l rest held₁ u held₂ v ⟨done, items, balances, rfl, hsettled, hnodup, hposts, rfl⟩ hround
    obtain ⟨i, balances', hsettle, hfresh, hposts', rfl⟩ :=
      exec_settleItem (x := { x with items := items }) (get_put_self _ _) hround
    refine ⟨done ++ [l], items ++ [i], balances', by simp, ?_, ?_, ?_, ?_⟩
    · exact rel_append hsettled (.cons hsettle .nil)
    · rw [map_append]
      refine List.Nodup.append hnodup (nodup_singleton _) ?_
      intro d hd hd'
      cases mem_singleton.mp hd'
      exact hfresh hd
    · have hentries := hposts.append hposts'
      simpa [Settlement.entries] using hentries
    · simp only [put_put]
  obtain ⟨done, items, balances, hdone, hrest⟩ := hend
  rw [append_nil] at hdone
  subst hdone
  exact ⟨items, balances, hrest⟩

theorem exec_insertSettlement {row : Settlement} {error : Failure} {r : Unit}
    (h : storeEngine.Exec (insertSettlement row error) held s r held' t) :
    (∀ x ∈ s.settlements.rows, x.id ≠ row.id ∧ x.reservationID ≠ row.reservationID ∧
      ¬(x.actorPrincipalID = row.actorPrincipalID ∧ x.idempotencyKey = row.idempotencyKey)) ∧
      t = { s with settlements := s.settlements.put row } := by
  obtain ⟨hclash, _, rfl⟩ := exec_insert.mp h.checked
  refine ⟨fun x hx => ?_, rfl⟩
  simpa [not_or, and_assoc] using hclash x hx

variable {u : Unit}

theorem exec_close {c : Closing} (hempty : c.settlement.items = [])
    (h : storeEngine.Exec (close c locked) held s u held' t) :
    ∃ items balances r, s.reservations.get c.settlement.reservationID = some r ∧ r.state = .opened ∧
      (∀ x ∈ s.settlements.rows, x.id ≠ c.settlement.id ∧
        x.reservationID ≠ c.settlement.reservationID ∧
        ¬(x.actorPrincipalID = c.settlement.actorPrincipalID ∧
          x.idempotencyKey = c.settlement.idempotencyKey)) ∧
      List.Forall₂ (fun l i => l.settle = some i) locked items ∧
      (items.map (·.dimensionID)).Nodup ∧
      Posts ({ c.settlement with items := items }.entries c.parentEnvelopeID) s.accounts
        ⟨s.grants, balances⟩ ∧
      t = { s with
        settlements := s.settlements.put { c.settlement with items := items }
        balances := balances
        reservations := s.reservations.put
          { r with state := c.state, settledAt := some c.settlement.settledAt } } := by
  obtain ⟨_, _, _, hinsert, h₁⟩ := exec_bind.mp h
  obtain ⟨hfresh, rfl⟩ := exec_insertSettlement hinsert
  obtain ⟨_, _, _, hloop, hclose⟩ := exec_bind.mp h₁
  obtain ⟨items, balances, hsettled, hnodup, hposts, rfl⟩ := exec_settleItems hempty hloop
  obtain ⟨r, _, hr, hchange, _, rfl⟩ := exec_update.mp hclose
  dsimp only at hchange
  split_ifs at hchange with hopen
  cases hchange
  exact ⟨items, balances, r, hr, hopen.1, hfresh, hsettled, hnodup, hposts, rfl⟩

/-- What a commit that closed a reservation did, by settlement or by reconciliation. -/
structure Closes (dep : Deployment) (x : Settlement) (r r' : Reservation) (s t : Store) : Prop where
  reservation : s.reservations.get x.reservationID = some r
  opened : r.state = .opened
  closed : r'.state ≠ .opened
  row_eq : r' = { r with state := r'.state, settledAt := r'.settledAt }
  fresh : ∀ y ∈ s.settlements.rows, y.id ≠ x.id ∧ y.reservationID ≠ x.reservationID ∧
    ¬(y.actorPrincipalID = x.actorPrincipalID ∧ y.idempotencyKey = x.idempotencyKey)
  terminal : ∃ run, t.runs.get r.childRunID = some run ∧ run.state = x.terminalRunState ∧
    run.state.terminal = true
  runs : RunsWork s.runs t.runs
  joined : joinedItems dep s r ≠ []
  valid : ∀ l ∈ joinedItems dep s r, l.allocated = 0 ∧ l.available ≤ l.reserved
  items : List.Forall₂ (fun l i => l.settle = some i) (joinedItems dep s r) x.items
  items_nodup : (x.items.map (·.dimensionID)).Nodup
  digest : ∃ state ids, x.contentDigest = resourceSettlementDigest dep x.reservationID state ids
  posts : Posts (x.entries r.parentEnvelopeID) s.accounts t.accounts
  store_eq : Store.Evidenced { s with
    runs := t.runs
    balances := t.balances
    settlements := s.settlements.put x
    reservations := s.reservations.put r' } t

/-! ### Settlement by an actor -/

/-- The digest of a settlement command. -/
def ResourceSettlement.digest (dep : Deployment) (settlement : ResourceSettlement) : String :=
  resourceSettlementDigest dep settlement.reservationID settlement.terminalRunState
    settlement.finalUsageEventIDs

variable {result : ResourceSettlementResult}

theorem exec_loadSettlementResult {id : ID} {settledAt : Time} {duplicate : Bool}
    (h : storeEngine.Exec (loadSettlementResult dep id settledAt duplicate) held s result held' t) :
    t = s ∧ held' = held ∧ ∃ x, s.settlements.get id = some x ∧
      result = settlementResult dep x settledAt duplicate := by
  obtain ⟨x, hx, hresult, rfl, rfl⟩ := exec_lock.mp h
  cases hresult
  exact ⟨rfl, rfl, x, hx, rfl⟩

/-- A settlement that a snapshot had is still there. -/
theorem exec_loadSeen {seen : Store} (hseen : storeEngine.Interference held seen s) {x : Settlement}
    (hx : x ∈ seen.settlements.rows) {settledAt : Time} {duplicate : Bool}
    (h : storeEngine.Exec (loadSettlementResult dep x.id settledAt duplicate) held s result held' t) :
    t = s ∧ x ∈ s.settlements.rows ∧ result = settlementResult dep x settledAt duplicate := by
  obtain ⟨rfl, _, x', hx', rfl⟩ := exec_loadSettlementResult h
  obtain ⟨x'', hx'', rfl⟩ := settlements_kept hseen _ x (get_of_mem hx)
  cases hx''.symm.trans hx'
  exact ⟨rfl, mem_of_get hx', rfl⟩

/-- A replay returns a stored settlement of the same content: the one under the actor's key, or the one
of the closed reservation. -/
def Replays (dep : Deployment) (settlement : ResourceSettlement) (result : ResourceSettlementResult)
    (s : Store) : Prop :=
  ∃ x ∈ s.settlements.rows, x.contentDigest = settlement.digest dep ∧
    result = settlementResult dep x (.ofStored x.settledAt) true ∧
    ((x.actorPrincipalID = settlement.actorPrincipalID ∧
        x.idempotencyKey = settlement.idempotencyKey) ∨
      (x.reservationID = settlement.reservationID ∧
        ∃ r, s.reservations.get settlement.reservationID = some r ∧ r.state ≠ .opened))

variable {settlement : ResourceSettlement}

theorem exec_replayClosed
    (h : storeEngine.Exec (replayClosed dep settlement) held s result held' t) :
    t = s ∧ ∃ x ∈ s.settlements.rows, x.reservationID = settlement.reservationID ∧
      x.contentDigest = settlement.digest dep ∧
      result = settlementResult dep x (.ofStored x.settledAt) true := by
  obtain ⟨_, ⟨seen, hseen, rfl⟩, h₁⟩ := exec_bind_snapshot.mp h
  obtain ⟨x, hfind, h₂⟩ := exec_bind_orThrow.mp h₁
  obtain ⟨hsame, hload⟩ := exec_bind_require.mp h₂
  obtain ⟨rfl, hx, rfl⟩ := exec_loadSeen hseen (mem_of_find?_eq_some hfind) hload
  have hreservation : x.reservationID = settlement.reservationID := by
    simpa using find?_some hfind
  exact ⟨rfl, x, hx, hreservation, hsame, rfl⟩

/-- The settlement row that an actor's command closes a reservation with. -/
def settlementRow (dep : Deployment) (settlement : ResourceSettlement) (items : List SettlementItem) :
    Settlement :=
  { (settlementClosing dep settlement settlement.reservationID).settlement with items := items }

variable {evidence : ResourceSettlementEvidence}

theorem exec_settleOpen
    (hr : s.reservations.get settlement.reservationID = some r)
    (h : storeEngine.Exec (settleOpen dep settlement evidence r) held s result held' t) :
    ∃ items r', Closes dep (settlementRow dep settlement items) r r' s t ∧
      result = settlementResult dep (settlementRow dep settlement items) settlement.settledAt false ∧
      .run r.childRunID ∈ held' ∧ t.journal = s.journal := by
  obtain ⟨run, held₁, _, hrun, h₃⟩ := exec_bind.mp h.vetted
  obtain ⟨_, hrunGet, hrunOk, hheld, rfl⟩ := exec_lock.mp hrun
  cases hrunOk
  have hlocked : .run r.childRunID ∈ held' := exec_subset h₃ (by simp [hheld])
  obtain ⟨⟨hdeclared, hterminal⟩, h₄⟩ := exec_bind_require.mp h₃
  obtain ⟨locked, _, _, hitems, h₇⟩ := exec_bind.mp h₄.vetted
  obtain ⟨rfl, rfl, hne, hvalid⟩ := exec_lockItems hitems
  obtain ⟨_, _, _, hclose, h₈⟩ := exec_bind.mp h₇
  obtain ⟨items, balances, r₀, hr₀, hopen, hfresh, hsettled, hnodup, hposts, rfl⟩ :=
    exec_close rfl hclose
  have hsame : r = r₀ := Option.some.inj (hr.symm.trans hr₀)
  subst hsame
  obtain ⟨_, _, _, hload⟩ := exec_bind_evidence h₈
  obtain ⟨rfl, _, x, hx, rfl⟩ := exec_loadSettlementResult hload
  have hrow : settlementRow dep settlement items = x :=
    Option.some.inj ((get_put_self _ (settlementRow dep settlement items)).symm.trans hx)
  subst hrow
  refine ⟨items, _, ⟨hr, hopen, ?_, rfl, hfresh, ⟨run, hrunGet, hdeclared, hterminal⟩, Or.inl rfl, hne,
    hvalid, hsettled, hnodup, ⟨_, _, rfl⟩, hposts, _, _, _, _, rfl⟩, rfl, hlocked, rfl⟩
  rintro hsettledState
  cases hsettledState

/-- A committed settlement is a replay that changes nothing, or it closes the reservation. -/
theorem exec_settleReservation {candidate : ResourceSettlement}
    (h : storeEngine.Exec (settleReservation dep candidate evidence) held s result held' t) :
    ∃ settlement, validateResourceSettlement candidate = .ok settlement ∧
      ((t = s ∧ Replays dep settlement result s) ∨
        ∃ items r r', Closes dep (settlementRow dep settlement items) r r' s t ∧
          result = settlementResult dep (settlementRow dep settlement items) settlement.settledAt false ∧
          .run r.childRunID ∈ held' ∧ t.journal = s.journal) := by
  obtain ⟨settlement, hok, h₁⟩ := exec_bind_ofExcept.mp h
  obtain ⟨_, _, _, hadvisory, h₃⟩ := exec_bind.mp h₁.checked
  obtain ⟨rfl, rfl⟩ := exec_acquire.mp hadvisory
  obtain ⟨existing, ⟨seen, hseen, hfind⟩, h₄⟩ := exec_bind_snapshot.mp h₃
  refine ⟨settlement, hok, ?_⟩
  cases existing with
  | some x =>
    obtain ⟨hsame, hload⟩ := exec_bind_require.mp h₄
    obtain ⟨rfl, hx, rfl⟩ := exec_loadSeen hseen (mem_of_find?_eq_some hfind) hload
    have hkey : x.actorPrincipalID = settlement.actorPrincipalID ∧
        x.idempotencyKey = settlement.idempotencyKey := by
      simpa using find?_some hfind
    exact Or.inl ⟨rfl, x, hx, hsame, rfl, Or.inl hkey⟩
  | none =>
    obtain ⟨r, _, _, hlock, h₅⟩ := exec_bind.mp h₄
    obtain ⟨_, hr, hrOk, rfl, rfl⟩ := exec_lock.mp hlock
    cases hrOk
    split_ifs at h₅ with hstate
    · obtain ⟨rfl, x, hx, hreservation, hdigest, rfl⟩ := exec_replayClosed h₅
      exact Or.inl ⟨rfl, x, hx, hdigest, rfl, Or.inr ⟨hreservation, r, hr, hstate⟩⟩
    · obtain ⟨items, r', hcloses⟩ := exec_settleOpen hr h₅
      exact Or.inr ⟨items, r, r', hcloses⟩

/-! ### Reconciliation -/

variable {request : ResourceReconciliation}

theorem exec_claimReconciliation {now : Int}
    {claimed : Reservation × Run}
    (h : storeEngine.Exec (claimReconciliation dep request now) held s claimed held' t) :
    t = s ∧ s.reservations.get claimed.1.id = some claimed.1 ∧
      s.runs.get claimed.1.childRunID = some claimed.2 ∧ reconcilable now claimed.1 claimed.2 = true ∧
      .run claimed.1.childRunID ∈ held' := by
  obtain ⟨_, _, h₁⟩ := exec_bind_snapshot.mp h
  obtain ⟨candidate, _, h₂⟩ := exec_bind_orThrow.mp h₁
  obtain ⟨r, _, _, hreservation, h₃⟩ := exec_bind.mp h₂
  obtain ⟨_, hr, hrOk, rfl, rfl⟩ := exec_lock.mp hreservation
  cases hrOk
  obtain ⟨run, _, _, hrun, h₄⟩ := exec_bind.mp h₃
  obtain ⟨_, hrunGet, hrunOk, rfl, rfl⟩ := exec_lock.mp hrun
  cases hrunOk
  obtain ⟨hreconcilable, hpure⟩ := exec_bind_require.mp h₄
  obtain ⟨rfl, rfl, rfl⟩ := hpure
  have hid : r.id = candidate.id := key_of_get hr
  exact ⟨rfl, hid ▸ hr, hrunGet, hreconcilable, by simp⟩

/-- Reconciliation moves no run, or times out the child. -/
def TimesOut (dep : Deployment) (request : ResourceReconciliation) (run : Run) (s t : Store) : Prop :=
  t.journal = s.journal ∨ run.state.terminal = false ∧ ∀ response, ∃ run' e,
    Advances dep (.reconcileNextReservation request) response s t run run' [e]

variable {now : Time} {run : Run}

/-- The child is terminal afterwards. -/
theorem exec_timeOutWhenExpired
    (hrun : s.runs.get run.id = some run)
    (h : storeEngine.Exec (timeOutWhenExpired request now run) held s u held' t) :
    ∃ runs run', RunsWork s.runs runs ∧ Store.Evidenced { s with runs := runs } t ∧
      runs.get run.id = some run' ∧
      run'.state = (if run.state.terminal then run.state else .timedOut) ∧
      run'.state.terminal = true ∧
      (validateReconciliation request = .ok now → .run run.id ∈ held → TimesOut dep request run s t) := by
  unfold timeOutWhenExpired at h
  split_ifs at h with hterminal
  · obtain ⟨_, _, rfl⟩ := h
    exact ⟨s.runs, run, Or.inl rfl, Store.Evidenced.refl s, hrun, by rw [if_pos hterminal], hterminal,
      fun _ _ => Or.inl rfl⟩
  · rw [Bool.not_eq_true] at hterminal
    obtain ⟨next, htransition, h₁⟩ := exec_bind_ofExcept.mp h
    obtain ⟨_, _, _, hpersist, h₂⟩ := exec_bind.mp h₁
    have hsub := exec_subset hpersist
    obtain ⟨old, new, hold, hchange, _, rfl⟩ := exec_update.mp hpersist
    have hsame : run = old := Option.some.inj (hrun.symm.trans hold)
    subst hsame
    dsimp only at hchange
    split_ifs at hchange with hcheck
    have hnew := (Prod.mk.inj (Except.ok.inj hchange)).2
    have hid : new.id = run.id := by rw [← hnew]
    obtain ⟨_, _, _, hsequence, h₃⟩ := exec_bind.mp h₂
    obtain ⟨_, rfl, rfl⟩ := exec_snapshot.mp hsequence
    obtain ⟨_, _, _, hevent, houtbox⟩ := exec_bind.mp h₃
    obtain ⟨_, rfl, hevents, _⟩ := exec_insertEvent hevent
    obtain ⟨_, rfl⟩ := exec_insertOutbox houtbox
    refine ⟨_, new, Or.inr ⟨run, new, hrun, ⟨hterminal, ?_⟩, rfl⟩, ⟨_, _, _, _, rfl⟩, ?_, ?_, ?_,
      fun hvalid hlocked => ?_⟩
    · rw [← hnew]
      exact ⟨rfl, rfl, rfl, rfl⟩
    · rw [← hid, get_put_self]
    · rw [hterminal, ← hnew]
      rfl
    · rw [← hnew]
      rfl
    · subst hnew
      exact Or.inr ⟨hterminal, fun response => ⟨_, _, .single hrun
        (.timeout request now response run next hvalid hterminal htransition) (fun _ => hcheck.2)
        rfl hevents ⟨rfl, (exec_nextSequence (hsub hlocked) hsequence).1⟩ ⟨rfl, rfl⟩ rfl rfl⟩⟩

/-- The settlement row that reconciliation closes a reservation with. -/
def reconciliationRow (dep : Deployment) (request : ResourceReconciliation) (now : Int)
    (r : Reservation) (run : Run) (items : List SettlementItem) : Settlement :=
  { (reconciliationClosing dep request now r run).settlement with items := items }

/-- What follows the claim. -/
def reconcileClaimed (dep : Deployment) (request : ResourceReconciliation) (now : Time) (r : Reservation)
    (run : Run) : Op ResourceReconciliationResult := do
  timeOutWhenExpired request now run
  let items ← lockItems dep r (conflict "reconciliation reservation has no consumable items")
    (conflict "reconciliation child balance is unsafe")
  close (reconciliationClosing dep request now.stored r run) items
  insertAudit (request.audit r.id now) (.database "append reconciliation evidence")
  insertOutbox ⟨request.evidence.outboxID, r.id.string, "resource.reservation.reconciled", now.stored⟩
    (.database "append reconciliation evidence")
  let settlement ← loadSettlementResult dep request.evidence.settlementID now false
  return ⟨settlement, !run.state.terminal⟩

theorem reconcileNextReservation_eq (request : ResourceReconciliation) :
    reconcileNextReservation dep request = (do
      let now ← Tx.ofExcept (validateReconciliation request)
      let claimed ← claimReconciliation dep request now.stored
      reconcileClaimed dep request now claimed.1 claimed.2) := rfl

/-- The claimed reservation is the one that is closed. -/
theorem exec_reconcileClaimed
    {result : ResourceReconciliationResult} (hr : s.reservations.get r.id = some r)
    (hrun : s.runs.get r.childRunID = some run)
    (h : storeEngine.Exec (reconcileClaimed dep request now r run) held s result held' t) :
    (∃ items r', Closes dep (reconciliationRow dep request now.stored r run items) r r' s t) ∧
      (validateReconciliation request = .ok now → .run r.childRunID ∈ held →
        TimesOut dep request run s t) := by
  have hrunID : run.id = r.childRunID := key_of_get hrun
  obtain ⟨_, _, mid, htimeout, h₁⟩ := exec_bind.mp h
  obtain ⟨runs, run', hworks, ⟨_, _, _, _, rfl⟩, hrun', hstate, hterminal, htimesOut⟩ :=
    @exec_timeOutWhenExpired _ _ _ _ dep _ _ _ _ (by rw [hrunID]; exact hrun) htimeout
  obtain ⟨locked, _, _, hitems, h₂⟩ := exec_bind.mp h₁
  obtain ⟨rfl, rfl, hne, hitemsValid⟩ := exec_lockItems hitems
  obtain ⟨_, _, _, hclose, h₃⟩ := exec_bind.mp h₂
  obtain ⟨items, balances, r₀, hr₀, hopen, hfresh, hsettled, hnodup, hposts, rfl⟩ :=
    exec_close rfl hclose
  have hsame : r = r₀ := Option.some.inj (hr.symm.trans hr₀)
  subst hsame
  obtain ⟨_, _, _, h₄⟩ := exec_bind_evidence h₃
  obtain ⟨_, _, _, hload, hpure⟩ := exec_bind.mp h₄
  obtain ⟨rfl, _, _⟩ := exec_loadSettlementResult hload
  obtain ⟨_, _, rfl⟩ := hpure
  refine ⟨⟨items, _, hr, hopen, ?_, rfl, hfresh, ⟨run', ?_, hstate, hterminal⟩, hworks, hne, hitemsValid,
    hsettled, hnodup, ⟨_, _, rfl⟩, hposts, _, _, _, _, rfl⟩, fun hvalid hlocked => ?_⟩
  · simp only [reconciliationClosing]
    split_ifs <;> exact fun heq => by cases heq
  · rw [← hrunID]
    exact hrun'
  · rcases htimesOut hvalid (hrunID ▸ hlocked) with hkeep | ⟨hactive, hadvances⟩
    · exact Or.inl hkeep
    · refine Or.inr ⟨hactive, fun response => ?_⟩
      obtain ⟨run'', e, hmoved⟩ := hadvances response
      exact ⟨run'', e, hmoved.frame rfl⟩

theorem exec_reconcileNextReservation
    {result : ResourceReconciliationResult}
    (h : storeEngine.Exec (reconcileNextReservation dep request) held s result held' t) :
    ∃ now run items r r', validateReconciliation request = .ok now ∧
      Closes dep (reconciliationRow dep request now.stored r run items) r r' s t ∧
      s.runs.get r.childRunID = some run ∧ .run r.childRunID ∈ held' ∧
      reconcilable now.stored r run = true ∧ TimesOut dep request run s t := by
  rw [reconcileNextReservation_eq] at h
  obtain ⟨now, hok, h₁⟩ := exec_bind_ofExcept.mp h
  obtain ⟨⟨r, run⟩, _, _, hclaim, h₂⟩ := exec_bind.mp h₁
  obtain ⟨rfl, hr, hrun, hreconcilable, hheld⟩ := exec_claimReconciliation hclaim
  obtain ⟨⟨items, r', hcloses⟩, htimesOut⟩ := exec_reconcileClaimed hr hrun h₂
  exact ⟨now, run, items, r, r', hok, hcloses, hrun, exec_subset h₂ hheld, hreconcilable,
    htimesOut hok hheld⟩

end AgentGovernor
