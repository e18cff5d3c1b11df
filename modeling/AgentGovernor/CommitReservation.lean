import AgentGovernor.CommitRun

/-! What child reservations and admissions commit. -/

namespace AgentGovernor

open Ledger Table Handle Transaction Engine List

variable {held held' : List Lock} {s t : Store} {dep : Deployment}

/-! ### Reservation -/

variable {r : Unit} {reservation : ResourceReservation}

theorem exec_lockChildEnvelope
    (h : storeEngine.Exec (lockChildEnvelope reservation) held s r held' t) :
    t = s ∧ (∃ e, s.envelopes.get reservation.childEnvelopeID = some e ∧
      e.runID = reservation.childRunID ∧
      e.parentEnvelopeID = some reservation.parentEnvelopeID) ∧
      ∃ run, s.runs.get reservation.childRunID = some run := by
  obtain ⟨_, _, _, hfirst, hsecond⟩ := exec_bind.mp h
  obtain ⟨e, he, hcheck, rfl, rfl⟩ := exec_lock.mp hfirst
  obtain ⟨run, hrun, _, rfl, rfl⟩ := exec_lock.mp hsecond
  split_ifs at hcheck with hchild
  exact ⟨rfl, ⟨e, he, hchild.1, hchild.2⟩, run, hrun⟩

theorem exec_lockParentBalance {parent : ID} {amount : ResourceReservationAmount} {l : LockedAmount}
    (h : storeEngine.Exec (lockParentBalance dep parent amount) held s l held' t) :
    t = s ∧ l.dimensionID = amount.dimensionID ∧ l.coefficient = amount.coefficient ∧
      (dep.byID l.dimensionID).any (·.resourceClass = .consumable) = true := by
  simp only [lockParentBalance, bind_eq, pure_eq, exec_bind, exec_orThrow, exec_require, exec_pure,
    exec_snapshot, exec_lock] at h
  obtain ⟨_, _, _, ⟨_, rfl, rfl⟩, grant, _, _, ⟨_, rfl, rfl⟩, balance, _, _, ⟨_, _, _, _, rfl⟩, _, _,
    _, ⟨hclass, rfl, rfl⟩, _, _, _, ⟨_, rfl, rfl⟩, rfl, rfl, rfl⟩ := h
  exact ⟨rfl, rfl, rfl, hclass⟩

theorem exec_lockParentBalances {parent : ID} {amounts : List ResourceReservationAmount}
    {locked : List LockedAmount}
    (h : storeEngine.Exec (.traverse amounts (lockParentBalance dep parent)) held s locked held' t) :
    t = s ∧ locked.map (fun l => (l.dimensionID, l.coefficient)) =
        amounts.map (fun a => (a.dimensionID, a.coefficient)) ∧
      ∀ l ∈ locked, (dep.byID l.dimensionID).any (·.resourceClass = .consumable) = true := by
  induction amounts generalizing held s locked with
  | nil =>
    obtain ⟨rfl, _, rfl⟩ := exec_traverse_nil.mp h
    exact ⟨rfl, rfl, fun l hl => absurd hl not_mem_nil⟩
  | cons amount amounts ih =>
    obtain ⟨l, _, _, rest, hfirst, hrest, rfl⟩ := exec_traverse_cons.mp h
    obtain ⟨rfl, hdimension, hcoefficient, hclass⟩ := exec_lockParentBalance hfirst
    obtain ⟨rfl, hmap, hall⟩ := ih hrest
    refine ⟨rfl, by simp [hmap, hdimension, hcoefficient], fun x hx => ?_⟩
    rcases mem_cons.mp hx with rfl | hx
    · exact hclass
    · exact hall x hx

/-- The row of a reservation with its items. -/
def openedReservation (reservation : ResourceReservation) (items : List ReservationItem) :
    Reservation :=
  { id := reservation.id
    parentEnvelopeID := reservation.parentEnvelopeID
    childEnvelopeID := reservation.childEnvelopeID
    childRunID := reservation.childRunID
    state := .opened
    expiresAt := reservation.expiresAt.map Time.stored
    createdAt := reservation.createdAt.stored
    settledAt := none
    items := items }

def LockedAmount.item (l : LockedAmount) : ReservationItem :=
  ⟨l.dimensionID, l.coefficient, l.unit, l.scale⟩

/-- What a reservation posts: each item leaves the parent's availability for its open allocation and is
issued to the child. -/
def Reservation.entries (r : Reservation) : List Entry :=
  r.items.flatMap fun i =>
    [.move r.parentEnvelopeID i.dimensionID (-i.reservedValue) 0 i.reservedValue,
      .issue r.childEnvelopeID i.dimensionID i.reservedValue]

theorem exec_insertReservation
    (h : storeEngine.Exec (insertReservation reservation) held s r held' t) :
    (∀ x ∈ s.reservations.rows, x.id ≠ reservation.id ∧
      x.childEnvelopeID ≠ reservation.childEnvelopeID ∧ x.childRunID ≠ reservation.childRunID) ∧
      (openedReservation reservation []).check = true ∧
      t = { s with reservations := s.reservations.put (openedReservation reservation []) } := by
  obtain ⟨hcheck, h₁⟩ := exec_bind_require.mp h
  obtain ⟨hclash, _, rfl⟩ := exec_insert.mp h₁
  refine ⟨fun x hx => ?_, hcheck, rfl⟩
  have hfree := hclash x hx
  simpa [not_or, and_assoc] using hfree

/-- One round: the row grows by the item, and its two entries are posted. -/
theorem exec_reserveAmount {items : List ReservationItem}
    {amount : LockedAmount}
    (hrow : s.reservations.get reservation.id = some (openedReservation reservation items))
    (h : storeEngine.Exec (reserveAmount reservation amount) held s r held' t) :
    amount.dimensionID ∉ items.map (·.dimensionID) ∧ ∃ accounts : Accounts,
      Posts [.move reservation.parentEnvelopeID amount.dimensionID (-amount.coefficient) 0
          amount.coefficient,
        .issue reservation.childEnvelopeID amount.dimensionID amount.coefficient]
        s.accounts accounts ∧
      t = { s with
        reservations := s.reservations.put (openedReservation reservation (items ++ [amount.item]))
        grants := accounts.grants
        balances := accounts.balances } := by
  obtain ⟨_, _, _, hdebit, h₁⟩ := exec_bind.mp h
  obtain ⟨b, b', hget, _, _, hkey, havailable, hdirect, hallocated, rfl⟩ :=
    exec_moveBalance (fun _ => rfl) hdebit
  obtain ⟨_, _, _, hitem, h₂⟩ := exec_bind.mp h₁
  obtain ⟨old, row, hold, hchange, _, rfl⟩ := exec_update.mp hitem
  have hsame : openedReservation reservation items = old := Option.some.inj (hrow.symm.trans hold)
  subst hsame
  split_ifs at hchange with hdup
  cases hchange
  obtain ⟨_, _, _, hgrant, hbalance⟩ := exec_bind.mp h₂
  obtain ⟨hnogrant, rfl⟩ := exec_insertGrant hgrant
  obtain ⟨hnobalance, c, hckey, hcavailable, hcdirect, hcallocated, rfl⟩ :=
    exec_insertBalance hbalance
  refine ⟨?_, ⟨_, _⟩, ?_, rfl⟩
  · intro hmem
    apply hdup
    simpa [openedReservation, List.any_eq_true] using hmem
  · refine .move b b' hget hkey havailable hdirect hallocated ?_
    exact .issue _ c rfl hckey hnogrant hnobalance rfl hcavailable hcdirect hcallocated (.nil _)

/-- The second loop of the reservation, from its inserted row on. -/
theorem exec_reserveAmounts {locked : List LockedAmount}
    (h : storeEngine.Exec (.forEach locked (reserveAmount reservation)) held
      { s with reservations := s.reservations.put (openedReservation reservation []) } r held' t) :
    (locked.map (·.dimensionID)).Nodup ∧ ∃ accounts : Accounts,
      Posts (openedReservation reservation (locked.map LockedAmount.item)).entries
        s.accounts accounts ∧
      t = { s with
        reservations := s.reservations.put
          (openedReservation reservation (locked.map LockedAmount.item))
        grants := accounts.grants
        balances := accounts.balances } := by
  -- After some rounds the row has the items of these rounds.
  let P : List LockedAmount → List Lock → Store → Prop := fun rest _ u =>
    ∃ done, locked = done ++ rest ∧ (done.map (·.dimensionID)).Nodup ∧ ∃ accounts : Accounts,
      Posts (openedReservation reservation (done.map LockedAmount.item)).entries
        s.accounts accounts ∧
      u = { s with
        reservations := s.reservations.put
          (openedReservation reservation (done.map LockedAmount.item))
        grants := accounts.grants
        balances := accounts.balances }
  have hend : P [] held' t := by
    refine exec_forEach (P := P) ?_ h ⟨[], rfl, nodup_nil, s.accounts, .nil _, rfl⟩
    rintro amount rest held₁ u held₂ v ⟨done, rfl, hnodup, accounts, hposts, rfl⟩ hround
    obtain ⟨hfresh, accounts', hposts', rfl⟩ :=
      exec_reserveAmount (get_put_self _ _) hround
    refine ⟨done ++ [amount], by simp, ?_, accounts', ?_, ?_⟩
    · rw [map_append]
      refine List.Nodup.append hnodup (nodup_singleton _) ?_
      intro d hd hd'
      cases mem_singleton.mp hd'
      exact hfresh (by simpa [LockedAmount.item] using hd)
    · have hentries := hposts.append hposts'
      simpa [Reservation.entries, openedReservation, LockedAmount.item] using hentries
    · simp only [put_put, openedReservation, map_append, map_cons, map_nil]
  obtain ⟨done, hdone, hnodup, hposts⟩ := hend
  rw [append_nil] at hdone
  subst hdone
  exact ⟨hnodup, hposts⟩

/-- What a committed reservation did. -/
structure Reserves (dep : Deployment) (reservation : ResourceReservation) (row : Reservation)
    (s t : Store) : Prop where
  row_eq : ∃ items, row = openedReservation reservation items
  items_eq : row.items.map (fun i => (i.dimensionID, i.reservedValue)) =
    reservation.amounts.map fun a => (a.dimensionID, a.coefficient)
  items_nodup : (row.items.map (·.dimensionID)).Nodup
  items_consumable : ∀ i ∈ row.items,
    (dep.byID i.dimensionID).any (·.resourceClass = .consumable) = true
  topology : TopologyAllows dep s reservation.parentEnvelopeID reservation.childEnvelopeID
  child : ∃ e, s.envelopes.get reservation.childEnvelopeID = some e ∧
    e.runID = reservation.childRunID ∧ e.parentEnvelopeID = some reservation.parentEnvelopeID
  child_run : ∃ run, s.runs.get reservation.childRunID = some run
  fresh : ∀ x ∈ s.reservations.rows, x.id ≠ reservation.id ∧
    x.childEnvelopeID ≠ reservation.childEnvelopeID ∧ x.childRunID ≠ reservation.childRunID
  posts : Posts row.entries s.accounts t.accounts
  store_eq : t = { s with
    reservations := s.reservations.put row, grants := t.grants, balances := t.balances }

variable {out : ResourceReservation}

theorem exec_reserveSorted
    (h : storeEngine.Exec (reserveSorted dep reservation) held s out held' t) :
    out = reservation ∧ ∃ row, Reserves dep reservation row s t := by
  obtain ⟨_, _, _, htopology, h₁⟩ := exec_bind.mp h
  obtain ⟨rfl, rfl, hallows⟩ := exec_enforceChildTopology htopology
  obtain ⟨_, _, _, hchild, h₂⟩ := exec_bind.mp h₁
  obtain ⟨rfl, henvelope, hrun⟩ := exec_lockChildEnvelope hchild
  obtain ⟨locked, _, _, hlocked, h₃⟩ := exec_bind.mp h₂
  obtain ⟨rfl, hmap, hclass⟩ := exec_lockParentBalances hlocked
  obtain ⟨_, _, _, hinsert, h₄⟩ := exec_bind.mp h₃
  obtain ⟨hfresh, _, rfl⟩ := exec_insertReservation hinsert
  obtain ⟨_, _, _, hloop, h₅⟩ := exec_bind.mp h₄
  obtain ⟨hnodup, accounts, hposts, rfl⟩ := exec_reserveAmounts hloop
  obtain ⟨rfl, _, rfl⟩ := h₅
  refine ⟨rfl, openedReservation reservation (locked.map LockedAmount.item), ⟨_, rfl⟩, ?_, ?_, ?_,
    hallows, henvelope, hrun, hfresh, hposts, rfl⟩
  · rw [← hmap]
    simp [openedReservation, LockedAmount.item]
  · rw [show (openedReservation reservation (locked.map LockedAmount.item)).items =
      locked.map LockedAmount.item from rfl, List.map_map]
    exact hnodup
  · intro i hi
    obtain ⟨l, hl, rfl⟩ := List.mem_map.mp hi
    exact hclass l hl

theorem exec_reserveChildResources {requested : ResourceReservation}
    (h : storeEngine.Exec (reserveChildResources dep requested) held s out held' t) :
    validateAndSortResourceReservation requested = .ok out ∧ requested.tenantID = dep.tenantID ∧
      ∃ row, Reserves dep out row s t := by
  obtain ⟨hscope, h₁⟩ := exec_bind_require.mp h
  obtain ⟨reservation, hok, h₂⟩ := exec_bind_ofExcept.mp h₁
  obtain ⟨rfl, hrow⟩ := exec_reserveSorted h₂
  exact ⟨hok, hscope, hrow⟩

/-! ### Admission -/

/-- What the resolved constraints of an admission issue to its envelope. -/
def rootEntries (dep : Deployment) (e : ID) (grants : List RootResourceGrant) : List Entry :=
  grants.filterMap fun g => (dep.byName g.dimensionName).map fun d => .issue e d.id g.coefficient

variable {admission : RunAdmission}

theorem exec_issueRootGrant {grant : RootResourceGrant}
    (h : storeEngine.Exec (issueRootGrant dep admission grant) held s r held' t) :
    ∃ accounts : Accounts, Posts (rootEntries dep admission.envelopeID [grant]) s.accounts accounts ∧
      t = { s with grants := accounts.grants, balances := accounts.balances } := by
  obtain ⟨d, hfilter, h₁⟩ := exec_bind_orThrow.mp h
  obtain ⟨hname, _⟩ := Option.filter_eq_some_iff.mp hfilter
  obtain ⟨_, _, _, hgrant, hbalance⟩ := exec_bind.mp h₁
  obtain ⟨hnogrant, rfl⟩ := exec_insertGrant hgrant
  obtain ⟨hnobalance, b, hkey, havailable, hdirect, hallocated, rfl⟩ := exec_insertBalance hbalance
  refine ⟨⟨_, _⟩, ?_, rfl⟩
  simp only [rootEntries, filterMap_cons, hname, Option.map_some, filterMap_nil]
  exact .issue _ b rfl hkey hnogrant hnobalance rfl havailable hdirect hallocated (.nil _)

theorem exec_issueRootGrants {grants : List RootResourceGrant}
    (h : storeEngine.Exec (.forEach grants (issueRootGrant dep admission)) held s r held' t) :
    ∃ accounts : Accounts, Posts (rootEntries dep admission.envelopeID grants) s.accounts accounts ∧
      t = { s with grants := accounts.grants, balances := accounts.balances } := by
  let P : List RootResourceGrant → List Lock → Store → Prop := fun rest _ u =>
    ∃ done, grants = done ++ rest ∧ ∃ accounts : Accounts,
      Posts (rootEntries dep admission.envelopeID done) s.accounts accounts ∧
      u = { s with grants := accounts.grants, balances := accounts.balances }
  have hend : P [] held' t := by
    refine exec_forEach (P := P) ?_ h ⟨[], rfl, s.accounts, .nil _, rfl⟩
    rintro grant rest held₁ u held₂ v ⟨done, rfl, accounts, hposts, rfl⟩ hround
    obtain ⟨accounts', hposts', rfl⟩ := exec_issueRootGrant hround
    refine ⟨done ++ [grant], by simp, accounts', ?_, rfl⟩
    have hentries := hposts.append hposts'
    simpa [rootEntries, filterMap_append] using hentries
  obtain ⟨done, hdone, hposts⟩ := hend
  rw [append_nil] at hdone
  subst hdone
  exact hposts

/-- What an admission did, up to evidence. The parent is the link that a child admission adds. -/
structure Admits (dep : Deployment) (admission : RunAdmission) (parent : Option ID)
    (grants : List RootResourceGrant) (s t : Store) : Prop where
  run_fresh : s.runs.get admission.runID = none
  envelope_fresh : ∀ e ∈ s.envelopes.rows, e.id ≠ admission.envelopeID ∧ e.runID ≠ admission.runID
  parent_exists : ∀ p, parent = some p → ∃ e, s.envelopes.get p = some e
  posts : Posts (rootEntries dep admission.envelopeID grants) s.accounts t.accounts
  store_eq : Store.Evidenced { s with
    runs := s.runs.put (admittedRun admission)
    envelopes := s.envelopes.put ⟨admission.envelopeID, admission.runID, parent, 1⟩
    grants := t.grants
    balances := t.balances
    idempotency := t.idempotency } t

variable {evidence : RunAdmissionEvidence} {resolution : RunVersionResolution}

theorem exec_insertAdmission
    (h : storeEngine.Exec (insertAdmission admission resolution evidence) held s r held' t) :
    (∀ e ∈ s.envelopes.rows, e.id ≠ admission.envelopeID ∧ e.runID ≠ admission.runID) ∧
      Store.Evidenced { s with
        runs := s.runs.put (admittedRun admission)
        envelopes := s.envelopes.put ⟨admission.envelopeID, admission.runID, none, 1⟩ } t ∧
      ∃ e, Enters admission s t e := by
  obtain ⟨_, _, _, hrun, h₅⟩ := exec_bind.mp h.vetted.vetted
  obtain ⟨hfresh, _, rfl⟩ := exec_insert.mp hrun
  obtain ⟨_, _, _, henvelope, h₆⟩ := exec_bind.mp h₅
  obtain ⟨hfree, _, rfl⟩ := exec_insert.mp henvelope
  obtain ⟨_, _, _, hevent, h₇⟩ := exec_bind.mp h₆
  obtain ⟨_, rfl, hevents, hclash⟩ := exec_insertEvent hevent
  obtain ⟨_, _, rfl⟩ := exec_evidence h₇
  refine ⟨fun e he => by simpa [not_or] using hfree e he, ⟨_, _, _, _, rfl⟩, _,
    get_eq_none_iff.mpr fun x hx => ?_, rfl, ⟨rfl, rfl, rfl, rfl⟩, rfl, hclash, hevents, rfl⟩
  simpa using hfresh x hx

theorem exec_admitRun
    (h : storeEngine.Exec (admitRun dep admission resolution evidence) held s r held' t) :
    (∃ e, Enters admission s t e) ∧ t.desk = s.desk ∧ ∃ grants,
      admissionGrants dep admission resolution evidence = .ok grants ∧
      Admits dep admission none grants s t := by
  obtain ⟨grants, hok, h₁⟩ := exec_bind_ofExcept.mp h
  obtain ⟨_, _, _, hversion, h₂⟩ := exec_bind.mp h₁
  obtain ⟨_, _, _, _, rfl⟩ := exec_lock.mp hversion
  obtain ⟨_, _, _, hadmission, hloop⟩ := exec_bind.mp h₂
  obtain ⟨henvelope, ⟨_, _, _, _, rfl⟩, e, henters⟩ := exec_insertAdmission hadmission
  obtain ⟨accounts, hposts, rfl⟩ := exec_issueRootGrants hloop
  exact ⟨⟨e, henters.frame rfl⟩, rfl, grants, hok, henters.run_fresh, henvelope, by rintro p ⟨⟩, hposts,
    _, _, _, _, rfl⟩

/-- What a committed child admission did: an admission linked to the parent, then a reservation. -/
structure Delegates (dep : Deployment) (admission : RunAdmission) (grants : List RootResourceGrant)
    (reservation : ResourceReservation) (row : Reservation) (s mid t : Store) : Prop where
  admits : Admits dep admission (some reservation.parentEnvelopeID) grants s mid
  reserves : Reserves dep reservation row mid t
  child_run : reservation.childRunID = admission.runID
  child_envelope : reservation.childEnvelopeID = admission.envelopeID

theorem exec_admitChildRun
    {requested : ResourceReservation}
    (h : storeEngine.Exec (admitChildRun dep admission resolution evidence requested) held s out
      held' t) :
    (∃ e, Enters admission s t e) ∧ t.desk = s.desk ∧ ∃ grants row mid,
      admissionGrants dep admission resolution evidence = .ok grants ∧
      validateAndSortResourceReservation requested = .ok out ∧
      Delegates dep admission grants out row s mid t := by
  obtain ⟨⟨_, hchildRun, hchildEnvelope, _⟩, h₁⟩ := exec_bind_require.mp h
  obtain ⟨_, _, _, hadmit, h₂⟩ := exec_bind.mp h₁
  obtain ⟨⟨entry, henters⟩, hdesk, grants, hok, hrun, henvelope, _, hposts, _, _, _, _, hadmitted⟩ :=
    exec_admitRun hadmit
  obtain ⟨_, _, _, hparent, h₃⟩ := exec_bind.mp h₂
  obtain ⟨rfl, _, hexists⟩ := exec_lockParentResourceEnvelope hparent
  obtain ⟨_, _, mid, hlink, h₄⟩ := exec_bind.mp h₃
  obtain ⟨old, e, hold, hchange, _, hmid⟩ := exec_update.mp hlink
  obtain ⟨hvalid, _, row, hreserves⟩ := exec_reserveChildResources h₄
  obtain ⟨_, _, hparentID, hchildID, hrunID, _, _, hne, _⟩ := validateAndSort_spec hvalid
  have hkept : t.journal = mid.journal ∧ t.desk = mid.desk := by
    rw [hreserves.store_eq]
    exact ⟨rfl, rfl⟩
  refine ⟨⟨entry, henters.frame (hkept.1.trans (by rw [hmid]; rfl))⟩,
    hkept.2.trans ((by rw [hmid]; rfl : mid.desk = _).trans hdesk), grants, row, mid, hok, hvalid,
    ⟨hrun, henvelope, ?_, ?_, ?_⟩, hreserves, hrunID.trans hchildRun, hchildID.trans hchildEnvelope⟩
  · -- The parent is not the envelope that the admission inserted.
    rintro p ⟨⟩
    rw [hparentID]
    rw [hadmitted] at hexists
    dsimp only at hexists
    rwa [get_put_of_ne] at hexists
    rw [← hparentID]
    exact fun heq => hne (heq.trans (hchildID.trans hchildEnvelope).symm)
  · rw [hmid]
    exact hposts
  · -- The linked row is the one that the admission inserted.
    rw [hadmitted] at hold hmid
    have hinserted := get_put_self s.envelopes
      (⟨admission.envelopeID, admission.runID, none, 1⟩ : Envelope)
    have hsame := Option.some.inj (hinserted.symm.trans hold)
    subst hsame
    simp only [ne_eq, not_true_eq_false, if_false] at hchange
    split_ifs at hchange
    cases hchange
    rw [hmid, hparentID]
    simp only [apply_envelope, put_put]
    exact ⟨_, _, _, _, rfl⟩

end AgentGovernor
