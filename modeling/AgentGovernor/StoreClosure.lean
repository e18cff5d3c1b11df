import AgentGovernor.StoreBalance

/-! What a closed delegation leaves behind. Closing a child returns what it has left to its parent and
keeps the child's balance rows, so these rows must not be spent again. Neither the constraints of a
child admission nor the parent it names is checked for that by the governor; under the conditions stated
here on the requests, the balances of a closed child are frozen. -/

namespace AgentGovernor

open Ledger Table Transaction Sample Option
open List hiding get_of_mem

variable {held : List Lock} {s t : Store} {dep : Deployment} {request : Request}
  {link : Option ID}

/-! ### Requests that delegate with care -/

/-- The constraints grant no consumable dimension of the tenant. -/
def StructuralOnly (dep : Deployment) (constraints : Constraints) : Prop :=
  ∀ entry ∈ rootResourceConstraintDimensions, (constraints.lookup entry.1).isSome = true →
    ((dep.byName entry.2).all fun d => d.resourceClass ≠ .consumable) = true

instance (dep : Deployment) (constraints : Constraints) : Decidable (StructuralOnly dep constraints) :=
  inferInstanceAs (Decidable (∀ entry ∈ rootResourceConstraintDimensions, _))

/-- The envelope has no reservation of its own, or an open one. -/
def Spendable (s : Store) (e : ID) : Prop :=
  ∀ r ∈ s.reservations.rows, r.childEnvelopeID = e → r.state = .opened

instance (s : Store) (e : ID) : Decidable (Spendable s e) :=
  inferInstanceAs (Decidable (∀ r ∈ s.reservations.rows, _))

/-- What a request delegates: the constraints of the child it admits and the reservation it asks for. -/
def Request.delegation : Request → Option (Constraints × ResourceReservation)
  | .admitChildRun _ resolution _ reservation =>
    some (resolution.resolvedConstraints.getD [], reservation)
  | .reserveChildResources reservation => some ([], reservation)
  | _ => none

/-- A delegation grants consumables by its reservation alone, out of an envelope that is not settled. -/
def Request.Prudent (dep : Deployment) (s : Store) (request : Request) : Prop :=
  ∀ d ∈ request.delegation, StructuralOnly dep d.1 ∧ Spendable s d.2.parentEnvelopeID

instance (dep : Deployment) (s : Store) (request : Request) : Decidable (request.Prudent dep s) :=
  inferInstanceAs (Decidable (∀ d ∈ request.delegation, _))

/-- Prudence only looks at the reservations. -/
theorem Request.Prudent.of_reservations (h : request.Prudent dep s)
    (hsame : t.reservations = s.reservations) : request.Prudent dep t := by
  intro d hd
  have hd := h d hd
  unfold Spendable at hd ⊢
  rwa [hsame]

theorem Request.Reserves.delegation {requested : ResourceReservation} (h : request.Reserves requested) :
    ∃ constraints, request.delegation = some (constraints, requested) := by
  rcases h with rfl | ⟨_, _, _, rfl⟩
  · exact ⟨_, rfl⟩
  · exact ⟨_, rfl⟩

/-- What prudent moves do: a linked envelope is admitted without consumables, and a reservation is
opened on an envelope that is not settled. -/
structure Careful (dep : Deployment) (s t : Store) : Prop where
  structural : ∀ id e p d g, s.envelopes.get id = none → t.envelopes.get id = some e →
    e.parentEnvelopeID = some p → t.grants.get (id, d) = some g → dep.consumable d = false
  spendable : ∀ id r, s.reservations.get id = none → t.reservations.get id = some r →
    Spendable s r.parentEnvelopeID

variable {d e : ID} {v : Int}

/-- Structural constraints issue no consumable account. -/
theorem StructuralOnly.not_consumable {constraints : Constraints} {grants : List RootResourceGrant}
    {e' : ID} (h : StructuralOnly dep constraints)
    (hgrants : rootResourceGrants constraints = .ok grants)
    (hissue : .issue e' d v ∈ rootEntries dep e grants) : dep.consumable d = false := by
  obtain ⟨g, hg, hentry⟩ := mem_filterMap.mp hissue
  obtain ⟨dimension, hname, hsame⟩ := map_eq_some_iff.mp hentry
  cases hsame
  obtain ⟨entry, hmem, hdimension, hsome⟩ :=
    ((rootResourceGrants_spec hgrants).2.2 g.dimensionName).mp ⟨g, hg, rfl⟩
  have hclass := h entry hmem hsome
  rw [hdimension, hname] at hclass
  rw [Deployment.consumable, (Deployment.byName_spec hname).2]
  simpa using hclass

theorem Moves.careful (h : Moves dep request held s t link) (hprudent : request.Prudent dep s)
    (hplaced : Placed s) : Careful dep s t := by
  constructor
  · intro id e p d g hnone he hparent hg
    rcases h.envelope_origin he with ⟨e₀, hold, _⟩ | ⟨hlink, _⟩
    · rw [hnone] at hold
      cases hold
    · rw [hparent] at hlink
      cases h with
      | admitRun admission resolution _ _ grants hrequest hgrants h =>
        rcases hrequest with ⟨_, hroot⟩ | ⟨_, _, _, _, hroot⟩ | ⟨requested, rfl, _⟩
        · rw [← hlink] at hroot
          cases hroot
        · rw [← hlink] at hroot
          cases hroot
        · rcases h.posts.grant_origin hg with hold | hissue
          · -- An account has its envelope, and this one is new.
            obtain ⟨b, hb⟩ := hplaced.balance _ g hold
            obtain ⟨e₀, he₀⟩ := hplaced.envelope _ b hb
            rw [hnone] at he₀
            cases he₀
          · exact (hprudent _ rfl).1.not_consumable (admissionGrants_spec hgrants) hissue
      | idle _ => cases hlink
      | reserve _ _ _ _ _ _ => cases hlink
      | meter _ _ _ _ _ _ => cases hlink
      | extend _ _ _ _ _ _ _ _ _ => cases hlink
      | close _ _ _ _ _ => cases hlink
  · intro id r hnone hr
    obtain ⟨requested, reservation, hrequest, hvalid, hreserves⟩ := h.opens hnone hr
    obtain ⟨constraints, hdelegation⟩ := hrequest.delegation
    rw [hreserves.columns.1, (validateAndSort_spec hvalid).2.2.1]
    exact (hprudent _ hdelegation).2

/-- A property that careful moves keep is kept by the commits of prudent requests. -/
theorem Transition.careful {P : Store → Prop} (h : Transition dep request held s t)
    (hprudent : request.Prudent dep s) (hplaced : ∀ s, P s → Placed s)
    (hmoves : ∀ s t link, Moves dep request held s t link → Careful dep s t → P s → P t)
    (hs : P s) : P t := by
  cases h with
  | single h => exact hmoves _ _ _ h (h.careful hprudent (hplaced s hs)) hs
  | delegate admission resolution evidence grants requested reservation row mid hrequest hgrants
      hvalid h =>
    obtain ⟨hadmits, hreserves⟩ := h.moves held hrequest hgrants hvalid
    have hmid := hmoves _ _ _ hadmits (hadmits.careful hprudent (hplaced s hs)) hs
    have hstill := hprudent.of_reservations h.admits.store_eq.reservations
    exact hmoves _ _ _ hreserves (hreserves.careful hstill (hplaced mid hmid)) hmid

/-! ### The invariant of prudent histories -/

/-- Every consumable account of a child is an item of its reservation. -/
def Backed (dep : Deployment) (s : Store) : Prop :=
  ∀ id e p d g, s.envelopes.get id = some e → e.parentEnvelopeID = some p →
    s.grants.get (id, d) = some g → dep.consumable d = true →
      ∃ r ∈ s.reservations.rows, r.Covers id d g.grantedValue

/-- A reservation that is still open is not one of a settled envelope. -/
def Sealed (s : Store) : Prop :=
  ∀ r ∈ s.reservations.rows, ∀ r' ∈ s.reservations.rows, r.state ≠ .opened → r'.state = .opened →
    r'.parentEnvelopeID ≠ r.childEnvelopeID

theorem Moves.covers_kept (h : Moves dep request held s t link)
    (hcovers : ∃ r ∈ s.reservations.rows, r.Covers e d v) :
    ∃ r ∈ t.reservations.rows, r.Covers e d v := by
  obtain ⟨r, hr, hchild, hitem⟩ := hcovers
  obtain ⟨r', hr', hkeep⟩ := h.keeps.reservations _ r (get_of_mem hr)
  obtain ⟨_, _, hchild', _, hitems⟩ := hkeep.columns
  exact ⟨r', mem_of_get hr', hchild'.trans hchild, hitems ▸ hitem⟩

theorem Backed.moves (hs : Backed dep s) (h : Moves dep request held s t link)
    (hcareful : Careful dep s t) : Backed dep t := by
  intro id e p d g he hparent hg hconsumable
  cases hold : s.envelopes.get id with
  | none =>
    have hstructural := hcareful.structural id e p d g hold he hparent hg
    rw [hconsumable] at hstructural
    cases hstructural
  | some e₀ =>
    obtain ⟨e', he', hkeep⟩ := h.keeps.envelopes _ e₀ hold
    have hsame : e = e' := Option.some.inj (he.symm.trans he')
    subst hsame
    obtain ⟨entries, hposts, hissued⟩ := h.posts
    rcases hposts.grant_origin hg with hgrant | hissue
    · exact h.covers_kept (hs id e₀ p d g hold (hkeep.parentEnvelopeID ▸ hparent) hgrant hconsumable)
    · rcases (hissued _ _ _ hissue).2 with hnone | hcovers
      · rw [hold] at hnone
        cases hnone
      · exact hcovers

/-- Of items with different dimensions only one has a given dimension. -/
theorem sum_of_mem_of_nodup {ι : Type} {items : List ι} {dimension : ι → ID} (value : ι → Int)
    (h : (items.map dimension).Nodup) {i : ι} (hi : i ∈ items) :
    (items.map fun j => if dimension j = dimension i then value j else 0).sum = value i := by
  induction items with
  | nil => exact absurd hi not_mem_nil
  | cons j items ih =>
    rw [map_cons, nodup_cons] at h
    rw [map_cons, sum_cons]
    rcases mem_cons.mp hi with rfl | hi
    · have hrest : (items.map fun j => if dimension j = dimension i then value j else 0).sum = 0 := by
        apply sum_eq_zero
        intro n hn
        obtain ⟨j, hj, rfl⟩ := List.mem_map.mp hn
        rw [if_neg]
        exact fun hsame => h.1 (hsame ▸ List.mem_map_of_mem hj)
      rw [hrest, if_pos rfl, add_zero]
    · have hne : dimension j ≠ dimension i := fun hsame => h.1 (hsame ▸ List.mem_map_of_mem hi)
      rw [if_neg hne, ih h.2 hi, zero_add]

variable {id : ID} {r : Reservation}

theorem Delegated.reserved_of_mem (hs : Delegated dep s)
    (hr : s.reservations.get id = some r) {i : ReservationItem} (hi : i ∈ r.items) :
    r.reserved i.dimensionID = i.reservedValue :=
  sum_of_mem_of_nodup ReservationItem.reservedValue (hs.nodup id r hr) hi

theorem Delegated.reserved_nonneg (hs : Delegated dep s)
    (hr : s.reservations.get id = some r) (d : ID) : 0 ≤ r.reserved d := by
  apply sum_nonneg
  intro n hn
  obtain ⟨i, hi, rfl⟩ := List.mem_map.mp hn
  have hpositive := hs.positive id r hr i hi
  split_ifs <;> omega

/-- An open reservation is part of its parent's open allocation. -/
theorem Delegated.reserved_le_openReserved (hs : Delegated dep s)
    (hr : r ∈ s.reservations.rows) (hopen : r.state = .opened) (d : ID) :
    r.reserved d ≤ openReserved s r.parentEnvelopeID d := by
  have hnonneg : ∀ r' ∈ s.reservations.rows,
      0 ≤ if r'.parentEnvelopeID = r.parentEnvelopeID ∧ r'.state = .opened then r'.reserved d else 0 := by
    intro r' hr'
    have hreserved := hs.reserved_nonneg (get_of_mem hr') d
    split_ifs <;> omega
  have hle := le_total hnonneg hr
  simp only [hopen, and_self, if_true] at hle
  exact hle

variable {x : Settlement}

/-- A close finds no open reservation below the child: the child has no open allocation on the items
of its own reservation, and these are all its consumable accounts. -/
theorem Closes.no_open_child {r₀ r₁ : Reservation} (h : Closes dep x r₀ r₁ s t)
    (hsound : Sound dep s) (hbalanced : Balanced s) (hbacked : Backed dep s)
    (hr : r ∈ s.reservations.rows) (hopen : r.state = .opened) :
    r.parentEnvelopeID ≠ r₀.childEnvelopeID := by
  intro hparent
  have hget := get_of_mem hr
  obtain ⟨i, hi⟩ := exists_mem_of_ne_nil _ (hsound.delegated.nonempty _ r hget)
  have hpositive := hsound.delegated.positive _ r hget i hi
  obtain ⟨_, b, hb⟩ := hsound.delegated.accounts _ r hget i hi
  obtain ⟨g, hg⟩ := hsound.placed.grant _ b hb
  obtain ⟨e, he, _, hlink⟩ := hsound.delegated.child _ r₀ h.reservation
  rw [hparent] at hg
  obtain ⟨r', hr', hchild, j, hj, hdimension, _⟩ :=
    hbacked _ e _ i.dimensionID g he hlink hg (hsound.delegated.consumable _ r hget i hi)
  have hown : r' = r₀ := by
    have hid := hsound.delegated.unique _ _ r' r₀ (get_of_mem hr') h.reservation hchild
    have hget' := get_of_mem hr'
    rw [hid, h.reservation] at hget'
    exact (Option.some.inj hget').symm
  subst hown
  -- The item was locked with an open allocation of zero, although this reservation holds a part of it.
  have hzero : s.accounts.allocatedOpen r'.childEnvelopeID i.dimensionID = 0 := by
    rw [← hdimension]
    refine (h.valid (lockedItem s r' j) ?_).1
    rw [hsound.delegated.joinedItems_eq h.reservation]
    exact List.mem_map_of_mem ((perm_insertionSort _ _).mem_iff.mpr hj)
  have hreserved := hsound.delegated.reserved_of_mem hget hi
  have hheld := hsound.delegated.reserved_le_openReserved hr hopen i.dimensionID
  have hallocated := hbalanced.allocated r'.childEnvelopeID i.dimensionID
  rw [hparent] at hheld
  omega

theorem Sealed.moves (hs : Sealed s) (h : Moves dep request held s t link)
    (hcareful : Careful dep s t) (hsound : Sound dep s) (hbalanced : Balanced s)
    (hbacked : Backed dep s) : Sealed t := by
  intro r hr r' hr' hclosed hopen hparent
  have hget := get_of_mem hr
  have hget' := get_of_mem hr'
  rcases h.reservation_origin hget' with hold' | ⟨_, _, _, _, hreserves⟩ | ⟨_, _, _, hcloses⟩
  · rcases h.reservation_origin hget with hold | ⟨_, _, _, _, hreserves⟩ | ⟨x, r₀, _, hcloses⟩
    · exact hs r (mem_of_get hold) r' (mem_of_get hold') hclosed hopen hparent
    · exact hclosed hreserves.columns.2.2.2
    · rw [hcloses.keep.columns.2.2.1] at hparent
      exact hcloses.no_open_child hsound hbalanced hbacked (mem_of_get hold') hopen hparent
  · -- The parent of a reservation that is opened is not settled before, and its reservation stays.
    have hspendable := hcareful.spendable r'.id r' hreserves.row_none hget'
    rcases hreserves.only hget with hold | ⟨_, rfl⟩
    · exact hclosed (hspendable r (mem_of_get hold) hparent.symm)
    · exact hclosed hopen
  · exact hcloses.closed hopen

/-- The balances of a closed child are frozen. -/
theorem Moves.balance_frozen (h : Moves dep request held s t link) (hcareful : Careful dep s t)
    (hsound : Sound dep s) (hsealed : Sealed s)
    (hr : s.reservations.get id = some r) (hclosed : r.state ≠ .opened) (d : ID) :
    t.balances.get (r.childEnvelopeID, d) = s.balances.get (r.childEnvelopeID, d) := by
  obtain ⟨child, hchild, hrun, _⟩ := hsound.delegated.child id r hr
  have huntouched : ∀ {entries : List Entry}, Posts entries s.accounts t.accounts →
      (∀ x ∈ entries, x.account.1 ≠ r.childEnvelopeID) →
        t.balances.get (r.childEnvelopeID, d) = s.balances.get (r.childEnvelopeID, d) := by
    intro entries hposts hother
    exact (hposts.untouched fun x hx hsame => hother x hx (congrArg Prod.fst hsame)).2
  cases h with
  | idle h => rw [h.store_eq.balances]
  | admitRun admission _ _ _ _ _ _ h =>
    refine huntouched h.posts fun x hx hsame => ?_
    obtain ⟨g, _, hg⟩ := mem_filterMap.mp hx
    obtain ⟨_, _, rfl⟩ := map_eq_some_iff.mp hg
    have hnew := h.envelope_none
    rw [show admission.envelopeID = r.childEnvelopeID from hsame, hchild] at hnew
    cases hnew
  | reserve _ reservation row _ _ h =>
    have hspendable := hcareful.spendable row.id row h.row_none (by
      rw [h.evidenced.reservations, get_put_self])
    refine huntouched h.posts fun x hx hsame => ?_
    obtain ⟨i, _, hi⟩ := mem_flatMap.mp hx
    simp only [mem_cons, not_mem_nil, or_false] at hi
    rcases hi with rfl | rfl
    · exact hclosed (hspendable r (mem_of_get hr) hsame.symm)
    · have hne := (h.fresh r (mem_of_get hr)).2.1
      rw [← h.columns.2.1] at hne
      exact hne hsame.symm
  | meter _ usage target _ _ h =>
    refine huntouched h.posts fun x hx hsame => ?_
    cases mem_singleton.mp hx
    obtain ⟨e, he, heRun⟩ := h.envelope
    rw [show target.envelopeID = r.childEnvelopeID from hsame, hchild] at he
    cases he
    exact hclosed (h.reservation_open r (mem_of_get hr) hsame.symm (hrun ▸ heRun))
  | extend _ extension row e run _ _ _ h =>
    refine huntouched h.posts fun x hx hsame => ?_
    obtain ⟨i, _, rfl⟩ := List.mem_map.mp hx
    -- The child of a closed reservation is terminal, and a terminal run is not extended.
    obtain ⟨run₀, hrun₀, hterminal⟩ := hsound.settled.terminal id r hr hclosed
    have henvelope := h.envelope
    rw [← h.envelopeID, show row.envelopeID = r.childEnvelopeID from hsame, hchild] at henvelope
    cases henvelope
    have hget := h.run_get
    rw [← h.envelope_run, hrun, hrun₀] at hget
    cases hget
    rw [h.run_active] at hterminal
    cases hterminal
  | close x r₀ _ h _ =>
    refine huntouched h.posts fun y hy hsame => ?_
    obtain ⟨i, _, rfl⟩ := List.mem_map.mp hy
    exact hsealed r (mem_of_get hr) r₀ (mem_of_get h.reservation) hclosed h.opened hsame

/-- A settlement returned no more than its child still has. -/
def Returned (s : Store) : Prop :=
  ∀ id x r, s.settlements.get id = some x → s.reservations.get x.reservationID = some r →
    ∀ d, x.returned d ≤ s.accounts.available r.childEnvelopeID d

/-- A close returns what the child has. -/
theorem Closes.returned_le {r' : Reservation} (h : Closes dep x r r' s t)
    (hs : Delegated dep s) (d : ID) : x.returned d ≤ s.accounts.available r.childEnvelopeID d := by
  have hperm := (h.items_eq hs).map fun k : ID × Int × Int => if k.1 = d then k.2.2 else 0
  rw [List.map_map, List.map_map] at hperm
  have hreturned : x.returned d = (r.items.map fun i => if i.dimensionID = d then
      s.accounts.available r.childEnvelopeID i.dimensionID else 0).sum := hperm.sum_eq
  by_cases hitem : ∃ i ∈ r.items, i.dimensionID = d
  · obtain ⟨i, hi, rfl⟩ := hitem
    rw [hreturned, sum_of_mem_of_nodup (fun i : ReservationItem =>
      s.accounts.available r.childEnvelopeID i.dimensionID) (hs.nodup _ r h.reservation) hi]
  · have hzero : x.returned d = 0 := by
      rw [hreturned]
      apply sum_eq_zero
      intro n hn
      obtain ⟨i, hi, rfl⟩ := List.mem_map.mp hn
      exact if_neg fun hsame => hitem ⟨i, hi, hsame⟩
    rw [hzero]
    exact s.accounts.available_nonneg _ d

theorem Returned.moves (hs : Returned s) (h : Moves dep request held s t link)
    (hcareful : Careful dep s t) (hsound : Sound dep s) (hbalanced : Balanced s)
    (hbacked : Backed dep s) (hsealed : Sealed s) : Returned t := by
  intro id x r hx hr d
  rcases h.settlement_origin hx with hold | ⟨_, r₀, r₁, hcloses⟩
  · obtain ⟨r₀, hr₀, hclosed, _⟩ := hsound.settled.reservation id x hold
    obtain ⟨r', hr', hkeep⟩ := h.keeps.reservations _ r₀ hr₀
    have hsame : r' = r₀ := by
      rcases hkeep with rfl | ⟨hopen, _⟩
      · rfl
      · exact absurd hopen hclosed
    rw [hr', hsame] at hr
    cases hr
    have hfrozen := h.balance_frozen hcareful hsound hsealed hr₀ hclosed d
    have havailable : t.accounts.available r.childEnvelopeID d =
        s.accounts.available r.childEnvelopeID d := by
      simp only [Accounts.available, Store.accounts, Table.column, hfrozen]
    rw [havailable]
    exact hs id x r hold hr₀ d
  · rw [hcloses.store_eq.reservations, ← hcloses.row_id, get_put_self] at hr
    cases hr
    -- The close posts to the parent, which is not the child.
    have hne := hcloses.no_open_child hsound hbalanced hbacked
      (mem_of_get hcloses.reservation) hcloses.opened
    have huntouched : ∀ y ∈ x.entries r₀.parentEnvelopeID, y.account ≠ (r₀.childEnvelopeID, d) := by
      intro y hy hsame
      obtain ⟨i, _, rfl⟩ := List.mem_map.mp hy
      exact hne (congrArg Prod.fst hsame)
    have havailable : t.accounts.available r₀.childEnvelopeID d =
        s.accounts.available r₀.childEnvelopeID d := by
      simp only [Accounts.available, Table.column, (hcloses.posts.untouched huntouched).2]
    rw [hcloses.keep.columns.2.2.1, havailable]
    exact hcloses.returned_le hsound.delegated d

/-- What holds of a tenant after a prudent history. -/
structure Intact (dep : Deployment) (s : Store) : Prop where
  sound : Sound dep s
  balanced : Balanced s
  backed : Backed dep s
  isSealed : Sealed s
  returned : Returned s

theorem Intact.empty : Intact dep Store.empty where
  sound := Sound.empty
  balanced := Balanced.empty
  backed := by
    intro _ _ _ _ _ he
    cases he
  isSealed := by
    intro _ hr
    cases hr
  returned := by
    intro _ _ _ hx
    cases hx

theorem Intact.moves (hs : Intact dep s) (h : Moves dep request held s t link)
    (hcareful : Careful dep s t) : Intact dep t where
  sound := hs.sound.moves h
  balanced := hs.balanced.moves h hs.sound
  backed := hs.backed.moves h hcareful
  isSealed := hs.isSealed.moves h hcareful hs.sound hs.balanced hs.backed
  returned := hs.returned.moves h hcareful hs.sound hs.balanced hs.backed hs.isSealed

/-- Closed reservations and the balances of their children stay as they are. -/
def Freezes (s t : Store) : Prop :=
  ∀ id r, s.reservations.get id = some r → r.state ≠ .opened → t.reservations.get id = some r ∧
    ∀ d, t.balances.get (r.childEnvelopeID, d) = s.balances.get (r.childEnvelopeID, d)

theorem Freezes.refl (s : Store) : Freezes s s := fun _ _ hr _ => ⟨hr, fun _ => rfl⟩

theorem Freezes.trans {u : Store} (h : Freezes s t) (h' : Freezes t u) : Freezes s u := by
  intro id r hr hclosed
  obtain ⟨hr', hbalances⟩ := h id r hr hclosed
  obtain ⟨hr'', hbalances'⟩ := h' id r hr' hclosed
  exact ⟨hr'', fun d => (hbalances' d).trans (hbalances d)⟩

theorem Intact.freezes (hs : Intact dep s) (h : Moves dep request held s t link)
    (hcareful : Careful dep s t) : Freezes s t := by
  intro id r hr hclosed
  refine ⟨?_, h.balance_frozen hcareful hs.sound hs.isSealed hr hclosed⟩
  obtain ⟨r', hr', hkeep⟩ := h.keeps.reservations _ r hr
  rcases hkeep with rfl | ⟨hopen, _⟩
  · exact hr'
  · exact absurd hopen hclosed

theorem Transition.intact (h : Transition dep request held s t) (hprudent : request.Prudent dep s)
    (hs : Intact dep s) : Intact dep t ∧ Freezes s t := by
  refine h.careful (P := fun u => Intact dep u ∧ Freezes s u) hprudent
    (fun _ hu => hu.1.sound.placed) ?_ ⟨hs, Freezes.refl s⟩
  intro u v link hmove hcareful ⟨hu, hfrozen⟩
  exact ⟨hu.moves hmove hcareful, hfrozen.trans (hu.freezes hmove hcareful)⟩

/-- After a history of prudent requests the tenant is intact, and what was closed stays frozen. -/
theorem Reachable.intact {governor : Governor} (h : Reachable dep governor)
    (hprudent : ∀ c ∈ governor.log, c.request.Prudent dep c.before) :
    Intact dep governor.committed ∧ ∀ c ∈ governor.log,
      Intact dep c.before ∧ Freezes c.after governor.committed := by
  obtain ⟨hend, hlog⟩ := h.history.invariant_where (P := Intact dep)
    (C := fun c => c.request.Prudent dep c.before) Intact.empty
    (fun request response s t hcommit hprudent hs => by
      obtain ⟨held, htransition⟩ := commits_transition hcommit
      exact (htransition.intact hprudent hs).1) hprudent
  have hfreezes := h.history.since Freezes.refl (fun _ _ _ => Freezes.trans) fun c hc => by
    obtain ⟨hbefore, _, hcommit⟩ := hlog c hc
    obtain ⟨held, htransition⟩ := commits_transition hcommit
    exact (htransition.intact (hprudent c hc) hbefore).2
  exact ⟨hend, fun c hc => ⟨(hlog c hc).1, hfreezes c hc⟩⟩

/-! ### Closed delegations -/

/-- The run of the envelope is not terminal. -/
def ActiveEnvelope (s : Store) (e : ID) : Prop :=
  ∀ row ∈ s.envelopes.get e, ∀ run ∈ s.runs.get row.runID, run.state.terminal = false

instance (s : Store) (e : ID) : Decidable (ActiveEnvelope s e) :=
  inferInstanceAs (Decidable (∀ row ∈ s.envelopes.get e, ∀ run ∈ s.runs.get row.runID, _))

/-- The child of a closed reservation is terminal. -/
theorem Sound.spendable (hs : Sound dep s) (h : ActiveEnvelope s e) : Spendable s e := by
  intro r hr hchild
  by_contra hclosed
  have hget := get_of_mem hr
  obtain ⟨row, hrow, hrunID, _⟩ := hs.delegated.child _ r hget
  obtain ⟨run, hrun, hterminal⟩ := hs.settled.terminal _ r hget hclosed
  rw [hchild] at hrow
  rw [← hrunID] at hrun
  have hactive := h row hrow run hrun
  rw [hterminal] at hactive
  cases hactive

/-- A delegation grants consumables by its reservation alone, out of an envelope whose run is not
terminal. -/
def Request.FromActive (dep : Deployment) (s : Store) (request : Request) : Prop :=
  ∀ d ∈ request.delegation, StructuralOnly dep d.1 ∧ ActiveEnvelope s d.2.parentEnvelopeID

instance (dep : Deployment) (s : Store) (request : Request) : Decidable (request.FromActive dep s) :=
  inferInstanceAs (Decidable (∀ d ∈ request.delegation, _))

theorem Request.FromActive.prudent (h : request.FromActive dep s) (hs : Sound dep s) :
    request.Prudent dep s :=
  fun d hd => ⟨(h d hd).1, hs.spendable (h d hd).2⟩

/-- The parent of a reservation that a commit opens has a run that is not terminal. -/
theorem Transition.parent_active (h : Transition dep request held s t)
    (hactive : request.FromActive dep s) (hs : Sound dep s)
    (hnone : s.reservations.get id = none) (hr : t.reservations.get id = some r) :
    ∃ e run, t.envelopes.get r.parentEnvelopeID = some e ∧ t.runs.get e.runID = some run ∧
      run.state.terminal = false := by
  cases h with
  | single h =>
    obtain ⟨requested, reservation, hrequest, hvalid, hreserves⟩ := h.opens hnone hr
    obtain ⟨constraints, hdelegation⟩ := hrequest.delegation
    obtain ⟨e, he⟩ := hreserves.topology.parent_exists
    obtain ⟨run, hrun⟩ := hs.placed.run _ e he
    have hparent := (validateAndSort_spec hvalid).2.2.1
    refine ⟨e, run, ?_, ?_, (hactive _ hdelegation).2 e (hparent ▸ he) run hrun⟩
    · rw [hreserves.evidenced.envelopes, hreserves.columns.1]
      exact he
    · rw [hreserves.evidenced.runs]
      exact hrun
  | delegate admission resolution evidence grants requested reservation row mid hrequest hgrants
      hvalid h =>
    have hparent := (validateAndSort_spec hvalid).2.2.1
    have hrow : r = row := by
      rcases h.reserves.only hr with hold | ⟨_, hrow⟩
      · rw [h.admits.store_eq.reservations, hnone] at hold
        cases hold
      · exact hrow
    -- The parent was there before the admission, with a run of its own.
    obtain ⟨e, he⟩ := h.admits.parent_exists _ rfl
    obtain ⟨run, hrun⟩ := hs.placed.run _ e he
    obtain ⟨hneID, hneRun⟩ := h.admits.envelope_fresh e (mem_of_get he)
    have heID : e.id = reservation.parentEnvelopeID := key_of_get he
    have hdelegation : request.delegation =
        some (resolution.resolvedConstraints.getD [], requested) := by
      rw [hrequest]
      rfl
    refine ⟨e, run, ?_, ?_, (hactive _ hdelegation).2 e (hparent ▸ he) run hrun⟩
    · rw [hrow, h.reserves.columns.1, h.reserves.evidenced.envelopes, h.admits.store_eq.envelopes,
        get_put_of_ne]
      · exact he
      · exact heID ▸ hneID
    · rw [h.reserves.evidenced.runs, h.admits.store_eq.runs, get_put_of_ne]
      · exact hrun
      · exact hneRun

/-- No reservation was opened on an envelope whose run is terminal or whose own reservation is closed. -/
def OpensActive (governor : Governor) : Prop :=
  ∀ c ∈ governor.log, ∀ id r, c.before.reservations.get id = none →
    c.after.reservations.get id = some r →
      (∃ e run, c.after.envelopes.get r.parentEnvelopeID = some e ∧
        c.after.runs.get e.runID = some run ∧ run.state.terminal = false) ∧
      Spendable c.after r.parentEnvelopeID

/-- From the commit that closed a reservation on, it is closed and its child's balances are the same. -/
def StaysClosed (governor : Governor) : Prop := ∀ c ∈ governor.log, Freezes c.after governor.committed

/-- When every delegation grants consumables by its reservation alone, out of an envelope whose run is
not terminal, a closed delegation is not spent again. -/
theorem closed_delegation_unspent {governor : Governor} (h : Reachable dep governor)
    (hactive : ∀ c ∈ governor.log, c.request.FromActive dep c.before) :
    OpensActive governor ∧ StaysClosed governor := by
  have hsound := h.sound.2
  have hintact := (h.intact fun c hc => (hactive c hc).prudent (hsound c hc).1).2
  refine ⟨fun c hc id r hnone hr => ?_, fun c hc => (hintact c hc).2⟩
  obtain ⟨hbefore, hafter, hcommit⟩ := hsound c hc
  obtain ⟨held, htransition⟩ := commits_transition hcommit
  obtain ⟨e, run, he, hrun, hrunning⟩ := htransition.parent_active (hactive c hc) hbefore hnone hr
  refine ⟨⟨e, run, he, hrun, hrunning⟩, hafter.spendable ?_⟩
  intro row hrow run' hrun'
  rw [mem_def, he] at hrow
  cases hrow
  rw [mem_def, hrun] at hrun'
  cases hrun'
  exact hrunning

theorem Sample.story_active : ∀ c ∈ (after story).log,
    c.request.FromActive deployment c.before := by
  decide +kernel

theorem closed_delegation_unspent_story :
    OpensActive (after story) ∧ StaysClosed (after story) :=
  closed_delegation_unspent (reachable story) story_active

/-- A child reserves both calls of the root, ends and is settled; then a child of the settled child
reserves them again, and the two runs meter two calls each. -/
def Sample.respent : List Request :=
  provision ++ [admitRoot 100 (("max_tool_calls", .int 2) :: limits)] ++ start 100 ++
    [admitChild 200 100 limits 2] ++ start 200 ++ [complete 200, settle 600 200 "first",
    admitChild 300 200 limits 2] ++ start 300 ++ [meter 100 500, meter 300 510]

/-- The grandchild's reservation is opened on the settled child, whose balance it moves. -/
theorem Sample.respent_evaluated :
    ((after respent).log.any fun c => c.after.reservations.rows.any fun r =>
      (c.before.reservations.get r.id).isNone && c.after.reservations.rows.any fun own =>
        own.childEnvelopeID = r.parentEnvelopeID && own.state ≠ .opened) = true ∧
    ((after respent).log.any fun c => c.after.reservations.rows.any fun r =>
      r.state ≠ .opened &&
        (after respent).committed.balances.get (r.childEnvelopeID, .ofNat 11) ≠
          c.after.balances.get (r.childEnvelopeID, .ofNat 11)) = true := by
  decide +kernel

/-- Without the condition on the parent, both halves fail. -/
theorem closed_delegation_respent : Reachable deployment (after respent) ∧
    ¬OpensActive (after respent) ∧ ¬StaysClosed (after respent) := by
  obtain ⟨hopened, hmoved⟩ := respent_evaluated
  simp only [List.any_eq_true, Bool.and_eq_true, isNone_iff_eq_none, decide_eq_true_eq]
    at hopened hmoved
  refine ⟨reachable respent, fun hactive => ?_, fun hfrozen => ?_⟩
  · obtain ⟨c, hc, r, hr, hnone, own, hown, hchild, hclosed⟩ := hopened
    exact hclosed ((hactive c hc r.id r hnone (get_of_mem hr)).2 own hown hchild)
  · obtain ⟨c, hc, r, hr, hclosed, hchanged⟩ := hmoved
    exact hchanged ((hfrozen c hc r.id r (get_of_mem hr) hclosed).2 (.ofNat 11))

end AgentGovernor
