import AgentGovernor.BudgetTree
import AgentGovernor.StoreClosure
import Mathlib.Algebra.BigOperators.Group.Finset.Piecewise

/-! Delegation trees. The envelopes below a root are a budget tree whose edges are the reservations:
an open reservation charges its parent what it hands to its child, a settled one what the child
consumed. In a prudent history such a tree is never oversubscribed. -/

namespace AgentGovernor

open Ledger Table Transaction Sample Option

variable {s : Store} {dep : Deployment}

/-! ### Trees of envelopes -/

def ParentOf (s : Store) (p c : ID) : Prop :=
  ∃ e, s.envelopes.get c = some e ∧ e.parentEnvelopeID = some p

/-- The envelope is the root or one of its descendants. -/
def Within (s : Store) (root e : ID) : Prop := Relation.ReflTransGen (ParentOf s) root e

noncomputable instance (s : Store) (root : ID) : DecidablePred (Within s root) := Classical.decPred _

theorem Delegated.parentOf (hs : Delegated dep s) {id : ID} {r : Reservation}
    (hr : s.reservations.get id = some r) : ParentOf s r.parentEnvelopeID r.childEnvelopeID := by
  obtain ⟨e, he, _, hparent⟩ := hs.child id r hr
  exact ⟨e, he, hparent⟩

theorem Placed.parentOf_exists (hs : Placed s) {p c : ID} (h : ParentOf s p c) :
    ∃ e, s.envelopes.get p = some e := by
  obtain ⟨e, he, hparent⟩ := h
  exact hs.parent c e p he hparent

/-- The usage of a dimension in the tree of a root. -/
noncomputable def treeMetered (s : Store) (root d : ID) : Int :=
  s.usage.total fun u => if Within s root u.envelopeID ∧ u.dimensionID = d then u.quantityValue else 0

/-- The extensions of a dimension in the tree of a root. -/
noncomputable def treeExtended (s : Store) (root d : ID) : Int :=
  s.extensions.total fun x => if Within s root x.envelopeID then x.added d else 0

noncomputable def treeNodes (s : Store) (root : ID) : Finset ID :=
  s.envelopes.keys.filter (Within s root)

noncomputable def treeEdges (s : Store) (root : ID) : Finset Reservation :=
  s.reservations.rows.toFinset.filter fun r => Within s root r.parentEnvelopeID

theorem mem_treeNodes {root e : ID} :
    e ∈ treeNodes s root ↔ (∃ row, s.envelopes.get e = some row) ∧ Within s root e := by
  rw [treeNodes, Finset.mem_filter, mem_keys]

theorem mem_treeEdges {root : ID} {r : Reservation} :
    r ∈ treeEdges s root ↔ r ∈ s.reservations.rows ∧ Within s root r.parentEnvelopeID := by
  rw [treeEdges, Finset.mem_filter, List.mem_toFinset]

/-- The budget tree of a root. -/
noncomputable def budgetTree (hs : Sound dep s) {root : ID} {row : Envelope}
    (hroot : s.envelopes.get root = some row) (hparent : row.parentEnvelopeID = none) :
    Budget.Tree ID Reservation where
  nodes := treeNodes s root
  edges := treeEdges s root
  root := root
  parent := Reservation.parentEnvelopeID
  child := Reservation.childEnvelopeID
  root_mem := mem_treeNodes.mpr ⟨⟨row, hroot⟩, .refl⟩
  parent_mem r hr := by
    obtain ⟨hmem, hwithin⟩ := mem_treeEdges.mp hr
    exact mem_treeNodes.mpr
      ⟨hs.placed.parentOf_exists (hs.delegated.parentOf (get_of_mem hmem)), hwithin⟩
  child_mem r hr := by
    obtain ⟨hmem, hwithin⟩ := mem_treeEdges.mp hr
    have hchild := hs.delegated.parentOf (get_of_mem hmem)
    have hexists : ∃ e, s.envelopes.get r.childEnvelopeID = some e :=
      hchild.imp fun _ he => he.1
    exact mem_treeNodes.mpr ⟨hexists, hwithin.tail hchild⟩
  child_ne_root r hr := by
    obtain ⟨hmem, _⟩ := mem_treeEdges.mp hr
    obtain ⟨e, he, hlink⟩ := hs.delegated.parentOf (get_of_mem hmem)
    rintro rfl
    rw [hroot] at he
    cases he
    rw [hparent] at hlink
    cases hlink
  child_injOn r hr r' hr' hsame := by
    have hmem := (mem_treeEdges.mp hr).1
    have hmem' := (mem_treeEdges.mp hr').1
    exact s.reservations.eq_of_key_eq hmem hmem'
      (hs.delegated.unique _ _ r r' (get_of_mem hmem) (get_of_mem hmem') hsame)

/-! ### The sums of a tree -/

theorem treeMetered_eq (hs : Recorded dep s) (root d : ID) :
    treeMetered s root d = ∑ e ∈ treeNodes s root, metered s e d := by
  unfold treeMetered metered
  rw [sum_total]
  refine total_congr fun u hu => ?_
  obtain ⟨row, hrow, _⟩ := hs.usage _ u (get_of_mem hu)
  have hmem : u.envelopeID ∈ treeNodes s root ↔ Within s root u.envelopeID :=
    mem_treeNodes.trans (and_iff_right ⟨row, hrow⟩)
  by_cases hdimension : u.dimensionID = d
  · simp only [hdimension, and_true, Finset.sum_ite_eq, hmem]
  · simp only [hdimension, and_false, if_false, Finset.sum_const_zero]

theorem treeExtended_eq (hs : Sound dep s) (root d : ID) :
    treeExtended s root d = ∑ e ∈ treeNodes s root, extendedValue s e d := by
  unfold treeExtended extendedValue
  rw [sum_total]
  refine total_congr fun x hx => ?_
  rw [Finset.sum_ite_eq]
  by_cases hitems : x.items = []
  · -- An extension without items only moves a deadline.
    have hzero : x.added d = 0 := by
      rw [Extension.added, hitems]
      rfl
    rw [hzero, ite_self, ite_self]
  · obtain ⟨i, hi⟩ := List.exists_mem_of_ne_nil _ hitems
    obtain ⟨_, _, b, hb⟩ := hs.recorded.extension _ x (get_of_mem hx) i hi
    have hmem : x.envelopeID ∈ treeNodes s root ↔ Within s root x.envelopeID :=
      mem_treeNodes.trans (and_iff_right (hs.placed.envelope _ b hb))
    simp only [hmem]

/-- What a reservation charges to its parent. -/
def charge (s : Store) (d : ID) (r : Reservation) : Int :=
  if r.state = .opened then r.reserved d
  else s.settlements.total fun x => if x.reservationID = r.id then x.consumed d else 0

/-- A settlement charges the account that its reservation charges. -/
theorem settledBy_eq_sum (s : Store) (e d : ID) (x : Settlement) :
    settledBy s e d x = ∑ r ∈ s.reservations.rows.toFinset with r.parentEnvelopeID = e,
      if r.state = .opened then 0 else if x.reservationID = r.id then x.consumed d else 0 := by
  have hother : ∀ r ∈ s.reservations.rows, s.reservations.get x.reservationID ≠ some r →
      x.reservationID ≠ r.id := by
    intro r hr hne hid
    exact hne (hid ▸ get_of_mem hr)
  unfold settledBy
  cases hget : s.reservations.get x.reservationID with
  | none =>
    refine (Finset.sum_eq_zero fun r hr => ?_).symm
    have hmem := List.mem_toFinset.mp (Finset.mem_filter.mp hr).1
    rw [if_neg (hother r hmem (by rw [hget]; exact nofun)), ite_self]
  | some r =>
    have hid : r.id = x.reservationID := key_of_get hget
    have hzero : ∀ r' ∈ s.reservations.rows.toFinset.filter (·.parentEnvelopeID = e), r' ≠ r →
        (if r'.state = .opened then 0
          else if x.reservationID = r'.id then x.consumed d else 0) = 0 := by
      intro r' hr' hne
      have hmem := List.mem_toFinset.mp (Finset.mem_filter.mp hr').1
      rw [if_neg (hother r' hmem (by rw [hget]; exact fun h => hne (Option.some.inj h).symm)),
        ite_self]
    by_cases hparent : r.parentEnvelopeID = e
    · have hr : r ∈ s.reservations.rows.toFinset.filter (·.parentEnvelopeID = e) :=
        Finset.mem_filter.mpr ⟨List.mem_toFinset.mpr (mem_of_get hget), hparent⟩
      rw [Finset.sum_eq_single_of_mem r hr hzero, if_pos hid.symm]
      simp only [elim_some, hparent, true_and, ne_eq, ite_not]
    · rw [Finset.sum_eq_zero]
      · simp only [elim_some, hparent, false_and, if_false]
      · intro r' hr'
        refine hzero r' hr' ?_
        rintro rfl
        exact hparent (Finset.mem_filter.mp hr').2

/-- The reservations of an envelope charge its open allocation and its settled consumption. -/
theorem sum_charge (s : Store) (e d : ID) :
    ∑ r ∈ s.reservations.rows.toFinset with r.parentEnvelopeID = e, charge s d r =
      openReserved s e d + settledConsumption s e d := by
  have hopen : openReserved s e d = ∑ r ∈ s.reservations.rows.toFinset with r.parentEnvelopeID = e,
      if r.state = .opened then r.reserved d else 0 := by
    rw [openReserved, total_eq_sum_rows, Finset.sum_filter]
    refine Finset.sum_congr rfl fun r _ => ?_
    by_cases hparent : r.parentEnvelopeID = e <;> simp [hparent]
  have hsettled : settledConsumption s e d =
      ∑ r ∈ s.reservations.rows.toFinset with r.parentEnvelopeID = e,
        if r.state = .opened then 0
        else s.settlements.total fun x => if x.reservationID = r.id then x.consumed d else 0 := by
    calc settledConsumption s e d
        = s.settlements.total fun x => ∑ r ∈ s.reservations.rows.toFinset with r.parentEnvelopeID = e,
            if r.state = .opened then 0 else if x.reservationID = r.id then x.consumed d else 0 :=
          total_congr fun x _ => settledBy_eq_sum s e d x
      _ = _ := by
          rw [← sum_total]
          refine Finset.sum_congr rfl fun r _ => ?_
          split_ifs
          · exact total_eq_zero fun _ _ => rfl
          · rfl
  rw [hopen, hsettled, ← Finset.sum_add_distrib]
  refine Finset.sum_congr rfl fun r _ => ?_
  unfold charge
  split_ifs
  · exact (add_zero _).symm
  · exact (zero_add _).symm

/-! ### No tree is oversubscribed -/

theorem Settlement.consumed_nonneg (x : Settlement) (d : ID) : 0 ≤ x.consumed d := by
  apply List.sum_nonneg
  intro n hn
  obtain ⟨i, _, rfl⟩ := List.mem_map.mp hn
  have hitem := i.consumed_nonneg
  split_ifs <;> omega

/-- A closed reservation and its settlement agree on what was handed to the child. -/
theorem Intact.reserved_le (hs : Intact dep s) {r : Reservation} (hr : r ∈ s.reservations.rows) (d : ID) :
    r.reserved d ≤ charge s d r + s.accounts.available r.childEnvelopeID d := by
  have havailable := s.accounts.available_nonneg r.childEnvelopeID d
  have hget := get_of_mem hr
  unfold charge
  split_ifs with hopen
  · omega
  · obtain ⟨x, hx, hreservation⟩ := hs.sound.settled.settlement _ r hget hopen
    obtain ⟨r', hr', _, hsum⟩ := hs.sound.settled.reservation _ x (get_of_mem hx)
    rw [hreservation, hget] at hr'
    cases hr'
    have hreturned := hs.returned _ x r (get_of_mem hx) (hreservation ▸ hget) d
    have hle : x.consumed d ≤
        s.settlements.total fun x => if x.reservationID = r.id then x.consumed d else 0 := by
      have hnonneg : ∀ y ∈ s.settlements.rows, 0 ≤ if y.reservationID = r.id then y.consumed d else 0 := by
        intro y _
        split_ifs
        · exact y.consumed_nonneg d
        · exact Int.le_refl 0
      have hpart := le_total hnonneg hx
      rwa [if_pos hreservation] at hpart
    have hconsumed := hsum d
    omega

theorem ParentOf.unique {p p' c : ID} (h : ParentOf s p c) (h' : ParentOf s p' c) : p = p' := by
  obtain ⟨e, he, hp⟩ := h
  obtain ⟨e', he', hp'⟩ := h'
  rw [he] at he'
  cases he'
  exact Option.some.inj (hp.symm.trans hp')

/-- What a descendant is granted of a consumable is handed to it by its reservation. -/
theorem Intact.granted_le (hs : Intact dep s) {root e : ID} (hwithin : Within s root e) (hne : e ≠ root)
    {d : ID} (hd : dep.consumable d = true) :
    s.accounts.granted e d ≤ ∑ r ∈ treeEdges s root with r.childEnvelopeID = e, r.reserved d := by
  have hnonneg : ∀ r ∈ (treeEdges s root).filter (·.childEnvelopeID = e), 0 ≤ r.reserved d := by
    intro r hr
    have hmem := (mem_treeEdges.mp (Finset.mem_filter.mp hr).1).1
    exact hs.sound.delegated.reserved_nonneg (get_of_mem hmem) d
  cases hg : s.grants.get (e, d) with
  | none =>
    rw [show s.accounts.granted e d = 0 from column_of_none hg]
    exact Finset.sum_nonneg hnonneg
  | some g =>
    rcases hwithin.cases_tail with hsame | ⟨p, hp, hlink⟩
    · exact absurd hsame hne
    · obtain ⟨row, hrow, hparent⟩ := hlink
      obtain ⟨r, hr, hchild, i, hi, hdimension, hvalue⟩ := hs.backed e row p d g hrow hparent hg hd
      have hget := get_of_mem hr
      have hsame : r.parentEnvelopeID = p :=
        (hchild ▸ hs.sound.delegated.parentOf hget).unique ⟨row, hrow, hparent⟩
      have hedge : r ∈ (treeEdges s root).filter (·.childEnvelopeID = e) :=
        Finset.mem_filter.mpr ⟨mem_treeEdges.mpr ⟨hr, hsame ▸ hp⟩, hchild⟩
      calc s.accounts.granted e d = i.reservedValue := (column_of_get hg).trans hvalue.symm
        _ = r.reserved d := by
            rw [← hdimension]
            exact (hs.sound.delegated.reserved_of_mem hget hi).symm
        _ ≤ _ := Finset.single_le_sum hnonneg hedge

/-- The edges below a node of the tree are all reservations of its envelope. -/
theorem treeEdges_below {root e : ID} (hwithin : Within s root e) :
    (treeEdges s root).filter (·.parentEnvelopeID = e) =
      s.reservations.rows.toFinset.filter (·.parentEnvelopeID = e) := by
  ext r
  simp only [Finset.mem_filter, mem_treeEdges, List.mem_toFinset]
  constructor
  · exact fun h => ⟨h.1.1, h.2⟩
  · exact fun h => ⟨⟨h.1, h.2 ▸ hwithin⟩, h.2⟩

/-- The books of a delegation tree. -/
noncomputable def Intact.books (hs : Intact dep s) {root : ID} {row : Envelope}
    (hroot : s.envelopes.get root = some row) (hparent : row.parentEnvelopeID = none) {d : ID}
    (hd : dep.consumable d = true) : Budget.Books (budgetTree hs.sound hroot hparent) Int where
  granted e := s.accounts.granted e d
  added e := extendedValue s e d
  spent e := metered s e d
  available e := s.accounts.available e d
  handed r := r.reserved d
  charged r := charge s d r
  available_nonneg e _ := s.accounts.available_nonneg e d
  conserved e he := by
    have hwithin := (mem_treeNodes.mp he).2
    have hcharged : ∑ r ∈ treeEdges s root with r.parentEnvelopeID = e, charge s d r =
        openReserved s e d + settledConsumption s e d := by
      rw [treeEdges_below hwithin, sum_charge]
    have hconserved := hs.balanced.conserved e d
    have hallocated := hs.balanced.allocated e d
    have hconsumed := hs.balanced.consumed e d
    show _ + _ + ∑ r ∈ treeEdges s root with r.parentEnvelopeID = e, charge s d r = _
    omega
  backed e he hne := hs.granted_le (mem_treeNodes.mp he).2 hne hd
  settled r hr := hs.reserved_le (mem_treeEdges.mp hr).1 d

/-- When every delegation grants consumables by its reservation alone, out of an envelope that is not
settled, the usage of a tree stays within the grant of its root and the extensions in it. -/
theorem tree_not_oversubscribed {governor : Governor} (h : Reachable dep governor)
    (hprudent : ∀ c ∈ governor.log, c.request.Prudent dep c.before) {root d : ID} {row : Envelope}
    (hroot : governor.committed.envelopes.get root = some row) (hparent : row.parentEnvelopeID = none)
    (hd : dep.consumable d = true) :
    treeMetered governor.committed root d ≤
      governor.committed.accounts.granted root d + treeExtended governor.committed root d := by
  have hintact := (h.intact hprudent).1
  have hspent := (hintact.books hroot hparent hd).sum_spent_le
  rw [treeMetered_eq hintact.sound.recorded, treeExtended_eq hintact.sound]
  exact hspent

theorem Sample.story_root :
    ((after story).committed.envelopes.get (.ofNat 101)).map (·.parentEnvelopeID) =
      some none := by
  decide +kernel

theorem tree_not_oversubscribed_story :
    treeMetered (after story).committed (.ofNat 101) (.ofNat 11) ≤
      (after story).committed.accounts.granted (.ofNat 101) (.ofNat 11) +
        treeExtended (after story).committed (.ofNat 101) (.ofNat 11) := by
  have hsound := (reachable story).sound.2
  obtain ⟨row, hrow, hparent⟩ := map_eq_some_iff.mp story_root
  exact tree_not_oversubscribed (reachable story)
    (fun c hc => (story_active c hc).prudent (hsound c hc).1) hrow hparent (by decide)

theorem Sample.respent_rows :
    ((after respent).committed.usage.rows.map fun u =>
      (u.envelopeID, u.dimensionID, u.quantityValue)) =
        [(.ofNat 101, .ofNat 11, 2), (.ofNat 301, .ofNat 11, 2)] ∧
    (after respent).committed.extensions.rows = [] ∧
    ((after respent).committed.grants.get (.ofNat 101, .ofNat 11)).map (·.grantedValue) =
      some 2 ∧
    ((after respent).committed.envelopes.rows.map fun e => (e.id, e.parentEnvelopeID)) =
      [(.ofNat 101, none), (.ofNat 201, some (.ofNat 101)), (.ofNat 301, some (.ofNat 201))] := by
  decide +kernel

/-- The root is granted two calls, and its tree meters four. -/
theorem tree_oversubscribed : ∃ governor row, Reachable deployment governor ∧
    governor.committed.envelopes.get (.ofNat 101) = some row ∧ row.parentEnvelopeID = none ∧
    deployment.consumable (.ofNat 11) = true ∧
    governor.committed.accounts.granted (.ofNat 101) (.ofNat 11) +
      treeExtended governor.committed (.ofNat 101) (.ofNat 11) <
        treeMetered governor.committed (.ofNat 101) (.ofNat 11) := by
  obtain ⟨husage, hextensions, hgrant, henvelopes⟩ := respent_rows
  have hparent : ∀ id parent, (id, parent) ∈
      [(ID.ofNat 101, none), (.ofNat 201, some (.ofNat 101)), (.ofNat 301, some (.ofNat 201))] →
      ∃ e, (after respent).committed.envelopes.get id = some e ∧
        e.parentEnvelopeID = parent := by
    intro id parent hmem
    rw [← henvelopes] at hmem
    obtain ⟨e, he, hcolumns⟩ := List.mem_map.mp hmem
    cases hcolumns
    exact ⟨e, get_of_mem he, rfl⟩
  obtain ⟨row, hrow, hroot⟩ := hparent (.ofNat 101) none (by simp)
  have hchild : Within (after respent).committed (.ofNat 101) (.ofNat 201) :=
    .single (hparent _ _ (by simp))
  have hgrandchild : Within (after respent).committed (.ofNat 101) (.ofNat 301) :=
    hchild.tail (hparent _ _ (by simp))
  refine ⟨after respent, row, reachable respent, hrow, hroot, by decide, ?_⟩
  obtain ⟨g, hg, hvalue⟩ := map_eq_some_iff.mp hgrant
  have hgranted : (after respent).committed.accounts.granted (.ofNat 101) (.ofNat 11) = 2 :=
    (column_of_get hg).trans hvalue
  have hextended : treeExtended (after respent).committed (.ofNat 101) (.ofNat 11) = 0 := by
    rw [treeExtended, Table.total, hextensions]
    rfl
  have hmetered : treeMetered (after respent).committed (.ofNat 101) (.ofNat 11) =
      (([(.ofNat 101, .ofNat 11, 2), (.ofNat 301, .ofNat 11, 2)] : List (ID × ID × Int)).map fun u =>
        if Within (after respent).committed (.ofNat 101) u.1 ∧ u.2.1 = .ofNat 11 then u.2.2
        else 0).sum := by
    rw [← husage, List.map_map]
    rfl
  rw [hgranted, hextended, hmetered]
  have hself : Within (after respent).committed (.ofNat 101) (.ofNat 101) := .refl
  simp [hself, hgrandchild]

end AgentGovernor
