import AgentGovernor.StoreTree

/-! What a child admission hands to the child. The grants of a child come from two places, the resolved
constraints of its admission and its reservation; only the second is subtracted from the parent, and only
three structural limits are compared with it. -/

namespace AgentGovernor

open Ledger Transaction Sample List

variable {held : List Lock} {s mid t : Store} {dep : Deployment} {request : Request}
  {admission : RunAdmission} {resolution : RunVersionResolution} {evidence : RunAdmissionEvidence}
  {grants : List RootResourceGrant} {requested reservation : ResourceReservation} {row : Reservation}

theorem commits_admitChildRun {response : Response}
    (h : storeEngine.Commits (program dep) (.admitChildRun admission resolution evidence requested)
      response s t) :
    ∃ grants reservation row mid, admissionGrants dep admission resolution evidence = .ok grants ∧
      validateAndSortResourceReservation requested = .ok reservation ∧
      Delegates dep admission grants reservation row s mid t := by
  obtain ⟨held, hexec⟩ := h
  obtain ⟨reservation, hadmit, _⟩ := exec_respond hexec
  obtain ⟨_, _, grants, row, mid, hgrants, hvalid, hdelegates⟩ := exec_admitChildRun hadmit
  exact ⟨grants, reservation, row, mid, hgrants, hvalid, hdelegates⟩

/-! ### The accounts of a child -/

/-- A grant of a fresh child is a root grant of its admission or an item of its reservation. -/
theorem Delegates.grant_origin (h : Delegates dep admission grants reservation row s mid t)
    (hplaced : Placed s) {d : ID} {g : Grant}
    (hg : t.grants.get (admission.envelopeID, d) = some g) :
    .issue admission.envelopeID d g.grantedValue ∈ rootEntries dep admission.envelopeID grants ∨
      ∃ i ∈ row.items, i.dimensionID = d ∧ i.reservedValue = g.grantedValue := by
  rcases h.reserves.posts.grant_origin hg with hmid | hissue
  · rcases h.admits.posts.grant_origin hmid with hold | hissue
    · obtain ⟨b, hb⟩ := hplaced.balance _ g hold
      obtain ⟨e, he⟩ := hplaced.envelope _ b hb
      rw [h.admits.envelope_none] at he
      cases he
    · exact Or.inl hissue
  · obtain ⟨i, hi, hentry⟩ := mem_flatMap.mp hissue
    simp only [mem_cons, not_mem_nil, or_false, reduceCtorEq, false_or,
      Entry.issue.injEq] at hentry
    exact Or.inr ⟨i, hi, hentry.2.1.symm, hentry.2.2.symm⟩

/-- The reservation does not grant what the admission has granted. -/
theorem Delegates.disjoint (h : Delegates dep admission grants reservation row s mid t) {d : ID}
    {v : Int} (hissue : .issue admission.envelopeID d v ∈ rootEntries dep admission.envelopeID grants)
    {i : ReservationItem} (hi : i ∈ row.items) : i.dimensionID ≠ d := by
  rintro rfl
  obtain ⟨_, _, ⟨g, hg⟩, _⟩ := h.admits.posts.issued hissue
  have hentry : .issue row.childEnvelopeID i.dimensionID i.reservedValue ∈ row.entries :=
    mem_flatMap.mpr ⟨i, hi, by simp⟩
  have hnone := (h.reserves.posts.issued hentry).1
  rw [h.reserves.columns.2.1, h.child_envelope, hg] at hnone
  cases hnone

/-- What the commit does to an account that an item of the reservation names: the child starts with the
item, and the parent gives it. -/
theorem Delegates.item_moved (h : Delegates dep admission grants reservation row s mid t)
    {i : ReservationItem} (hi : i ∈ row.items) :
    (∃ b, t.balances.get (admission.envelopeID, i.dimensionID) = some b ∧
      b.availableValue = i.reservedValue) ∧
    t.accounts.available reservation.parentEnvelopeID i.dimensionID =
      s.accounts.available reservation.parentEnvelopeID i.dimensionID - i.reservedValue := by
  obtain ⟨hparentID, hchildID, _, _⟩ := h.reserves.columns
  have hchild : row.childEnvelopeID = admission.envelopeID := hchildID.trans h.child_envelope
  -- The parent is not the child: it was there before.
  obtain ⟨parent, hparent⟩ := h.admits.parent_exists _ rfl
  have hne : admission.envelopeID ≠ reservation.parentEnvelopeID := by
    intro hsame
    have hnone := h.admits.envelope_none
    rw [hsame, hparent] at hnone
    cases hnone
  have hitems : (row.items.map fun j => if j.dimensionID = i.dimensionID then j.reservedValue
      else 0).sum = i.reservedValue :=
    sum_of_mem_of_nodup ReservationItem.reservedValue h.reserves.items_nodup hi
  have hdebits : (row.items.map fun j => if j.dimensionID = i.dimensionID then -j.reservedValue
      else 0).sum = -i.reservedValue :=
    sum_of_mem_of_nodup (fun j : ReservationItem => -j.reservedValue) h.reserves.items_nodup hi
  have hentry : .issue row.childEnvelopeID i.dimensionID i.reservedValue ∈ row.entries :=
    mem_flatMap.mpr ⟨i, hi, by simp⟩
  obtain ⟨_, hnone, _, b, hb⟩ := h.reserves.posts.issued hentry
  rw [hchild] at hnone hb
  constructor
  · have hterm := (h.reserves.posts.terms admission.envelopeID i.dimensionID).2.1
    rw [row.posted_entries, if_pos hchild, if_neg (by rw [hparentID]; exact hne.symm), hitems,
      show mid.accounts.available admission.envelopeID i.dimensionID = 0 from
        Table.column_of_none hnone,
      show t.accounts.available admission.envelopeID i.dimensionID = b.availableValue from
        Table.column_of_get hb] at hterm
    exact ⟨b, hb, by omega⟩
  · have hterm := (h.reserves.posts.terms reservation.parentEnvelopeID i.dimensionID).2.1
    rw [row.posted_entries, if_pos hparentID, if_neg (by rw [hchild]; exact hne), hdebits] at hterm
    have hsame : mid.accounts.available reservation.parentEnvelopeID i.dimensionID =
        s.accounts.available reservation.parentEnvelopeID i.dimensionID := by
      have huntouched : ∀ x ∈ rootEntries dep admission.envelopeID grants,
          x.account ≠ (reservation.parentEnvelopeID, i.dimensionID) := by
        intro x hx hsame
        obtain ⟨g, _, hg⟩ := mem_filterMap.mp hx
        obtain ⟨_, _, rfl⟩ := Option.map_eq_some_iff.mp hg
        exact hne (congrArg Prod.fst hsame)
      simp only [Accounts.available, Table.column, (h.admits.posts.untouched huntouched).2]
    omega

/-! ### Delegated capacity -/

/-- Every consumable grant of the child, and its first balance, is an item of the reservation that was
subtracted from the parent. -/
def CapacityBacked (dep : Deployment) (requested : ResourceReservation) (s t : Store) : Prop :=
  ∀ d g, dep.consumable d = true → t.grants.get (requested.childEnvelopeID, d) = some g →
    ∃ r i, t.reservations.get requested.id = some r ∧ i ∈ r.items ∧ i.dimensionID = d ∧
      i.reservedValue = g.grantedValue ∧
      (∃ b, t.balances.get (requested.childEnvelopeID, d) = some b ∧
        b.availableValue = i.reservedValue) ∧
      t.accounts.available requested.parentEnvelopeID d =
        s.accounts.available requested.parentEnvelopeID d - i.reservedValue

theorem Delegates.capacityBacked_iff (h : Delegates dep admission grants reservation row s mid t)
    (hgrants : admissionGrants dep admission resolution evidence = .ok grants)
    (hvalid : validateAndSortResourceReservation requested = .ok reservation) (hplaced : Placed s) :
    CapacityBacked dep requested s t ↔
      StructuralOnly dep (resolution.resolvedConstraints.getD []) := by
  obtain ⟨hid, _, hparentID, hchildID, _⟩ := validateAndSort_spec hvalid
  have hroot := admissionGrants_spec hgrants
  have hchild : requested.childEnvelopeID = admission.envelopeID := hchildID.symm.trans h.child_envelope
  have hrow : t.reservations.get requested.id = some row := by
    rw [← hid, ← h.reserves.row_id, h.reserves.evidenced.reservations, Table.get_put_self]
  constructor
  · intro hbacked entry hentry hsome
    rw [Option.all_eq_true]
    intro d hd
    -- The constraint issues an account, which no item of the reservation can name.
    obtain ⟨g, hg, hname⟩ :=
      ((rootResourceGrants_spec hroot).2.2 entry.2).mpr ⟨entry, hentry, rfl, hsome⟩
    have hissue : .issue admission.envelopeID d.id g.coefficient ∈
        rootEntries dep admission.envelopeID grants :=
      mem_filterMap.mpr ⟨g, hg, by rw [hname, hd]; rfl⟩
    obtain ⟨_, _, ⟨grant, hgrant⟩, _⟩ := h.admits.posts.issued hissue
    have hkept := h.reserves.posts.grant_kept hgrant
    by_contra hclass
    have hconsumable : dep.consumable d.id = true := consumable_of_byName hd (by simpa using hclass)
    obtain ⟨r, i, hr, hi, hdimension, _⟩ := hbacked d.id grant hconsumable (hchild ▸ hkept)
    rw [hrow] at hr
    cases hr
    exact h.disjoint hissue hi hdimension
  · intro hstructural d g hconsumable hg
    rw [hchild] at hg ⊢
    rcases h.grant_origin hplaced hg with hissue | ⟨i, hi, rfl, hvalue⟩
    · rw [hstructural.not_consumable hroot hissue] at hconsumable
      cases hconsumable
    · obtain ⟨hbalance, hdebit⟩ := h.item_moved hi
      rw [hparentID] at hdebit
      exact ⟨row, i, hrow, hi, rfl, hvalue, hbalance, hdebit⟩

/-- Delegated capacity is backed by the parent exactly when the resolved constraints of the child grant
no consumable dimension. -/
theorem delegated_capacity_backed {governor : Governor} (h : Reachable dep governor)
    {c : Commit Store Response Request} (hc : c ∈ governor.log)
    (hrequest : c.request = .admitChildRun admission resolution evidence requested) :
    CapacityBacked dep requested c.before c.after ↔
      StructuralOnly dep (resolution.resolvedConstraints.getD []) := by
  obtain ⟨hbefore, _, hcommit⟩ := h.sound.2 c hc
  rw [hrequest] at hcommit
  obtain ⟨grants, reservation, row, mid, hgrants, hvalid, hdelegates⟩ := commits_admitChildRun hcommit
  exact hdelegates.capacityBacked_iff hgrants hvalid hbefore.placed

theorem Sample.story_delegates : ∃ c ∈ (after story).log,
    ∃ admission resolution evidence requested,
      c.request = .admitChildRun admission resolution evidence requested := by
  have hfound : ((after story).log.any fun c => match c.request with
      | .admitChildRun _ _ _ _ => true
      | _ => false) = true := by
    decide +kernel
  obtain ⟨c, hc, hmatch⟩ := List.any_eq_true.mp hfound
  split at hmatch
  · rename_i hrequest
    exact ⟨c, hc, _, _, _, _, hrequest⟩
  · cases hmatch

theorem delegated_capacity_backed_story : ∃ c ∈ (after story).log,
    ∃ admission resolution evidence requested,
      c.request = .admitChildRun admission resolution evidence requested ∧
        CapacityBacked deployment requested c.before c.after := by
  obtain ⟨c, hc, admission, resolution, evidence, requested, hrequest⟩ := story_delegates
  have hactive := story_active c hc
  rw [hrequest] at hactive
  exact ⟨c, hc, admission, resolution, evidence, requested, hrequest,
    (delegated_capacity_backed (reachable story) hc hrequest).mpr (hactive _ rfl).1⟩

/-- The root has no tokens, and the constraints of its child grant five. -/
def Sample.unbacked : List Request :=
  provision ++ [admitRoot 100 (("max_tool_calls", .int 2) :: limits),
    admitChild 200 100 (("max_llm_tokens", .int 5) :: limits) 2]

theorem delegated_capacity_unbacked : ∃ governor c admission resolution evidence requested,
    Reachable deployment governor ∧ c ∈ governor.log ∧
      c.request = .admitChildRun admission resolution evidence requested ∧
        ¬CapacityBacked deployment requested c.before c.after := by
  have hfound : ((after unbacked).log.any fun c => match c.request with
      | .admitChildRun _ resolution _ _ =>
        !decide (StructuralOnly deployment (resolution.resolvedConstraints.getD []))
      | _ => false) = true := by
    decide +kernel
  obtain ⟨c, hc, hmatch⟩ := List.any_eq_true.mp hfound
  split at hmatch
  · rename_i admission resolution evidence requested hrequest
    refine ⟨_, c, admission, resolution, evidence, requested, reachable unbacked, hc,
      hrequest, fun hbacked => ?_⟩
    obtain ⟨hbefore, _, hcommit⟩ := (reachable unbacked).sound.2 c hc
    rw [hrequest] at hcommit
    obtain ⟨_, _, _, _, hgrants, hvalid, hdelegates⟩ := commits_admitChildRun hcommit
    have hstructural := (hdelegates.capacityBacked_iff hgrants hvalid hbefore.placed).mp hbacked
    simp [hstructural] at hmatch
  · cases hmatch

end AgentGovernor
