import AgentGovernor.StoreTransition

/-! The shape of every reachable tenant: which rows exist together, which are unique, and where the rows
of each table come from. -/

namespace AgentGovernor

open Ledger Table List

variable {held : List Lock} {s t : Store} {dep : Deployment} {request : Request}
  {link : Option ID}

/-! ### Where rows come from -/

variable {e : Envelope} {id : ID}

/-- An envelope was there before, up to its version, or this move admitted its run. -/
theorem Moves.envelope_origin (h : Moves dep request held s t link)
    (he : t.envelopes.get id = some e) :
    (∃ e₀, s.envelopes.get id = some e₀ ∧ e₀.Keep e) ∨
      (e.parentEnvelopeID = link ∧ s.envelopes.get id = none ∧ t.envelopes = s.envelopes.put e ∧
        (∃ run, t.runs.get e.runID = some run) ∧ (∀ e' ∈ s.envelopes.rows, e'.runID ≠ e.runID) ∧
        ∀ p, link = some p → ∃ e', s.envelopes.get p = some e') := by
  have hsame : t.envelopes = s.envelopes → ∃ e₀, s.envelopes.get id = some e₀ ∧ e₀.Keep e :=
    fun heq => ⟨e, heq ▸ he, Envelope.Keep.refl e⟩
  cases h with
  | idle h => exact Or.inl (hsame h.store_eq.envelopes)
  | reserve _ _ _ _ _ h => exact Or.inl (hsame h.evidenced.envelopes)
  | meter _ _ _ _ _ h => exact Or.inl (hsame h.store_eq.envelopes)
  | close _ _ _ h _ => exact Or.inl (hsame h.store_eq.envelopes)
  | extend _ _ _ e₁ _ _ _ _ h =>
    rw [h.store_eq.envelopes, get_put] at he
    split_ifs at he with hid
    · cases he
      exact Or.inl ⟨e₁, hid ▸ h.envelope, rfl⟩
    · exact Or.inl ⟨e, he, Envelope.Keep.refl e⟩
  | admitRun admission _ _ parent _ _ _ h =>
    rw [h.store_eq.envelopes, get_put] at he
    split_ifs at he with hid
    · cases he
      refine Or.inr ⟨rfl, hid ▸ h.envelope_none, h.store_eq.envelopes, ?_,
        fun e' he' => (h.envelope_fresh e' he').2, h.parent_exists⟩
      rw [h.store_eq.runs]
      exact ⟨_, get_put_self s.runs (admittedRun admission)⟩
    · exact Or.inl ⟨e, he, Envelope.Keep.refl e⟩

variable {r : Reservation}

/-- A reservation was there before, or this move opened it, or this move closed it. -/
theorem Moves.reservation_origin (h : Moves dep request held s t link)
    (hr : t.reservations.get id = some r) :
    s.reservations.get id = some r ∨
      (∃ requested reservation, request.Reserves requested ∧
        validateAndSortResourceReservation requested = .ok reservation ∧
        Reserves dep reservation r s t) ∨
      ∃ x r₀, s.reservations.get id = some r₀ ∧ Closes dep x r₀ r s t := by
  cases h with
  | idle h => exact Or.inl (h.store_eq.reservations ▸ hr)
  | admitRun _ _ _ _ _ _ _ h => exact Or.inl (h.store_eq.reservations ▸ hr)
  | meter _ _ _ _ _ h => exact Or.inl (h.store_eq.reservations ▸ hr)
  | extend _ _ _ _ _ _ _ _ h => exact Or.inl (h.store_eq.reservations ▸ hr)
  | reserve requested reservation row hrequest hvalid h =>
    rw [h.evidenced.reservations, get_put] at hr
    split_ifs at hr
    · cases hr
      exact Or.inr (Or.inl ⟨requested, reservation, hrequest, hvalid, h⟩)
    · exact Or.inl hr
  | close x r₀ r' h _ =>
    rw [h.store_eq.reservations, get_put] at hr
    split_ifs at hr with hid
    · cases hr
      rw [hid, h.row_id]
      exact Or.inr (Or.inr ⟨x, r₀, h.reservation, h⟩)
    · exact Or.inl hr

/-- A reservation that appears was asked for. -/
theorem Moves.opens (h : Moves dep request held s t link)
    (hnone : s.reservations.get id = none) (hr : t.reservations.get id = some r) :
    ∃ requested reservation, request.Reserves requested ∧
      validateAndSortResourceReservation requested = .ok reservation ∧ Reserves dep reservation r s t := by
  rcases h.reservation_origin hr with hold | hopened | ⟨_, _, hold, _⟩
  · rw [hnone] at hold
    cases hold
  · exact hopened
  · rw [hnone] at hold
    cases hold

variable {x : Settlement}

theorem Moves.settlements_eq (h : Moves dep request held s t link) :
    t.settlements = s.settlements ∨ ∃ x r r', Closes dep x r r' s t := by
  cases h with
  | idle h => exact Or.inl h.store_eq.settlements
  | admitRun _ _ _ _ _ _ _ h => exact Or.inl h.store_eq.settlements
  | reserve _ _ _ _ _ h => exact Or.inl h.evidenced.settlements
  | meter _ _ _ _ _ h => exact Or.inl h.store_eq.settlements
  | extend _ _ _ _ _ _ _ _ h => exact Or.inl h.store_eq.settlements
  | close x r r' h _ => exact Or.inr ⟨x, r, r', h⟩

theorem Moves.settlement_origin (h : Moves dep request held s t link) {x : Settlement}
    (hx : t.settlements.get id = some x) :
    s.settlements.get id = some x ∨ (s.settlements.get id = none ∧ ∃ r r', Closes dep x r r' s t) := by
  rcases h.settlements_eq with heq | ⟨y, r, r', hcloses⟩
  · exact Or.inl (heq ▸ hx)
  · rw [hcloses.store_eq.settlements, get_put] at hx
    split_ifs at hx with hid
    · cases hx
      exact Or.inr ⟨hid ▸ hcloses.settlement_none, r, r', hcloses⟩
    · exact Or.inl hx

theorem Moves.usage_eq (h : Moves dep request held s t link) :
    t.usage = s.usage ∨ ∃ candidate usage target, validateTrustedUsage dep candidate = .ok usage ∧
      Meters dep usage target s t := by
  cases h with
  | idle h => exact Or.inl h.store_eq.usage
  | admitRun _ _ _ _ _ _ _ h => exact Or.inl h.store_eq.usage
  | reserve _ _ _ _ _ h => exact Or.inl h.evidenced.usage
  | close _ _ _ h _ => exact Or.inl h.store_eq.usage
  | extend _ _ _ _ _ _ _ _ h => exact Or.inl h.store_eq.usage
  | meter candidate usage target _ hvalid h => exact Or.inr ⟨candidate, usage, target, hvalid, h⟩

theorem Moves.usage_origin (h : Moves dep request held s t link) {u : UsageEntry}
    (hu : t.usage.get id = some u) :
    s.usage.get id = some u ∨ (s.usage.get id = none ∧
      ∃ candidate usage target, validateTrustedUsage dep candidate = .ok usage ∧
        u = usageEntry target usage ∧ Meters dep usage target s t) := by
  rcases h.usage_eq with heq | ⟨candidate, usage, target, hvalid, hmeters⟩
  · exact Or.inl (heq ▸ hu)
  · rw [hmeters.store_eq.usage, get_put] at hu
    split_ifs at hu with hid
    · cases hu
      exact Or.inr ⟨hid ▸ hmeters.usage_none, candidate, usage, target, hvalid, rfl, hmeters⟩
    · exact Or.inl hu

theorem Moves.extension_origin (h : Moves dep request held s t link) {x : Extension}
    (hx : t.extensions.get id = some x) :
    s.extensions.get id = some x ∨ (s.extensions.get id = none ∧
      ∃ candidate extension e run run', validateResourceExtension candidate = .ok extension ∧
        Extends dep extension x e run run' s t) := by
  cases h with
  | idle h => exact Or.inl (h.store_eq.extensions ▸ hx)
  | admitRun _ _ _ _ _ _ _ h => exact Or.inl (h.store_eq.extensions ▸ hx)
  | reserve _ _ _ _ _ h => exact Or.inl (h.evidenced.extensions ▸ hx)
  | meter _ _ _ _ _ h => exact Or.inl (h.store_eq.extensions ▸ hx)
  | close _ _ _ h _ => exact Or.inl (h.store_eq.extensions ▸ hx)
  | extend candidate extension row e run run' _ hvalid h =>
    rw [h.store_eq.extensions, get_put] at hx
    split_ifs at hx with hid
    · cases hx
      exact Or.inr ⟨hid ▸ h.row_none, candidate, extension, e, run, run', hvalid, h⟩
    · exact Or.inl hx

/-- The reservation of the child holds this amount of the dimension. -/
def Reservation.Covers (r : Reservation) (e d : ID) (v : Int) : Prop :=
  r.childEnvelopeID = e ∧ ∃ i ∈ r.items, i.dimensionID = d ∧ i.reservedValue = v

/-- What a move posts. It issues accounts to an envelope that it admits, or to one that it reserves
the amount for. -/
theorem Moves.posts (h : Moves dep request held s t link) :
    ∃ entries, Posts entries s.accounts t.accounts ∧
      ∀ e d v, .issue e d v ∈ entries → (∃ row, t.envelopes.get e = some row) ∧
        (s.envelopes.get e = none ∨ ∃ r ∈ t.reservations.rows, r.Covers e d v) := by
  cases h with
  | idle h =>
    have hsame : t.accounts = s.accounts := by
      simp only [Store.accounts, h.store_eq.grants, h.store_eq.balances]
    exact ⟨[], hsame ▸ .nil _, fun _ _ _ hmem => absurd hmem not_mem_nil⟩
  | admitRun admission _ _ parent grants _ _ h =>
    refine ⟨_, h.posts, fun e d v hmem => ?_⟩
    obtain ⟨g, _, hg⟩ := mem_filterMap.mp hmem
    obtain ⟨_, _, hissue⟩ := Option.map_eq_some_iff.mp hg
    cases hissue
    refine ⟨?_, Or.inl h.envelope_none⟩
    rw [h.store_eq.envelopes]
    exact ⟨_, get_put_self s.envelopes ⟨admission.envelopeID, admission.runID, link, 1⟩⟩
  | reserve _ _ row _ _ h =>
    refine ⟨_, h.posts, fun e d v hmem => ?_⟩
    obtain ⟨i, hitem, hi⟩ := mem_flatMap.mp hmem
    simp only [mem_cons, not_mem_nil, or_false, reduceCtorEq, false_or,
      Entry.issue.injEq] at hi
    obtain ⟨rfl, rfl, rfl⟩ := hi
    refine ⟨?_, Or.inr ⟨row, ?_, rfl, i, hitem, rfl, rfl⟩⟩
    · obtain ⟨items, hrow⟩ := h.row_eq
      obtain ⟨child, hchild, _⟩ := h.child
      rw [hrow, h.evidenced.envelopes]
      exact ⟨child, hchild⟩
    · rw [h.evidenced.reservations]
      exact mem_put.mpr (Or.inl rfl)
  | meter _ _ _ _ _ h => exact ⟨_, h.posts, fun _ _ _ hmem => by simp at hmem⟩
  | extend _ _ _ _ _ _ _ _ h =>
    exact ⟨_, h.posts, fun _ _ _ hmem => by simp [Extension.entries] at hmem⟩
  | close _ _ _ h _ =>
    exact ⟨_, h.posts, fun _ _ _ hmem => by simp [Settlement.entries] at hmem⟩
/-! ### Envelopes and accounts -/

/-- Every envelope has a run of its own and its parent; every account has its grant, its balance and
its envelope. -/
structure Placed (s : Store) : Prop where
  run : ∀ id e, s.envelopes.get id = some e → ∃ run, s.runs.get e.runID = some run
  unique : ∀ id id' e e', s.envelopes.get id = some e → s.envelopes.get id' = some e' →
    e.runID = e'.runID → id = id'
  parent : ∀ id e p, s.envelopes.get id = some e → e.parentEnvelopeID = some p →
    ∃ e', s.envelopes.get p = some e'
  balance : ∀ k g, s.grants.get k = some g → ∃ b, s.balances.get k = some b
  grant : ∀ k b, s.balances.get k = some b → ∃ g, s.grants.get k = some g
  envelope : ∀ k b, s.balances.get k = some b → ∃ e, s.envelopes.get k.1 = some e

theorem Placed.empty : Placed Store.empty := by
  constructor <;> intros <;> contradiction

variable {e' : Envelope}

theorem Envelope.Keep.runID (h : e.Keep e') : e'.runID = e.runID := by rw [h]

theorem Envelope.Keep.parentEnvelopeID (h : e.Keep e') :
    e'.parentEnvelopeID = e.parentEnvelopeID := by rw [h]

theorem Placed.moves (hs : Placed s) (h : Moves dep request held s t link) : Placed t := by
  have hkeeps := h.keeps
  have hrun : ∀ id e, t.envelopes.get id = some e → ∃ run, t.runs.get e.runID = some run := by
    intro id e he
    rcases h.envelope_origin he with ⟨e₀, he₀, hkeep⟩ | ⟨_, _, _, hrun, _⟩
    · obtain ⟨run, hrun⟩ := hs.run id e₀ he₀
      obtain ⟨run', hrun', _⟩ := hkeeps.runs _ _ hrun
      exact ⟨run', hkeep.runID ▸ hrun'⟩
    · exact hrun
  have hunique : ∀ id id' e e', t.envelopes.get id = some e → t.envelopes.get id' = some e' →
      e.runID = e'.runID → id = id' := by
    intro id id' e e' he he' hsame
    rcases h.envelope_origin he with ⟨e₀, he₀, hkeep⟩ | ⟨_, _, hput, _, hfresh, _⟩
    · rcases h.envelope_origin he' with ⟨e₀', he₀', hkeep'⟩ | ⟨_, _, _, _, hfresh, _⟩
      · refine hs.unique id id' e₀ e₀' he₀ he₀' ?_
        rw [← hkeep.runID, ← hkeep'.runID]
        exact hsame
      · exact absurd (hkeep.runID.symm.trans hsame) (hfresh e₀ (mem_of_get he₀))
    · -- The admitted envelope is the only one with its run.
      have hid : e.id = id := key_of_get he
      rw [hput, get_put] at he'
      split_ifs at he' with hid'
      · rw [hid', hid]
      · exact absurd hsame.symm (hfresh e' (mem_of_get he'))
  have hparent : ∀ id e p, t.envelopes.get id = some e → e.parentEnvelopeID = some p →
      ∃ e', t.envelopes.get p = some e' := by
    intro id e p he hp
    have hbefore : ∃ e', s.envelopes.get p = some e' := by
      rcases h.envelope_origin he with ⟨e₀, he₀, hkeep⟩ | ⟨hlink, _, _, _, _, hexists⟩
      · exact hs.parent id e₀ p he₀ (hkeep.parentEnvelopeID ▸ hp)
      · exact hexists p (hlink ▸ hp)
    obtain ⟨e', he'⟩ := hbefore
    obtain ⟨e'', he'', _⟩ := hkeeps.envelopes _ _ he'
    exact ⟨e'', he''⟩
  obtain ⟨entries, hposts, hissued⟩ := h.posts
  refine ⟨hrun, hunique, hparent, fun k g hg => ?_, fun k b hb => ?_, fun k b hb => ?_⟩
  · rcases hposts.grant_origin hg with hold | hissue
    · exact hposts.balance_kept (hs.balance k g hold)
    · exact (hposts.issued hissue).2.2.2
  · rcases hposts.balance_origin ⟨b, hb⟩ with ⟨b₀, hold⟩ | ⟨v, hissue⟩
    · obtain ⟨g, hg⟩ := hs.grant k b₀ hold
      exact ⟨g, hposts.grant_kept hg⟩
    · exact (hposts.issued hissue).2.2.1
  · rcases hposts.balance_origin ⟨b, hb⟩ with ⟨b₀, hold⟩ | ⟨v, hissue⟩
    · obtain ⟨e, he⟩ := hs.envelope k b₀ hold
      obtain ⟨e', he', _⟩ := hkeeps.envelopes _ _ he
      exact ⟨e', he'⟩
    · exact (hissued _ _ _ hissue).1

/-! ### Reservations -/

/-- The tenant defines the dimension as consumable. -/
def Deployment.consumable (dep : Deployment) (d : ID) : Bool :=
  (dep.byID d).any (·.resourceClass = .consumable)

/-- The tenant defines the dimension as structural. -/
def Deployment.structural (dep : Deployment) (d : ID) : Bool :=
  (dep.byID d).any (·.resourceClass = .structural)

variable {d : ID}

theorem not_consumable_of_structural (h : dep.structural d = true) :
    dep.consumable d = false := by
  unfold Deployment.structural at h
  unfold Deployment.consumable
  cases hd : dep.byID d with
  | none => rfl
  | some dimension =>
    simp only [hd, Option.any_some, decide_eq_true_eq] at h
    simp [h]

/-- Every reservation belongs to a child envelope of its parent, which has no other, and it has items,
each with its accounts on both sides. -/
structure Delegated (dep : Deployment) (s : Store) : Prop where
  child : ∀ id r, s.reservations.get id = some r → ∃ e, s.envelopes.get r.childEnvelopeID = some e ∧
    e.runID = r.childRunID ∧ e.parentEnvelopeID = some r.parentEnvelopeID
  unique : ∀ id id' r r', s.reservations.get id = some r → s.reservations.get id' = some r' →
    r.childEnvelopeID = r'.childEnvelopeID → id = id'
  nonempty : ∀ id r, s.reservations.get id = some r → r.items ≠ []
  nodup : ∀ id r, s.reservations.get id = some r → (r.items.map (·.dimensionID)).Nodup
  positive : ∀ id r, s.reservations.get id = some r → ∀ i ∈ r.items, 0 < i.reservedValue
  consumable : ∀ id r, s.reservations.get id = some r → ∀ i ∈ r.items, dep.consumable i.dimensionID
  accounts : ∀ id r, s.reservations.get id = some r → ∀ i ∈ r.items,
    (∃ b, s.balances.get (r.childEnvelopeID, i.dimensionID) = some b) ∧
      ∃ b, s.balances.get (r.parentEnvelopeID, i.dimensionID) = some b

theorem Delegated.empty : Delegated dep Store.empty := by
  constructor <;> intros <;> contradiction

/-- No structural grant is issued to an envelope that is there already. -/
theorem Moves.structural_grant (h : Moves dep request held s t link) (ht : Delegated dep t) {e : ID}
    {row : Envelope} (he : s.envelopes.get e = some row) (hd : dep.structural d = true) {g : Grant}
    (hg : t.grants.get (e, d) = some g) : s.grants.get (e, d) = some g := by
  obtain ⟨entries, hposts, hissued⟩ := h.posts
  rcases hposts.grant_origin hg with hold | hissue
  · exact hold
  · rcases (hissued e d _ hissue).2 with hnone | ⟨r, hr, _, i, hi, rfl, _⟩
    · rw [he] at hnone
      cases hnone
    · have hconsumable := ht.consumable _ r (get_of_mem hr) i hi
      rw [not_consumable_of_structural hd] at hconsumable
      cases hconsumable

theorem Moves.balance_kept (h : Moves dep request held s t link) {k : ID × ID}
    (hb : ∃ b, s.balances.get k = some b) : ∃ b, t.balances.get k = some b := by
  obtain ⟨entries, hposts, _⟩ := h.posts
  exact hposts.balance_kept hb

variable {r' : Reservation}

theorem Closes.keep (h : Closes dep x r r' s t) : r.Keep r' :=
  Or.inr ⟨h.opened, h.closed, h.row_eq⟩

/-- The columns of a reservation that a close keeps. -/
theorem Reservation.Keep.columns (h : r.Keep r') :
    r'.id = r.id ∧ r'.parentEnvelopeID = r.parentEnvelopeID ∧
      r'.childEnvelopeID = r.childEnvelopeID ∧ r'.childRunID = r.childRunID ∧ r'.items = r.items := by
  rcases h with rfl | ⟨_, _, heq⟩
  · exact ⟨rfl, rfl, rfl, rfl, rfl⟩
  · rw [heq]
    exact ⟨rfl, rfl, rfl, rfl, rfl⟩

section Reserve

variable {requested reservation : ResourceReservation} {row : Reservation}

/-- A reservation that was not there before is the one that was opened. -/
theorem Reserves.only (h : Reserves dep reservation row s t) {id : ID} {r : Reservation}
    (hr : t.reservations.get id = some r) : s.reservations.get id = some r ∨ (id = row.id ∧ r = row) := by
  rw [h.evidenced.reservations, get_put] at hr
  split_ifs at hr with hid
  · exact Or.inr ⟨hid, (Option.some.inj hr).symm⟩
  · exact Or.inl hr

theorem Reserves.columns (h : Reserves dep reservation row s t) :
    row.parentEnvelopeID = reservation.parentEnvelopeID ∧
      row.childEnvelopeID = reservation.childEnvelopeID ∧
      row.childRunID = reservation.childRunID ∧ row.state = .opened := by
  obtain ⟨items, hrow⟩ := h.row_eq
  rw [hrow]
  exact ⟨rfl, rfl, rfl, rfl⟩

theorem Reserves.items_ne_nil (hvalid : validateAndSortResourceReservation requested = .ok reservation)
    (h : Reserves dep reservation row s t) : row.items ≠ [] := by
  obtain ⟨_, _, _, _, _, _, _, _, hne, _⟩ := validateAndSort_spec hvalid
  have hmap := h.items_eq
  intro hnil
  rw [hnil, map_nil, eq_comm, map_eq_nil_iff] at hmap
  exact hne hmap

theorem Reserves.positive (hvalid : validateAndSortResourceReservation requested = .ok reservation)
    (h : Reserves dep reservation row s t) : ∀ i ∈ row.items, 0 < i.reservedValue := by
  intro i hi
  obtain ⟨_, _, _, _, _, _, _, _, _, _, _, hpos⟩ := validateAndSort_spec hvalid
  have hmem : (i.dimensionID, i.reservedValue) ∈
      reservation.amounts.map fun a => (a.dimensionID, a.coefficient) := by
    rw [← h.items_eq]
    exact List.mem_map_of_mem hi
  obtain ⟨a, ha, heq⟩ := List.mem_map.mp hmem
  rw [← (Prod.mk.inj heq).2]
  exact hpos a ha

theorem Reserves.accounts (h : Reserves dep reservation row s t) {i : ReservationItem}
    (hi : i ∈ row.items) : (∃ b, t.balances.get (row.childEnvelopeID, i.dimensionID) = some b) ∧
      ∃ b, t.balances.get (row.parentEnvelopeID, i.dimensionID) = some b := by
  have hissue : .issue row.childEnvelopeID i.dimensionID i.reservedValue ∈ row.entries :=
    mem_flatMap.mpr ⟨i, hi, by simp⟩
  have hmove : .move row.parentEnvelopeID i.dimensionID (-i.reservedValue) 0 i.reservedValue ∈
      row.entries := mem_flatMap.mpr ⟨i, hi, by simp⟩
  exact ⟨(h.posts.issued hissue).2.2.2, h.posts.moved hmove⟩

end Reserve

theorem Delegated.moves (hs : Delegated dep s) (h : Moves dep request held s t link) : Delegated dep t := by
  have hkeeps := h.keeps
  refine ⟨fun id r hr => ?_, fun id id' r r' hr hr' hsame => ?_, fun id r hr => ?_, fun id r hr => ?_,
    fun id r hr => ?_, fun id r hr => ?_, fun id r hr i hi => ?_⟩
  · have hbefore : ∃ e, s.envelopes.get r.childEnvelopeID = some e ∧ e.runID = r.childRunID ∧
        e.parentEnvelopeID = some r.parentEnvelopeID := by
      rcases h.reservation_origin hr with hold | ⟨_, _, _, _, hreserves⟩ | ⟨x, r₀, hold, hcloses⟩
      · exact hs.child id r hold
      · obtain ⟨hparent, hchild, hrun, _⟩ := hreserves.columns
        rw [hparent, hchild, hrun]
        exact hreserves.child
      · obtain ⟨_, hparent, hchild, hrun, _⟩ := hcloses.keep.columns
        rw [hparent, hchild, hrun]
        exact hs.child id r₀ hold
    obtain ⟨e, he, hrun, hparent⟩ := hbefore
    obtain ⟨e', he', hkeep⟩ := hkeeps.envelopes _ e he
    exact ⟨e', he', hkeep.runID.trans hrun, hkeep.parentEnvelopeID.trans hparent⟩
  · -- Only a fresh reservation can share its child, and its insert would have clashed.
    have hback : ∀ {id : ID} {r : Reservation}, t.reservations.get id = some r →
        (∃ r₀, s.reservations.get id = some r₀ ∧ r.childEnvelopeID = r₀.childEnvelopeID) ∨
          ∃ reservation, Reserves dep reservation r s t := by
      intro id r hr
      rcases h.reservation_origin hr with hold | ⟨_, reservation, _, _, hreserves⟩ | ⟨x, r₀, hold, hcloses⟩
      · exact Or.inl ⟨r, hold, rfl⟩
      · exact Or.inr ⟨reservation, hreserves⟩
      · exact Or.inl ⟨r₀, hold, hcloses.keep.columns.2.2.1⟩
    rcases hback hr with ⟨r₀, hold, hchild⟩ | ⟨reservation, hreserves⟩
    · rcases hback hr' with ⟨r₀', hold', hchild'⟩ | ⟨reservation, hreserves⟩
      · exact hs.unique id id' r₀ r₀' hold hold' (hchild.symm.trans (hsame.trans hchild'))
      · have hne := (hreserves.fresh r₀ (mem_of_get hold)).2.1
        rw [← hreserves.columns.2.1, ← hsame, hchild] at hne
        exact absurd rfl hne
    · have hid : r.id = id := key_of_get hr
      rcases hreserves.only hr' with hold' | ⟨hid', _⟩
      · have hne := (hreserves.fresh r' (mem_of_get hold')).2.1
        rw [← hreserves.columns.2.1, hsame] at hne
        exact absurd rfl hne
      · rw [hid', hid]
  · rcases h.reservation_origin hr with hold | ⟨_, _, _, hvalid, hreserves⟩ | ⟨x, r₀, hold, hcloses⟩
    · exact hs.nonempty id r hold
    · exact hreserves.items_ne_nil hvalid
    · rw [hcloses.keep.columns.2.2.2.2]
      exact hs.nonempty id r₀ hold
  · rcases h.reservation_origin hr with hold | ⟨_, _, _, _, hreserves⟩ | ⟨x, r₀, hold, hcloses⟩
    · exact hs.nodup id r hold
    · exact hreserves.items_nodup
    · rw [hcloses.keep.columns.2.2.2.2]
      exact hs.nodup id r₀ hold
  · rcases h.reservation_origin hr with hold | ⟨_, _, _, hvalid, hreserves⟩ | ⟨x, r₀, hold, hcloses⟩
    · exact hs.positive id r hold
    · exact hreserves.positive hvalid
    · rw [hcloses.keep.columns.2.2.2.2]
      exact hs.positive id r₀ hold
  · rcases h.reservation_origin hr with hold | ⟨_, _, _, _, hreserves⟩ | ⟨x, r₀, hold, hcloses⟩
    · exact hs.consumable id r hold
    · exact hreserves.items_consumable
    · rw [hcloses.keep.columns.2.2.2.2]
      exact hs.consumable id r₀ hold
  · rcases h.reservation_origin hr with hold | ⟨_, _, _, _, hreserves⟩ | ⟨x, r₀, hold, hcloses⟩
    · obtain ⟨hchild, hparent⟩ := hs.accounts id r hold i hi
      exact ⟨h.balance_kept hchild, h.balance_kept hparent⟩
    · exact hreserves.accounts hi
    · obtain ⟨_, hparentID, hchildID, _, hitems⟩ := hcloses.keep.columns
      obtain ⟨hchild, hparent⟩ := hs.accounts id r₀ hold i (hitems ▸ hi)
      rw [hparentID, hchildID]
      exact ⟨h.balance_kept hchild, h.balance_kept hparent⟩

/-! ### Settlements -/

/-- A reservation item with the child's terms of its dimension. -/
def lockedItem (s : Store) (r : Reservation) (i : ReservationItem) : LockedItem :=
  ⟨i.dimensionID, i.unit, i.scale, i.reservedValue,
    s.accounts.available r.childEnvelopeID i.dimensionID,
    s.accounts.allocatedOpen r.childEnvelopeID i.dimensionID⟩

/-- No item is lost in the join with the balances. -/
theorem Delegated.joinedItems_eq (hs : Delegated dep s)
    (hr : s.reservations.get id = some r) : joinedItems dep s r =
      (r.items.insertionSort fun a b => ID.le a.dimensionID b.dimensionID).map (lockedItem s r) := by
  rw [joinedItems, ← filterMap_eq_map]
  apply filterMap_congr
  intro i hi
  have hmem : i ∈ r.items := (perm_insertionSort _ _).mem_iff.mp hi
  obtain ⟨⟨c, hc⟩, ⟨p, hp⟩⟩ := hs.accounts id r hr i hmem
  have hconsumable := hs.consumable id r hr i hmem
  rw [Deployment.consumable, Option.any_eq_true] at hconsumable
  obtain ⟨d, hd, _⟩ := hconsumable
  have hcolumns : s.accounts.available r.childEnvelopeID i.dimensionID = c.availableValue ∧
      s.accounts.allocatedOpen r.childEnvelopeID i.dimensionID = c.allocatedOpenValue :=
    ⟨column_of_get hc, column_of_get hc⟩
  simp only [joinedItem, hd, hc, hp, Function.comp_apply, lockedItem, hcolumns]

theorem exists_of_forall₂ {α β : Type} {R : α → β → Prop} {as : List α} {bs : List β}
    (h : List.Forall₂ R as bs) {b : β} (hb : b ∈ bs) : ∃ a ∈ as, R a b := by
  induction h with
  | nil => exact absurd hb not_mem_nil
  | cons hab _ ih =>
    rcases mem_cons.mp hb with rfl | hb
    · exact ⟨_, mem_cons_self, hab⟩
    · obtain ⟨a, ha, hab⟩ := ih hb
      exact ⟨a, mem_cons_of_mem _ ha, hab⟩

theorem map_eq_of_forall₂ {α β γ : Type} {R : α → β → Prop} {f : α → γ} {g : β → γ}
    (hfg : ∀ a b, R a b → f a = g b) {as : List α} {bs : List β} (h : List.Forall₂ R as bs) :
    as.map f = bs.map g := by
  induction h with
  | nil => rfl
  | cons hab _ ih => rw [map_cons, map_cons, hfg _ _ hab, ih]

/-- The items of a settlement are those of its reservation, each with what the child had left. -/
theorem Closes.items_eq (hs : Delegated dep s)
    (h : Closes dep x r r' s t) :
    (x.items.map fun i => (i.dimensionID, i.reservedValue, i.returnedValue)).Perm
      (r.items.map fun i => (i.dimensionID, i.reservedValue,
        s.accounts.available r.childEnvelopeID i.dimensionID)) := by
  have hsettled := h.items
  rw [hs.joinedItems_eq h.reservation] at hsettled
  have hmap := map_eq_of_forall₂ (f := fun l : LockedItem => (l.dimensionID, l.reserved, l.available))
    (g := fun i : SettlementItem => (i.dimensionID, i.reservedValue, i.returnedValue))
    (fun l i hsettle => by
      obtain ⟨hdimension, hreserved, hreturned, _⟩ := LockedItem.settle_spec hsettle
      rw [hdimension, hreserved, hreturned]) hsettled
  rw [← hmap, List.map_map]
  exact (perm_insertionSort _ _).map _

theorem SettlementItem.reserved_eq (i : SettlementItem) :
    i.reservedValue = i.consumedValue + i.returnedValue := by
  have h := i.returned_eq
  omega

theorem Settlement.consumed_add_returned (x : Settlement) (d : ID) : x.consumed d + x.returned d =
    (x.items.map fun i => if i.dimensionID = d then i.reservedValue else 0).sum := by
  unfold Settlement.consumed Settlement.returned
  induction x.items with
  | nil => rfl
  | cons i items ih =>
    simp only [map_cons, sum_cons]
    have hi := i.reserved_eq
    split_ifs <;> omega

/-- What was reserved is consumed or returned. -/
theorem Closes.consumed_add_returned (hs : Delegated dep s)
    (h : Closes dep x r r' s t) (d : ID) : x.consumed d + x.returned d = r.reserved d := by
  have hperm := (h.items_eq hs).map fun k : ID × Int × Int => if k.1 = d then k.2.1 else 0
  rw [List.map_map, List.map_map] at hperm
  rw [x.consumed_add_returned]
  exact hperm.sum_eq

/-- Two settlements that a uniqueness constraint does not allow together. -/
def Settlement.Clashes (x x' : Settlement) : Prop :=
  x.reservationID = x'.reservationID ∨
    (x.actorPrincipalID = x'.actorPrincipalID ∧ x.idempotencyKey = x'.idempotencyKey)

theorem Settlement.Clashes.symm {x' : Settlement} (h : x.Clashes x') : x'.Clashes x :=
  h.imp Eq.symm fun hkey => ⟨hkey.1.symm, hkey.2.symm⟩

/-- A settlement belongs to a closed reservation, which has no other, and a closed reservation to a
terminal run. -/
structure Settled (s : Store) : Prop where
  reservation : ∀ id x, s.settlements.get id = some x →
    ∃ r, s.reservations.get x.reservationID = some r ∧ r.state ≠ .opened ∧
      ∀ d, x.consumed d + x.returned d = r.reserved d
  unique : ∀ id id' x x', s.settlements.get id = some x → s.settlements.get id' = some x' →
    x.Clashes x' → id = id'
  settlement : ∀ id r, s.reservations.get id = some r → r.state ≠ .opened →
    ∃ x ∈ s.settlements.rows, x.reservationID = id
  terminal : ∀ id r, s.reservations.get id = some r → r.state ≠ .opened →
    ∃ run, s.runs.get r.childRunID = some run ∧ run.state.terminal = true

theorem Settled.empty : Settled Store.empty := by
  constructor <;> intros <;> contradiction

variable {run : Run}

/-- A terminal run stays as it is. -/
theorem Moves.terminal_kept (h : Moves dep request held s t link)
    (hrun : s.runs.get id = some run) (hterminal : run.state.terminal = true) :
    t.runs.get id = some run := by
  obtain ⟨run', hrun', hkeep⟩ := h.keeps.runs _ _ hrun
  rw [hrun', hkeep.1 hterminal]

theorem Settled.moves (hs : Settled s) (h : Moves dep request held s t link) (hdelegated : Delegated dep s) :
    Settled t := by
  have hkeeps := h.keeps
  refine ⟨fun id x hx => ?_, ?_, fun id r hr hclosed => ?_,
    fun id r hr hclosed => ?_⟩
  · rcases h.settlement_origin hx with hold | ⟨_, r, r', hcloses⟩
    · obtain ⟨r, hr, hclosed, hsum⟩ := hs.reservation id x hold
      obtain ⟨r', hr', hkeep⟩ := hkeeps.reservations _ r hr
      have hsame : r' = r := by
        rcases hkeep with rfl | ⟨hopen, _⟩
        · rfl
        · exact absurd hopen hclosed
      exact ⟨r, hsame ▸ hr', hclosed, hsum⟩
    · refine ⟨r', ?_, hcloses.closed, fun d => ?_⟩
      · rw [hcloses.store_eq.reservations, ← hcloses.row_id, get_put_self]
      · rw [hcloses.consumed_add_returned hdelegated d, Reservation.reserved, Reservation.reserved,
          hcloses.keep.columns.2.2.2.2]
  · rcases h.settlements_eq with heq | ⟨x, r, r', hcloses⟩
    · rw [heq]
      exact hs.unique
    · rw [hcloses.store_eq.settlements]
      refine unique_put (fun _ _ => Settlement.Clashes.symm) hs.unique fun y hy hclash => ?_
      obtain ⟨_, hreservation, hkey⟩ := hcloses.fresh y hy
      exact hclash.elim hreservation hkey
  · rcases h.reservation_origin hr with hold | ⟨_, _, _, _, hreserves⟩ | ⟨x, r₀, hold, hcloses⟩
    · obtain ⟨x, hx, hid⟩ := hs.settlement id r hold hclosed
      obtain ⟨_, hx', rfl⟩ := hkeeps.settlements _ x (get_of_mem hx)
      exact ⟨x, mem_of_get hx', hid⟩
    · exact absurd hreserves.columns.2.2.2 hclosed
    · refine ⟨x, ?_, ?_⟩
      · rw [hcloses.store_eq.settlements]
        exact mem_put.mpr (Or.inl rfl)
      · have hid : r.id = id := key_of_get hr
        rw [← hid, hcloses.row_id]
  · rcases h.reservation_origin hr with hold | ⟨_, _, _, _, hreserves⟩ | ⟨x, r₀, hold, hcloses⟩
    · obtain ⟨run, hrun, hterminal⟩ := hs.terminal id r hold hclosed
      exact ⟨run, h.terminal_kept hrun hterminal, hterminal⟩
    · exact absurd hreserves.columns.2.2.2 hclosed
    · obtain ⟨run, hrun, _, hterminal⟩ := hcloses.terminal
      exact ⟨run, hcloses.keep.columns.2.2.2.1 ▸ hrun, hterminal⟩

/-! ### Usage and extensions -/

/-- Usage and extensions are recorded against accounts of consumable dimensions of the run's envelope,
usage once for each source event. -/
structure Recorded (dep : Deployment) (s : Store) : Prop where
  usage : ∀ id u, s.usage.get id = some u → ∃ e, s.envelopes.get u.envelopeID = some e ∧
    e.runID = u.runID ∧ dep.consumable u.dimensionID ∧ 0 ≤ u.quantityValue ∧
    ∃ b, s.balances.get (u.envelopeID, u.dimensionID) = some b
  source : ∀ id id' u u', s.usage.get id = some u → s.usage.get id' = some u' →
    u.producerID = u'.producerID → u.sourceEventID = u'.sourceEventID → id = id'
  extension : ∀ id x, s.extensions.get id = some x → ∀ i ∈ x.items, dep.consumable i.dimensionID ∧
    0 < i.addedValue ∧ ∃ b, s.balances.get (x.envelopeID, i.dimensionID) = some b

theorem Recorded.empty : Recorded dep Store.empty := by
  constructor <;> intros <;> contradiction

theorem consumable_of_byName {name : String} {d : ResourceDimension} (h : dep.byName name = some d)
    (hclass : d.resourceClass = .consumable) : dep.consumable d.id := by
  simp [Deployment.consumable, (Deployment.byName_spec h).2, hclass]

variable {extension : ResourceExtension} {row : Extension} {run' : Run}

theorem Extends.envelopeID
    (h : Extends dep extension row e run run' s t) : row.envelopeID = e.id := by
  rw [h.row_eq]
  rfl

/-- An item of an extension adds to a consumable grant of the envelope. -/
theorem Extends.item {candidate : ResourceExtension}
    (hvalid : validateResourceExtension candidate = .ok extension)
    (h : Extends dep extension row e run run' s t) {i : ExtensionItem} (hi : i ∈ row.items) :
    dep.consumable i.dimensionID ∧ 0 < i.addedValue ∧
      ∃ g, s.grants.get (row.envelopeID, i.dimensionID) = some g := by
  obtain ⟨_, _, _, _, _, _, _, hpos⟩ := validateResourceExtension_spec hvalid
  obtain ⟨a, ha, hadds⟩ := exists_of_forall₂ h.items hi
  obtain ⟨d, hd, hid, hclass⟩ := hadds.dimension
  obtain ⟨g, hg, _⟩ := hadds.grant
  rw [h.envelopeID]
  refine ⟨hid ▸ consumable_of_byName hd hclass, ?_, g, hg⟩
  rw [hadds.added]
  exact hpos a ha

theorem Recorded.moves (hs : Recorded dep s) (h : Moves dep request held s t link) (hplaced : Placed s) :
    Recorded dep t := by
  have hkeeps := h.keeps
  refine ⟨fun id u hu => ?_, fun id id' u u' hu hu' hproducer hsource => ?_, fun id x hx i hi => ?_⟩
  · have hbefore : ∃ e, s.envelopes.get u.envelopeID = some e ∧ e.runID = u.runID ∧
        dep.consumable u.dimensionID ∧ 0 ≤ u.quantityValue ∧
        ∃ b, s.balances.get (u.envelopeID, u.dimensionID) = some b := by
      rcases h.usage_origin hu with hold | ⟨_, _, usage, target, hvalid, rfl, hmeters⟩
      · exact hs.usage id u hold
      · obtain ⟨e, he, hrun⟩ := hmeters.envelope
        obtain ⟨_, _, _, _, _, _, hquantity, hnonneg, _⟩ := validateTrustedUsage_spec hvalid
        rw [← hquantity] at hnonneg
        exact ⟨e, he, hrun, consumable_of_byName hmeters.dimension hmeters.consumable, hnonneg,
          hplaced.balance _ _ hmeters.grant⟩
    obtain ⟨e, he, hrun, hconsumable, hnonneg, hbalance⟩ := hbefore
    obtain ⟨e', he', hkeep⟩ := hkeeps.envelopes _ e he
    exact ⟨e', he', hkeep.runID.trans hrun, hconsumable, hnonneg, h.balance_kept hbalance⟩
  · rcases h.usage_eq with heq | ⟨_, usage, target, _, hmeters⟩
    · rw [heq] at hu hu'
      exact hs.source id id' u u' hu hu' hproducer hsource
    · rw [hmeters.store_eq.usage] at hu hu'
      refine @unique_put _ _ _ _ _ _ (fun u u' => u.producerID = u'.producerID ∧
        u.sourceEventID = u'.sourceEventID) (fun _ _ h => ⟨h.1.symm, h.2.symm⟩)
        (fun id id' u u' hu hu' h => hs.source id id' u u' hu hu' h.1 h.2)
        (fun v hv => (hmeters.fresh v hv).2) id id' u u' hu hu' ⟨hproducer, hsource⟩
  · rcases h.extension_origin hx with hold | ⟨_, _, extension, e, run, run', hvalid, hextends⟩
    · obtain ⟨hconsumable, hpos, hbalance⟩ := hs.extension id x hold i hi
      exact ⟨hconsumable, hpos, h.balance_kept hbalance⟩
    · obtain ⟨hconsumable, hpos, g, hg⟩ := hextends.item hvalid hi
      exact ⟨hconsumable, hpos, h.balance_kept (hplaced.balance _ g hg)⟩

/-! ### All of it -/

/-- The shape of a reachable tenant. -/
structure Sound (dep : Deployment) (s : Store) : Prop where
  placed : Placed s
  delegated : Delegated dep s
  settled : Settled s
  recorded : Recorded dep s

theorem Sound.empty : Sound dep Store.empty :=
  ⟨Placed.empty, Delegated.empty, Settled.empty, Recorded.empty⟩

theorem Sound.moves (hs : Sound dep s) (h : Moves dep request held s t link) : Sound dep t :=
  ⟨hs.placed.moves h, hs.delegated.moves h, hs.settled.moves h hs.delegated,
    hs.recorded.moves h hs.placed⟩

theorem Reachable.sound {governor : Governor} (h : Reachable dep governor) :
    Sound dep governor.committed ∧ ∀ c ∈ governor.log, Sound dep c.before ∧ Sound dep c.after ∧
      storeEngine.Commits (program dep) c.request c.response c.before c.after :=
  h.invariant Sound.empty fun _ _ _ _ _ hmove hs => hs.moves hmove

end AgentGovernor
