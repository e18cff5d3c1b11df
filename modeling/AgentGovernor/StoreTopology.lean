import AgentGovernor.StoreDelegation

/-! Delegation topology. The governor checks a reservation against the direct parent only: the parent's
child counts, its limits and its depth. Along the links of a delegation tree these checks bound every
descendant by every ancestor. -/

namespace AgentGovernor

open Ledger Transaction Sample

variable {held : List Lock} {s t : Store} {dep : Deployment} {request : Request} {link : Option ID}

/-! ### Depth -/

/-- The number of links between an envelope and its root. -/
inductive Depth (s : Store) : ID → Nat → Prop where
  | root {id : ID} {e : Envelope} (he : s.envelopes.get id = some e)
      (hparent : e.parentEnvelopeID = none) : Depth s id 0
  | child {p c : ID} {k : Nat} (hlink : ParentOf s p c) (hparent : Depth s p k) : Depth s c (k + 1)

theorem ParentOf.not_root {p c : ID} {e : Envelope} (h : ParentOf s p c)
    (he : s.envelopes.get c = some e) : e.parentEnvelopeID ≠ none := by
  obtain ⟨e', he', hparent⟩ := h
  rw [he] at he'
  cases he'
  rw [hparent]
  exact Option.some_ne_none p

theorem Depth.unique {e : ID} {k k' : Nat} (h : Depth s e k) (h' : Depth s e k') : k = k' := by
  induction h generalizing k' with
  | root he hparent =>
    cases h' with
    | root => rfl
    | child hlink _ => exact absurd hparent (hlink.not_root he)
  | child hlink _ ih =>
    cases h' with
    | root he hparent => exact absurd hparent (hlink.not_root he)
    | child hlink' hdepth =>
      rw [hlink'.unique hlink] at hdepth
      rw [ih hdepth]

theorem ParentOf.kept (hkeeps : s.envelopes.Keeps Envelope.Keep t.envelopes) {p c : ID}
    (h : ParentOf s p c) : ParentOf t p c := by
  obtain ⟨e, he, hparent⟩ := h
  obtain ⟨e', he', hkeep⟩ := hkeeps c e he
  exact ⟨e', he', hkeep.parentEnvelopeID.trans hparent⟩

/-- Links are never changed, so depths are not either. -/
theorem Depth.kept (hkeeps : s.envelopes.Keeps Envelope.Keep t.envelopes) {e : ID} {k : Nat}
    (h : Depth s e k) : Depth t e k := by
  induction h with
  | root he hparent =>
    obtain ⟨e', he', hkeep⟩ := hkeeps _ _ he
    exact .root he' (hkeep.parentEnvelopeID.trans hparent)
  | child hlink _ ih => exact .child (hlink.kept hkeeps) ih

/-- The recursive query counts the rows up to the root, one more than the depth. -/
theorem depth_of_ancestry {fuel : Nat} {e : ID} {n : Int} (h : ancestryDepth s fuel e = some n) :
    ∃ k : Nat, Depth s e k ∧ n = k + 1 := by
  induction fuel generalizing e n with
  | zero => cases h
  | succ fuel ih =>
    simp only [ancestryDepth, Option.bind_eq_some_iff] at h
    obtain ⟨row, hrow, h⟩ := h
    cases hparent : row.parentEnvelopeID with
    | none =>
      simp only [hparent, Option.some.injEq] at h
      exact ⟨0, .root hrow hparent, by omega⟩
    | some p =>
      simp only [hparent, Option.map_eq_some_iff] at h
      obtain ⟨m, hm, rfl⟩ := h
      obtain ⟨k, hk, rfl⟩ := ih hm
      exact ⟨k + 1, .child ⟨row, hrow, hparent⟩ hk, by push_cast; ring⟩

/-! ### Limits along a link -/

/-- The three limits of a child are within its parent's, and its depth is within the parent's limit. -/
def LimitsNarrow (dep : Deployment) (s : Store) (parent child : ID) : Prop :=
  ∃ maximum limits k, structuralLimits dep s parent = some maximum ∧
    structuralLimits dep s child = some limits ∧ limits.active ≤ maximum.active ∧
    limits.total ≤ maximum.total ∧ limits.depth ≤ maximum.depth ∧ Depth s parent k ∧
    (k : Int) + 1 ≤ maximum.depth

/-- The children of an envelope are within its limits. -/
def CountsWithin (dep : Deployment) (s : Store) (e : ID) : Prop :=
  ∃ limits, structuralLimits dep s e = some limits ∧ activeChildren s e ≤ limits.active ∧
    totalChildren s e ≤ limits.total

theorem TopologyAllows.limitsNarrow {parent child : ID} (h : TopologyAllows dep s parent child) :
    LimitsNarrow dep s parent child := by
  obtain ⟨maximum, limits, n, fuel, hmaximum, hlimits, hactive, htotal, hdepth, _, _, hancestry, hn⟩ :=
    h.limits
  obtain ⟨k, hk, rfl⟩ := depth_of_ancestry hancestry
  exact ⟨maximum, limits, k, hmaximum, hlimits, hactive, htotal, hdepth, hk, hn⟩

theorem LimitsNarrow.kept {parent child : ID} (hkeeps : s.Keeps held t)
    (h : LimitsNarrow dep s parent child) : LimitsNarrow dep t parent child := by
  obtain ⟨maximum, limits, k, hmaximum, hlimits, hactive, htotal, hdepth, hk, hn⟩ := h
  exact ⟨maximum, limits, k, structuralLimits_kept hkeeps.grants hmaximum,
    structuralLimits_kept hkeeps.grants hlimits, hactive, htotal, hdepth, hk.kept hkeeps.envelopes, hn⟩

/-- A move opens a reservation of the envelope, or its counts do not grow. -/
theorem Moves.children (h : Moves dep request held s t link) (e : ID) :
    (∃ reservation row, Reserves dep reservation row s t ∧ reservation.parentEnvelopeID = e ∧
      activeChildren t e = activeChildren s e + 1 ∧ totalChildren t e = totalChildren s e + 1) ∨
    (activeChildren t e ≤ activeChildren s e ∧ totalChildren t e = totalChildren s e) := by
  have hsame : t.reservations = s.reservations →
      activeChildren t e ≤ activeChildren s e ∧ totalChildren t e = totalChildren s e := by
    intro heq
    rw [activeChildren, totalChildren, heq]
    exact ⟨le_refl _, rfl⟩
  cases h with
  | idle h => exact Or.inr (hsame h.store_eq.reservations)
  | admitRun _ _ _ _ _ _ _ h => exact Or.inr (hsame h.store_eq.reservations)
  | meter _ _ _ _ _ h => exact Or.inr (hsame h.store_eq.reservations)
  | extend _ _ _ _ _ _ _ _ h => exact Or.inr (hsame h.store_eq.reservations)
  | reserve requested reservation row _ _ h =>
    obtain ⟨hparent, _, _, hopened⟩ := h.columns
    simp only [activeChildren, totalChildren, h.evidenced.reservations,
      Table.total_put_of_none _ h.row_none, hopened, and_true]
    by_cases he : row.parentEnvelopeID = e
    · exact Or.inl ⟨reservation, row, h, hparent.symm.trans he, by simp [he], by simp [he]⟩
    · exact Or.inr ⟨by simp [he], by simp [he]⟩
  | close x r r' h _ =>
    have hget : s.reservations.get r'.id = some r := h.row_id ▸ h.reservation
    have hparent : r'.parentEnvelopeID = r.parentEnvelopeID := h.keep.columns.2.1
    have hclosed := h.closed
    simp only [activeChildren, totalChildren, h.store_eq.reservations,
      Table.total_put_of_get _ hget, hparent, h.opened, hclosed, and_true, and_false, if_false]
    refine Or.inr ⟨?_, ?_⟩ <;> split_ifs <;> omega

/-- Every reservation passed the topology check, and the counts have not outgrown it since. -/
structure Ranked (dep : Deployment) (s : Store) : Prop where
  narrow : ∀ id r, s.reservations.get id = some r →
    LimitsNarrow dep s r.parentEnvelopeID r.childEnvelopeID
  counts : ∀ id r, s.reservations.get id = some r → CountsWithin dep s r.parentEnvelopeID

theorem Ranked.empty : Ranked dep Store.empty := by
  constructor <;> intros <;> contradiction

theorem Reserves.countsWithin {reservation : ResourceReservation} {row : Reservation}
    (h : Reserves dep reservation row s t) (hkeeps : s.Keeps held t)
    (hactive : activeChildren t reservation.parentEnvelopeID ≤
      activeChildren s reservation.parentEnvelopeID + 1)
    (htotal : totalChildren t reservation.parentEnvelopeID ≤
      totalChildren s reservation.parentEnvelopeID + 1) :
    CountsWithin dep t reservation.parentEnvelopeID := by
  obtain ⟨maximum, _, _, _, hmaximum, _, _, _, _, hactive', htotal', _⟩ := h.topology.limits
  exact ⟨maximum, structuralLimits_kept hkeeps.grants hmaximum, by omega, by omega⟩

theorem Ranked.moves (hs : Ranked dep s) (h : Moves dep request held s t link) : Ranked dep t := by
  have hkeeps := h.keeps
  refine ⟨fun id r hr => ?_, fun id r hr => ?_⟩
  · rcases h.reservation_origin hr with hold | ⟨_, _, _, _, hreserves⟩ | ⟨x, r₀, hold, hcloses⟩
    · exact (hs.narrow id r hold).kept hkeeps
    · obtain ⟨hparent, hchild, _⟩ := hreserves.columns
      rw [hparent, hchild]
      exact hreserves.topology.limitsNarrow.kept hkeeps
    · obtain ⟨_, hparent, hchild, _⟩ := hcloses.keep.columns
      rw [hparent, hchild]
      exact (hs.narrow id r₀ hold).kept hkeeps
  · rcases h.children r.parentEnvelopeID with ⟨reservation, row, hreserves, hparent, ha, ht⟩ | ⟨ha, ht⟩
    · rw [← hparent] at ha ht ⊢
      exact hreserves.countsWithin hkeeps ha.le ht.le
    · have hbefore : CountsWithin dep s r.parentEnvelopeID → CountsWithin dep t r.parentEnvelopeID := by
        rintro ⟨limits, hlimits, hactive, htotal⟩
        exact ⟨limits, structuralLimits_kept hkeeps.grants hlimits, ha.trans hactive, ht ▸ htotal⟩
      rcases h.reservation_origin hr with hold | ⟨_, _, _, _, hreserves⟩ | ⟨x, r₀, hold, hcloses⟩
      · exact hbefore (hs.counts id r hold)
      · rw [hreserves.columns.1] at ha ht ⊢
        exact hreserves.countsWithin hkeeps (by omega) (by omega)
      · rw [hcloses.keep.columns.2.1] at hbefore ⊢
        exact hbefore (hs.counts id r₀ hold)

/-! ### Every link has its reservation -/

/-- Between commits, an envelope that is linked to a parent has a reservation. -/
def Linked (s : Store) : Prop :=
  ∀ p c, ParentOf s p c → ∃ id r, s.reservations.get id = some r ∧ r.childEnvelopeID = c ∧
    r.parentEnvelopeID = p

theorem Linked.empty : Linked Store.empty := by
  rintro p c ⟨e, he, _⟩
  cases he

/-- A link that was there keeps its reservation. -/
theorem Linked.kept (hs : Linked s) (hkeeps : s.Keeps held t) {p c : ID} (h : ParentOf s p c) :
    ∃ id r, t.reservations.get id = some r ∧ r.childEnvelopeID = c ∧ r.parentEnvelopeID = p := by
  obtain ⟨id, r, hr, rfl, rfl⟩ := hs p c h
  obtain ⟨r', hr', hkeep⟩ := hkeeps.reservations id r hr
  obtain ⟨_, hparent, hchild, _⟩ := hkeep.columns
  exact ⟨id, r', hr', hchild, hparent⟩

theorem Linked.transition (hs : Linked s) (h : Transition dep request held s t) : Linked t := by
  have hkeeps := h.keeps
  rintro p c ⟨e, he, hparent⟩
  cases h with
  | single h =>
    rcases h.envelope_origin he with ⟨e₀, he₀, hkeep⟩ | ⟨hlink, _⟩
    · exact hs.kept hkeeps ⟨e₀, he₀, hkeep.parentEnvelopeID ▸ hparent⟩
    · rw [hparent] at hlink
      cases hlink
  | delegate admission resolution evidence grants requested reservation row mid _ _ _ h =>
    rw [h.reserves.evidenced.envelopes, h.admits.store_eq.envelopes, Table.get_put] at he
    split_ifs at he with hid
    · -- The link of this commit has the reservation of this commit.
      cases he
      cases hparent
      obtain ⟨hparentID, hchildID, _⟩ := h.reserves.columns
      refine ⟨row.id, row, ?_, ?_, hparentID⟩
      · rw [h.reserves.evidenced.reservations, Table.get_put_self]
      · rw [hchildID, h.child_envelope]
        exact hid.symm
    · exact hs.kept hkeeps ⟨e, he, hparent⟩

/-! ### Ancestors -/

/-- The topology of a tenant: the children of an envelope are within its counts, and every descendant
has a depth, which is within the limit of each of its proper ancestors. -/
structure TopologyHolds (dep : Deployment) (s : Store) : Prop where
  counts : ∀ e c, ParentOf s e c → CountsWithin dep s e
  depth : ∀ a c, Relation.TransGen (ParentOf s) a c → ∃ limits k, structuralLimits dep s a = some limits ∧
    Depth s c k ∧ (k : Int) ≤ limits.depth

theorem Ranked.topologyHolds (hs : Ranked dep s) (hlinked : Linked s) : TopologyHolds dep s where
  counts e c hlink := by
    obtain ⟨id, r, hr, _, rfl⟩ := hlinked e c hlink
    exact hs.counts id r hr
  depth a c hpath := by
    have hnarrow : ∀ p c, ParentOf s p c → LimitsNarrow dep s p c := by
      intro p c hlink
      obtain ⟨id, r, hr, rfl, rfl⟩ := hlinked p c hlink
      exact hs.narrow id r hr
    -- Along the path the depth limit of the ancestor bounds that of the last envelope before the child.
    have hbound : ∀ {c}, Relation.TransGen (ParentOf s) a c → ∃ limits below k,
        structuralLimits dep s a = some limits ∧ structuralLimits dep s c = some below ∧
          below.depth ≤ limits.depth ∧ Depth s c k ∧ (k : Int) ≤ limits.depth := by
      intro c hpath
      induction hpath with
      | single hlink =>
        obtain ⟨maximum, limits, k, hmaximum, hlimits, _, _, hdepth, hk, hn⟩ := hnarrow _ _ hlink
        exact ⟨maximum, limits, k + 1, hmaximum, hlimits, hdepth, .child hlink hk, by push_cast; exact hn⟩
      | tail _ hlink ih =>
        obtain ⟨limits, below, _, ha, hbelow, hle, _⟩ := ih
        obtain ⟨maximum, last, k, hmaximum, hlast, _, _, hdepth, hk, hn⟩ := hnarrow _ _ hlink
        rw [hbelow] at hmaximum
        cases hmaximum
        exact ⟨limits, last, k + 1, ha, hlast, hdepth.trans hle, .child hlink hk,
          by push_cast; exact hn.trans hle⟩
    obtain ⟨limits, _, k, ha, _, _, hk, hle⟩ := hbound hpath
    exact ⟨limits, k, ha, hk, hle⟩

theorem Reachable.topology {governor : Governor} (h : Reachable dep governor) :
    TopologyHolds dep governor.committed :=
  (h.invariant Ranked.empty fun _ _ _ _ _ hmove hs => hs.moves hmove).1.topologyHolds
    (h.always Linked.empty fun _ _ _ _ htransition hs => hs.transition htransition).1

/-- The topology limits hold in every reachable tenant, whose reservations are all that were ever
created. -/
theorem topology_limits_hold {governor : Governor} (h : Reachable dep governor) :
    (∀ e c, ParentOf governor.committed e c → ∃ limits,
      structuralLimits dep governor.committed e = some limits ∧
      activeChildren governor.committed e ≤ limits.active ∧
      totalChildren governor.committed e ≤ limits.total) ∧
    (∀ c ∈ governor.log, c.after.reservations.Keeps Reservation.Keep governor.committed.reservations) ∧
    ∀ a c, Relation.TransGen (ParentOf governor.committed) a c →
      ∃ limits, structuralLimits dep governor.committed a = some limits ∧
        (∃ k, Depth governor.committed c k) ∧
        ∀ k, Depth governor.committed c k → (k : Int) ≤ limits.depth := by
  have htopology := h.topology
  refine ⟨htopology.counts, ?_, fun a c hpath => ?_⟩
  · exact h.since (R := fun s t => s.reservations.Keeps Reservation.Keep t.reservations)
      (fun s => .refl Reservation.Keep.refl _) (fun _ _ _ => .trans Reservation.Keep.trans)
      fun _ _ _ _ htransition => htransition.keeps.reservations
  · obtain ⟨limits, k, hlimits, hk, hle⟩ := htopology.depth a c hpath
    refine ⟨limits, hlimits, ⟨k, hk⟩, fun k' hk' => ?_⟩
    rw [hk'.unique hk]
    exact hle

theorem Sample.story_child : ParentOf (after story).committed (.ofNat 101) (.ofNat 301) ∧
    structuralLimits deployment (after story).committed (.ofNat 101) =
      some ⟨2, 2, 2⟩ := by
  have hrow : ((after story).committed.envelopes.get (.ofNat 301)).any
      (fun e => e.parentEnvelopeID = some (.ofNat 101)) = true ∧
      structuralLimits deployment (after story).committed (.ofNat 101) =
        some ⟨2, 2, 2⟩ := by
    decide +kernel
  obtain ⟨e, he, hparent⟩ := (Option.any_eq_true _ _).mp hrow.1
  exact ⟨⟨e, he, of_decide_eq_true hparent⟩, hrow.2⟩

theorem topology_limits_hold_story :
    activeChildren (after story).committed (.ofNat 101) ≤ 2 ∧
    totalChildren (after story).committed (.ofNat 101) ≤ 2 ∧
    ∃ k, Depth (after story).committed (.ofNat 301) k ∧ k ≤ 2 := by
  obtain ⟨hlink, hlimits⟩ := story_child
  obtain ⟨hcounts, _, hdepths⟩ := topology_limits_hold (reachable story)
  obtain ⟨limits, hlimits', hactive, htotal⟩ := hcounts _ _ hlink
  obtain ⟨limits', hlimits'', ⟨k, hk⟩, hdepth⟩ := hdepths _ _ (.single hlink)
  rw [hlimits] at hlimits' hlimits''
  cases hlimits'
  cases hlimits''
  have hle : (k : Int) ≤ 2 := hdepth k hk
  exact ⟨hactive, htotal, k, hk, by omega⟩

end AgentGovernor
