import AgentGovernor.StoreSettledOnce

/-! What a settlement records as consumed. Settlement and reconciliation take it to be what was reserved
less what is available to the child. That is the child's own consumption less what extensions added to the
child, so the two agree exactly when the child was never extended in the dimension. -/

namespace AgentGovernor

open Ledger Transaction Engine Sample

variable {held : List Lock} {s t : Store} {dep : Deployment} {request : Request} {link : Option ID}

/-! ### The grant of a child -/

/-- A child is granted what its reservation holds. -/
def GrantsReserved (s : Store) : Prop :=
  ∀ id r, s.reservations.get id = some r → ∀ i ∈ r.items,
    s.accounts.granted r.childEnvelopeID i.dimensionID = i.reservedValue

theorem Reserves.granted {reservation : ResourceReservation} {row : Reservation}
    (h : Reserves dep reservation row s t) {i : ReservationItem} (hi : i ∈ row.items) :
    t.accounts.granted row.childEnvelopeID i.dimensionID = i.reservedValue := by
  have hissue : .issue row.childEnvelopeID i.dimensionID i.reservedValue ∈ row.entries :=
    List.mem_flatMap.mpr ⟨i, hi, by simp⟩
  obtain ⟨g, hg, hvalue⟩ := h.posts.issued_value hissue
  exact (Table.column_of_get hg).trans hvalue

/-- The grant of an account that is there stays. -/
theorem Moves.granted_kept (h : Moves dep request held s t link) (hs : Placed s) {e d : ID}
    (hb : ∃ b, s.balances.get (e, d) = some b) : t.accounts.granted e d = s.accounts.granted e d := by
  obtain ⟨b, hb⟩ := hb
  obtain ⟨g, hg⟩ := hs.grant _ b hb
  obtain ⟨entries, hposts, _⟩ := h.posts
  exact (Table.column_of_get (hposts.grant_kept hg)).trans (Table.column_of_get hg).symm

theorem GrantsReserved.moves (hs : GrantsReserved s) (hsound : Sound dep s)
    (h : Moves dep request held s t link) : GrantsReserved t := by
  have hold : ∀ id r, s.reservations.get id = some r → ∀ i ∈ r.items,
      t.accounts.granted r.childEnvelopeID i.dimensionID = i.reservedValue := fun id r hr i hi =>
    (h.granted_kept hsound.placed (hsound.delegated.accounts id r hr i hi).1).trans (hs id r hr i hi)
  intro id r hr i hi
  rcases h.reservation_origin hr with hsame | ⟨_, _, _, _, hreserves⟩ | ⟨_, r₀, hr₀, hcloses⟩
  · exact hold id r hsame i hi
  · exact hreserves.granted hi
  · obtain ⟨_, _, hchild, _, hitems⟩ := hcloses.keep.columns
    rw [hchild]
    exact hold id r₀ hr₀ i (hitems ▸ hi)

theorem Reachable.grantsReserved {governor : Governor} (h : Reachable dep governor) :
    (Sound dep governor.committed ∧ GrantsReserved governor.committed) ∧
      ∀ c ∈ governor.log, (Sound dep c.before ∧ GrantsReserved c.before) ∧
        (Sound dep c.after ∧ GrantsReserved c.after) ∧
        storeEngine.Commits (program dep) c.request c.response c.before c.after :=
  h.invariant (P := fun s => Sound dep s ∧ GrantsReserved s)
    ⟨Sound.empty, fun _ _ hr => by cases hr⟩
    fun _ _ _ _ _ hmove hs => ⟨hs.1.moves hmove, hs.2.moves hs.1 hmove⟩

/-! ### Consumption -/

/-- An item records the child's consumption less what extensions have added to the child. -/
theorem Closes.consumed_eq {x : Settlement} {r r' : Reservation} (h : Closes dep x r r' s t)
    (hdelegated : Delegated dep s) (hgrants : GrantsReserved s) (hbalanced : Balanced s)
    {i : SettlementItem} (hi : i ∈ x.items) :
    i.consumedValue = s.accounts.directConsumed r.childEnvelopeID i.dimensionID -
      extendedValue s r.childEnvelopeID i.dimensionID := by
  obtain ⟨l, hl, hsettle⟩ := exists_of_forall₂ h.items hi
  have hallocated := (h.valid l hl).1
  obtain ⟨hdimension, _, _, hconsumed⟩ := LockedItem.settle_spec hsettle
  rw [hdelegated.joinedItems_eq h.reservation] at hl
  obtain ⟨item, hitem, rfl⟩ := List.mem_map.mp hl
  have hreserved := hgrants _ r h.reservation item ((List.perm_insertionSort _ _).mem_iff.mp hitem)
  have hconserved := hbalanced.conserved r.childEnvelopeID item.dimensionID
  rw [hconsumed, hdimension]
  simp only [lockedItem] at hallocated ⊢
  omega

/-- Over every interleaving and for every reservation that a commit closes, an item of the settlement
records the consumption of the child exactly when no extension had added to the child in its dimension. -/
theorem settled_consumption_iff {governor : Governor} (h : Reachable dep governor)
    {c : Commit Store Response Request} (hc : c ∈ governor.log) {x : Settlement}
    (hx : x ∈ c.after.settlements.rows) (hnew : x ∉ c.before.settlements.rows) :
    ∃ r, c.before.reservations.get x.reservationID = some r ∧ r.state = .opened ∧
      ∀ i ∈ x.items,
        (i.consumedValue = c.before.accounts.directConsumed r.childEnvelopeID i.dimensionID ↔
          extendedValue c.before r.childEnvelopeID i.dimensionID = 0) := by
  obtain ⟨⟨hsound, hbalanced⟩, _, hcommit⟩ := h.ledger.2 c hc
  have hgrants := (h.grantsReserved.2 c hc).1.2
  obtain ⟨_, htransition⟩ := commits_transition hcommit
  obtain ⟨r, r', hcloses⟩ := (htransition.settlement_origin hx).resolve_left hnew
  refine ⟨r, hcloses.reservation, hcloses.opened, fun i hi => ?_⟩
  have hconsumed := hcloses.consumed_eq hsound.delegated hgrants hbalanced hi
  omega

namespace Sample

/-- The child with two calls is extended by four, meters four and is settled. -/
def extendedChild : List Request :=
  provision ++ [admitRoot 100 (("max_tool_calls", .int 10) :: limits)] ++ start 100 ++
    [admitChild 200 100 limits 2] ++ start 200 ++ [extend 700 200, meter 200 500, meter 200 510,
      .mutateWorkerRun (lease 200) .complete (.ofNat 210) (instant 420), settle 600 200 "first"]

/-- Whether the commit adds a settlement of child 201, with these values: recorded as consumed, consumed by
the child, added by extensions. -/
def settlesCalls (consumed direct extended : Int) (c : Commit Store Response Request) : Bool :=
  c.after.settlements.rows.any fun x => !(c.before.settlements.rows.contains x) &&
    (c.before.reservations.get x.reservationID).any (·.childEnvelopeID = .ofNat 201) &&
    x.items.any fun i => i.dimensionID = .ofNat 11 && i.consumedValue = consumed &&
      c.before.accounts.directConsumed (.ofNat 201) (.ofNat 11) = direct &&
      extendedValue c.before (.ofNat 201) (.ofNat 11) = extended

theorem settlesCalls_spec {consumed direct extended : Int} {c : StoreCommit}
    (h : settlesCalls consumed direct extended c = true) :
    ∃ x ∈ c.after.settlements.rows, x ∉ c.before.settlements.rows ∧ ∃ r,
      c.before.reservations.get x.reservationID = some r ∧ r.childEnvelopeID = .ofNat 201 ∧
      ∃ i ∈ x.items, i.dimensionID = .ofNat 11 ∧ i.consumedValue = consumed ∧
        c.before.accounts.directConsumed (.ofNat 201) (.ofNat 11) = direct ∧
        extendedValue c.before (.ofNat 201) (.ofNat 11) = extended := by
  simp only [settlesCalls, List.any_eq_true, Bool.and_eq_true, Option.any_eq_true, decide_eq_true_eq,
    Bool.not_eq_true', List.contains_eq_mem, decide_eq_false_iff_not] at h
  obtain ⟨x, hx, ⟨hnew, r, hr, hchild⟩, i, hi, ⟨⟨hd, hconsumed⟩, hdirect⟩, hextended⟩ := h
  exact ⟨x, hx, hnew, r, hr, hchild, i, hi, hd, hconsumed, hdirect, hextended⟩

theorem story_settles : (after story).log.any (settlesCalls 2 2 0) = true := by
  decide +kernel

theorem extendedChild_settles : (after extendedChild).log.any (settlesCalls 0 4 4) = true := by
  decide +kernel

end Sample

theorem settled_consumption_story : ∃ c ∈ (after story).log,
    ∃ x ∈ c.after.settlements.rows, x ∉ c.before.settlements.rows ∧ ∃ i ∈ x.items,
      i.consumedValue = c.before.accounts.directConsumed (.ofNat 201) i.dimensionID ∧
      i.consumedValue = 2 := by
  obtain ⟨c, hc, hsettles⟩ := List.any_eq_true.mp story_settles
  obtain ⟨x, hx, hnew, r, hr, hchild, i, hi, hd, hconsumed, _, hextended⟩ :=
    settlesCalls_spec hsettles
  obtain ⟨r', hr', _, hiff⟩ := settled_consumption_iff (reachable _) hc hx hnew
  cases hr.symm.trans hr'
  refine ⟨c, hc, x, hx, hnew, i, hi, ?_, hconsumed⟩
  rw [← hchild]
  exact (hiff i hi).mpr (by rw [hchild, hd, hextended])

/-- The extended child consumed four calls, and its settlement records none. -/
theorem settled_consumption_lost : Reachable deployment (after extendedChild) ∧
    ∃ c ∈ (after extendedChild).log,
      ∃ x ∈ c.after.settlements.rows, x ∉ c.before.settlements.rows ∧ ∃ r,
        c.before.reservations.get x.reservationID = some r ∧ ∃ i ∈ x.items,
        i.consumedValue = 0 ∧ c.before.accounts.directConsumed r.childEnvelopeID i.dimensionID = 4 := by
  obtain ⟨c, hc, hsettles⟩ := List.any_eq_true.mp extendedChild_settles
  obtain ⟨x, hx, hnew, r, hr, hchild, i, hi, hd, hconsumed, hdirect, _⟩ :=
    settlesCalls_spec hsettles
  exact ⟨reachable _, c, hc, x, hx, hnew, r, hr, i, hi, hconsumed, by rw [hchild, hd, hdirect]⟩

end AgentGovernor
