import Mathlib.Algebra.BigOperators.Group.Finset.Sigma
import Mathlib.Algebra.Order.BigOperators.Group.Finset
import Mathlib.Algebra.Order.Ring.Defs
import Mathlib.Tactic.Linarith

/-! Budgets that are handed down a tree. Each edge hands an amount of its parent's budget to its child
and charges an amount to the parent; while a child may still spend what is handed to it, the two agree,
and an edge that charges less must leave the difference unspent at the child. Then the tree as a whole
spends no more than what its root was granted and what was added on the way. -/

namespace AgentGovernor.Budget

variable {V E M : Type*}

/-- Finitely many nodes and edges below a root. No node has two edges above it, the root has none. -/
structure Tree (V E : Type*) where
  nodes : Finset V
  edges : Finset E
  root : V
  parent : E → V
  child : E → V
  root_mem : root ∈ nodes
  parent_mem : ∀ r ∈ edges, parent r ∈ nodes
  child_mem : ∀ r ∈ edges, child r ∈ nodes
  child_ne_root : ∀ r ∈ edges, child r ≠ root
  child_injOn : Set.InjOn child edges

namespace Tree

variable [DecidableEq V] (T : Tree V E)

section Sums

variable [AddCommMonoid M]

/-- Every edge is below exactly one node. -/
theorem sum_below (f : E → M) :
    ∑ v ∈ T.nodes, ∑ r ∈ T.edges with T.parent r = v, f r = ∑ r ∈ T.edges, f r :=
  Finset.sum_fiberwise_of_maps_to T.parent_mem f

/-- Every edge is above exactly one node other than the root. -/
theorem sum_above (f : E → M) :
    ∑ v ∈ T.nodes.erase T.root, ∑ r ∈ T.edges with T.child r = v, f r = ∑ r ∈ T.edges, f r := by
  refine Finset.sum_fiberwise_of_maps_to (fun r hr => ?_) f
  exact Finset.mem_erase.mpr ⟨T.child_ne_root r hr, T.child_mem r hr⟩

end Sums

/-- Different edges lead to different nodes. -/
theorem sum_child_le [AddCommMonoid M] [PartialOrder M] [IsOrderedAddMonoid M] {f : V → M}
    (hf : ∀ v ∈ T.nodes, 0 ≤ f v) : ∑ r ∈ T.edges, f (T.child r) ≤ ∑ v ∈ T.nodes, f v := by
  rw [← Finset.sum_image (f := f) T.child_injOn]
  refine Finset.sum_le_sum_of_subset_of_nonneg (fun v hv => ?_) fun v hv _ => hf v hv
  obtain ⟨r, hr, rfl⟩ := Finset.mem_image.mp hv
  exact T.child_mem r hr

end Tree

/-- The books of a tree. Each node's grant and additions are spent, available or charged by the edges
below it; each grant is backed by the edge above it; what an edge hands down and does not charge is
available at its child. -/
structure Books [DecidableEq V] (T : Tree V E) (M : Type*) [CommRing M] [LinearOrder M] where
  granted : V → M
  added : V → M
  spent : V → M
  available : V → M
  handed : E → M
  charged : E → M
  available_nonneg : ∀ v ∈ T.nodes, 0 ≤ available v
  conserved : ∀ v ∈ T.nodes,
    available v + spent v + ∑ r ∈ T.edges with T.parent r = v, charged r = granted v + added v
  backed : ∀ v ∈ T.nodes, v ≠ T.root → granted v ≤ ∑ r ∈ T.edges with T.child r = v, handed r
  settled : ∀ r ∈ T.edges, handed r ≤ charged r + available (T.child r)

namespace Books

variable [DecidableEq V] [CommRing M] [LinearOrder M] {T : Tree V E} (B : Books T M)

theorem sum_conserved : ∑ v ∈ T.nodes, B.available v + ∑ v ∈ T.nodes, B.spent v +
    ∑ r ∈ T.edges, B.charged r = ∑ v ∈ T.nodes, B.granted v + ∑ v ∈ T.nodes, B.added v := by
  rw [← T.sum_below, ← Finset.sum_add_distrib, ← Finset.sum_add_distrib, ← Finset.sum_add_distrib]
  exact Finset.sum_congr rfl B.conserved

variable [IsStrictOrderedRing M]

theorem sum_granted_le :
    ∑ v ∈ T.nodes, B.granted v ≤ B.granted T.root + ∑ r ∈ T.edges, B.handed r := by
  rw [← Finset.add_sum_erase _ _ T.root_mem, ← T.sum_above B.handed]
  gcongr with v hv
  exact B.backed v (Finset.mem_of_mem_erase hv) (Finset.ne_of_mem_erase hv)

theorem sum_handed_le :
    ∑ r ∈ T.edges, B.handed r ≤ ∑ r ∈ T.edges, B.charged r + ∑ v ∈ T.nodes, B.available v := by
  calc ∑ r ∈ T.edges, B.handed r ≤ ∑ r ∈ T.edges, (B.charged r + B.available (T.child r)) :=
        Finset.sum_le_sum B.settled
    _ = ∑ r ∈ T.edges, B.charged r + ∑ r ∈ T.edges, B.available (T.child r) :=
        Finset.sum_add_distrib
    _ ≤ ∑ r ∈ T.edges, B.charged r + ∑ v ∈ T.nodes, B.available v := by
        gcongr
        exact T.sum_child_le B.available_nonneg

/-- A tree does not spend more than its root's grant and its additions. -/
theorem sum_spent_le : ∑ v ∈ T.nodes, B.spent v ≤ B.granted T.root + ∑ v ∈ T.nodes, B.added v := by
  have hconserved := B.sum_conserved
  have hgranted := B.sum_granted_le
  have hhanded := B.sum_handed_le
  linarith

end Books

end AgentGovernor.Budget
