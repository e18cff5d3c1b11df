import AgentGovernor.LedgerTable
import Mathlib.Data.List.Induction
import Mathlib.Data.List.Sort

/-! Rows in an order. What `ORDER BY … LIMIT 1` finds depends on the rows only and not on where they are
kept; the last row of a key in a list that grows; columns that count up, one row at a time; and what is
reached of a queue that is served in batches. -/

namespace AgentGovernor.Ledger

open List

variable {κ ρ : Type}

/-! ### The first row in an order -/

section First

variable {before : ρ → ρ → Prop} [DecidableRel before] [Std.Total before] [IsTrans ρ before]

theorem head_insertionSort_iff {rows : List ρ} {r : ρ}
    (hanti : ∀ x ∈ rows, ∀ y ∈ rows, before x y → before y x → x = y) :
    (rows.insertionSort before).head? = some r ↔ r ∈ rows ∧ ∀ x ∈ rows, before r x := by
  have hsorted := pairwise_insertionSort before rows
  have hmem := fun x => mem_insertionSort before (l := rows) (x := x)
  cases hlist : rows.insertionSort before with
  | nil =>
    simp only [hlist, not_mem_nil, false_iff] at hmem
    exact ⟨nofun, fun h => absurd h.1 (hmem r)⟩
  | cons first rest =>
    rw [hlist] at hsorted
    simp only [hlist, mem_cons] at hmem
    have hfirst : ∀ x ∈ rows, before first x := by
      intro x hx
      rcases (hmem x).mpr hx with rfl | hx
      · exact (Std.Total.total x x).elim id id
      · exact rel_of_pairwise_cons hsorted hx
    have hfirstMem := (hmem first).mp (Or.inl rfl)
    constructor
    · intro h
      cases h
      exact ⟨hfirstMem, hfirst⟩
    · rintro ⟨hr, hbefore⟩
      rw [head?_cons, hanti first hfirstMem r hr (hfirst r hr) (hbefore first hfirstMem)]

/-- The first row is the same wherever the same rows are kept. -/
theorem head_insertionSort_congr {rows rows' : List ρ}
    (hanti : ∀ x ∈ rows, ∀ y ∈ rows, before x y → before y x → x = y)
    (hmem : ∀ x, x ∈ rows ↔ x ∈ rows') :
    (rows.insertionSort before).head? = (rows'.insertionSort before).head? := by
  have hanti' : ∀ x ∈ rows', ∀ y ∈ rows', before x y → before y x → x = y := fun x hx y hy =>
    hanti x ((hmem x).mpr hx) y ((hmem y).mpr hy)
  refine Option.ext fun r => ?_
  rw [head_insertionSort_iff hanti, head_insertionSort_iff hanti', hmem r]
  simp only [hmem]

end First

/-! ### The last row of a key -/

section Last

variable [DecidableEq κ]

/-- The last of the rows that have the key. -/
def lastOf (key : ρ → κ) (rows : List ρ) (k : κ) : Option ρ := (rows.filter fun r => key r = k).getLast?

variable {key : ρ → κ} {rows rows' : List ρ} {k : κ} {r : ρ}

theorem lastOf_append : lastOf key (rows ++ rows') k = (lastOf key rows' k).or (lastOf key rows k) := by
  unfold lastOf
  rw [filter_append, getLast?_append]

theorem lastOf_concat : lastOf key (rows ++ [r]) k = if key r = k then some r else lastOf key rows k := by
  rw [lastOf_append]
  by_cases hkey : key r = k <;> simp [lastOf, hkey]

theorem mem_of_lastOf (h : lastOf key rows k = some r) : r ∈ rows ∧ key r = k := by
  have hmem := mem_filter.mp (mem_of_getLast? h)
  exact ⟨hmem.1, of_decide_eq_true hmem.2⟩

theorem lastOf_eq_none_iff : lastOf key rows k = none ↔ ∀ r ∈ rows, key r ≠ k := by
  unfold lastOf
  rw [getLast?_eq_none_iff, filter_eq_nil_iff]
  simp

/-- Rows of other keys do not matter. -/
theorem lastOf_filter {p : ρ → Bool} (h : ∀ r ∈ rows, key r = k → p r = true) :
    lastOf key (rows.filter p) k = lastOf key rows k := by
  unfold lastOf
  rw [List.filter_filter]
  refine congrArg List.getLast? (filter_congr fun r hr => ?_)
  by_cases hkey : key r = k
  · simp [hkey, h r hr hkey]
  · simp [hkey]

/-- Rows that are read through a function that keeps their keys. -/
theorem lastOf_filterMap {ρ' : Type} {key' : ρ' → κ} {f : ρ → Option ρ'}
    (h : ∀ r ∈ rows, ∃ r', f r = some r' ∧ key' r' = key r) :
    lastOf key' (rows.filterMap f) k = (lastOf key rows k).bind f := by
  induction rows using List.reverseRecOn with
  | nil => rfl
  | append_singleton rows r ih =>
    obtain ⟨r', hr', hkey⟩ := h r (mem_append_right _ mem_cons_self)
    have hlast : [r].filterMap f = [r'] := by rw [filterMap_cons_some hr', filterMap_nil]
    rw [filterMap_append, hlast, lastOf_concat, lastOf_concat,
      ih fun x hx => h x (mem_append_left _ hx), hkey]
    split_ifs
    · exact hr'.symm
    · rfl

end Last

/-! ### Counters -/

namespace Table

variable [DecidableEq κ] {key : ρ → κ} {f : ρ → Int} {k : κ} {n : Int} {t t' : Table key}

/-- The column of one key has gone up by one, to `n`; those of other keys are as they were. -/
structure Advances (f : ρ → Int) (k : κ) (n : Int) (t t' : Table key) : Prop where
  next : n = t.column f k + 1
  reached : t'.column f k = n
  others : ∀ k', k' ≠ k → t'.column f k' = t.column f k'

theorem Advances.of_put {r : ρ} (hnext : f r = t.column f (key r) + 1) :
    Advances f (key r) (f r) t (t.put r) where
  next := hnext
  reached := by rw [column_put, if_pos rfl]
  others k' hk' := by rw [column_put, if_neg hk']

theorem Advances.le (h : Advances f k n t t') (k' : κ) : t.column f k' ≤ t'.column f k' := by
  by_cases hk : k' = k
  · rw [hk, h.reached, h.next]
    omega
  · rw [h.others k' hk]

end Table

/-! ### Batches -/

section Batches

variable {fine : ρ → Prop} {size : Nat} {x : ρ} {rows : List ρ}

/-- A queue is served in batches, and a batch is served only if all of it is fine: the element is
reached. -/
inductive InBatches (fine : ρ → Prop) (size : Nat) (x : ρ) : List ρ → Prop
  | take (rows : List ρ) (hfine : ∀ y ∈ rows.take size, fine y) (hx : x ∈ rows.take size) :
    InBatches fine size x rows
  | drop (rows : List ρ) (hfine : ∀ y ∈ rows.take size, fine y)
      (h : InBatches fine size x (rows.drop size)) : InBatches fine size x rows

/-- An element is reached if everything up to the end of its batch is fine. -/
theorem inBatches_iff (hsize : 0 < size) : InBatches fine size x rows ↔
    ∃ n, rows[n]? = some x ∧ ∀ y ∈ rows.take ((n / size + 1) * size), fine y := by
  have hnext (n : Nat) (rows : List ρ) : rows.take (((size + n) / size + 1) * size) =
      rows.take size ++ (rows.drop size).take ((n / size + 1) * size) := by
    rw [Nat.add_div_left n hsize, Nat.succ_mul, Nat.add_comm, take_add]
  constructor
  · intro h
    induction h with
    | take rows hfine hx =>
      obtain ⟨n, hn⟩ := mem_iff_getElem?.mp hx
      rw [getElem?_take] at hn
      split_ifs at hn with hlt
      refine ⟨n, hn, ?_⟩
      rwa [Nat.div_eq_of_lt hlt, Nat.zero_add, Nat.one_mul]
    | drop rows hfine _ ih =>
      obtain ⟨n, hn, hrest⟩ := ih
      rw [getElem?_drop] at hn
      refine ⟨size + n, hn, fun y hy => ?_⟩
      rw [hnext, mem_append] at hy
      exact hy.elim (hfine y) (hrest y)
  · rintro ⟨n, hn, hfine⟩
    induction n using Nat.strong_induction_on generalizing rows with
    | h n ih =>
      by_cases hlt : n < size
      · rw [Nat.div_eq_of_lt hlt, Nat.zero_add, Nat.one_mul] at hfine
        exact .take rows hfine (mem_iff_getElem?.mpr ⟨n, by rw [getElem?_take, if_pos hlt, hn]⟩)
      · obtain ⟨k, rfl⟩ := Nat.exists_eq_add_of_le (not_lt.mp hlt)
        rw [hnext] at hfine
        rw [← getElem?_drop] at hn
        exact .drop rows (fun y hy => hfine y (mem_append_left _ hy))
          (ih k (by omega) hn fun y hy => hfine y (mem_append_right _ hy))

end Batches

end AgentGovernor.Ledger
