import Mathlib.Algebra.BigOperators.Group.Finset.Basic
import Mathlib.Algebra.Order.BigOperators.Group.Finset
import Mathlib.Algebra.Order.Ring.Int
import Mathlib.Tactic.SplitIfs

/-! Tables with a primary key, their row sums, and what a holder of locks may do to the rows. A row
names the locks that its insert and its updates need; `Table.Evolves` is the relation that sessions
keeping to these locks establish, and a row one of whose locks they do not hold is untouched by them. -/

namespace AgentGovernor.Ledger

open List Option

variable {κ ρ : Type}

/-- Rows with pairwise different keys, in insertion order. -/
structure Table (key : ρ → κ) where
  rows : List ρ
  nodup : (rows.map key).Nodup

namespace Table

variable {key : ρ → κ}

def empty : Table key := ⟨[], nodup_nil⟩

theorem eq_of_key_eq (t : Table key) {r r' : ρ} (h : r ∈ t.rows) (h' : r' ∈ t.rows)
    (hkey : key r = key r') : r = r' :=
  inj_on_of_nodup_map t.nodup h h' hkey

variable {t : Table key}

theorem ext_rows {t' : Table key} (h : t.rows = t'.rows) : t = t' := by
  cases t
  cases t'
  simpa using h

section Lookup

variable [DecidableEq κ]

def get (t : Table key) (k : κ) : Option ρ := t.rows.find? fun r => key r = k

variable {k : κ} {r : ρ}

theorem mem_of_get (h : t.get k = some r) : r ∈ t.rows :=
  mem_of_find?_eq_some h

theorem key_of_get (h : t.get k = some r) : key r = k := by
  have hfound := find?_some h
  simpa using hfound

theorem get_of_mem (h : r ∈ t.rows) : t.get (key r) = some r := by
  cases hget : t.get (key r) with
  | none =>
    have hnone := find?_eq_none.mp hget r h
    simp at hnone
  | some r' => rw [t.eq_of_key_eq (mem_of_get hget) h (key_of_get hget)]

theorem mem_rows_iff : r ∈ t.rows ↔ t.get (key r) = some r :=
  ⟨get_of_mem, mem_of_get⟩

theorem get_eq_none_iff : t.get k = none ↔ ∀ r ∈ t.rows, key r ≠ k := by
  unfold get
  rw [find?_eq_none]
  simp

/-- Insert the row, or replace the row of its key. -/
def put (t : Table key) (r : ρ) : Table key where
  rows := if (t.get (key r)).isSome then t.rows.map fun x => if key x = key r then r else x
    else t.rows ++ [r]
  nodup := by
    split_ifs with h
    · have hkeys : (t.rows.map fun x => if key x = key r then r else x).map key = t.rows.map key := by
        rw [List.map_map]
        apply map_congr_left
        intro x _
        by_cases hx : key x = key r <;> simp [hx]
      rw [hkeys]
      exact t.nodup
    · rw [Bool.not_eq_true, isSome_eq_false_iff, isNone_iff_eq_none,
        get_eq_none_iff] at h
      rw [map_append, map_singleton]
      refine List.Nodup.append t.nodup (nodup_singleton _) ?_
      intro k hk hk'
      obtain ⟨x, hx, rfl⟩ := List.mem_map.mp hk
      exact h x hx (mem_singleton.mp hk')

theorem mem_put {x : ρ} :
    x ∈ (t.put r).rows ↔ x = r ∨ (x ∈ t.rows ∧ key x ≠ key r) := by
  simp only [put]
  split_ifs with h
  · obtain ⟨old, hold⟩ := isSome_iff_exists.mp h
    rw [List.mem_map]
    constructor
    · rintro ⟨y, hy, rfl⟩
      by_cases hkey : key y = key r
      · exact Or.inl (by simp [hkey])
      · exact Or.inr (by simpa [hkey] using hy)
    · rintro (rfl | ⟨hx, hkey⟩)
      · exact ⟨old, mem_of_get hold, by simp [key_of_get hold]⟩
      · exact ⟨x, hx, by simp [hkey]⟩
  · rw [Bool.not_eq_true, isSome_eq_false_iff, isNone_iff_eq_none,
      get_eq_none_iff] at h
    rw [mem_append, mem_singleton]
    constructor
    · rintro (hx | rfl)
      · exact Or.inr ⟨hx, h x hx⟩
      · exact Or.inl rfl
    · rintro (rfl | ⟨hx, _⟩)
      · exact Or.inr rfl
      · exact Or.inl hx

theorem get_put (t : Table key) (r : ρ) (k : κ) :
    (t.put r).get k = if k = key r then some r else t.get k := by
  split_ifs with h
  · subst h
    exact get_of_mem (mem_put.mpr (Or.inl rfl))
  · cases hget : t.get k with
    | none =>
      rw [get_eq_none_iff] at hget ⊢
      intro x hx hkey
      rcases mem_put.mp hx with rfl | ⟨hx, _⟩
      · exact h hkey.symm
      · exact hget x hx hkey
    | some x =>
      have hkey := key_of_get hget
      subst hkey
      exact get_of_mem (mem_put.mpr (Or.inr ⟨mem_of_get hget, h⟩))

@[simp] theorem get_put_self (t : Table key) (r : ρ) : (t.put r).get (key r) = some r := by
  rw [get_put, if_pos rfl]

theorem get_put_of_ne (t : Table key) (h : k ≠ key r) :
    (t.put r).get k = t.get k := by
  rw [get_put, if_neg h]

/-- An insert that clashes with no row keeps rows unique. -/
theorem unique_put {same : ρ → ρ → Prop} (hsymm : ∀ x y, same x y → same y x)
    (ht : ∀ k k' x x', t.get k = some x → t.get k' = some x' → same x x' → k = k')
    (hfresh : ∀ x ∈ t.rows, ¬same x r) :
    ∀ k k' x x', (t.put r).get k = some x → (t.put r).get k' = some x' → same x x' → k = k' := by
  intro k k' x x' hx hx' hsame
  rw [get_put] at hx hx'
  split_ifs at hx hx' with h h' h'
  · rw [h, h']
  · cases hx
    exact absurd (hsymm _ _ hsame) (hfresh x' (mem_of_get hx'))
  · cases hx'
    exact absurd hsame (hfresh x (mem_of_get hx))
  · exact ht k k' x x' hx hx' hsame

theorem rows_put_of_some (t : Table key) {old : ρ} (h : t.get (key r) = some old) :
    (t.put r).rows = t.rows.map fun x => if key x = key r then r else x := by
  simp [put, h]

theorem rows_put_of_none (t : Table key) (h : t.get (key r) = none) :
    (t.put r).rows = t.rows ++ [r] := by
  simp [put, h]

/-- A row written over itself. -/
theorem put_of_get (h : t.get (key r) = some r) : t.put r = t := by
  apply ext_rows
  rw [rows_put_of_some t h]
  refine (map_congr_left fun x hx => ?_).trans (List.map_id _)
  split_ifs with hkey
  · exact t.eq_of_key_eq (mem_of_get h) hx hkey.symm
  · rfl

/-- Of two writes to one key the second stays. -/
theorem put_put (t : Table key) {r' : ρ} (h : key r' = key r) : (t.put r).put r' = t.put r' := by
  have hself : (t.put r).get (key r') = some r := by rw [h, get_put_self]
  apply ext_rows
  rw [rows_put_of_some _ hself]
  cases hold : t.get (key r) with
  | some old =>
    rw [rows_put_of_some t hold, rows_put_of_some t (h ▸ hold), List.map_map]
    apply map_congr_left
    intro x _
    by_cases hx : key x = key r <;> simp [hx, h]
  | none =>
    rw [rows_put_of_none t hold, rows_put_of_none t (h ▸ hold), map_append]
    rw [get_eq_none_iff] at hold
    have hsame : t.rows.map (fun x => if key x = key r' then r' else x) = t.rows.map id := by
      apply map_congr_left
      intro x hx
      simp [h, hold x hx]
    rw [hsame, List.map_id]
    simp [h]

end Lookup

/-! ### Row sums -/

/-- The sum of a column over all rows. -/
def total (t : Table key) (f : ρ → Int) : Int := (t.rows.map f).sum

variable {f : ρ → Int}

theorem total_congr {g : ρ → Int} (h : ∀ r ∈ t.rows, f r = g r) :
    t.total f = t.total g := by
  unfold total
  rw [map_congr_left h]

theorem total_eq_zero (h : ∀ r ∈ t.rows, f r = 0) : t.total f = 0 := by
  rw [total_congr h]
  simp [total]

theorem sum_total {ι : Type} (t : Table key) (is : Finset ι) (f : ι → ρ → Int) :
    ∑ i ∈ is, t.total (f i) = t.total fun r => ∑ i ∈ is, f i r := by
  unfold total
  induction t.rows with
  | nil => simp
  | cons x xs ih => simp only [map_cons, sum_cons, Finset.sum_add_distrib, ih]

theorem total_eq_sum_rows [DecidableEq ρ] (t : Table key) (f : ρ → Int) :
    t.total f = ∑ r ∈ t.rows.toFinset, f r :=
  (sum_toFinset f t.nodup.of_map).symm

/-- A row is part of a sum of nonnegative terms. -/
theorem le_total (h : ∀ r ∈ t.rows, 0 ≤ f r) {r : ρ}
    (hr : r ∈ t.rows) : f r ≤ t.total f := by
  apply single_le_sum
  · intro x hx
    obtain ⟨y, hy, rfl⟩ := List.mem_map.mp hx
    exact h y hy
  · exact List.mem_map_of_mem hr

section Sums

variable [DecidableEq κ]

/-- The column of the row of a key, zero when there is none. -/
def column (t : Table key) (f : ρ → Int) (k : κ) : Int := (t.get k).elim 0 f

def keys (t : Table key) : Finset κ := (t.rows.map key).toFinset

variable {k : κ} {t : Table key}

theorem mem_keys : k ∈ t.keys ↔ ∃ r, t.get k = some r := by
  unfold keys
  rw [List.mem_toFinset, List.mem_map]
  constructor
  · rintro ⟨r, hr, rfl⟩
    exact ⟨r, get_of_mem hr⟩
  · rintro ⟨r, hr⟩
    exact ⟨r, mem_of_get hr, key_of_get hr⟩

theorem total_eq_sum (t : Table key) (f : ρ → Int) : t.total f = ∑ k ∈ t.keys, t.column f k := by
  have hcolumn : t.rows.map f = (t.rows.map key).map (t.column f) := by
    rw [List.map_map]
    apply map_congr_left
    intro r hr
    simp [column, get_of_mem hr]
  unfold total keys
  rw [hcolumn, sum_toFinset _ t.nodup]

theorem total_eq_sum_of_subset (t : Table key) (f : ρ → Int) {ks : Finset κ} (h : t.keys ⊆ ks) :
    t.total f = ∑ k ∈ ks, t.column f k := by
  rw [total_eq_sum]
  apply Finset.sum_subset h
  intro k _ hk
  cases hget : t.get k with
  | none => simp [column, hget]
  | some r => exact absurd (mem_keys.mpr ⟨r, hget⟩) hk

variable {f : ρ → Int}

/-- Two tables with the same column at every key have the same sum. -/
theorem total_eq_of_column {t' : Table key}
    (h : ∀ k, t.column f k = t'.column f k) : t.total f = t'.total f := by
  have hleft : t.keys ⊆ t.keys ∪ t'.keys := Finset.subset_union_left
  have hright : t'.keys ⊆ t.keys ∪ t'.keys := Finset.subset_union_right
  rw [t.total_eq_sum_of_subset f hleft, t'.total_eq_sum_of_subset f hright]
  exact Finset.sum_congr rfl fun k _ => h k

theorem total_le_of_column {t' : Table key}
    (h : ∀ k, t.column f k ≤ t'.column f k) : t.total f ≤ t'.total f := by
  have hleft : t.keys ⊆ t.keys ∪ t'.keys := Finset.subset_union_left
  have hright : t'.keys ⊆ t.keys ∪ t'.keys := Finset.subset_union_right
  rw [t.total_eq_sum_of_subset f hleft, t'.total_eq_sum_of_subset f hright]
  exact Finset.sum_le_sum fun k _ => h k

theorem column_put (t : Table key) (f : ρ → Int) (r : ρ) (k : κ) :
    (t.put r).column f k = if k = key r then f r else t.column f k := by
  unfold column
  rw [get_put]
  split_ifs <;> rfl

/-- A write changes a sum by the difference of the two rows. -/
theorem total_put (t : Table key) (f : ρ → Int) (r : ρ) :
    (t.put r).total f = t.total f - t.column f (key r) + f r := by
  have hsub : t.keys ⊆ insert (key r) t.keys := Finset.subset_insert _ _
  have hput : (t.put r).keys ⊆ insert (key r) t.keys := by
    intro k hk
    obtain ⟨x, hx⟩ := mem_keys.mp hk
    rw [get_put] at hx
    split_ifs at hx with h
    · exact h ▸ Finset.mem_insert_self _ _
    · exact hsub (mem_keys.mpr ⟨x, hx⟩)
  rw [(t.put r).total_eq_sum_of_subset f hput, t.total_eq_sum_of_subset f hsub,
    ← Finset.add_sum_erase _ _ (Finset.mem_insert_self (key r) t.keys),
    ← Finset.add_sum_erase _ (t.column f) (Finset.mem_insert_self (key r) t.keys)]
  have hrest : ∑ k ∈ (insert (key r) t.keys).erase (key r), (t.put r).column f k
      = ∑ k ∈ (insert (key r) t.keys).erase (key r), t.column f k := by
    apply Finset.sum_congr rfl
    intro k hk
    rw [column_put, if_neg (Finset.ne_of_mem_erase hk)]
  rw [hrest, column_put, if_pos rfl]
  omega

variable {r : ρ}

theorem column_of_get (h : t.get k = some r) :
    t.column f k = f r := by
  simp [column, h]

theorem column_of_none (h : t.get k = none) :
    t.column f k = 0 := by
  simp [column, h]

theorem total_put_of_none (f : ρ → Int) (h : t.get (key r) = none) :
    (t.put r).total f = t.total f + f r := by
  rw [total_put, column_of_none h]
  omega

theorem total_put_of_get {old : ρ} (f : ρ → Int) (h : t.get (key r) = some old) :
    (t.put r).total f = t.total f - f old + f r := by
  rw [total_put, column_of_get h]

end Sums

end Table

/-! ### Locks of rows -/

/-- The locks that a session holds to insert a row and to update it. -/
class Guarded (ρ : Type) (Lock : outParam Type) where
  insertLocks : ρ → List Lock
  updateLocks : ρ → List Lock := insertLocks
  updateLocks_subset : ∀ r, updateLocks r ⊆ insertLocks r := by exact fun _ => List.Subset.refl _

export Guarded (insertLocks updateLocks)

variable {Lock : Type} [Guarded ρ Lock]

/-- What a holder of `held` may do to the row of one key. An update keeps the locks of the row, so it
keeps every column that they name. -/
inductive RowStep (held : List Lock) : Option ρ → Option ρ → Prop where
  | same (row : Option ρ) : RowStep held row row
  | insert (r : ρ) (hlocks : insertLocks r ⊆ held) : RowStep held none (some r)
  | update (r r' : ρ) (hlocks : updateLocks r ⊆ held) (hinsert : insertLocks r' = insertLocks r)
      (hupdate : updateLocks r' = updateLocks r) : RowStep held (some r) (some r')

namespace RowStep

variable {held held' : List Lock} {a b c : Option ρ} {r : ρ} {l : Lock}

theorem trans (h : RowStep held a b) (h' : RowStep held b c) : RowStep held a c := by
  cases h with
  | same => exact h'
  | insert r hlocks =>
    cases h' with
    | same => exact .insert r hlocks
    | update _ r' _ hinsert _ => exact .insert r' (hinsert ▸ hlocks)
  | update r r' hlocks hinsert hupdate =>
    cases h' with
    | same => exact .update r r' hlocks hinsert hupdate
    | update _ r'' _ hinsert' hupdate' =>
      exact .update r r'' hlocks (hinsert'.trans hinsert) (hupdate'.trans hupdate)

theorem mono (hsub : held ⊆ held') (h : RowStep held a b) : RowStep held' a b := by
  cases h with
  | same => exact .same _
  | insert r hlocks => exact .insert r (List.Subset.trans hlocks hsub)
  | update r r' hlocks hinsert hupdate =>
    exact .update r r' (List.Subset.trans hlocks hsub) hinsert hupdate

/-- A row is untouched when one of its update locks is held elsewhere. -/
theorem row_iff (h : RowStep held a b) (hmem : l ∈ updateLocks r) (hfree : l ∉ held) :
    a = some r ↔ b = some r := by
  cases h with
  | same => exact Iff.rfl
  | insert r' hlocks =>
    constructor
    · intro hr
      cases hr
    · intro hr
      cases hr
      exact absurd (hlocks (Guarded.updateLocks_subset _ hmem)) hfree
  | update r₁ r₂ hlocks _ hupdate =>
    constructor
    · intro hr
      cases hr
      exact absurd (hlocks hmem) hfree
    · intro hr
      cases hr
      exact absurd (hlocks (hupdate ▸ hmem)) hfree

/-- A row that one may not insert is there already, up to updates. -/
theorem exists_before (h : RowStep held a (some r)) (hmem : l ∈ insertLocks r) (hfree : l ∉ held) :
    ∃ r', a = some r' ∧ insertLocks r' = insertLocks r ∧ updateLocks r' = updateLocks r := by
  cases h with
  | same => exact ⟨r, rfl, rfl, rfl⟩
  | insert _ hlocks => exact absurd (hlocks hmem) hfree
  | update r' _ _ hinsert hupdate => exact ⟨r', rfl, hinsert.symm, hupdate.symm⟩

end RowStep

namespace Table

variable {key : ρ → κ} [DecidableEq κ] {held held' : List Lock} {t t' t'' : Table key}

/-- What a holder of `held` may do to a table. -/
def Evolves (held : List Lock) (t t' : Table key) : Prop := ∀ k, RowStep held (t.get k) (t'.get k)

theorem Evolves.refl (held : List Lock) (t : Table key) : t.Evolves held t := fun _ => .same _

theorem Evolves.trans (h : t.Evolves held t') (h' : t'.Evolves held t'') : t.Evolves held t'' :=
  fun k => (h k).trans (h' k)

theorem Evolves.mono (hsub : held ⊆ held') (h : t.Evolves held t') : t.Evolves held' t' :=
  fun k => (h k).mono hsub

theorem Evolves.put (h : t.Evolves held t') (r : ρ) : (t.put r).Evolves held (t'.put r) := by
  intro k
  rw [get_put, get_put]
  split_ifs
  · exact .same _
  · exact h k

theorem Evolves.of_put {r : ρ} (h : RowStep held (t.get (key r)) (some r)) :
    t.Evolves held (t.put r) := by
  intro k
  rw [get_put]
  split_ifs with hk
  · exact hk ▸ h
  · exact .same _

/-- No row with a property appears while a lock is held elsewhere that its update needs, or that its
insert needs when updates keep the property. -/
theorem Evolves.absent (h : t.Evolves held t') {p : ρ → Prop}
    (hlock : ∀ r, p r → (∃ l ∈ updateLocks r, l ∉ held) ∨
      ((∃ l ∈ insertLocks r, l ∉ held) ∧ ∀ r', insertLocks r' = insertLocks r → p r'))
    (hnone : ∀ r ∈ t.rows, ¬p r) : ∀ r ∈ t'.rows, ¬p r := by
  intro r hr hp
  have hstep := h (key r)
  rw [get_of_mem hr] at hstep
  rcases hlock r hp with ⟨l, hmem, hfree⟩ | ⟨⟨l, hmem, hfree⟩, hkeep⟩
  · exact hnone r (mem_of_get ((hstep.row_iff hmem hfree).mpr rfl)) hp
  · obtain ⟨r', hr', hinsert, _⟩ := hstep.exists_before hmem hfree
    exact hnone r' (mem_of_get hr') (hkeep r' hinsert)

/-- Rows stay, and stay related. -/
def Keeps (keep : ρ → ρ → Prop) (t t' : Table key) : Prop :=
  ∀ k r, t.get k = some r → ∃ r', t'.get k = some r' ∧ keep r r'

variable {keep : ρ → ρ → Prop}

theorem Keeps.put (hrefl : ∀ r, keep r r) (h : t.Keeps keep t') (r : ρ) :
    (t.put r).Keeps keep (t'.put r) := by
  intro k x hx
  rw [get_put] at hx ⊢
  split_ifs at hx ⊢ with hk
  · exact ⟨r, rfl, by cases hx; exact hrefl r⟩
  · exact h k x hx

theorem Keeps.refl (hrefl : ∀ r, keep r r) (t : Table key) : t.Keeps keep t :=
  fun _ r hr => ⟨r, hr, hrefl r⟩

theorem Keeps.of_eq (hrefl : ∀ r, keep r r) (h : t' = t) : t.Keeps keep t' :=
  h ▸ Keeps.refl hrefl t

/-- A write keeps the rows when it keeps the row it replaces. -/
theorem Keeps.of_put (hrefl : ∀ r, keep r r) {r : ρ} (h : ∀ old, t.get (key r) = some old → keep old r) :
    t.Keeps keep (t.put r) := by
  intro k x hx
  rw [get_put]
  split_ifs with hk
  · subst hk
    exact ⟨r, rfl, h x hx⟩
  · exact ⟨x, hx, hrefl x⟩

theorem Keeps.trans (htrans : ∀ {a b c}, keep a b → keep b c → keep a c) (h : t.Keeps keep t')
    (h' : t'.Keeps keep t'') : t.Keeps keep t'' := by
  intro k r hr
  obtain ⟨r', hr', hkeep⟩ := h k r hr
  obtain ⟨r'', hr'', hkeep'⟩ := h' k r' hr'
  exact ⟨r'', hr'', htrans hkeep hkeep'⟩

end Table

end AgentGovernor.Ledger
