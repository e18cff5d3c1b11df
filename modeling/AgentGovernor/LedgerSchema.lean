import AgentGovernor.LedgerStatement
import Mathlib.Logic.Function.Basic

/-! Databases given by a family of keyed tables. A schema names the tables, their rows, keys and locks;
the engine over it writes one row at a time and lets a holder of locks change what the tables allow. What
whole commits keep besides is a parameter, which has to survive a write laid over both databases. -/

namespace AgentGovernor.Ledger

open Transaction List

/-- Named tables of rows with keys and locks. -/
structure Schema (Lock : Type) where
  Name : Type
  Row : Name → Type
  Key : Name → Type
  key : ∀ n, Row n → Key n
  decName : DecidableEq Name
  decKey : ∀ n, DecidableEq (Key n)
  guarded : ∀ n, Guarded (Row n) Lock

namespace Schema

variable {Lock : Type} (S : Schema Lock)

instance : DecidableEq S.Name := S.decName

instance (n : S.Name) : DecidableEq (S.Key n) := S.decKey n

instance (n : S.Name) : Guarded (S.Row n) Lock := S.guarded n

/-- One table for each name. -/
def Database : Type := ∀ n, Table (S.key n)

/-- The database without rows. -/
def Database.empty : S.Database := fun _ => .empty

variable {S}

def Database.put (s : S.Database) (n : S.Name) (r : S.Row n) : S.Database :=
  Function.update s n ((s n).put r)

@[simp] theorem Database.put_same (s : S.Database) (n : S.Name) (r : S.Row n) :
    s.put n r n = (s n).put r :=
  Function.update_self n _ s

variable {n : S.Name}

@[simp] theorem Database.put_other (s : S.Database) {m : S.Name} (r : S.Row n) (h : m ≠ n) :
    s.put n r m = s m :=
  Function.update_of_ne h _ s

variable (S)

/-- One row, with the table it goes to. -/
structure Write where
  name : S.Name
  row : S.Row name

/-- What a holder of locks may have changed. -/
def Evolves (held : List Lock) (s t : S.Database) : Prop := ∀ n, (s n).Evolves held (t n)

variable {S}

variable {held : List Lock} {s : S.Database}

theorem Evolves.put {t : S.Database} (h : S.Evolves held s t) (n : S.Name)
    (r : S.Row n) : S.Evolves held (s.put n r) (t.put n r) := by
  intro m
  by_cases hm : m = n
  · subst hm
    rw [Database.put_same, Database.put_same]
    exact (h m).put r
  · rw [Database.put_other s r hm, Database.put_other t r hm]
    exact h m

theorem Evolves.of_put {r : S.Row n}
    (h : RowStep held ((s n).get (S.key n r)) (some r)) : S.Evolves held s (s.put n r) := by
  intro m
  by_cases hm : m = n
  · subst hm
    rw [Database.put_same]
    exact Table.Evolves.of_put h
  · rw [Database.put_other s r hm]
    exact Table.Evolves.refl held (s m)

/-- What commits keep besides: a relation that survives a write laid over both sides. -/
structure Promise (S : Schema Lock) where
  holds : S.Database → S.Database → Prop
  put : ∀ {s t} (n : S.Name) (r : S.Row n), holds s t → holds (s.put n r) (t.put n r)

/-- The engine of a schema. -/
def engine (S : Schema Lock) (conflict : Lock → Lock → Prop)
    (conflict_symm : ∀ {a b}, conflict a b → conflict b a) (promise : Promise S) :
    Engine S.Database Lock S.Write where
  apply w s := s.put w.name w.row
  conflict := conflict
  conflict_symm := conflict_symm
  guarantee := S.Evolves
  guarantee_refl held s n := Table.Evolves.refl held (s n)
  guarantee_trans h h' n := (h n).trans (h' n)
  guarantee_mono hsub h n := (h n).mono hsub
  guarantee_apply w h := h.put w.name w.row
  promise _ := promise.holds
  promise_apply w h := promise.put w.name w.row h

/-- The handle of a table. -/
def rows (S : Schema Lock) {conflict : Lock → Lock → Prop}
    {conflict_symm : ∀ {a b}, conflict a b → conflict b a} {promise : Promise S} (n : S.Name) :
    Handle (S.engine conflict conflict_symm promise) (S.key n) where
  table s := s n
  write r := ⟨n, r⟩
  table_write r s := s.put_same n r
  evolves h := h n
  guarantee_write h := Evolves.of_put h

end Schema

/-! ### Tables with one lock for each key -/

namespace Handle

variable {σ Lock ω ε α κ ρ : Type} [Guarded ρ Lock] {E : Engine σ Lock ω} {key : ρ → κ}

/-- Updates of a row need the one lock of its key, which excludes itself. -/
structure Owned (E : Engine σ Lock ω) (key : ρ → κ) (lockOf : κ → Lock) : Prop where
  updateLocks_eq : ∀ r, updateLocks r = [lockOf (key r)]
  exclusive : ∀ k, E.conflict (lockOf k) (lockOf k)

/-- So do inserts. -/
structure Keyed (E : Engine σ Lock ω) (key : ρ → κ) (lockOf : κ → Lock) : Prop
    extends Owned E key lockOf where
  insertLocks_eq : ∀ r, insertLocks r = [lockOf (key r)]

variable {lockOf : κ → Lock} {held locks : List Lock} {k : κ}

namespace Owned

theorem isProtected (h : Owned E key lockOf) (hk : lockOf k ∈ held) : Protected E key held k := by
  intro r hr
  refine ⟨lockOf k, ?_, lockOf k, hk, h.exclusive k⟩
  rw [h.updateLocks_eq, hr]
  exact mem_singleton_self _

variable [DecidableEq κ] {H : Handle E key} {missing : ε} {post : α → List Lock → Prop}

theorem wellLocked_lock (h : Owned E key lockOf) (hk : lockOf k ∈ locks ++ held)
    {check : ρ → Except ε α}
    (hpost : ∀ r a, key r = k → check r = .ok a → post a (locks ++ held)) :
    E.WellLocked (H.lock locks k check missing) held post :=
  Handle.wellLocked_lock (h.isProtected hk) hpost

theorem wellLocked_update (h : Owned E key lockOf) (hk : lockOf k ∈ locks ++ held)
    {change : ρ → Except ε (α × ρ)}
    (hchange : ∀ old a r, key old = k → change old = .ok (a, r) →
      key r = k ∧ insertLocks r = insertLocks old ∧ post a (locks ++ held)) :
    E.WellLocked (H.update locks k change missing) held post := by
  refine Handle.wellLocked_update (h.isProtected hk) fun old a r hold hr => ?_
  obtain ⟨hkey, hinsert, hpost⟩ := hchange old a r hold hr
  refine ⟨hkey, ?_, hinsert, ?_, hpost⟩
  · rw [h.updateLocks_eq, hold]
    exact cons_subset.mpr ⟨hk, nil_subset _⟩
  · rw [h.updateLocks_eq, h.updateLocks_eq, hkey, hold]

end Owned

namespace Keyed

theorem permitted (h : Keyed E key lockOf) (hk : lockOf k ∈ held) {old : Option ρ} {r : ρ}
    (hold : ∀ r', old = some r' → key r' = k) (hr : key r = k) : Permitted held old r := by
  have hlock : [lockOf k] ⊆ held := cons_subset.mpr ⟨hk, nil_subset _⟩
  cases old with
  | none =>
    show insertLocks r ⊆ held
    rw [h.insertLocks_eq, hr]
    exact hlock
  | some r' =>
    have hr' := hold r' rfl
    refine ⟨?_, ?_, ?_⟩
    · rw [h.updateLocks_eq, hr']
      exact hlock
    · rw [h.insertLocks_eq, h.insertLocks_eq, hr, hr']
    · rw [h.updateLocks_eq, h.updateLocks_eq, hr, hr']

variable [DecidableEq κ] {H : Handle E key} {missing : ε} {post : α → List Lock → Prop}

theorem wellLocked_upsertWhere (h : Keyed E key lockOf) (hk : lockOf k ∈ locks ++ held)
    {change : Option ρ → Except ε (α × Option ρ)}
    (hchange : ∀ old a row, (∀ r', old = some r' → key r' = k) → change old = .ok (a, row) →
      (∀ r, row = some r → key r = k) ∧ post a (locks ++ held)) :
    E.WellLocked (H.upsertWhere locks k change) held post := by
  refine Handle.wellLocked_upsertWhere (h.isProtected hk) fun old a row hold hrow => ?_
  obtain ⟨hkey, hpost⟩ := hchange old a row hold hrow
  exact ⟨fun r hr => ⟨hkey r hr, h.permitted hk hold (hkey r hr)⟩, hpost⟩

theorem wellLocked_upsert (h : Keyed E key lockOf) (hk : lockOf k ∈ locks ++ held)
    {change : Option ρ → Except ε (α × ρ)}
    (hchange : ∀ old a r, (∀ r', old = some r' → key r' = k) → change old = .ok (a, r) →
      key r = k ∧ post a (locks ++ held)) :
    E.WellLocked (H.upsert locks k change) held post := by
  refine Handle.wellLocked_upsert (h.isProtected hk) fun old a r hold hr => ?_
  obtain ⟨hkey, hpost⟩ := hchange old a r hold hr
  exact ⟨hkey, h.permitted hk hold hkey, hpost⟩

theorem wellLocked_update (h : Keyed E key lockOf) (hk : lockOf k ∈ locks ++ held)
    {change : ρ → Except ε (α × ρ)}
    (hchange : ∀ old a r, key old = k → change old = .ok (a, r) →
      key r = k ∧ post a (locks ++ held)) :
    E.WellLocked (H.update locks k change missing) held post := by
  refine h.toOwned.wellLocked_update hk fun old a r hold hr => ?_
  obtain ⟨hkey, hpost⟩ := hchange old a r hold hr
  exact ⟨hkey, by rw [h.insertLocks_eq, h.insertLocks_eq, hkey, hold], hpost⟩

/-- An insert that clashes with the row of its key only. -/
theorem wellLocked_insert (h : Keyed E key lockOf) {row : ρ} (hk : lockOf (key row) ∈ locks ++ held)
    {clash : ρ → Bool} (hclash : ∀ r, clash r = true ↔ key r = key row) {error : ε}
    {post : Unit → List Lock → Prop} (hpost : post () (locks ++ held)) :
    E.WellLocked (H.insert locks row clash error) held post := by
  refine Handle.wellLocked_insert ?_ (fun r hr => (hclash r).mpr hr) (fun r hr => Or.inl ?_) hpost
  · rw [h.insertLocks_eq]
    exact cons_subset.mpr ⟨hk, nil_subset _⟩
  · exact h.isProtected hk r ((hclash r).mp hr)

end Keyed

end Handle

end AgentGovernor.Ledger
