import AgentGovernor.StoreSystem

/-! Grants and balances as accounts. Every operation posts entries to them: it issues a fresh account or
moves amounts between the three terms of a balance. What a posting does to the terms and to the rows is
said here once. -/

namespace AgentGovernor

open Ledger Table List

/-- The two tables of the accounts. -/
structure Accounts where
  grants : Table fun g : Grant => (g.envelopeID, g.dimensionID)
  balances : Table fun b : Balance => (b.envelopeID, b.dimensionID)

namespace Accounts

/-! The terms of an account are zero when the row is missing. -/

def granted (a : Accounts) (e d : ID) : Int := a.grants.column (·.grantedValue) (e, d)

def available (a : Accounts) (e d : ID) : Int := a.balances.column (·.availableValue) (e, d)

def directConsumed (a : Accounts) (e d : ID) : Int := a.balances.column (·.directConsumedValue) (e, d)

def allocatedOpen (a : Accounts) (e d : ID) : Int := a.balances.column (·.allocatedOpenValue) (e, d)

theorem available_nonneg (a : Accounts) (e d : ID) : 0 ≤ a.available e d := by
  unfold Accounts.available Table.column
  cases a.balances.get (e, d) with
  | none => exact Int.le_refl 0
  | some b => exact b.available_nonneg

end Accounts

def Store.accounts (s : Store) : Accounts := ⟨s.grants, s.balances⟩

/-- An entry of the ledger: a fresh account with a granted value, or a change of the three terms. -/
inductive Entry where
  | issue (e d : ID) (value : Int)
  | move (e d : ID) (available direct allocated : Int)
  deriving DecidableEq

namespace Entry

def account : Entry → ID × ID
  | .issue e d _ => (e, d)
  | .move e d _ _ _ => (e, d)

/-- What the entry adds to each term: grant, availability, consumption, allocation. -/
def terms : Entry → Int × Int × Int × Int
  | .issue _ _ value => (value, value, 0, 0)
  | .move _ _ available direct allocated => (0, available, direct, allocated)

end Entry

/-- What a list of entries adds to one term of an account. -/
def posted (term : Int × Int × Int × Int → Int) (entries : List Entry) (e d : ID) : Int :=
  (entries.map fun x => if x.account = (e, d) then term x.terms else 0).sum

@[simp] theorem posted_nil (term : Int × Int × Int × Int → Int) (e d : ID) :
    posted term [] e d = 0 := rfl

@[simp] theorem posted_cons (term : Int × Int × Int × Int → Int) (x : Entry) (entries : List Entry)
    (e d : ID) : posted term (x :: entries) e d =
      (if x.account = (e, d) then term x.terms else 0) + posted term entries e d := rfl

theorem posted_move (term : Int × Int × Int × Int → Int) (p x : ID) (available direct allocated : Int)
    (e d : ID) : posted term [.move p x available direct allocated] e d =
      if (p, x) = (e, d) then term (0, available, direct, allocated) else 0 := by
  rw [posted_cons, posted_nil, add_zero]
  rfl

@[simp] theorem posted_append (term : Int × Int × Int × Int → Int) (entries entries' : List Entry)
    (e d : ID) : posted term (entries ++ entries') e d =
      posted term entries e d + posted term entries' e d := by
  simp [posted]

/-- What moves of one envelope add to a term. -/
theorem posted_moves {ι : Type} (term : Int × Int × Int × Int → Int) (items : List ι) (p : ID)
    (dimension : ι → ID) (available direct allocated : ι → Int) (e d : ID) :
    posted term (items.map fun i => .move p (dimension i) (available i) (direct i) (allocated i)) e d =
      if p = e then (items.map fun i => if dimension i = d then
        term (0, available i, direct i, allocated i) else 0).sum else 0 := by
  induction items with
  | nil => simp
  | cons i items ih =>
    rw [map_cons, posted_cons, ih]
    simp only [Entry.account, Entry.terms, Prod.mk.injEq, map_cons, sum_cons]
    by_cases hp : p = e <;> by_cases hd : dimension i = d <;> simp [hp, hd]

/-- Entries whose three balance terms add up to what they grant change the two sides alike. -/
theorem posted_balanced {entries : List Entry}
    (h : ∀ x ∈ entries, x.terms.2.1 + x.terms.2.2.1 + x.terms.2.2.2 = x.terms.1) (e d : ID) :
    posted (·.2.1) entries e d + posted (·.2.2.1) entries e d + posted (·.2.2.2) entries e d =
      posted (·.1) entries e d := by
  induction entries with
  | nil => rfl
  | cons x entries ih =>
    have hx := h x mem_cons_self
    have hrest := ih fun y hy => h y (mem_cons_of_mem x hy)
    simp only [posted_cons]
    split_ifs <;> omega

/-- The entries are posted one after the other. -/
inductive Posts : List Entry → Accounts → Accounts → Prop where
  | nil (a : Accounts) : Posts [] a a
  | issue {a a' : Accounts} {rest : List Entry} {e d : ID} {value : Int} (g : Grant) (b : Balance)
      (hg : (g.envelopeID, g.dimensionID) = (e, d)) (hb : (b.envelopeID, b.dimensionID) = (e, d))
      (hgrant : a.grants.get (e, d) = none) (hbalance : a.balances.get (e, d) = none)
      (hgranted : g.grantedValue = value) (havailable : b.availableValue = value)
      (hdirect : b.directConsumedValue = 0) (hallocated : b.allocatedOpenValue = 0)
      (h : Posts rest ⟨a.grants.put g, a.balances.put b⟩ a') : Posts (.issue e d value :: rest) a a'
  | move {a a' : Accounts} {rest : List Entry} {e d : ID} {available direct allocated : Int}
      (b b' : Balance) (hget : a.balances.get (e, d) = some b)
      (hb : (b'.envelopeID, b'.dimensionID) = (e, d))
      (havailable : b'.availableValue = b.availableValue + available)
      (hdirect : b'.directConsumedValue = b.directConsumedValue + direct)
      (hallocated : b'.allocatedOpenValue = b.allocatedOpenValue + allocated)
      (h : Posts rest { a with balances := a.balances.put b' } a') :
      Posts (.move e d available direct allocated :: rest) a a'

namespace Posts

variable {entries entries' : List Entry} {a a' a'' : Accounts}

theorem append (h : Posts entries a a') (h' : Posts entries' a' a'') :
    Posts (entries ++ entries') a a'' := by
  induction h with
  | nil a => exact h'
  | issue g b hg hb hgrant hbalance hgranted havailable hdirect hallocated _ ih =>
    exact .issue g b hg hb hgrant hbalance hgranted havailable hdirect hallocated (ih h')
  | move b b' hget hb havailable hdirect hallocated _ ih =>
    exact .move b b' hget hb havailable hdirect hallocated (ih h')

/-- Every term of every account changes by what was posted to it. -/
theorem terms (h : Posts entries a a') (e d : ID) :
    a'.granted e d = a.granted e d + posted (·.1) entries e d ∧
      a'.available e d = a.available e d + posted (·.2.1) entries e d ∧
      a'.directConsumed e d = a.directConsumed e d + posted (·.2.2.1) entries e d ∧
      a'.allocatedOpen e d = a.allocatedOpen e d + posted (·.2.2.2) entries e d := by
  induction h with
  | nil a => simp
  | @issue a a' rest e' d' value g b hg hb hgrant hbalance hgranted havailable hdirect hallocated _ ih =>
    simp only [Accounts.granted, Accounts.available, Accounts.directConsumed,
      Accounts.allocatedOpen, column_put, hg, hb, posted_cons, Entry.account] at ih ⊢
    by_cases hkey : (e, d) = (e', d')
    · obtain ⟨rfl, rfl⟩ := Prod.mk.inj hkey
      simp only [if_true, Entry.terms, column_of_none hgrant,
        column_of_none hbalance] at ih ⊢
      omega
    · simp only [hkey, Ne.symm hkey, if_false] at ih ⊢
      omega
  | @move a a' rest e' d' available direct allocated b b' hget hb havailable hdirect hallocated _ ih =>
    simp only [Accounts.granted, Accounts.available, Accounts.directConsumed,
      Accounts.allocatedOpen, column_put, hb, posted_cons, Entry.account] at ih ⊢
    by_cases hkey : (e, d) = (e', d')
    · obtain ⟨rfl, rfl⟩ := Prod.mk.inj hkey
      simp only [if_true, Entry.terms, column_of_get hget] at ih ⊢
      omega
    · simp only [hkey, Ne.symm hkey, if_false] at ih ⊢
      omega

/-- An account that no entry names keeps its rows. -/
theorem untouched (h : Posts entries a a') {k : ID × ID} (hnone : ∀ x ∈ entries, x.account ≠ k) :
    a'.grants.get k = a.grants.get k ∧ a'.balances.get k = a.balances.get k := by
  induction h with
  | nil a => exact ⟨rfl, rfl⟩
  | issue g b hg hb _ _ _ _ _ _ _ ih =>
    have hne := hnone _ mem_cons_self
    obtain ⟨hgrants, hbalances⟩ := ih fun x hx => hnone x (mem_cons_of_mem _ hx)
    dsimp only at hgrants hbalances
    rw [hgrants, hbalances, get_put_of_ne _ (by rw [hg]; exact hne.symm),
      get_put_of_ne _ (by rw [hb]; exact hne.symm)]
    exact ⟨rfl, rfl⟩
  | move b b' _ hb _ _ _ _ ih =>
    have hne := hnone _ mem_cons_self
    obtain ⟨hgrants, hbalances⟩ := ih fun x hx => hnone x (mem_cons_of_mem _ hx)
    dsimp only at hgrants hbalances
    rw [hgrants, hbalances, get_put_of_ne _ (by rw [hb]; exact hne.symm)]
    exact ⟨rfl, rfl⟩

/-- A grant that is there stays as it is. -/
theorem grant_kept (h : Posts entries a a') {k : ID × ID} {g : Grant} (hk : a.grants.get k = some g) :
    a'.grants.get k = some g := by
  induction h with
  | nil a => exact hk
  | issue g' b hg _ hgrant _ _ _ _ _ _ ih =>
    apply ih
    dsimp only
    rw [get_put_of_ne]
    · exact hk
    · rw [hg]
      rintro rfl
      rw [hk] at hgrant
      cases hgrant
  | move _ _ _ _ _ _ _ _ ih => exact ih hk

theorem balance_kept (h : Posts entries a a') {k : ID × ID} (hk : ∃ b, a.balances.get k = some b) :
    ∃ b, a'.balances.get k = some b := by
  have hput : ∀ (t : Table fun b : Balance => (b.envelopeID, b.dimensionID)) (row : Balance),
      (∃ b, t.get k = some b) → ∃ b, (t.put row).get k = some b := by
    intro t row hrow
    rw [get_put]
    split_ifs
    · exact ⟨row, rfl⟩
    · exact hrow
  induction h with
  | nil a => exact hk
  | issue _ b _ _ _ _ _ _ _ _ _ ih => exact ih (hput _ b hk)
  | move _ b' _ _ _ _ _ _ ih => exact ih (hput _ b' hk)

/-- A grant that appears was issued. -/
theorem grant_origin (h : Posts entries a a') {e d : ID} {g : Grant}
    (hg : a'.grants.get (e, d) = some g) :
    a.grants.get (e, d) = some g ∨ .issue e d g.grantedValue ∈ entries := by
  induction h with
  | nil a => exact Or.inl hg
  | issue g' b hkey _ _ _ hgranted _ _ _ _ ih =>
    rcases ih hg with hput | hmem
    · dsimp only at hput
      rw [get_put, hkey] at hput
      split_ifs at hput with hsame
      · cases hsame
        cases hput
        exact Or.inr (hgranted ▸ mem_cons_self)
      · exact Or.inl hput
    · exact Or.inr (mem_cons_of_mem _ hmem)
  | move _ _ _ _ _ _ _ _ ih =>
    rcases ih hg with hput | hmem
    · exact Or.inl hput
    · exact Or.inr (mem_cons_of_mem _ hmem)

/-- A balance that appears was issued. -/
theorem balance_origin (h : Posts entries a a') {e d : ID} (hb : ∃ b, a'.balances.get (e, d) = some b) :
    (∃ b, a.balances.get (e, d) = some b) ∨ ∃ value, .issue e d value ∈ entries := by
  induction h with
  | nil a => exact Or.inl hb
  | @issue _ _ _ e' d' value _ b' _ hkey _ _ _ _ _ _ _ ih =>
    rcases ih hb with ⟨b, hput⟩ | ⟨value, hmem⟩
    · dsimp only at hput
      rw [get_put, hkey] at hput
      split_ifs at hput with hsame
      · cases hsame
        exact Or.inr ⟨value, mem_cons_self⟩
      · exact Or.inl ⟨b, hput⟩
    · exact Or.inr ⟨value, mem_cons_of_mem _ hmem⟩
  | move old b' hget hkey _ _ _ _ ih =>
    rcases ih hb with ⟨b, hput⟩ | ⟨value, hmem⟩
    · dsimp only at hput
      rw [get_put, hkey] at hput
      split_ifs at hput with hsame
      · exact Or.inl ⟨old, hsame ▸ hget⟩
      · exact Or.inl ⟨b, hput⟩
    · exact Or.inr ⟨value, mem_cons_of_mem _ hmem⟩

/-- An account that an entry moves has its balance afterwards. -/
theorem moved (h : Posts entries a a') {e d : ID} {available direct allocated : Int}
    (hx : .move e d available direct allocated ∈ entries) : ∃ b, a'.balances.get (e, d) = some b := by
  induction h with
  | nil a => exact absurd hx not_mem_nil
  | issue _ _ _ _ _ _ _ _ _ _ _ ih =>
    rcases mem_cons.mp hx with hx | hx
    · cases hx
    · exact ih hx
  | move _ b' _ hb _ _ _ hrest ih =>
    rcases mem_cons.mp hx with hx | hx
    · cases hx
      exact hrest.balance_kept ⟨b', by dsimp only; rw [← hb, get_put_self]⟩
    · exact ih hx

/-- An account that an entry issues has its grant afterwards. -/
theorem issued_value (h : Posts entries a a') {e d : ID} {value : Int}
    (hx : .issue e d value ∈ entries) :
    ∃ g, a'.grants.get (e, d) = some g ∧ g.grantedValue = value := by
  induction h with
  | nil a => exact absurd hx not_mem_nil
  | issue g _ hg _ _ _ hgranted _ _ _ hrest ih =>
    rcases mem_cons.mp hx with hx | hx
    · cases hx
      refine ⟨g, hrest.grant_kept ?_, hgranted⟩
      dsimp only
      rw [← hg, get_put_self]
    · exact ih hx
  | move _ _ _ _ _ _ _ _ ih =>
    rcases mem_cons.mp hx with hx | hx
    · cases hx
    · exact ih hx

/-- An account that an entry issues is new and has its two rows afterwards. -/
theorem issued (h : Posts entries a a') {e d : ID} {value : Int} (hx : .issue e d value ∈ entries) :
    a.grants.get (e, d) = none ∧ a.balances.get (e, d) = none ∧
      (∃ g, a'.grants.get (e, d) = some g) ∧ ∃ b, a'.balances.get (e, d) = some b := by
  induction h with
  | nil a => exact absurd hx not_mem_nil
  | @issue a a' rest e' d' value' g b hg hb hgrant hbalance _ _ _ _ hrest ih =>
    rcases mem_cons.mp hx with hx | hx
    · cases hx
      refine ⟨hgrant, hbalance, ⟨g, hrest.grant_kept ?_⟩, hrest.balance_kept ⟨b, ?_⟩⟩
      · dsimp only
        rw [← hg, get_put_self]
      · dsimp only
        rw [← hb, get_put_self]
    · obtain ⟨hgrant', hbalance', hrows⟩ := ih hx
      dsimp only at hgrant' hbalance'
      rw [get_put, hg] at hgrant'
      rw [get_put, hb] at hbalance'
      split_ifs at hgrant' hbalance'
      exact ⟨hgrant', hbalance', hrows⟩
  | move b b' hget hb _ _ _ _ ih =>
    rcases mem_cons.mp hx with hx | hx
    · cases hx
    · obtain ⟨hgrant', hbalance', hrows⟩ := ih hx
      dsimp only at hbalance'
      rw [get_put, hb] at hbalance'
      split_ifs at hbalance'
      exact ⟨hgrant', hbalance', hrows⟩

end Posts

end AgentGovernor
