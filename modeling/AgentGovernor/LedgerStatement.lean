import AgentGovernor.LedgerTable
import AgentGovernor.TransactionSystem

/-! The statements transactions make on keyed tables: lock a row and read it, write the row of a key,
insert a row unless it clashes with another. For each, what it commits to and when it is well locked.
`Handle` ties a table to a database and its engine. -/

namespace AgentGovernor.Ledger

open Transaction

variable {σ Lock ω ε α β κ ρ : Type} [DecidableEq κ] [Guarded ρ Lock] {E : Engine σ Lock ω}

/-- One table of a database: how it is read and written, and what the engine says about its rows. -/
structure Handle (E : Engine σ Lock ω) (key : ρ → κ) where
  table : σ → Table key
  write : ρ → ω
  table_write : ∀ r s, table (E.apply (write r) s) = (table s).put r
  evolves : ∀ {held s t}, E.guarantee held s t → (table s).Evolves held (table t)
  guarantee_write : ∀ {held s r}, RowStep held ((table s).get (key r)) (some r) →
    E.guarantee held s (E.apply (write r) s)

namespace Handle

variable {key : ρ → κ} (H : Handle E key)

/-- Take locks, then read the row of a key. -/
def read (locks : List Lock) (k : κ) (check : Option ρ → Except ε α) : Tx σ Lock ω ε α :=
  .select (fun _ => locks) fun v => check ((H.table v).get k)

/-- `SELECT … FOR UPDATE` by primary key. -/
def lock (locks : List Lock) (k : κ) (check : ρ → Except ε α) (missing : ε) : Tx σ Lock ω ε α :=
  H.read locks k fun
    | some r => check r
    | none => .error missing

/-- Write the row of a key in view of the row that is there. -/
def upsert (locks : List Lock) (k : κ) (change : Option ρ → Except ε (α × ρ)) : Tx σ Lock ω ε α :=
  .perform (fun _ => locks) fun v =>
    match change ((H.table v).get k) with
    | .ok (a, r) => .ok (a, [H.write r])
    | .error error => .error error

/-- `INSERT … ON CONFLICT DO UPDATE … WHERE`: as `upsert`, but the row that is there may be left as it
is. -/
def upsertWhere (locks : List Lock) (k : κ) (change : Option ρ → Except ε (α × Option ρ)) :
    Tx σ Lock ω ε α :=
  .perform (fun _ => locks) fun v =>
    match change ((H.table v).get k) with
    | .ok (a, some r) => .ok (a, [H.write r])
    | .ok (a, none) => .ok (a, [])
    | .error error => .error error

/-- `UPDATE` by primary key. -/
def update (locks : List Lock) (k : κ) (change : ρ → Except ε (α × ρ)) (missing : ε) :
    Tx σ Lock ω ε α :=
  H.upsert locks k fun
    | some r => change r
    | none => .error missing

/-- `INSERT`, refused when a row clashes under a uniqueness constraint. -/
def insert (locks : List Lock) (row : ρ) (clash : ρ → Bool) (error : ε) : Tx σ Lock ω ε Unit :=
  .perform (fun _ => locks) fun v =>
    if (H.table v).rows.any clash then .error error else .ok ((), [H.write row])

/-! ### Commits -/

section Commits

variable {H} {locks held held' : List Lock} {k : κ} {s t : σ}

variable {a : α}

theorem exec_read {check : Option ρ → Except ε α} :
    E.Exec (H.read locks k check) held s a held' t ↔
      check ((H.table s).get k) = .ok a ∧ held' = locks ++ held ∧ t = s := by
  rw [read, Engine.exec_select]

variable {missing : ε}

theorem exec_lock {check : ρ → Except ε α} :
    E.Exec (H.lock locks k check missing) held s a held' t ↔
      ∃ r, (H.table s).get k = some r ∧ check r = .ok a ∧ held' = locks ++ held ∧ t = s := by
  rw [lock, exec_read]
  cases hget : (H.table s).get k with
  | none => simp
  | some r => simp

theorem exec_upsert {change : Option ρ → Except ε (α × ρ)} :
    E.Exec (H.upsert locks k change) held s a held' t ↔
      ∃ r, change ((H.table s).get k) = .ok (a, r) ∧ held' = locks ++ held ∧
        t = E.apply (H.write r) s := by
  rw [upsert, Engine.exec_perform]
  cases hchange : change ((H.table s).get k) with
  | error error => simp
  | ok result =>
    obtain ⟨b, r⟩ := result
    simp only [Except.ok.injEq, Prod.mk.injEq]
    constructor
    · rintro ⟨ws, ⟨rfl, rfl⟩, hheld, ht⟩
      exact ⟨r, ⟨rfl, rfl⟩, hheld, ht⟩
    · rintro ⟨r', ⟨rfl, rfl⟩, hheld, ht⟩
      exact ⟨[H.write r], ⟨rfl, rfl⟩, hheld, ht⟩

/-- An update alone on its database. -/
theorem run_update {change : ρ → Except ε (α × ρ)} {r r' : ρ}
    (hr : (H.table s).get k = some r) (hchange : change r = .ok (a, r')) :
    E.run (H.update locks k change missing) s = .ok (a, E.apply (H.write r') s) := by
  simp only [update, upsert, Tx.perform, Engine.run, hr, hchange]
  rfl

theorem exec_upsertWhere {change : Option ρ → Except ε (α × Option ρ)} :
    E.Exec (H.upsertWhere locks k change) held s a held' t ↔
      ∃ row, change ((H.table s).get k) = .ok (a, row) ∧ held' = locks ++ held ∧
        t = row.elim s fun r => E.apply (H.write r) s := by
  rw [upsertWhere, Engine.exec_perform]
  cases hchange : change ((H.table s).get k) with
  | error error => simp
  | ok result =>
    obtain ⟨b, row⟩ := result
    cases row <;> simp [eq_comm, and_assoc]

theorem exec_update {change : ρ → Except ε (α × ρ)} :
    E.Exec (H.update locks k change missing) held s a held' t ↔
      ∃ old r, (H.table s).get k = some old ∧ change old = .ok (a, r) ∧ held' = locks ++ held ∧
        t = E.apply (H.write r) s := by
  rw [update, exec_upsert]
  cases hget : (H.table s).get k with
  | none => simp
  | some old => simp

theorem exec_insert {row : ρ} {clash : ρ → Bool} {error : ε} {a : Unit} :
    E.Exec (H.insert locks row clash error) held s a held' t ↔
      (∀ r ∈ (H.table s).rows, clash r = false) ∧ held' = locks ++ held ∧
        t = E.apply (H.write row) s := by
  rw [insert, Engine.exec_perform]
  by_cases hclash : (H.table s).rows.any clash = true
  · rw [if_pos hclash]
    obtain ⟨r, hr, hrow⟩ := List.any_eq_true.mp hclash
    constructor
    · rintro ⟨ws, hws, _⟩
      cases hws
    · rintro ⟨hnone, _⟩
      rw [hnone r hr] at hrow
      cases hrow
  · rw [if_neg hclash]
    have hnone : ∀ r ∈ (H.table s).rows, clash r = false := by
      intro r hr
      rw [← Bool.not_eq_true]
      exact fun hrow => hclash (List.any_eq_true.mpr ⟨r, hr, hrow⟩)
    constructor
    · rintro ⟨ws, hws, hheld, ht⟩
      cases hws
      exact ⟨hnone, hheld, ht⟩
    · rintro ⟨_, hheld, ht⟩
      exact ⟨[H.write row], rfl, hheld, ht⟩

end Commits

/-! ### Lock discipline -/

section Discipline

variable {H} {held : List Lock} {s t : σ}

/-- One of the locks is excluded by a lock that is held. -/
def Excluded (E : Engine σ Lock ω) (held locks : List Lock) : Prop :=
  ∃ l ∈ locks, ∃ l' ∈ held, E.conflict l l'

variable {locks : List Lock}

theorem Excluded.not_subset {other : List Lock} (h : E.Compatible other held)
    (hlocks : Excluded E held locks) : ∃ l ∈ locks, l ∉ other := by
  obtain ⟨l, hl, l', hl', hconflict⟩ := hlocks
  exact ⟨l, hl, fun hother => h l hother l' hl' hconflict⟩

/-- The row of the key is protected: whatever it is or will be, a lock that its update needs is
excluded. -/
def Protected (E : Engine σ Lock ω) (key : ρ → κ) (held : List Lock) (k : κ) : Prop :=
  ∀ r, key r = k → Excluded E held (updateLocks r)

variable {k : κ}

theorem get_of_rely (hk : Protected E key held k) (h : E.Rely held s t) :
    (H.table t).get k = (H.table s).get k := by
  obtain ⟨other, hcompat, hg, _⟩ := h
  have hstep := H.evolves hg k
  cases hs : (H.table s).get k with
  | some r =>
    obtain ⟨l, hmem, hfree⟩ := (hk r (Table.key_of_get hs)).not_subset hcompat
    exact (hstep.row_iff hmem hfree).mp hs
  | none =>
    cases ht : (H.table t).get k with
    | none => rfl
    | some r =>
      obtain ⟨l, hmem, hfree⟩ := (hk r (Table.key_of_get ht)).not_subset hcompat
      have hback := (hstep.row_iff hmem hfree).mpr ht
      rw [hs] at hback
      cases hback

theorem get_of_interference (hk : Protected E key held k) (h : E.Interference held s t) :
    (H.table t).get k = (H.table s).get k :=
  h.preserves (P := fun u => (H.table u).get k = (H.table s).get k)
    (fun _ _ hstep hu => (get_of_rely hk hstep).trans hu) rfl

/-- A row stays, or stays away, while a lock that its update needs is excluded. -/
theorem mem_iff_of_interference {r : ρ} (hr : Excluded E held (updateLocks r))
    (h : E.Interference held s t) : r ∈ (H.table t).rows ↔ r ∈ (H.table s).rows := by
  refine h.preserves (P := fun u => r ∈ (H.table u).rows ↔ r ∈ (H.table s).rows) ?_ Iff.rfl
  rintro u v ⟨other, hcompat, hg, _⟩ hu
  obtain ⟨l, hmem, hfree⟩ := hr.not_subset hcompat
  rw [← hu, Table.mem_rows_iff, Table.mem_rows_iff]
  exact ((H.evolves hg (key r)).row_iff hmem hfree).symm

/-- No other session can bring about the row: a lock that its update needs is excluded, or one that its
insert needs when the updates keep the property. -/
def Watched (E : Engine σ Lock ω) (held : List Lock) (p : ρ → Prop) (r : ρ) : Prop :=
  Excluded E held (updateLocks r) ∨
    (Excluded E held (insertLocks r) ∧ ∀ r', insertLocks r' = insertLocks r → p r')

theorem absent_of_rely {p : ρ → Prop} (hp : ∀ r, p r → Watched E held p r) (h : E.Rely held s t)
    (hs : ∀ r ∈ (H.table s).rows, ¬p r) : ∀ r ∈ (H.table t).rows, ¬p r := by
  obtain ⟨other, hcompat, hg, _⟩ := h
  refine (H.evolves hg).absent (fun r hr => ?_) hs
  rcases hp r hr with hlocks | ⟨hlocks, hkeep⟩
  · exact Or.inl (hlocks.not_subset hcompat)
  · exact Or.inr ⟨hlocks.not_subset hcompat, hkeep⟩

variable {post : α → List Lock → Prop}

theorem wellLocked_read {check : Option ρ → Except ε α}
    (hk : Protected E key (locks ++ held) k)
    (hpost : ∀ row a, (∀ r, row = some r → key r = k) → check row = .ok a → post a (locks ++ held)) :
    E.WellLocked (H.read locks k check) held post := by
  apply Engine.wellLocked_select
  intro v a hread
  refine ⟨fun v' hrely => ⟨rfl, ?_⟩, hpost _ a (fun r hr => Table.key_of_get hr) hread⟩
  rw [get_of_rely hk hrely]
  exact hread

variable {missing : ε}

theorem wellLocked_lock {check : ρ → Except ε α}
    (hk : Protected E key (locks ++ held) k)
    (hpost : ∀ r a, key r = k → check r = .ok a → post a (locks ++ held)) :
    E.WellLocked (H.lock locks k check missing) held post := by
  apply wellLocked_read hk
  intro row a hkey hrow
  cases row with
  | none => cases hrow
  | some r => exact hpost r a (hkey r rfl) hrow

/-- A row that no commit changes needs no lock to be read. -/
theorem wellLocked_lock_of_keeps
    (hkeeps : ∀ {other v v'}, E.promise other v v' → (H.table v).Keeps Eq (H.table v'))
    {check : ρ → Except ε α}
    (hpost : ∀ r a, check r = .ok a → post a (locks ++ held)) :
    E.WellLocked (H.lock locks k check missing) held post := by
  apply Engine.wellLocked_select
  intro v a hread
  cases hget : (H.table v).get k with
  | none =>
    rw [hget] at hread
    cases hread
  | some r =>
    rw [hget] at hread
    refine ⟨fun v' hrely => ⟨rfl, ?_⟩, hpost r a hread⟩
    obtain ⟨_, _, _, hpromise⟩ := hrely
    obtain ⟨r', hr', rfl⟩ := hkeeps hpromise k r hget
    rw [hr']
    exact hread

/-- What a write needs: the locks of the row it inserts or replaces, whose locked columns it keeps. -/
def Permitted (held : List Lock) (old : Option ρ) (r : ρ) : Prop :=
  match old with
  | none => insertLocks r ⊆ held
  | some r' => updateLocks r' ⊆ held ∧ insertLocks r = insertLocks r' ∧ updateLocks r = updateLocks r'

theorem rowStep_of_permitted {old : Option ρ} {r : ρ} (h : Permitted held old r) :
    RowStep held old (some r) := by
  cases old with
  | none => exact .insert r h
  | some r' => exact .update r' r h.1 h.2.1 h.2.2

theorem wellLocked_upsert {change : Option ρ → Except ε (α × ρ)}
    (hk : Protected E key (locks ++ held) k)
    (hchange : ∀ old a r, (∀ r', old = some r' → key r' = k) → change old = .ok (a, r) →
      key r = k ∧ Permitted (locks ++ held) old r ∧ post a (locks ++ held)) :
    E.WellLocked (H.upsert locks k change) held post := by
  apply Engine.wellLocked_perform
  intro v a ws hact
  split at hact
  · rename_i b r hresult
    cases hact
    obtain ⟨hkey, hpermitted, hpost⟩ :=
      hchange _ _ _ (fun r' hr' => Table.key_of_get hr') hresult
    refine ⟨?_, fun v' hrely => ⟨rfl, ?_⟩, hpost⟩
    · rw [Engine.applyAll_cons, Engine.applyAll_nil]
      apply H.guarantee_write
      rw [hkey]
      exact rowStep_of_permitted hpermitted
    · rw [get_of_rely hk hrely, hresult]
  · cases hact

theorem wellLocked_upsertWhere
    {change : Option ρ → Except ε (α × Option ρ)}
    (hk : Protected E key (locks ++ held) k)
    (hchange : ∀ old a row, (∀ r', old = some r' → key r' = k) → change old = .ok (a, row) →
      (∀ r, row = some r → key r = k ∧ Permitted (locks ++ held) old r) ∧ post a (locks ++ held)) :
    E.WellLocked (H.upsertWhere locks k change) held post := by
  apply Engine.wellLocked_perform
  intro v a ws hact
  split at hact
  · rename_i b r hresult
    cases hact
    obtain ⟨hrow, hpost⟩ := hchange _ _ _ (fun r' hr' => Table.key_of_get hr') hresult
    obtain ⟨hkey, hpermitted⟩ := hrow r rfl
    refine ⟨?_, fun v' hrely => ⟨rfl, ?_⟩, hpost⟩
    · rw [Engine.applyAll_cons, Engine.applyAll_nil]
      apply H.guarantee_write
      rw [hkey]
      exact rowStep_of_permitted hpermitted
    · rw [get_of_rely hk hrely, hresult]
  · rename_i b hresult
    cases hact
    obtain ⟨_, hpost⟩ := hchange _ _ _ (fun r' hr' => Table.key_of_get hr') hresult
    refine ⟨E.guarantee_refl _ _, fun v' hrely => ⟨rfl, ?_⟩, hpost⟩
    rw [get_of_rely hk hrely, hresult]
  · cases hact

theorem wellLocked_update {change : ρ → Except ε (α × ρ)}
    (hk : Protected E key (locks ++ held) k)
    (hchange : ∀ old a r, key old = k → change old = .ok (a, r) →
      key r = k ∧ updateLocks old ⊆ locks ++ held ∧ insertLocks r = insertLocks old ∧
        updateLocks r = updateLocks old ∧ post a (locks ++ held)) :
    E.WellLocked (H.update locks k change missing) held post := by
  apply wellLocked_upsert hk
  intro old a r hold hresult
  cases old with
  | none => cases hresult
  | some old =>
    obtain ⟨hkey, hlocks, hinsert, hupdate, hpost⟩ := hchange old a r (hold old rfl) hresult
    exact ⟨hkey, ⟨hlocks, hinsert, hupdate⟩, hpost⟩

/-- An insert is well locked when the locks of the row are held and nobody else can bring about a row
that it clashes with. -/
theorem wellLocked_insert {row : ρ} {clash : ρ → Bool} {error : ε}
    {post : Unit → List Lock → Prop} (hrow : insertLocks row ⊆ locks ++ held)
    (hkey : ∀ r, key r = key row → clash r = true)
    (hclash : ∀ r, clash r = true → Watched E (locks ++ held) (fun r => clash r = true) r)
    (hpost : post () (locks ++ held)) :
    E.WellLocked (H.insert locks row clash error) held post := by
  apply Engine.wellLocked_perform
  intro v a ws hact
  split_ifs at hact with hany
  cases hact
  have hnone : ∀ r ∈ (H.table v).rows, ¬clash r = true :=
    fun r hr hc => hany (List.any_eq_true.mpr ⟨r, hr, hc⟩)
  refine ⟨?_, fun v' hrely => ⟨rfl, ?_⟩, hpost⟩
  · rw [Engine.applyAll_cons, Engine.applyAll_nil]
    apply H.guarantee_write
    have hget : (H.table v).get (key row) = none := by
      rw [Table.get_eq_none_iff]
      exact fun r hr heq => hnone r hr (hkey r heq)
    rw [hget]
    exact .insert row hrow
  · have habsent := absent_of_rely hclash hrely hnone
    have hany' : ¬(H.table v').rows.any clash = true := by
      intro h
      obtain ⟨r, hr, hc⟩ := List.any_eq_true.mp h
      exact habsent r hr hc
    rw [if_neg hany']

end Discipline

end Handle

end AgentGovernor.Ledger
