import Mathlib.Logic.Relation
import Mathlib.Tactic.SplitIfs

/-! Transaction bodies as trees of statements, over any database. A statement either peeks at the
last committed snapshot or takes locks, reads and buffers writes; an `Engine` says what a write does,
which locks exclude each other and what a committing holder of some locks may have changed. Two
readings of one body are given: `run`, alone on a database, and `Exec`, as it stands at its commit when
peeks may have seen an older snapshot. -/

namespace AgentGovernor.Transaction

open List

/-- A transaction body over databases `σ`, locks `κ`, writes `ω` and errors `ε`. -/
inductive Tx (σ κ ω ε α : Type) : Type where
  | pure (value : α)
  | throw (error : ε)
  | peek (next : σ → Tx σ κ ω ε α)
  | stmt (locks : σ → List κ) (writes : σ → List ω) (next : σ → Tx σ κ ω ε α)

namespace Tx

variable {σ κ ω ε α β : Type}

def bind : Tx σ κ ω ε α → (α → Tx σ κ ω ε β) → Tx σ κ ω ε β
  | .pure value, k => k value
  | .throw error, _ => .throw error
  | .peek next, k => .peek fun v => (next v).bind k
  | .stmt locks writes next, k => .stmt locks writes fun v => (next v).bind k

instance : Monad (Tx σ κ ω ε) where
  pure := Tx.pure
  bind := Tx.bind

/-- The body was rolled back here. -/
def Failed : Tx σ κ ω ε α → Prop
  | .throw _ => True
  | _ => False

/-- A statement that takes no lock and reads what was committed when it started. -/
def snapshot (read : σ → β) : Tx σ κ ω ε β := .peek fun v => .pure (read v)

/-- A statement that first takes its locks, then reads and buffers its writes, or fails. -/
def perform (locks : σ → List κ) (act : σ → Except ε (β × List ω)) : Tx σ κ ω ε β :=
  .stmt locks
    (fun v => match act v with
      | .ok result => result.2
      | .error _ => [])
    (fun v => match act v with
      | .ok result => .pure result.1
      | .error error => .throw error)

/-- A locking read. -/
def select (locks : σ → List κ) (read : σ → Except ε β) : Tx σ κ ω ε β :=
  perform locks fun v => (read v).map (·, [])

/-- A check made by the program between two statements. -/
def require (c : Prop) [Decidable c] (error : ε) : Tx σ κ ω ε Unit :=
  if c then .pure () else .throw error

def orThrow (value : Option β) (error : ε) : Tx σ κ ω ε β :=
  match value with
  | some b => .pure b
  | none => .throw error

def ofExcept : Except ε β → Tx σ κ ω ε β
  | .ok b => .pure b
  | .error error => .throw error

/-- A statement that only takes locks. -/
def acquire (locks : List κ) : Tx σ κ ω ε Unit := select (fun _ => locks) fun _ => .ok ()

/-- What a body that only reads returns outside of a transaction: each of its statements sees a database of
its own, since others commit in between. -/
def observe : Tx σ κ ω ε α → List σ → Option (Except ε α)
  | .pure value, [] => some (.ok value)
  | .throw error, [] => some (.error error)
  | .peek next, s :: rest => (next s).observe rest
  | _, _ => none

def traverse : List β → (β → Tx σ κ ω ε α) → Tx σ κ ω ε (List α)
  | [], _ => .pure []
  | x :: xs, body => (body x).bind fun a => (traverse xs body).bind fun as => .pure (a :: as)

def forEach : List β → (β → Tx σ κ ω ε Unit) → Tx σ κ ω ε Unit
  | [], _ => .pure ()
  | x :: xs, body => (body x).bind fun _ => forEach xs body

end Tx

/-- What the database gives to transactions. `guarantee held s t` says that the statements from `s` to
`t` changed only what the locks `held` allow; `promise held s t` says what a whole commit under these
locks keeps. Both survive a pending write of another session laid over the two databases. -/
structure Engine (σ κ ω : Type) where
  apply : ω → σ → σ
  conflict : κ → κ → Prop
  conflict_symm : ∀ {a b}, conflict a b → conflict b a
  guarantee : List κ → σ → σ → Prop
  guarantee_refl : ∀ held s, guarantee held s s
  guarantee_trans : ∀ {held s t u}, guarantee held s t → guarantee held t u → guarantee held s u
  guarantee_mono : ∀ {held held' s t}, held ⊆ held' → guarantee held s t → guarantee held' s t
  guarantee_apply : ∀ {held s t} (w : ω), guarantee held s t →
    guarantee held (apply w s) (apply w t)
  promise : List κ → σ → σ → Prop
  promise_apply : ∀ {held s t} (w : ω), promise held s t → promise held (apply w s) (apply w t)

namespace Engine

variable {σ κ ω ε α β : Type} (E : Engine σ κ ω)

def applyAll (ws : List ω) (s : σ) : σ := ws.foldl (fun s w => E.apply w s) s

@[simp] theorem applyAll_nil (s : σ) : E.applyAll [] s = s := rfl

@[simp] theorem applyAll_cons (w : ω) (ws : List ω) (s : σ) :
    E.applyAll (w :: ws) s = E.applyAll ws (E.apply w s) := rfl

theorem applyAll_append (ws ws' : List ω) (s : σ) :
    E.applyAll (ws ++ ws') s = E.applyAll ws' (E.applyAll ws s) := by
  simp only [applyAll, foldl_append]

variable {held : List κ} {s t : σ}

theorem guarantee_applyAll (ws : List ω) (h : E.guarantee held s t) :
    E.guarantee held (E.applyAll ws s) (E.applyAll ws t) := by
  induction ws generalizing s t with
  | nil => exact h
  | cons w ws ih => exact ih (E.guarantee_apply w h)

theorem promise_applyAll (ws : List ω) (h : E.promise held s t) :
    E.promise held (E.applyAll ws s) (E.applyAll ws t) := by
  induction ws generalizing s t with
  | nil => exact h
  | cons w ws ih => exact ih (E.promise_apply w h)

/-- Two lock sets that different sessions may hold at once. -/
def Compatible (held held' : List κ) : Prop := ∀ a ∈ held, ∀ b ∈ held', ¬E.conflict a b

variable {held' : List κ}

theorem Compatible.symm {E : Engine σ κ ω} (h : E.Compatible held held') :
    E.Compatible held' held :=
  fun a ha b hb hab => h b hb a ha (E.conflict_symm hab)

theorem Compatible.append {E : Engine σ κ ω} {other : List κ}
    (h : E.Compatible held other) (h' : E.Compatible held' other) :
    E.Compatible (held ++ held') other := by
  intro a ha b hb
  rcases mem_append.mp ha with ha | ha
  · exact h a ha b hb
  · exact h' a ha b hb

/-- One commit of another session while this one holds `held`. -/
def Rely (held : List κ) (s t : σ) : Prop :=
  ∃ other, E.Compatible other held ∧ E.guarantee other s t ∧ E.promise other s t

/-- What other sessions may have committed while this one holds `held`. -/
def Interference (held : List κ) : σ → σ → Prop := Relation.ReflTransGen (E.Rely held)

theorem Rely.mono {E : Engine σ κ ω} (hsub : held ⊆ held')
    (h : E.Rely held' s t) : E.Rely held s t := by
  obtain ⟨other, hcompat, hg, hp⟩ := h
  exact ⟨other, fun a ha b hb => hcompat a ha b (hsub hb), hg, hp⟩

theorem Rely.applyAll {E : Engine σ κ ω} (ws : List ω)
    (h : E.Rely held s t) : E.Rely held (E.applyAll ws s) (E.applyAll ws t) := by
  obtain ⟨other, hcompat, hg, hp⟩ := h
  exact ⟨other, hcompat, E.guarantee_applyAll ws hg, E.promise_applyAll ws hp⟩

theorem Interference.mono {E : Engine σ κ ω} (hsub : held ⊆ held')
    (h : E.Interference held' s t) : E.Interference held s t :=
  Relation.ReflTransGen.mono (fun _ _ hstep => Rely.mono hsub hstep) _ _ h

theorem Interference.applyAll {E : Engine σ κ ω} (ws : List ω)
    (h : E.Interference held s t) :
    E.Interference held (E.applyAll ws s) (E.applyAll ws t) := by
  induction h with
  | refl => exact Relation.ReflTransGen.refl
  | tail _ hstep ih => exact ih.tail (hstep.applyAll ws)

/-- A property of databases that no single commit of another session breaks survives them all. -/
theorem Interference.preserves {E : Engine σ κ ω} {P : σ → Prop}
    (hstep : ∀ s t, E.Rely held s t → P s → P t) (h : E.Interference held s t)
    (hs : P s) : P t := by
  induction h with
  | refl => exact hs
  | tail _ h ih => exact hstep _ _ h ih

/-- A preorder that every single commit of another session respects relates what they started from and
what they led to. -/
theorem Interference.relates {E : Engine σ κ ω} {R : σ → σ → Prop}
    (hrefl : ∀ s, R s s) (htrans : ∀ s t u, R s t → R t u → R s u)
    (hstep : ∀ s t, E.Rely held s t → R s t) (h : E.Interference held s t) : R s t := by
  induction h with
  | refl => exact hrefl s
  | tail _ h ih => exact htrans _ _ _ ih (hstep _ _ h)

/-- The body alone on a database. -/
def run : Tx σ κ ω ε α → σ → Except ε (α × σ)
  | .pure value, s => .ok (value, s)
  | .throw error, _ => .error error
  | .peek next, s => run (next s) s
  | .stmt _ writes next, s => run (next s) (E.applyAll (writes s) s)

/-- The body as it stands at its commit: locking statements read the database they commit to, peeks
read any snapshot from which the others can have led to it under the locks then held. -/
def Exec : Tx σ κ ω ε α → List κ → σ → α → List κ → σ → Prop
  | .pure value, held, s, result, held', t => value = result ∧ held = held' ∧ s = t
  | .throw _, _, _, _, _, _ => False
  | .peek next, held, s, result, held', t =>
    ∃ seen, E.Interference held seen s ∧ Exec (next seen) held s result held' t
  | .stmt locks writes next, held, s, result, held', t =>
    Exec (next s) (locks s ++ held) (E.applyAll (writes s) s) result held' t

/-- Every locking statement writes only what its locks allow, and its outcome survives the commits of
others as long as the locks are held. The postcondition is on the result and the locks. -/
def WellLocked : Tx σ κ ω ε α → List κ → (α → List κ → Prop) → Prop
  | .pure value, held, post => post value held
  | .throw _, _, _ => True
  | .peek next, held, post => ∀ v, WellLocked (next v) held post
  | .stmt locks writes next, held, post => ∀ v, ¬(next v).Failed →
      E.guarantee (locks v ++ held) v (E.applyAll (writes v) v) ∧
      (∀ v', E.Rely (locks v ++ held) v v' →
        locks v' = locks v ∧ writes v' = writes v ∧ next v' = next v) ∧
      WellLocked (next v) (locks v ++ held) post

/-! ### Rules for the two readings -/

section Rules

variable {E}

@[simp] theorem bind_eq (p : Tx σ κ ω ε α) (k : α → Tx σ κ ω ε β) : p >>= k = p.bind k := rfl

@[simp] theorem pure_eq (value : α) : (Pure.pure value : Tx σ κ ω ε α) = .pure value := rfl

variable {held held' : List κ} {k : α → Tx σ κ ω ε β} {p : Tx σ κ ω ε α} {s t : σ}

theorem exec_bind {r : β} :
    E.Exec (p.bind k) held s r held' t ↔
      ∃ a mid u, E.Exec p held s a mid u ∧ E.Exec (k a) mid u r held' t := by
  induction p generalizing held s with
  | pure value =>
    simp only [Tx.bind, Exec]
    constructor
    · intro h
      exact ⟨value, held, s, ⟨rfl, rfl, rfl⟩, h⟩
    · rintro ⟨a, mid, u, ⟨rfl, rfl, rfl⟩, h⟩
      exact h
  | throw error => simp [Tx.bind, Exec]
  | peek next ih =>
    simp only [Tx.bind, Exec, ih]
    constructor
    · rintro ⟨seen, hseen, a, mid, u, h, hk⟩
      exact ⟨a, mid, u, ⟨seen, hseen, h⟩, hk⟩
    · rintro ⟨a, mid, u, ⟨seen, hseen, h⟩, hk⟩
      exact ⟨seen, hseen, a, mid, u, h, hk⟩
  | stmt locks writes next ih => simp only [Tx.bind, Exec, ih]

variable {r : α}

@[simp] theorem exec_pure {value : α} :
    E.Exec (.pure value : Tx σ κ ω ε α) held s r held' t ↔ value = r ∧ held = held' ∧ s = t := Iff.rfl

variable {error : ε} {locks : σ → List κ}

theorem exec_perform {act : σ → Except ε (α × List ω)} :
    E.Exec (.perform locks act) held s r held' t ↔
      ∃ ws, act s = .ok (r, ws) ∧ held' = locks s ++ held ∧ t = E.applyAll ws s := by
  simp only [Tx.perform, Exec]
  cases hact : act s with
  | error error => simp [Exec]
  | ok result =>
    obtain ⟨a, ws⟩ := result
    simp only [Exec, Except.ok.injEq, Prod.mk.injEq]
    constructor
    · rintro ⟨rfl, rfl, rfl⟩
      exact ⟨ws, ⟨rfl, rfl⟩, rfl, rfl⟩
    · rintro ⟨ws', ⟨rfl, rfl⟩, rfl, rfl⟩
      exact ⟨rfl, rfl, rfl⟩

theorem exec_select {read : σ → Except ε α} :
    E.Exec (.select locks read) held s r held' t ↔
      read s = .ok r ∧ held' = locks s ++ held ∧ t = s := by
  rw [Tx.select, exec_perform]
  cases hread : read s with
  | error error => simp [Except.map]
  | ok a =>
    simp only [Except.map, Except.ok.injEq, Prod.mk.injEq]
    constructor
    · rintro ⟨ws, ⟨rfl, rfl⟩, rfl, rfl⟩
      exact ⟨rfl, rfl, rfl⟩
    · rintro ⟨rfl, rfl, rfl⟩
      exact ⟨[], ⟨rfl, rfl⟩, rfl, rfl⟩

theorem exec_snapshot {read : σ → α} :
    E.Exec (.snapshot read : Tx σ κ ω ε α) held s r held' t ↔
      (∃ seen, E.Interference held seen s ∧ read seen = r) ∧ held = held' ∧ s = t := by
  simp only [Tx.snapshot, Exec]
  constructor
  · rintro ⟨seen, hseen, hr, hh, ht⟩
    exact ⟨⟨seen, hseen, hr⟩, hh, ht⟩
  · rintro ⟨⟨seen, hseen, hr⟩, hh, ht⟩
    exact ⟨seen, hseen, hr, hh, ht⟩

@[simp] theorem exec_require {c : Prop} [Decidable c]
    {r : Unit} : E.Exec (.require c error : Tx σ κ ω ε Unit) held s r held' t ↔
      c ∧ held = held' ∧ s = t := by
  unfold Tx.require
  split_ifs with h <;> simp [Exec, h]

@[simp] theorem exec_orThrow {value : Option α} :
    E.Exec (.orThrow value error : Tx σ κ ω ε α) held s r held' t ↔
      value = some r ∧ held = held' ∧ s = t := by
  unfold Tx.orThrow
  cases value <;> simp [Exec]

@[simp] theorem exec_ofExcept {value : Except ε α} :
    E.Exec (.ofExcept value : Tx σ κ ω ε α) held s r held' t ↔
      value = .ok r ∧ held = held' ∧ s = t := by
  unfold Tx.ofExcept
  cases value <;> simp [Exec]

@[simp] theorem exec_acquire {locks : List κ} {r : Unit} :
    E.Exec (.acquire locks : Tx σ κ ω ε Unit) held s r held' t ↔ held' = locks ++ held ∧ t = s := by
  rw [Tx.acquire, exec_select]
  simp

section Binds

variable {k : α → Tx σ κ ω ε β} {held held' : List κ} {s t : σ} {r : β}

theorem exec_bind_require {c : Prop} [Decidable c] {error : ε} {k : Unit → Tx σ κ ω ε β} :
    E.Exec ((Tx.require c error).bind k) held s r held' t ↔ c ∧ E.Exec (k ()) held s r held' t := by
  rw [exec_bind]
  constructor
  · rintro ⟨_, _, _, hrequire, hk⟩
    obtain ⟨hc, rfl, rfl⟩ := exec_require.mp hrequire
    exact ⟨hc, hk⟩
  · rintro ⟨hc, hk⟩
    exact ⟨(), held, s, exec_require.mpr ⟨hc, rfl, rfl⟩, hk⟩

theorem exec_bind_snapshot {read : σ → α} : E.Exec ((Tx.snapshot read).bind k) held s r held' t ↔
    ∃ a, (∃ seen, E.Interference held seen s ∧ read seen = a) ∧ E.Exec (k a) held s r held' t := by
  simp [exec_bind, exec_snapshot, and_assoc]

/-- Past a check. -/
theorem Exec.checked {c : Prop} [Decidable c] {error : ε} {k : Unit → Tx σ κ ω ε β}
    (h : E.Exec ((Tx.require c error).bind k) held s r held' t) : E.Exec (k ()) held s r held' t :=
  (exec_bind_require.mp h).2

/-- Past a check of what a snapshot shows. -/
theorem Exec.vetted {read : σ → α} {c : α → Prop} [∀ a, Decidable (c a)] {error : ε}
    {p : Tx σ κ ω ε β} (h : E.Exec ((Tx.snapshot read).bind fun a =>
      (Tx.require (c a) error).bind fun _ => p) held s r held' t) : E.Exec p held s r held' t := by
  obtain ⟨_, _, hexec⟩ := exec_bind_snapshot.mp h
  exact hexec.checked

theorem exec_bind_orThrow {value : Option α} {error : ε} :
    E.Exec ((Tx.orThrow value error).bind k) held s r held' t ↔
      ∃ a, value = some a ∧ E.Exec (k a) held s r held' t := by
  simp [exec_bind, and_assoc]

theorem exec_bind_ofExcept {value : Except ε α} :
    E.Exec ((Tx.ofExcept value).bind k) held s r held' t ↔
      ∃ a, value = .ok a ∧ E.Exec (k a) held s r held' t := by
  simp [exec_bind, and_assoc]

end Binds

/-- A loop that commits takes a property of the rounds still to come from its start to its end. -/
theorem exec_forEach {body : β → Tx σ κ ω ε Unit} {P : List β → List κ → σ → Prop} {xs : List β}
    (hbody : ∀ x rest held s held' t, P (x :: rest) held s → E.Exec (body x) held s () held' t →
      P rest held' t) {r : Unit}
    (h : E.Exec (.forEach xs body) held s r held' t) (hs : P xs held s) : P [] held' t := by
  induction xs generalizing held s with
  | nil =>
    obtain ⟨_, rfl, rfl⟩ := h
    exact hs
  | cons x xs ih =>
    obtain ⟨_, mid, u, hx, hrest⟩ := exec_bind.mp h
    exact ih hrest (hbody x xs held s mid u hs hx)

variable {body : β → Tx σ κ ω ε α}

theorem exec_traverse_nil {r : List α} :
    E.Exec (.traverse [] body) held s r held' t ↔ r = [] ∧ held = held' ∧ s = t := by
  simp only [Tx.traverse, exec_pure]
  exact and_congr_left fun _ => eq_comm

theorem exec_traverse_cons {x : β} {xs : List β}
    {r : List α} : E.Exec (.traverse (x :: xs) body) held s r held' t ↔
      ∃ a mid u as, E.Exec (body x) held s a mid u ∧ E.Exec (.traverse xs body) mid u as held' t ∧
        r = a :: as := by
  simp only [Tx.traverse, exec_bind, exec_pure]
  constructor
  · rintro ⟨a, mid, u, hx, as, mid', u', hxs, rfl, rfl, rfl⟩
    exact ⟨a, mid, u, as, hx, hxs, rfl⟩
  · rintro ⟨a, mid, u, as, hx, hxs, rfl⟩
    exact ⟨a, mid, u, hx, as, held', t, hxs, rfl, rfl, rfl⟩

theorem exec_not_failed
    (h : E.Exec p held s r held' t) : ¬p.Failed := by
  cases p with
  | throw error => exact absurd h id
  | pure value => exact id
  | peek next => exact id
  | stmt locks writes next => exact id

theorem exec_subset
    (h : E.Exec p held s r held' t) : held ⊆ held' := by
  induction p generalizing held s with
  | pure value => exact h.2.1 ▸ List.Subset.refl _
  | throw error => exact absurd h id
  | peek next ih =>
    obtain ⟨seen, _, hexec⟩ := h
    exact ih seen hexec
  | stmt locks writes next ih => exact fun l hl => ih s h (mem_append_right _ hl)

theorem run_bind (p : Tx σ κ ω ε α) (k : α → Tx σ κ ω ε β) (s : σ) :
    E.run (p.bind k) s = (E.run p s).bind fun result => E.run (k result.1) result.2 := by
  induction p generalizing s with
  | pure value => rfl
  | throw error => rfl
  | peek next ih => exact ih s s
  | stmt locks writes next ih => exact ih s _

/-- A body that runs alone can commit in the same way among others. -/
theorem exec_of_run (held : List κ)
    (h : E.run p s = .ok (r, t)) : ∃ held', E.Exec p held s r held' t := by
  induction p generalizing held s with
  | pure value =>
    simp only [run, Except.ok.injEq, Prod.mk.injEq] at h
    exact ⟨held, h.1, rfl, h.2⟩
  | throw error => simp [run] at h
  | peek next ih =>
    obtain ⟨held', hexec⟩ := ih s held h
    exact ⟨held', s, Relation.ReflTransGen.refl, hexec⟩
  | stmt locks writes next ih => exact ih s (locks s ++ held) h

variable {post : α → List κ → Prop}

theorem WellLocked.weaken {post' : α → List κ → Prop}
    (h : E.WellLocked p held post) (himp : ∀ a held', post a held' → post' a held') :
    E.WellLocked p held post' := by
  induction p generalizing held with
  | pure value => exact himp _ _ h
  | throw error => trivial
  | peek next ih => exact fun v => ih v (h v)
  | stmt locks writes next ih =>
    intro v hv
    obtain ⟨hg, hstable, hnext⟩ := h v hv
    exact ⟨hg, hstable, ih v hnext⟩

theorem WellLocked.bind
    {post : β → List κ → Prop}
    (h : E.WellLocked p held fun a held' => E.WellLocked (k a) held' post) :
    E.WellLocked (p.bind k) held post := by
  induction p generalizing held with
  | pure value => exact h
  | throw error => trivial
  | peek next ih => exact fun v => ih v (h v)
  | stmt locks writes next ih =>
    intro v hv
    have hv' : ¬(next v).Failed := by
      intro hfailed
      apply hv
      dsimp only
      cases hnext : next v with
      | throw error => trivial
      | pure value => rw [hnext] at hfailed; exact absurd hfailed id
      | peek next' => rw [hnext] at hfailed; exact absurd hfailed id
      | stmt locks' writes' next' => rw [hnext] at hfailed; exact absurd hfailed id
    obtain ⟨hg, hstable, hnext⟩ := h v hv'
    refine ⟨hg, fun v' hrely => ?_, ih v hnext⟩
    obtain ⟨hl, hw, hn⟩ := hstable v' hrely
    exact ⟨hl, hw, congrArg (Tx.bind · k) hn⟩

theorem wellLocked_perform {act : σ → Except ε (α × List ω)}
    (h : ∀ v a ws, act v = .ok (a, ws) →
      E.guarantee (locks v ++ held) v (E.applyAll ws v) ∧
      (∀ v', E.Rely (locks v ++ held) v v' → locks v' = locks v ∧ act v' = .ok (a, ws)) ∧
      post a (locks v ++ held)) :
    E.WellLocked (.perform locks act) held post := by
  intro v hv
  cases hact : act v with
  | error error =>
    simp only [hact] at hv
    exact absurd trivial hv
  | ok result =>
    obtain ⟨a, ws⟩ := result
    obtain ⟨hg, hstable, hpost⟩ := h v a ws hact
    simp only [hact]
    refine ⟨hg, fun v' hrely => ?_, hpost⟩
    obtain ⟨hl, ha⟩ := hstable v' hrely
    simp only [hl, ha, and_self]

theorem wellLocked_select {read : σ → Except ε α}
    (h : ∀ v a, read v = .ok a →
      (∀ v', E.Rely (locks v ++ held) v v' → locks v' = locks v ∧ read v' = .ok a) ∧
      post a (locks v ++ held)) :
    E.WellLocked (.select locks read : Tx σ κ ω ε α) held post := by
  apply wellLocked_perform
  intro v a ws hact
  cases hread : read v with
  | error error => simp [hread, Except.map] at hact
  | ok b =>
    simp only [hread, Except.map, Except.ok.injEq, Prod.mk.injEq] at hact
    obtain ⟨rfl, rfl⟩ := hact
    obtain ⟨hstable, hpost⟩ := h v b hread
    refine ⟨E.guarantee_refl _ _, fun v' hrely => ?_, hpost⟩
    obtain ⟨hl, hr⟩ := hstable v' hrely
    exact ⟨hl, by simp [hr, Except.map]⟩

theorem wellLocked_require {c : Prop} [Decidable c]
    {post : Unit → List κ → Prop} (h : c → post () held) :
    E.WellLocked (.require c error : Tx σ κ ω ε Unit) held post := by
  unfold Tx.require
  split_ifs with hc
  · exact h hc
  · trivial

theorem wellLocked_orThrow {value : Option α}
    (h : ∀ a, value = some a → post a held) :
    E.WellLocked (.orThrow value error : Tx σ κ ω ε α) held post := by
  cases value with
  | none => trivial
  | some a => exact h a rfl

theorem wellLocked_ofExcept {value : Except ε α}
    (h : ∀ a, value = .ok a → post a held) :
    E.WellLocked (.ofExcept value : Tx σ κ ω ε α) held post := by
  cases value with
  | error error => trivial
  | ok a => exact h a rfl

theorem wellLocked_acquire {locks : List κ} {post : Unit → List κ → Prop}
    (h : post () (locks ++ held)) : E.WellLocked (.acquire locks : Tx σ κ ω ε Unit) held post :=
  wellLocked_select fun _ _ _ => ⟨fun _ _ => ⟨rfl, rfl⟩, h⟩

theorem wellLocked_snapshot {read : σ → α}
    (h : ∀ a, post a held) : E.WellLocked (.snapshot read : Tx σ κ ω ε α) held post :=
  fun v => h (read v)

section Binds

variable {k : α → Tx σ κ ω ε β} {held : List κ} {post : β → List κ → Prop}

theorem WellLocked.require {c : Prop} [Decidable c] {error : ε} {k : Unit → Tx σ κ ω ε β}
    (h : c → E.WellLocked (k ()) held post) : E.WellLocked ((Tx.require c error).bind k) held post :=
  .bind (wellLocked_require h)

theorem WellLocked.orThrow {value : Option α} {error : ε}
    (h : ∀ a, value = some a → E.WellLocked (k a) held post) :
    E.WellLocked ((Tx.orThrow value error).bind k) held post :=
  .bind (wellLocked_orThrow h)

theorem WellLocked.ofExcept {value : Except ε α} (h : ∀ a, value = .ok a → E.WellLocked (k a) held post) :
    E.WellLocked ((Tx.ofExcept value).bind k) held post :=
  .bind (wellLocked_ofExcept h)

theorem WellLocked.snapshot {read : σ → α} (h : ∀ a, E.WellLocked (k a) held post) :
    E.WellLocked ((Tx.snapshot read).bind k) held post :=
  .bind (wellLocked_snapshot h)

end Binds

/-- Locks are only added, so a postcondition may assume those held before. -/
theorem WellLocked.grow
    (h : E.WellLocked p held post) :
    E.WellLocked p held fun a held' => held ⊆ held' ∧ post a held' := by
  induction p generalizing held with
  | pure value => exact ⟨List.Subset.refl _, h⟩
  | throw error => trivial
  | peek next ih => exact fun v => ih v (h v)
  | stmt locks writes next ih =>
    intro v hv
    obtain ⟨hg, hstable, hnext⟩ := h v hv
    refine ⟨hg, hstable, (ih v hnext).weaken fun a held' hpost => ⟨?_, hpost.2⟩⟩
    exact fun l hl => hpost.1 (mem_append_right _ hl)

/-- Sequencing: the rest runs with at least the locks held before. -/
theorem WellLocked.andThen
    {mid : α → List κ → Prop} {post : β → List κ → Prop} (h : E.WellLocked p held mid)
    (hk : ∀ a held', held ⊆ held' → mid a held' → E.WellLocked (k a) held' post) :
    E.WellLocked (p.bind k) held post :=
  (h.grow.weaken fun a held' hpost => hk a held' hpost.1 hpost.2).bind

theorem WellLocked.respond {mid : α → List κ → Prop} {f : α → β} (h : E.WellLocked p held mid) :
    E.WellLocked (p.bind fun a => .pure (f a)) held fun _ _ => True :=
  h.andThen fun _ _ _ _ => trivial

theorem wellLocked_traverse (xs : List β)
    (hbody : ∀ x ∈ xs, ∀ held', held ⊆ held' →
      E.WellLocked (body x) held' fun _ _ => True) :
    E.WellLocked (.traverse xs body) held fun _ _ => True := by
  induction xs generalizing held with
  | nil => trivial
  | cons x xs ih =>
    apply WellLocked.andThen (hbody x mem_cons_self held (List.Subset.refl _))
    intro a held' hsub _
    apply WellLocked.andThen (ih fun y hy held'' hsub' =>
      hbody y (mem_cons_of_mem x hy) held'' (List.Subset.trans hsub hsub'))
    intro as held'' _ _
    trivial

/-- A loop keeps a lock invariant that each round keeps. -/
theorem wellLocked_forEach {body : β → Tx σ κ ω ε Unit} {I : List κ → Prop} (xs : List β)
    (hbody : ∀ x ∈ xs, ∀ held, I held → E.WellLocked (body x) held fun _ held' => I held')
    (h : I held) :
    E.WellLocked (.forEach xs body) held fun _ held' => I held' := by
  induction xs generalizing held with
  | nil => exact h
  | cons x xs ih =>
    apply WellLocked.bind
    apply (hbody x mem_cons_self held h).weaken
    intro _ held' hinv
    exact ih (fun y hy => hbody y (mem_cons_of_mem x hy)) hinv

/-- A commit of a well-locked body changes only what the locks it ends with allow. -/
theorem exec_guarantee
    (hp : E.WellLocked p held post) (h : E.Exec p held s r held' t) :
    E.guarantee held' s t ∧ held ⊆ held' ∧ post r held' := by
  induction p generalizing held s with
  | pure value =>
    obtain ⟨rfl, rfl, rfl⟩ := h
    exact ⟨E.guarantee_refl _ _, List.Subset.refl _, hp⟩
  | throw error => exact absurd h id
  | peek next ih =>
    obtain ⟨seen, _, hexec⟩ := h
    exact ih seen (hp seen) hexec
  | stmt locks writes next ih =>
    obtain ⟨hg, _, hnext⟩ := hp s (exec_not_failed h)
    obtain ⟨hrest, hsub, hpost⟩ := ih s hnext h
    refine ⟨E.guarantee_trans (E.guarantee_mono hsub hg) hrest, ?_, hpost⟩
    exact fun a ha => hsub (mem_append_right _ ha)

end Rules

end Engine

end AgentGovernor.Transaction
