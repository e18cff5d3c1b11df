import AgentGovernor.LedgerStatement

/-! Bodies alone on a database. `Succeeds` says that a body gets through; its rules take a body apart into
the conditions under which each of its statements does. What a statement leaves is known from its commits,
since a body that runs alone also commits. -/

namespace AgentGovernor.Transaction.Engine

variable {σ κ ω ε α β : Type} {E : Engine σ κ ω} {s u : σ}

/-- The body gets through alone. -/
def Succeeds (E : Engine σ κ ω) (p : Tx σ κ ω ε α) (s : σ) : Prop := ∃ a t, E.run p s = .ok (a, t)

theorem succeeds_pure (a : α) : E.Succeeds (.pure a : Tx σ κ ω ε α) s := ⟨a, s, rfl⟩

variable {a : α} {p : Tx σ κ ω ε α}

theorem succeeds_of_run (h : E.run p s = .ok (a, u)) : E.Succeeds p s :=
  ⟨a, u, h⟩

variable {k : α → Tx σ κ ω ε β}

/-- A first part that gets through hands over to the rest. -/
theorem run_bind_of_run
    (h : E.run p s = .ok (a, u)) : E.run (p.bind k) s = E.run (k a) u := by
  rw [run_bind, h]
  rfl

theorem succeeds_bind_of_run
    (h : E.run p s = .ok (a, u)) : E.Succeeds (p.bind k) s ↔ E.Succeeds (k a) u := by
  unfold Succeeds
  rw [run_bind_of_run h]

theorem succeeds_bind :
    E.Succeeds (p.bind k) s ↔ ∃ a u, E.run p s = .ok (a, u) ∧ E.Succeeds (k a) u := by
  cases hrun : E.run p s with
  | error error =>
    constructor
    · rintro ⟨b, t, h⟩
      rw [run_bind, hrun] at h
      cases h
    · rintro ⟨a, u, h, _⟩
      cases h
  | ok result =>
    obtain ⟨a, u⟩ := result
    rw [succeeds_bind_of_run hrun]
    constructor
    · exact fun h => ⟨a, u, rfl, h⟩
    · rintro ⟨_, _, h, hrest⟩
      cases h
      exact hrest

/-- The condition of the first part, then that of the rest wherever the first part leads. -/
theorem succeeds_bind_iff {C D : Prop}
    (hp : E.Succeeds p s ↔ C)
    (hk : ∀ a u, E.run p s = .ok (a, u) → (E.Succeeds (k a) u ↔ D)) :
    E.Succeeds (p.bind k) s ↔ C ∧ D := by
  rw [succeeds_bind, ← hp]
  constructor
  · rintro ⟨a, u, hrun, hrest⟩
    exact ⟨⟨a, u, hrun⟩, (hk a u hrun).mp hrest⟩
  · rintro ⟨⟨a, u, hrun⟩, hd⟩
    exact ⟨a, u, hrun, (hk a u hrun).mpr hd⟩

theorem run_snapshot (read : σ → β) : E.run (.snapshot read : Tx σ κ ω ε β) s = .ok (read s, s) := rfl

variable {c : Prop} {error : ε}

/-- Alone, the body fails in these ways only. -/
def Fails (E : Engine σ κ ω) (Q : ε → Prop) (p : Tx σ κ ω ε α) (s : σ) : Prop :=
  ∀ e, E.run p s = .error e → Q e

variable {Q : ε → Prop}

theorem Fails.bind (h : E.Fails Q p s) (hk : ∀ a u, E.run p s = .ok (a, u) → E.Fails Q (k a) u) :
    E.Fails Q (p.bind k) s := by
  intro e hrun
  rw [run_bind] at hrun
  cases hp : E.run p s with
  | error error =>
    rw [hp] at hrun
    cases hrun
    exact h _ hp
  | ok result =>
    rw [hp] at hrun
    exact hk result.1 result.2 hp e hrun

theorem fails_bind_of_run (h : E.run p s = .ok (a, u)) (hk : E.Fails Q (k a) u) : E.Fails Q (p.bind k) s := by
  unfold Fails
  rw [run_bind_of_run h]
  exact hk

theorem fails_bind_require [Decidable c] {k : Unit → Tx σ κ ω ε β} (h : Q error)
    (hk : c → E.Fails Q (k ()) s) : E.Fails Q ((Tx.require c error).bind k) s := by
  unfold Tx.require
  split_ifs with hc
  · exact hk hc
  · rintro _ ⟨⟩
    exact h

theorem fails_bind_ofExcept {value : Except ε α} (h : ∀ e, value = .error e → Q e)
    (hk : ∀ a, value = .ok a → E.Fails Q (k a) s) : E.Fails Q ((Tx.ofExcept value).bind k) s := by
  cases value with
  | error error =>
    rintro _ ⟨⟩
    exact h _ rfl
  | ok a => exact hk a rfl

theorem run_require [Decidable c] (h : c) :
    E.run (.require c error : Tx σ κ ω ε Unit) s = .ok ((), s) := by
  rw [Tx.require, if_pos h]
  rfl

theorem succeeds_require [Decidable c] :
    E.Succeeds (.require c error : Tx σ κ ω ε Unit) s ↔ c := by
  unfold Tx.require
  split_ifs with h
  · exact iff_of_true (succeeds_pure ()) h
  · refine iff_of_false ?_ h
    rintro ⟨_, _, hrun⟩
    cases hrun

theorem run_require_eq [Decidable c] {a : Unit}
    (h : E.run (.require c error : Tx σ κ ω ε Unit) s = .ok (a, u)) : u = s := by
  unfold Tx.require at h
  split_ifs at h
  · cases h
    rfl
  · cases h

theorem run_traverse {body : β → Tx σ κ ω ε α} {f : β → α} {xs : List β}
    (h : ∀ x ∈ xs, E.run (body x) s = .ok (f x, s)) :
    E.run (.traverse xs body) s = .ok (xs.map f, s) := by
  induction xs with
  | nil => rfl
  | cons x xs ih =>
    rw [Tx.traverse, run_bind_of_run (h x List.mem_cons_self),
      run_bind_of_run (ih fun y hy => h y (List.mem_cons_of_mem x hy))]
    rfl

/-- A loop gets through when each round does, as long as the rounds keep what the later ones depend on. -/
theorem succeeds_forEach {body : β → Tx σ κ ω ε Unit} {P : List β → σ → Prop} {C : β → Prop}
    (hround : ∀ x rest u, P (x :: rest) u → (E.Succeeds (body x) u ↔ C x) ∧
      ∀ a v, E.run (body x) u = .ok (a, v) → P rest v)
    {xs : List β} (hs : P xs s) : E.Succeeds (.forEach xs body) s ↔ ∀ x ∈ xs, C x := by
  induction xs generalizing s with
  | nil => exact iff_of_true (succeeds_pure ()) fun x hx => absurd hx List.not_mem_nil
  | cons x xs ih =>
    obtain ⟨hx, hnext⟩ := hround x xs s hs
    rw [Tx.forEach, succeeds_bind_iff hx fun a u hrun => ih (hnext a u hrun), List.forall_mem_cons]

end AgentGovernor.Transaction.Engine

namespace AgentGovernor.Ledger.Handle

open Transaction Engine

variable {σ Lock ω ε α κ ρ : Type} [DecidableEq κ] [Guarded ρ Lock] {E : Engine σ Lock ω}
  {key : ρ → κ} {H : Handle E key} {locks : List Lock} {k : κ} {s : σ}

theorem run_read {check : Option ρ → Except ε α} {a : α} (h : check ((H.table s).get k) = .ok a) :
    E.run (H.read locks k check) s = .ok (a, s) := by
  simp only [read, Tx.select, Tx.perform, Engine.run, h, Except.map]
  rfl

theorem run_lock {check : ρ → Except ε α} {missing : ε} {r : ρ} {a : α}
    (hr : (H.table s).get k = some r) (h : check r = .ok a) :
    E.run (H.lock locks k check missing) s = .ok (a, s) :=
  run_read (by rw [hr]; exact h)

theorem run_update_error {change : ρ → Except ε (α × ρ)} {missing error : ε} {r : ρ}
    (hr : (H.table s).get k = some r) (h : change r = .error error) :
    E.run (H.update locks k change missing) s = .error error := by
  simp only [update, upsert, Tx.perform, Engine.run, hr, h]

theorem succeeds_update {change : ρ → Except ε (α × ρ)} {missing : ε} {r : ρ}
    (hr : (H.table s).get k = some r) :
    E.Succeeds (H.update locks k change missing) s ↔ ∃ result, change r = .ok result := by
  constructor
  · rintro ⟨a, t, hrun⟩
    obtain ⟨_, hexec⟩ := exec_of_run [] hrun
    obtain ⟨old, r', hold, hchange, _⟩ := exec_update.mp hexec
    cases hr.symm.trans hold
    exact ⟨_, hchange⟩
  · rintro ⟨⟨a, r'⟩, hchange⟩
    exact ⟨a, _, run_update hr hchange⟩

theorem succeeds_upsertWhere {change : Option ρ → Except ε (α × Option ρ)} :
    E.Succeeds (H.upsertWhere locks k change) s ↔ ∃ result, change ((H.table s).get k) = .ok result := by
  constructor
  · rintro ⟨a, t, hrun⟩
    obtain ⟨_, hexec⟩ := exec_of_run [] hrun
    obtain ⟨row, hchange, _⟩ := exec_upsertWhere.mp hexec
    exact ⟨_, hchange⟩
  · rintro ⟨⟨a, row⟩, hchange⟩
    cases row <;> simp [Succeeds, upsertWhere, Tx.perform, Engine.run, hchange]

theorem run_insert {row : ρ} {clash : ρ → Bool} {error : ε}
    (h : ∀ r ∈ (H.table s).rows, clash r = false) :
    E.run (H.insert locks row clash error) s = .ok ((), E.apply (H.write row) s) := by
  have hnone : ¬(H.table s).rows.any clash = true := by
    rw [List.any_eq_true]
    rintro ⟨r, hr, hclash⟩
    rw [h r hr] at hclash
    cases hclash
  simp only [insert, Tx.perform, Engine.run, if_neg hnone]
  rfl

theorem succeeds_insert {row : ρ} {clash : ρ → Bool} {error : ε} :
    E.Succeeds (H.insert locks row clash error) s ↔ ∀ r ∈ (H.table s).rows, clash r = false := by
  constructor
  · rintro ⟨a, t, hrun⟩
    obtain ⟨_, hexec⟩ := exec_of_run [] hrun
    exact (exec_insert.mp hexec).1
  · exact fun h => succeeds_of_run (run_insert h)

end AgentGovernor.Ledger.Handle
