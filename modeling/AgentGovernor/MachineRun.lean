import Mathlib.Data.List.Induction

/-! Machines that take one call at a time. A machine is a step function on states and calls; what holds in
every state that calls lead to, and which call of a sequence last brought something about, are shown by
induction on the sequence. -/

namespace AgentGovernor.Machine

open List

variable {σ ι ο α : Type}

/-- The state that calls lead to. -/
def after (step : σ → ι → ο × σ) (s : σ) (calls : List ι) : σ := calls.foldl (fun s c => (step s c).2) s

variable {step : σ → ι → ο × σ}

theorem after_append (s : σ) (calls more : List ι) :
    after step s (calls ++ more) = after step (after step s calls) more := foldl_append

@[simp] theorem after_concat (s : σ) (calls : List ι) (c : ι) :
    after step s (calls ++ [c]) = (step (after step s calls) c).2 := after_append s calls [c]

/-- A property that every call keeps holds in every state they lead to. -/
theorem invariant {P : σ → Prop} (hstep : ∀ s c, P s → P (step s c).2) {s : σ} (hs : P s) (calls : List ι) :
    P (after step s calls) := by
  induction calls using List.reverseRecOn with
  | nil => exact hs
  | append_singleton calls c ih =>
    rw [after_concat]
    exact hstep _ c ih

/-- A preorder that every call respects relates a state with those that calls lead to. -/
theorem relates {R : σ → σ → Prop} (hrefl : ∀ s, R s s) (htrans : ∀ s t u, R s t → R t u → R s u)
    (hstep : ∀ s c, R s (step s c).2) (s : σ) (calls : List ι) : R s (after step s calls) :=
  invariant (P := R s) (fun t c ht => htrans s t _ ht (hstep t c)) (hrefl s) calls

/-- A property that no longer holds was ended by one of the calls. -/
theorem ended {P : σ → Prop} {s : σ} (hs : P s) {calls : List ι} (h : ¬P (after step s calls)) :
    ∃ calls₁ c calls₂, calls = calls₁ ++ c :: calls₂ ∧ P (after step s calls₁) ∧
      ¬P (step (after step s calls₁) c).2 := by
  induction calls using List.reverseRecOn with
  | nil => exact absurd hs h
  | append_singleton calls c ih =>
    rw [after_concat] at h
    by_cases hearlier : P (after step s calls)
    · exact ⟨calls, c, [], rfl, hearlier, h⟩
    · obtain ⟨calls₁, c', calls₂, rfl, hbefore, hafter⟩ := ih hearlier
      exact ⟨calls₁, c', calls₂ ++ [c], by simp, hbefore, hafter⟩

/-- An element of a list with one more at its end is that one or one of the others. -/
theorem split_concat {l l₁ l₂ : List ι} {c x : ι} (h : l ++ [c] = l₁ ++ x :: l₂) :
    (l = l₁ ∧ c = x) ∨ ∃ front, l = l₁ ++ x :: front := by
  rcases eq_nil_or_concat l₂ with rfl | ⟨front, last, hlast⟩
  · obtain ⟨rfl, hc⟩ := append_inj' h rfl
    cases hc
    exact Or.inl ⟨rfl, rfl⟩
  · rw [hlast, concat_eq_append, ← cons_append, ← append_assoc] at h
    exact Or.inr ⟨front, (append_inj' h rfl).1⟩

/-- What only some calls write is as at first, or as the last of these calls wrote it. -/
theorem last_write (read : σ → α) (written : σ → ι → Option α)
    (hstep : ∀ s c, read (step s c).2 = (written s c).getD (read s)) (s : σ) (calls : List ι) :
    (read (after step s calls) = read s ∧
      ∀ calls₁ c calls₂, calls = calls₁ ++ c :: calls₂ → written (after step s calls₁) c = none) ∨
    ∃ calls₁ c calls₂, calls = calls₁ ++ c :: calls₂ ∧
      written (after step s calls₁) c = some (read (after step s calls)) ∧
      ∀ more₁ c' more₂, calls₂ = more₁ ++ c' :: more₂ →
        written (after step s (calls₁ ++ c :: more₁)) c' = none := by
  induction calls using List.reverseRecOn with
  | nil => exact Or.inl ⟨rfl, fun calls₁ c calls₂ h => absurd h (by simp)⟩
  | append_singleton calls c ih =>
    rw [after_concat, hstep]
    cases hwritten : written (after step s calls) c with
    | some a =>
      refine Or.inr ⟨calls, c, [], rfl, by rw [hwritten]; rfl, fun more₁ c' more₂ h => ?_⟩
      exact absurd h (by simp)
    | none =>
      rw [Option.getD_none]
      rcases ih with ⟨hread, hnone⟩ | ⟨calls₁, c', calls₂, rfl, hlast, hnone⟩
      · refine Or.inl ⟨hread, fun calls₁ c' calls₂ h => ?_⟩
        rcases split_concat h with ⟨rfl, rfl⟩ | ⟨front, rfl⟩
        · exact hwritten
        · exact hnone calls₁ c' front rfl
      · refine Or.inr ⟨calls₁, c', calls₂ ++ [c], by simp, hlast, fun more₁ c'' more₂ h => ?_⟩
        rcases split_concat h with ⟨rfl, rfl⟩ | ⟨front, rfl⟩
        · exact hwritten
        · exact hnone more₁ c'' front rfl

end AgentGovernor.Machine
