import Mathlib.Data.List.Basic

/-! Texts made of fields. A kind of text is readable if the value it stands for, and whatever follows it,
can be read back; readable texts compose. -/

namespace AgentGovernor.Text

open List

variable {α β : Type} {P : α → Prop} {Q : β → Prop} {text : α → List Char} {text' : β → List Char}

/-- The value and what follows it can be read back. -/
def Readable (P : α → Prop) (text : α → List Char) : Prop :=
  ∀ a b rest rest', P a → P b → text a ++ rest = text b ++ rest' → a = b ∧ rest = rest'

/-- Two texts that agree are split at the first occurrence of a character in the same way. -/
theorem split_at_first {c : Char} {left right rest rest' : List Char} (hleft : c ∉ left)
    (hright : c ∉ right) (h : left ++ c :: rest = right ++ c :: rest') :
    left = right ∧ rest = rest' := by
  induction left generalizing right with
  | nil =>
    cases right with
    | nil => exact ⟨rfl, (List.cons.inj h).2⟩
    | cons x right => exact absurd (mem_cons.mpr (Or.inl (List.cons.inj h).1)) hright
  | cons x left ih =>
    cases right with
    | nil => exact absurd (mem_cons.mpr (Or.inl (List.cons.inj h).1.symm)) hleft
    | cons y right =>
      rw [mem_cons, not_or] at hleft hright
      obtain ⟨hhead, htail⟩ := List.cons.inj h
      obtain ⟨rfl, hrest⟩ := ih hleft.2 hright.2 htail
      exact ⟨by rw [hhead], hrest⟩

namespace Readable

theorem injective (h : Readable P text) {a b : α} (ha : P a) (hb : P b) (heq : text a = text b) :
    a = b :=
  (h a b [] [] ha hb (by rw [heq])).1

theorem of_length {n : Nat} (hlength : ∀ a, P a → (text a).length = n)
    (hinj : ∀ a b, P a → P b → text a = text b → a = b) : Readable P text := by
  intro a b rest rest' ha hb heq
  obtain ⟨htext, hrest⟩ := append_inj heq (by rw [hlength a ha, hlength b hb])
  exact ⟨hinj a b ha hb htext, hrest⟩

/-- A field that ends at the first character of a kind. -/
theorem ended {c : Char} (hfree : ∀ a, P a → c ∉ text a)
    (hinj : ∀ a b, P a → P b → text a = text b → a = b) : Readable P fun a => text a ++ [c] := by
  intro a b rest rest' ha hb heq
  simp only [append_assoc, singleton_append] at heq
  obtain ⟨htext, hrest⟩ := split_at_first (hfree a ha) (hfree b hb) heq
  exact ⟨hinj a b ha hb htext, hrest⟩

/-- A fixed text before it. -/
theorem after (lead : List Char) (h : Readable P text) : Readable P fun a => lead ++ text a := by
  intro a b rest rest' ha hb heq
  simp only [append_assoc] at heq
  exact h a b rest rest' ha hb (append_cancel_left heq)

theorem pair (h : Readable P text) (h' : Readable Q text') :
    Readable (fun p : α × β => P p.1 ∧ Q p.2) fun p => text p.1 ++ text' p.2 := by
  rintro ⟨a, b⟩ ⟨a', b'⟩ rest rest' ⟨ha, hb⟩ ⟨ha', hb'⟩ heq
  simp only [append_assoc] at heq
  obtain ⟨rfl, htail⟩ := h a a' _ _ ha ha' heq
  obtain ⟨rfl, hrest⟩ := h' b b' rest rest' hb hb' htail
  exact ⟨rfl, hrest⟩

theorem comap {γ : Type} (h : Readable P text) (f : γ → α) (hinj : Function.Injective f) :
    Readable (fun c => P (f c)) fun c => text (f c) := by
  intro a b rest rest' ha hb heq
  obtain ⟨hvalue, hrest⟩ := h _ _ rest rest' ha hb heq
  exact ⟨hinj hvalue, hrest⟩

/-- A list whose elements begin with one character and are separated by another, up to a third. -/
theorem list (separator : Char) {start stop : Char} (h : Readable P text) (hstart : start ≠ stop)
    (hseparator : separator ≠ stop) (hhead : ∀ a, P a → ∃ tail, text a = start :: tail) :
    Readable (fun as : List α => ∀ a ∈ as, P a) fun as => [separator].intercalate (as.map text) ++ [stop] := by
  intro as bs rest rest' has hbs heq
  induction as generalizing bs with
  | nil =>
    cases bs with
    | nil => exact ⟨rfl, by simpa using heq⟩
    | cons b bs =>
      obtain ⟨tail, htext⟩ := hhead b (hbs b mem_cons_self)
      cases bs <;> simp [List.intercalate, htext] at heq <;> exact absurd heq.1.symm hstart
  | cons a as ih =>
    obtain ⟨tail, htext⟩ := hhead a (has a mem_cons_self)
    cases bs with
    | nil => cases as <;> simp [List.intercalate, htext] at heq <;> exact absurd heq.1 hstart
    | cons b bs =>
      have ha := has a mem_cons_self
      have hb := hbs b mem_cons_self
      have htail : ∀ x ∈ as, P x := fun x hx => has x (mem_cons_of_mem _ hx)
      have htail' : ∀ x ∈ bs, P x := fun x hx => hbs x (mem_cons_of_mem _ hx)
      cases as with
      | nil =>
        cases bs with
        | nil =>
          simp only [map_cons, map_nil, intercalate_singleton,
            append_assoc] at heq
          obtain ⟨rfl, hrest⟩ := h a b _ _ ha hb heq
          exact ⟨rfl, (List.cons.inj hrest).2⟩
        | cons b' bs =>
          simp only [map_cons, map_nil, intercalate_singleton,
            intercalate_cons_cons, append_assoc] at heq
          obtain ⟨_, hrest⟩ := h a b _ _ ha hb heq
          exact absurd (List.cons.inj hrest).1.symm hseparator
      | cons a' as =>
        cases bs with
        | nil =>
          simp only [map_cons, map_nil, intercalate_singleton,
            intercalate_cons_cons, append_assoc] at heq
          obtain ⟨_, hrest⟩ := h a b _ _ ha hb heq
          exact absurd (List.cons.inj hrest).1 hseparator
        | cons b' bs =>
          simp only [map_cons, intercalate_cons_cons, append_assoc] at heq
          obtain ⟨rfl, hrest⟩ := h a b _ _ ha hb heq
          have hlater := (List.cons.inj hrest).2
          rw [← map_cons, ← map_cons] at hlater
          obtain ⟨hsame, hrest⟩ := ih (b' :: bs) htail htail' (by
            rw [append_assoc, append_assoc]
            exact hlater)
          exact ⟨by rw [hsame], hrest⟩

end Readable

/-! ### Numbers -/

theorem toList_toString_nat (n : Nat) : (toString n).toList = Nat.toDigits 10 n := Nat.toList_repr

theorem toList_toString_negSucc (n : Nat) :
    (toString (Int.negSucc n)).toList = '-' :: (toString (n + 1)).toList := by
  rw [show toString (Int.negSucc n) = "-" ++ toString (n + 1) from rfl, String.toList_append]
  rfl

theorem not_mem_toString_nat {c : Char} (hc : c.isDigit = false) (n : Nat) :
    c ∉ (toString n).toList := by
  intro hmem
  rw [toList_toString_nat] at hmem
  have hdigit := Nat.isDigit_of_mem_toDigits (by decide) (by decide) hmem
  rw [hc] at hdigit
  cases hdigit

theorem not_mem_toString_int {c : Char} (hc : c.isDigit = false) (hminus : c ≠ '-') (n : Int) :
    c ∉ (toString n).toList := by
  cases n with
  | ofNat n => exact not_mem_toString_nat hc n
  | negSucc n =>
    rw [toList_toString_negSucc, mem_cons]
    exact fun hmem => hmem.elim hminus (not_mem_toString_nat hc (n + 1))

theorem toString_nat_inj {m n : Nat} (h : (toString m).toList = (toString n).toList) : m = n := by
  rw [toList_toString_nat, toList_toString_nat] at h
  rw [← @Nat.ofDigitChars_ten_toDigits m, h, Nat.ofDigitChars_ten_toDigits]

theorem toString_int_inj {m n : Int} (h : (toString m).toList = (toString n).toList) : m = n := by
  -- A minus sign is no digit, so the signs agree.
  have hsign : ∀ m n : Nat, (toString (Int.ofNat m)).toList ≠ (toString (Int.negSucc n)).toList := by
    intro m n heq
    have hmem : '-' ∈ (toString (Int.ofNat m)).toList := by
      rw [heq, toList_toString_negSucc]
      exact mem_cons_self
    exact not_mem_toString_nat (by decide) m hmem
  cases m with
  | ofNat m =>
    cases n with
    | ofNat n => exact congrArg Int.ofNat (toString_nat_inj h)
    | negSucc n => exact absurd h (hsign m n)
  | negSucc m =>
    cases n with
    | ofNat n => exact absurd h.symm (hsign n m)
    | negSucc n =>
      rw [toList_toString_negSucc, toList_toString_negSucc] at h
      have hsucc := toString_nat_inj (List.cons.inj h).2
      exact congrArg Int.negSucc (by omega)

/-- A number up to a mark. -/
theorem Readable.int {c : Char} (hc : c.isDigit = false) (hminus : c ≠ '-') :
    Readable (fun _ : Int => True) fun n => (toString n).toList ++ [c] :=
  ended (fun n _ => not_mem_toString_int hc hminus n) fun _ _ _ _ heq => toString_int_inj heq

theorem Readable.nat {c : Char} (hc : c.isDigit = false) :
    Readable (fun _ : Nat => True) fun n => (toString n).toList ++ [c] :=
  ended (fun n _ => not_mem_toString_nat hc n) fun _ _ _ _ heq => toString_nat_inj heq

end AgentGovernor.Text
