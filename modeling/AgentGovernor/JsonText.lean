import AgentGovernor.TextFields
import Mathlib.Data.List.TakeWhile
import Mathlib.Tactic.SplitIfs

/-! JSON values and their compact text. Members stand in the order in which they are written, strings are
escaped as Go escapes them for use within HTML. The text of a value is told apart from what follows it, so a
text has one value. -/

namespace AgentGovernor

open List

/-- The characters of numbers. -/
def numberChar (c : Char) : Bool := c.isDigit || c = '-' || c = '+' || c = '.' || c = 'e' || c = 'E'

/-- The text of a number, kept as it was written. -/
structure NumberText where
  text : String
  nonempty : text.toList ≠ []
  chars : text.toList.all numberChar = true
  deriving DecidableEq

namespace NumberText

theorem numberChar_toString {n : Nat} {c : Char} (h : c ∈ (toString n).toList) : numberChar c = true := by
  rw [Text.toList_toString_nat] at h
  simp [numberChar, Nat.isDigit_of_mem_toDigits (by decide) (by decide) h]

/-- The decimal text of an integer. -/
def ofInt (n : Int) : NumberText where
  text := toString n
  nonempty := by
    cases n with
    | ofNat n => exact (Text.toList_toString_nat n).trans_ne Nat.toDigits_ne_nil
    | negSucc n =>
      rw [Text.toList_toString_negSucc]
      exact cons_ne_nil _ _
  chars := by
    rw [List.all_eq_true]
    cases n with
    | ofNat n => exact fun c hc => numberChar_toString hc
    | negSucc n =>
      rw [Text.toList_toString_negSucc]
      exact forall_mem_cons.mpr ⟨rfl, fun c hc => numberChar_toString hc⟩

end NumberText

inductive Json where
  | null
  | bool (value : Bool)
  | number (text : NumberText)
  | string (text : String)
  | array (items : List Json)
  | object (members : List (String × Json))

namespace Json

def hexDigit (n : Nat) : Char := if n < 10 then Char.ofNat (48 + n) else Char.ofNat (87 + n)

/-- A `\u` escape. -/
def unicodeEscape (n : Nat) : List Char :=
  ['\\', 'u', hexDigit (n / 4096 % 16), hexDigit (n / 256 % 16), hexDigit (n / 16 % 16), hexDigit (n % 16)]

def escape (c : Char) : List Char :=
  if c = '"' then ['\\', '"']
  else if c = '\\' then ['\\', '\\']
  else if c = '\x08' then ['\\', 'b']
  else if c = '\x0c' then ['\\', 'f']
  else if c = '\n' then ['\\', 'n']
  else if c = '\r' then ['\\', 'r']
  else if c = '\t' then ['\\', 't']
  else if c.toNat < 32 ∨ c = '<' ∨ c = '>' ∨ c = '&' ∨ c.toNat = 8232 ∨ c.toNat = 8233 then
    unicodeEscape c.toNat
  else [c]

/-- A string and its closing quotation mark. -/
def quoted (text : List Char) : List Char := text.flatMap escape ++ ['"']

mutual

def chars : Json → List Char
  | .null => ['n', 'u', 'l', 'l']
  | .bool true => ['t', 'r', 'u', 'e']
  | .bool false => ['f', 'a', 'l', 's', 'e']
  | .number n => n.text.toList
  | .string s => '"' :: quoted s.toList
  | .array [] => ['[', ']']
  | .array (item :: items) => '[' :: (chars item ++ moreItems items)
  | .object [] => ['\x7b', '\x7d']
  | .object ((name, value) :: members) =>
    '\x7b' :: '"' :: (quoted name.toList ++ ':' :: (chars value ++ moreMembers members))

/-- The items after one, and the closing bracket. -/
def moreItems : List Json → List Char
  | [] => [']']
  | item :: items => ',' :: (chars item ++ moreItems items)

def moreMembers : List (String × Json) → List Char
  | [] => ['\x7d']
  | (name, value) :: members =>
    ',' :: '"' :: (quoted name.toList ++ ':' :: (chars value ++ moreMembers members))

end

def encode (j : Json) : String := String.ofList j.chars

/-! ### Strings -/

def hexValue (c : Char) : Nat := if c.toNat < 58 then c.toNat - 48 else c.toNat - 87

/-- The first character of an escaped text. -/
def unescape : List Char → Option (Char × List Char)
  | '\\' :: 'u' :: a :: b :: c :: d :: rest =>
    some (Char.ofNat (hexValue a * 4096 + hexValue b * 256 + hexValue c * 16 + hexValue d), rest)
  | '\\' :: 'b' :: rest => some ('\x08', rest)
  | '\\' :: 'f' :: rest => some ('\x0c', rest)
  | '\\' :: 'n' :: rest => some ('\n', rest)
  | '\\' :: 'r' :: rest => some ('\r', rest)
  | '\\' :: 't' :: rest => some ('\t', rest)
  | '\\' :: c :: rest => some (c, rest)
  | c :: rest => some (c, rest)
  | [] => none

theorem hexValue_hexDigit : ∀ n < 16, hexValue (hexDigit n) = n := by decide

theorem unescape_unicodeEscape {n : Nat} (h : n < 65536) (rest : List Char) :
    unescape (unicodeEscape n ++ rest) = some (Char.ofNat n, rest) := by
  have hvalue : n / 4096 % 16 * 4096 + n / 256 % 16 * 256 + n / 16 % 16 * 16 + n % 16 = n := by omega
  simp only [unicodeEscape, cons_append, nil_append, unescape]
  rw [hexValue_hexDigit _ (Nat.mod_lt _ (by decide)), hexValue_hexDigit _ (Nat.mod_lt _ (by decide)),
    hexValue_hexDigit _ (Nat.mod_lt _ (by decide)), hexValue_hexDigit _ (Nat.mod_lt _ (by decide)), hvalue]

theorem unescape_escape (c : Char) (rest : List Char) : unescape (escape c ++ rest) = some (c, rest) := by
  unfold escape
  split_ifs with hquote hbackslash hb hf hn hr ht hunicode
  · rw [hquote]; rfl
  · rw [hbackslash]; rfl
  · rw [hb]; rfl
  · rw [hf]; rfl
  · rw [hn]; rfl
  · rw [hr]; rfl
  · rw [ht]; rfl
  · rw [unescape_unicodeEscape, Char.ofNat_toNat]
    rcases hunicode with h | rfl | rfl | rfl | h | h
    · omega
    · decide
    · decide
    · decide
    · omega
    · omega
  · rw [singleton_append, unescape.eq_def]
    split <;> simp_all

theorem escape_ne_quote (c : Char) (s t : List Char) : escape c ++ s ≠ '"' :: t := by
  unfold escape unicodeEscape
  split_ifs with hquote <;> simp [hquote]

variable {s t : List Char}

/-- A string ends with the quotation mark that closes it. -/
theorem quoted_inj {cs ds : List Char} (h : quoted cs ++ s = quoted ds ++ t) : cs = ds ∧ s = t := by
  simp only [quoted, append_assoc, singleton_append] at h
  induction cs generalizing ds with
  | nil =>
    cases ds with
    | nil => exact ⟨rfl, tail_eq_of_cons_eq h⟩
    | cons d ds =>
      rw [flatMap_cons, append_assoc] at h
      exact absurd h.symm (escape_ne_quote _ _ _)
  | cons c cs ih =>
    rw [flatMap_cons, append_assoc] at h
    cases ds with
    | nil => exact absurd h (escape_ne_quote _ _ _)
    | cons d ds =>
      rw [flatMap_cons, append_assoc] at h
      have hfirst := congrArg unescape h
      rw [unescape_escape, unescape_escape] at hfirst
      obtain ⟨rfl, hrest⟩ := Prod.mk.inj (Option.some.inj hfirst)
      obtain ⟨rfl, hst⟩ := ih hrest
      exact ⟨rfl, hst⟩

/-! ### Numbers -/

/-- What follows a number does not continue it. -/
def Closed (s : List Char) : Prop := ∀ c ∈ s.head?, numberChar c = false

theorem closed_nil : Closed [] := fun _ h => nomatch h

variable {c : Char}

theorem closed_cons (h : numberChar c = false) : Closed (c :: s) := by
  intro c' hc'
  cases hc'
  exact h

theorem takeWhile_number (n : NumberText) (hs : Closed s) :
    (n.text.toList ++ s).takeWhile numberChar = n.text.toList := by
  rw [takeWhile_append_of_pos (List.all_eq_true.mp n.chars)]
  cases s with
  | nil => simp
  | cons c s => rw [takeWhile_cons, hs c rfl, if_neg Bool.false_ne_true, append_nil]

theorem number_inj {m n : NumberText} (hs : Closed s) (ht : Closed t)
    (h : m.text.toList ++ s = n.text.toList ++ t) : m = n ∧ s = t := by
  have htext : m.text.toList = n.text.toList := by
    rw [← takeWhile_number m hs, h, takeWhile_number n ht]
  refine ⟨?_, append_cancel_left (htext ▸ h)⟩
  cases m
  cases n
  cases String.toList_injective htext
  rfl

theorem number_ne (n : NumberText) (hc : numberChar c = false) (s t : List Char) :
    n.text.toList ++ s ≠ c :: t := by
  have hchars := n.chars
  intro h
  cases htext : n.text.toList with
  | nil => exact n.nonempty htext
  | cons d ds =>
    rw [htext] at h hchars
    cases h
    rw [all_cons, hc] at hchars
    cases hchars

/-! ### Values -/

theorem induction {P : Json → Prop} (hnull : P .null) (hbool : ∀ b, P (.bool b)) (hnumber : ∀ n, P (.number n))
    (hstring : ∀ s, P (.string s)) (harray : ∀ items, (∀ j ∈ items, P j) → P (.array items))
    (hobject : ∀ members : List (String × Json), (∀ m ∈ members, P m.2) → P (.object members)) (j : Json) :
    P j :=
  @Json.rec P (fun items => ∀ j ∈ items, P j) (fun members => ∀ m ∈ members, P m.2) (fun m => P m.2)
    hnull hbool hnumber hstring harray hobject (fun _ h => absurd h not_mem_nil)
    (fun _ _ hfirst hrest => forall_mem_cons.mpr ⟨hfirst, hrest⟩) (fun _ h => absurd h not_mem_nil)
    (fun _ _ hfirst hrest => forall_mem_cons.mpr ⟨hfirst, hrest⟩) (fun _ _ h => h) j

/-- The text of a value is told apart from what follows it. -/
def Separated (j : Json) : Prop :=
  ∀ k s t, Closed s → Closed t → j.chars ++ s = k.chars ++ t → j = k ∧ s = t

theorem closed_moreItems (items : List Json) (s : List Char) : Closed (moreItems items ++ s) := by
  cases items <;> exact closed_cons (by decide)

theorem closed_moreMembers (members : List (String × Json)) (s : List Char) :
    Closed (moreMembers members ++ s) := by
  cases members <;> exact closed_cons (by decide)

variable {items items' : List Json}

theorem moreItems_inj (hitems : ∀ j ∈ items, j.Separated)
    (h : moreItems items ++ s = moreItems items' ++ t) : items = items' ∧ s = t := by
  induction items generalizing items' with
  | nil =>
    cases items' with
    | nil => exact ⟨rfl, tail_eq_of_cons_eq h⟩
    | cons => simp [moreItems] at h
  | cons item items ih =>
    cases items' with
    | nil => simp [moreItems] at h
    | cons item' items' =>
      simp only [moreItems, cons_append, append_assoc, List.cons.injEq, true_and] at h
      obtain ⟨rfl, hrest⟩ := hitems item mem_cons_self item' _ _ (closed_moreItems _ _)
        (closed_moreItems _ _) h
      obtain ⟨rfl, hst⟩ := ih (fun j hj => hitems j (mem_cons_of_mem _ hj)) hrest
      exact ⟨rfl, hst⟩

/-- A member's name and value are told apart from what follows. -/
theorem member_inj {name name' : String} {value value' : Json} (hvalue : value.Separated)
    (hs : Closed s) (ht : Closed t)
    (h : quoted name.toList ++ ':' :: (value.chars ++ s) = quoted name'.toList ++ ':' :: (value'.chars ++ t)) :
    (name, value) = (name', value') ∧ s = t := by
  obtain ⟨hname, hrest⟩ := quoted_inj h
  cases String.toList_injective hname
  obtain ⟨rfl, hst⟩ := hvalue value' s t hs ht (tail_eq_of_cons_eq hrest)
  exact ⟨rfl, hst⟩

variable {members members' : List (String × Json)}

theorem moreMembers_inj
    (hmembers : ∀ m ∈ members, m.2.Separated) (h : moreMembers members ++ s = moreMembers members' ++ t) :
    members = members' ∧ s = t := by
  induction members generalizing members' with
  | nil =>
    cases members' with
    | nil => exact ⟨rfl, tail_eq_of_cons_eq h⟩
    | cons => simp [moreMembers] at h
  | cons m members ih =>
    cases members' with
    | nil => simp [moreMembers] at h
    | cons m' members' =>
      simp only [moreMembers, cons_append, append_assoc, List.cons.injEq, true_and] at h
      obtain ⟨hm, hrest⟩ := member_inj (hmembers m mem_cons_self) (closed_moreMembers _ _)
        (closed_moreMembers _ _) h
      obtain ⟨rfl, hst⟩ := ih (fun x hx => hmembers x (mem_cons_of_mem _ hx)) hrest
      have hsame : m = m' := hm
      rw [hsame]
      exact ⟨rfl, hst⟩

/-- How the text of a value starts, up to the digits. -/
def start : Json → Char
  | .null => 'n'
  | .bool true => 't'
  | .bool false => 'f'
  | .number _ => '0'
  | .string _ => '"'
  | .array _ => '['
  | .object _ => '\x7b'

variable {j : Json}

theorem start_of_chars (h : j.chars ++ s = c :: t) :
    (if numberChar c then '0' else c) = j.start := by
  match j with
  | .number n =>
    cases hc : numberChar c with
    | true => rfl
    | false => exact absurd h (number_ne n hc s t)
  | .null | .bool true | .bool false | .string _ | .array [] | .array (_ :: _) | .object []
  | .object ((_, _) :: _) =>
    simp only [chars, cons_append, List.cons.injEq] at h
    rw [← h.1]
    rfl

theorem chars_ne_nil (j : Json) : j.chars ≠ [] := by
  match j with
  | .number n => exact n.nonempty
  | .null | .bool true | .bool false | .string _ | .array [] | .array (_ :: _) | .object []
  | .object ((_, _) :: _) => simp [chars]

theorem start_eq {k : Json} (h : j.chars ++ s = k.chars ++ t) : j.start = k.start := by
  cases hchars : j.chars ++ s with
  | nil => exact absurd (append_eq_nil_iff.mp hchars).1 j.chars_ne_nil
  | cons c rest => rw [← start_of_chars hchars, ← start_of_chars (h ▸ hchars)]

theorem chars_ne_bracket (j : Json) (s t : List Char) : j.chars ++ s ≠ ']' :: t := by
  intro h
  have hstart := start_of_chars h
  rw [show (if numberChar ']' then '0' else ']') = ']' by decide] at hstart
  match j with
  | .null | .bool true | .bool false | .number _ | .string _ | .array _ | .object _ => simp [start] at hstart

theorem array_inj (hitems : ∀ j ∈ items, j.Separated)
    (h : (array items).chars ++ s = (array items').chars ++ t) : items = items' ∧ s = t := by
  cases items with
  | nil =>
    cases items' with
    | nil => exact ⟨rfl, append_cancel_left h⟩
    | cons item' items' =>
      simp only [chars, cons_append, nil_append, List.cons.injEq, true_and, append_assoc] at h
      exact absurd h.symm (chars_ne_bracket _ _ _)
  | cons item items =>
    cases items' with
    | nil =>
      simp only [chars, cons_append, nil_append, List.cons.injEq, true_and, append_assoc] at h
      exact absurd h (chars_ne_bracket _ _ _)
    | cons item' items' =>
      -- With a comma in front both are the items after one.
      refine moreItems_inj hitems ?_
      simp only [chars, moreItems, cons_append, append_assoc, List.cons.injEq, true_and] at h ⊢
      exact h

theorem object_inj
    (hmembers : ∀ m ∈ members, m.2.Separated) (h : (object members).chars ++ s = (object members').chars ++ t) :
    members = members' ∧ s = t := by
  cases members with
  | nil =>
    cases members' with
    | nil => exact ⟨rfl, append_cancel_left h⟩
    | cons => simp [chars] at h
  | cons m members =>
    cases members' with
    | nil => simp [chars] at h
    | cons m' members' =>
      refine moreMembers_inj hmembers ?_
      simp only [chars, moreMembers, cons_append, append_assoc, List.cons.injEq, true_and] at h ⊢
      exact h

theorem separated (j : Json) : j.Separated := by
  induction j using Json.induction with
  | hnull =>
    intro k s t _ _ h
    have hstart := start_eq h
    match k with
    | .null => exact ⟨rfl, append_cancel_left h⟩
    | .bool true | .bool false | .number _ | .string _ | .array _ | .object _ => simp [start] at hstart
  | hbool b =>
    intro k s t _ _ h
    have hstart := start_eq h
    match b, k with
    | true, .bool true => exact ⟨rfl, append_cancel_left h⟩
    | false, .bool false => exact ⟨rfl, append_cancel_left h⟩
    | true, .bool false | false, .bool true | true, .null | true, .number _ | true, .string _ | true, .array _
    | true, .object _ | false, .null | false, .number _ | false, .string _ | false, .array _
    | false, .object _ => simp [start] at hstart
  | hnumber n =>
    intro k s t hs ht h
    have hstart := start_eq h
    match k with
    | .number n' =>
      obtain ⟨rfl, hst⟩ := number_inj hs ht h
      exact ⟨rfl, hst⟩
    | .null | .bool true | .bool false | .string _ | .array _ | .object _ => simp [start] at hstart
  | hstring text =>
    intro k s t _ _ h
    have hstart := start_eq h
    match k with
    | .string text' =>
      obtain ⟨htext, hst⟩ := quoted_inj (tail_eq_of_cons_eq h)
      exact ⟨by rw [String.toList_injective htext], hst⟩
    | .null | .bool true | .bool false | .number _ | .array _ | .object _ => simp [start] at hstart
  | harray items ih =>
    intro k s t _ _ h
    have hstart := start_eq h
    match k with
    | .array items' =>
      obtain ⟨rfl, hst⟩ := array_inj ih h
      exact ⟨rfl, hst⟩
    | .null | .bool true | .bool false | .number _ | .string _ | .object _ => simp [start] at hstart
  | hobject members ih =>
    intro k s t _ _ h
    have hstart := start_eq h
    match k with
    | .object members' =>
      obtain ⟨rfl, hst⟩ := object_inj ih h
      exact ⟨rfl, hst⟩
    | .null | .bool true | .bool false | .number _ | .string _ | .array _ => simp [start] at hstart

/-- A text has one value. -/
theorem encode_injective : Function.Injective encode := by
  intro j k h
  have hchars : j.chars = k.chars := by
    have h' := congrArg String.toList h
    simpa [encode] using h'
  exact (j.separated k [] [] closed_nil closed_nil (by rw [hchars])).1

instance : DecidableEq Json := fun j k => decidable_of_iff (j.encode = k.encode) encode_injective.eq_iff

end Json

end AgentGovernor
