import Mathlib.Data.Int.Bitwise
import Mathlib.Data.List.Sort
import Mathlib.Order.Lattice
import Mathlib.Tactic.IntervalCases

/-! Identifiers, instants, exact quantities and errors of the governor's domain package. Integers of
the source are `Int` with their 64-bit bounds explicit. -/

namespace AgentGovernor

open List

/-- The largest `int64`, also the bound in the guards and the `CHECK`s of the schema. -/
def maxInt64 : Int := 9223372036854775807

/-- The value an `int64` holds after a conversion that does not fit. -/
def wrapInt64 (n : Int) : Int := n.bmod (2 ^ 64)

/-! ### Errors -/

inductive ErrorCode where
  | invalidArgument | unauthenticated | forbidden | notFound | conflict | unavailable | internal
  deriving DecidableEq

/-- What a repository call returns instead of a result. `database` is a wrapped database error. -/
inductive Failure where
  | plain (message : String)
  | domain (code : ErrorCode) (message : String)
  | database (message : String)
  | throughputLimitExceeded (dimensionName : String) (retryAt : Int)
  deriving DecidableEq

theorem bind_eq_ok {ε α β : Type} {x : Except ε α} {f : α → Except ε β} {b : β} :
    x >>= f = .ok b ↔ ∃ a, x = .ok a ∧ f a = .ok b := by
  cases x <;> simp [bind, Except.bind]

theorem map_eq_ok {ε α β : Type} {x : Except ε α} {f : α → β} {b : β} :
    x.map f = .ok b ↔ ∃ a, x = .ok a ∧ f a = b := by
  cases x <;> simp [Except.map]

theorem mapError_eq_ok {ε ε' α : Type} {x : Except ε α} {f : ε → ε'} {a : α} :
    x.mapError f = .ok a ↔ x = .ok a := by
  cases x <;> simp [Except.mapError]

/-- A guard that was passed. -/
theorem ite_error_eq_ok {ε α : Type} {p : Prop} [Decidable p] {error : ε} {x : Except ε α} {a : α} :
    (if p then .error error else x) = .ok a ↔ ¬p ∧ x = .ok a := by
  by_cases h : p <;> simp [h]

/-! ### Identifiers -/

/-- A UUID. Its version and variant bits are not told apart: nothing below reads them. -/
structure ID where
  bits : BitVec 128
  deriving DecidableEq

namespace ID

def ofNat (n : Nat) : ID := ⟨BitVec.ofNat 128 n⟩

def isZero (id : ID) : Bool := id.bits = 0

def hexDigit (n : Nat) : Char := if n < 10 then Char.ofNat (48 + n) else Char.ofNat (87 + n)

/-- Hexadecimal digits `first` to `first + count - 1`, the most significant digit being digit 0. -/
def hex (id : ID) (first count : Nat) : List Char :=
  (List.range count).map fun k => hexDigit (id.bits.toNat / 16 ^ (31 - (first + k)) % 16)

def string (id : ID) : String :=
  String.ofList (id.hex 0 8 ++ '-' :: id.hex 8 4 ++ '-' :: id.hex 12 4 ++ '-' :: id.hex 16 4
    ++ '-' :: id.hex 20 12)

/-- The order of the strings, which is the order of the 128-bit numbers. -/
def le (a b : ID) : Prop := a.bits.toNat ≤ b.bits.toNat

instance : DecidableRel le := fun a b => inferInstanceAs (Decidable (a.bits.toNat ≤ b.bits.toNat))

theorem le_antisymm {a b : ID} (h : le a b) (h' : le b a) : a = b := by
  cases a with
  | mk a =>
    cases b with
    | mk b =>
      congr 1
      exact BitVec.eq_of_toNat_eq (Nat.le_antisymm h h')

theorem hexDigit_injective {m n : Nat} (hm : m < 16) (hn : n < 16) (h : hexDigit m = hexDigit n) :
    m = n := by
  interval_cases m <;> interval_cases n <;> first | rfl | (revert h; decide)

theorem digit_of_hex {a b : ID} {first count : Nat} (h : a.hex first count = b.hex first count)
    {k : Nat} (hk : k < count) :
    a.bits.toNat / 16 ^ (31 - (first + k)) % 16 = b.bits.toNat / 16 ^ (31 - (first + k)) % 16 := by
  have hget := congrArg (fun l => l[k]?) h
  simp only [hex, getElem?_map, getElem?_range hk, Option.map_some, Option.some.injEq] at hget
  exact hexDigit_injective (Nat.mod_lt _ (by decide)) (Nat.mod_lt _ (by decide)) hget

theorem eq_of_digits {m n : Nat} (count : Nat) (hm : m < 16 ^ count) (hn : n < 16 ^ count)
    (h : ∀ k < count, m / 16 ^ k % 16 = n / 16 ^ k % 16) : m = n := by
  induction count generalizing m n with
  | zero => omega
  | succ count ih =>
    have hrest : m / 16 = n / 16 := by
      apply ih
      · rw [pow_succ] at hm
        omega
      · rw [pow_succ] at hn
        omega
      · intro k hk
        have hdigit := h (k + 1) (by omega)
        rw [pow_succ', ← Nat.div_div_eq_div_mul, ← Nat.div_div_eq_div_mul] at hdigit
        exact hdigit
    have hlast := h 0 (by omega)
    simp only [pow_zero, Nat.div_one] at hlast
    omega

theorem hex_length (id : ID) (first count : Nat) : (id.hex first count).length = count := by
  simp [hex]

theorem string_toList_length (id : ID) : id.string.toList.length = 36 := by
  simp [string, hex_length]

theorem string_injective {a b : ID} (h : a.string = b.string) : a = b := by
  have hlist := congrArg String.toList h
  simp only [string, String.toList_ofList] at hlist
  obtain ⟨h₁, h₅⟩ := append_inj hlist (by simp [hex_length])
  obtain ⟨h₁, h₄⟩ := append_inj h₁ (by simp [hex_length])
  obtain ⟨h₁, h₃⟩ := append_inj h₁ (by simp [hex_length])
  obtain ⟨h₁, h₂⟩ := append_inj h₁ (by simp [hex_length])
  simp only [List.cons.injEq, true_and] at h₂ h₃ h₄ h₅
  have hdigits : ∀ k < 32, a.bits.toNat / 16 ^ k % 16 = b.bits.toNat / 16 ^ k % 16 := by
    intro k hk
    -- Digit `31 - k` from the left lies in one of the five groups.
    rcases (show 31 - k < 8 ∨ (8 ≤ 31 - k ∧ 31 - k < 12) ∨ (12 ≤ 31 - k ∧ 31 - k < 16) ∨
      (16 ≤ 31 - k ∧ 31 - k < 20) ∨ 20 ≤ 31 - k by omega) with hg | hg | hg | hg | hg
    · have hd := digit_of_hex h₁ (k := 31 - k) (by omega)
      rwa [show 31 - (0 + (31 - k)) = k by omega] at hd
    · have hd := digit_of_hex h₂ (k := 31 - k - 8) (by omega)
      rwa [show 31 - (8 + (31 - k - 8)) = k by omega] at hd
    · have hd := digit_of_hex h₃ (k := 31 - k - 12) (by omega)
      rwa [show 31 - (12 + (31 - k - 12)) = k by omega] at hd
    · have hd := digit_of_hex h₄ (k := 31 - k - 16) (by omega)
      rwa [show 31 - (16 + (31 - k - 16)) = k by omega] at hd
    · have hd := digit_of_hex h₅ (k := 31 - k - 20) (by omega)
      rwa [show 31 - (20 + (31 - k - 20)) = k by omega] at hd
  have hnat : a.bits.toNat = b.bits.toNat :=
    eq_of_digits 32 (by have := a.bits.isLt; omega) (by have := b.bits.isLt; omega) hdigits
  exact le_antisymm (le_of_eq hnat) (le_of_eq hnat.symm)

end ID

/-! ### Instants -/

/-- A `time.Time`: nanoseconds from the Unix epoch, and whether it carries the UTC location. -/
structure Time where
  nanos : Int
  utc : Bool
  deriving DecidableEq

namespace Time

/-- The zero value is the first instant of year one. -/
def isZero (t : Time) : Bool := t.nanos = -62135596800000000000

/-- `timestamptz` keeps microseconds; the driver drops the rest. -/
def stored (t : Time) : Int := t.nanos / 1000

/-- A stored instant as it is read back. -/
def ofStored (micros : Int) : Time := ⟨1000 * micros, true⟩

def after (t u : Time) : Bool := u.nanos < t.nanos

end Time

/-- `UnixNano` is an `int64` and wraps for instants outside the years 1678 to 2262. -/
def requireUTC (t : Time) : Except Failure Time :=
  if t.utc then .ok ⟨wrapInt64 t.nanos, true⟩ else .error (.plain "timestamp must use UTC")

/-- Years outside of 0 to 9999 have no JSON text. -/
def Time.encodable (t : Time) : Bool := -62167219200000000000 ≤ t.nanos && t.nanos < 253402300800000000000

def yearOutOfRange : Failure := .plain ("json: error calling MarshalJSON for type time.Time: " ++
  "Time.MarshalJSON: year outside of range [0,9999]")

/-- The instants that nanoseconds in 64 bits can express. -/
def Time.representable (t : Time) : Bool := wrapInt64 t.nanos = t.nanos

theorem representable_of_requireUTC {t normalized : Time} (h : requireUTC t = .ok normalized) :
    normalized.representable = true := by
  unfold requireUTC at h
  split_ifs at h
  cases h
  simp [Time.representable, wrapInt64]

theorem nanos_of_requireUTC {t normalized : Time} (h : requireUTC t = .ok normalized)
    (ht : t.representable = true) : normalized.nanos = t.nanos := by
  unfold requireUTC at h
  split_ifs at h
  cases h
  exact of_decide_eq_true ht

/-- One minute in nanoseconds. -/
def throughputWindow : Int := 60000000000

/-- `Truncate` counts from the first instant of year one, itself the start of a minute. -/
def Time.truncateToWindow (t : Time) : Time := ⟨t.nanos - t.nanos % throughputWindow, t.utc⟩

def padded (width : Nat) (n : Nat) : String :=
  String.ofList (List.replicate (width - (toString n).toList.length) '0') ++ toString n

/-- The fraction of a second without its trailing zeros. -/
def fraction (nanos : Nat) : String :=
  if nanos = 0 then ""
  else "." ++ String.ofList ((padded 9 nanos).toList.reverse.dropWhile (· = '0')).reverse

/-- `Format(time.RFC3339Nano)` of an instant in UTC. -/
def Time.formatRFC3339Nano (t : Time) : String :=
  let seconds := t.nanos / 1000000000
  let second := (seconds % 86400).toNat
  -- Days from 1 March of the year 0, in cycles of 400 years.
  let days := seconds / 86400 + 719468
  let cycle := days / 146097
  let dayOfCycle := (days % 146097).toNat
  let yearOfCycle := (dayOfCycle - dayOfCycle / 1460 + dayOfCycle / 36524 - dayOfCycle / 146096) / 365
  let dayOfYear := dayOfCycle - (365 * yearOfCycle + yearOfCycle / 4 - yearOfCycle / 100)
  let month := (5 * dayOfYear + 2) / 153
  let day := dayOfYear - (153 * month + 2) / 5 + 1
  let year := cycle * 400 + yearOfCycle + if month < 10 then 0 else 1
  padded 4 year.toNat ++ "-" ++ padded 2 (if month < 10 then month + 3 else month - 9) ++ "-"
    ++ padded 2 day ++ "T" ++ padded 2 (second / 3600) ++ ":" ++ padded 2 (second / 60 % 60) ++ ":"
    ++ padded 2 (second % 60) ++ fraction (t.nanos % 1000000000).toNat ++ "Z"

example : (⟨1709210096123450000, true⟩ : Time).formatRFC3339Nano = "2024-02-29T12:34:56.12345Z" := by
  decide

/-! ### Texts -/

/-- The length of a Go string. -/
def byteLength (s : String) : Nat := (s.toList.map Char.utf8Size).sum

def isLowerLetter (c : Char) : Bool := 'a' ≤ c && c ≤ 'z'

def isUpperLetter (c : Char) : Bool := 'A' ≤ c && c ≤ 'Z'

def isDigit (c : Char) : Bool := '0' ≤ c && c ≤ '9'

/-- A regular expression `^[first][rest]{0,bound}$`. -/
def matchesPattern (first rest : Char → Bool) (bound : Nat) (s : String) : Bool :=
  match s.toList with
  | [] => false
  | c :: cs => first c && cs.all rest && cs.length ≤ bound

/-- `^[a-z][a-z0-9_]{0,62}$`, for names of dimensions and for units. -/
def resourceDimensionNamePattern : String → Bool :=
  matchesPattern isLowerLetter (fun c => isLowerLetter c || isDigit c || c = '_') 62

def validUnit : String → Bool := resourceDimensionNamePattern

/-- A letter or digit, then up to 255 letters, digits, dots, underscores, colons, slashes and hyphens. -/
def extensionReferencePattern : String → Bool :=
  matchesPattern (fun c => isUpperLetter c || isLowerLetter c || isDigit c)
    (fun c => isUpperLetter c || isLowerLetter c || isDigit c || ['.', '_', ':', '/', '-'].contains c) 255

/-- `^[a-z][a-z0-9._-]{0,127}$`. -/
def extensionReasonPattern : String → Bool :=
  matchesPattern isLowerLetter
    (fun c => isLowerLetter c || isDigit c || ['.', '_', '-'].contains c) 127

/-- `sha256:` and 64 lower-case hexadecimal digits. -/
def validDigest (s : String) : Bool :=
  byteLength s = 71 && s.toList.take 7 = "sha256:".toList
    && (s.toList.drop 7).all fun c => isDigit c || ('a' ≤ c && c ≤ 'f')

def isSpace (c : Char) : Bool :=
  (9 ≤ c.toNat && c.toNat ≤ 13) || (0x2000 ≤ c.toNat && c.toNat ≤ 0x200a)
    || [0x20, 0x85, 0xa0, 0x1680, 0x2028, 0x2029, 0x202f, 0x205f, 0x3000].contains c.toNat

/-- `strings.TrimSpace(s) == s`. -/
def trimmed (s : String) : Bool :=
  !(s.toList.head?.any isSpace) && !(s.toList.getLast?.any isSpace)

/-! ### Quantities -/

/-- A fixed-point value `coefficient / 10 ^ scale`. The constructors bound both fields. -/
structure Decimal where
  coefficient : Int
  scale : Nat
  coefficient_mem : -maxInt64 - 1 ≤ coefficient ∧ coefficient ≤ maxInt64
  deriving DecidableEq

/-- The fields are private: a quantity comes from `NewQuantity` or is the zero value. -/
structure Quantity where
  amount : Decimal
  unit : String
  unit_canonical : validUnit unit = true ∨ unit = ""
  deriving DecidableEq

/-- What `NewQuantity` accepts. -/
def Quantity.valid (q : Quantity) : Bool := 0 ≤ q.amount.coefficient && validUnit q.unit

end AgentGovernor
