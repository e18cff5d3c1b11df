import Mathlib.Data.List.TakeWhile
import AgentGovernor.PolicyContract

/-! Constraints as the policy package narrows them. A ceiling bounds a number, fixes a text, lists what is
allowed or is an object of ceilings; a restriction has the shape of its ceiling. -/

namespace AgentGovernor

open List Option

namespace Policy

/-! ### Numbers -/

/-- Whether there is a minus, and what follows the sign. -/
def scanSign : List Char → Bool × List Char
  | '-' :: rest => (true, rest)
  | '+' :: rest => (false, rest)
  | rest => (false, rest)

/-- A text in decimal syntax as `big.Rat` reads it, which is how a `json.Number` is written. Exponents of
five beyond a million are refused. -/
def ratSetString (text : String) : Option Rat :=
  let (negative, unsigned) := scanSign text.toList
  let whole := unsigned.takeWhile isDigit
  let (fraction, rest) := match unsigned.dropWhile isDigit with
    | '.' :: rest => (rest.takeWhile isDigit, rest.dropWhile isDigit)
    | rest => ([], rest)
  let exponent := match rest with
    | [] => some 0
    | c :: rest => if c = 'e' || c = 'E' then parseInt64 (String.ofList rest) else none
  if (whole ++ fraction).isEmpty then none
  else exponent.bind fun exponent =>
    let magnitude : Int := (whole ++ fraction).foldl (fun n c => 10 * n + (c.toNat - 48 : Nat)) 0
    let mantissa := if negative then -magnitude else magnitude
    let scale := exponent - fraction.length
    if mantissa = 0 then some 0
    else if 1000000 < scale.natAbs then none
    else if 0 ≤ scale then some ((mantissa * 10 ^ scale.toNat : Int) : Rat)
    else some (mkRat mantissa (10 ^ (-scale).toNat))

/-- Go's integers are formatted and read back. -/
def constraintNumber : PolicyValue → Option Rat
  | .number text => ratSetString text
  | .float64 _ shortest => ratSetString shortest
  | .int64 n => some (n : Rat)
  | .int n => some (n : Rat)
  | _ => none

/-- The value has the type of a number, whether or not its text is one. -/
def numericType : PolicyValue → Bool
  | .number _ | .float64 _ _ | .int64 _ | .int _ => true
  | _ => false

theorem numericType_of_constraintNumber {value : PolicyValue} {q : Rat}
    (h : constraintNumber value = some q) : numericType value = true := by
  cases value <;> first | rfl | cases h

/-! ### Intersection -/

def invalidNumericConstraint : Failure := .plain "invalid numeric constraint"

def incompatibleShape : Failure := .plain "incompatible constraint shape"

/-- The texts of an allowlist. -/
def allowlist (values : List PolicyValue) : Except Failure (List String) :=
  values.mapM fun
    | .text value => .ok value
    | _ => .error (.plain "invalid constraint allowlist")

/-- Every ceiling meets itself, then every restriction its ceiling. A ceiling comes with what it makes of a
restriction. -/
def intersectWith (ceilings : List (String × PolicyValue × (PolicyValue → Except Failure PolicyValue)))
    (restrictions : PolicyMap) : Except Failure PolicyMap := do
  let kept ← ceilings.mapM fun (key, ceiling, narrow) => (narrow ceiling).map (key, ·)
  let narrowed ← restrictions.mapM fun (key, restriction) =>
    match ceilings.lookup key with
    | none => .error (.plain "constraint has no authoritative ceiling")
    | some (_, narrow) => (narrow restriction).map (key, ·)
  return kept.map fun (key, value) => (key, (narrowed.lookup key).getD value)

mutual

def intersectConstraint (ceiling restriction : PolicyValue) : Except Failure PolicyValue :=
  match constraintNumber ceiling with
  | some limit =>
    match constraintNumber restriction with
    | none => .error invalidNumericConstraint
    | some value =>
      if limit < 0 ∨ value < 0 then .error invalidNumericConstraint
      else if value < limit then .ok restriction
      else .ok ceiling
  | none =>
    match ceiling, restriction with
    | .text limit, .text value => if value = limit then .ok (.text limit) else .error incompatibleShape
    | .list limit, .list values => do
      let allowed ← allowlist limit
      let entries ← allowlist values
      return .list ((entries.filter (allowed.contains ·)).map .text)
    | .object limit, .object values => (intersectWith (ceilings limit) values).map .object
    | _, _ => .error incompatibleShape

def ceilings : PolicyMap → List (String × PolicyValue × (PolicyValue → Except Failure PolicyValue))
  | [] => []
  | (key, ceiling) :: rest => (key, ceiling, fun r => intersectConstraint ceiling r) :: ceilings rest

end

def intersectConstraints (authority restrictions : PolicyMap) : Except Failure PolicyMap :=
  intersectWith (ceilings authority) restrictions

/-! ### Narrowing -/

mutual

/-- `fmt.Sprint`. -/
def sprint : PolicyValue → String
  | .null => "<nil>"
  | .bool value => toString value
  | .text value => value
  | .int value => toString value
  | .int64 value => toString value
  | .number text => text
  | .float64 _ shortest => shortest
  | .texts values => "[" ++ " ".intercalate values ++ "]"
  | .list values => "[" ++ " ".intercalate (sprintAll values) ++ "]"
  | .object fields => "map[" ++ " ".intercalate (((sprintFields fields).insertionSort fun a b => a.1 ≤ b.1).map
      fun (key, value) => key ++ ":" ++ value) ++ "]"

def sprintAll : List PolicyValue → List String
  | [] => []
  | value :: rest => sprint value :: sprintAll rest

def sprintFields : PolicyMap → List (String × String)
  | [] => []
  | (key, value) :: rest => (key, sprint value) :: sprintFields rest

end

def subset (values allowed : List PolicyValue) : Bool :=
  values.all fun v => (allowed.map sprint).contains (sprint v)

mutual

def constraintsNarrow : PolicyMap → PolicyMap → Bool
  | [], _ => true
  | (key, value) :: rest, ceiling =>
    (match ceiling.lookup key with
      | none => false
      | some limit => narrowsTo value limit) && constraintsNarrow rest ceiling

/-- One round of the loop. -/
def narrowsTo (value limit : PolicyValue) : Bool :=
  match constraintNumber value with
  | some numeric => (constraintNumber limit).any (numeric ≤ ·)
  | none =>
    match value, limit with
    | .text v, .text l => v = l
    | .list v, .list allowed => subset v allowed
    | .object v, .object l => constraintsNarrow v l
    | .text _, _ | .list _, _ | .object _, _ => false
    | v, l => sprint v = sprint l

end

/-- An omission is filled from the ceilings and the caller's restrictions; a policy that expands them is
refused. -/
def resolveConstraints (authority requested : PolicyMap) (resolved : Option PolicyMap) :
    Except Failure PolicyMap := do
  let effective ← intersectConstraints authority requested
  match resolved with
  | none => .error (.plain "policy decision expands effective constraints")
  | some resolved =>
    if constraintsNarrow resolved effective then intersectConstraints effective resolved
    else .error (.plain "policy decision expands effective constraints")

/-! ### Integers -/

theorem foldl_digits (cs : List Char) (n : Nat) :
    cs.foldl (fun (m : Int) c => 10 * m + (c.toNat - 48 : Nat)) n = (Nat.ofDigitChars 10 cs n : Nat) := by
  induction cs generalizing n with
  | nil => rfl
  | cons c cs ih =>
    rw [foldl_cons, Nat.ofDigitChars_cons, ← ih]
    congr 1

theorem parseInt64_eq (text : String) : parseInt64 text =
    if (scanSign text.toList).2.isEmpty || !(scanSign text.toList).2.all isDigit then none
    else
      let magnitude : Int := (Nat.ofDigitChars 10 (scanSign text.toList).2 0 : Nat)
      let value := if (scanSign text.toList).1 then -magnitude else magnitude
      if -maxInt64 - 1 ≤ value ∧ value ≤ maxInt64 then some value else none := by
  have hfold := foldl_digits (scanSign text.toList).2 0
  rw [Nat.cast_zero] at hfold
  rw [← hfold]
  rfl

theorem parseInt64_spec {text : String} {n : Int} (h : parseInt64 text = some n) :
    (scanSign text.toList).2 ≠ [] ∧ (scanSign text.toList).2.all isDigit = true ∧
      n = if (scanSign text.toList).1 then -(Nat.ofDigitChars 10 (scanSign text.toList).2 0 : Int)
        else (Nat.ofDigitChars 10 (scanSign text.toList).2 0 : Int) := by
  rw [parseInt64_eq] at h
  dsimp only at h
  split_ifs at h with hdigits _ hnegative _
  all_goals
    cases h
    simp only [Bool.or_eq_true, List.isEmpty_iff, Bool.not_eq_true', not_or, Bool.not_eq_false] at hdigits
    refine ⟨hdigits.1, hdigits.2, ?_⟩
    simp_all

/-- A sign and digits are read as that integer. -/
theorem ratSetString_of_parseInt64 {text : String} {n : Int} (h : parseInt64 text = some n) :
    ratSetString text = some (n : Rat) := by
  obtain ⟨hne, hall, hn⟩ := parseInt64_spec h
  unfold ratSetString
  generalize scanSign text.toList = signed at hne hall hn ⊢
  obtain ⟨negative, digits⟩ := signed
  dsimp only at hne hall hn ⊢
  rw [takeWhile_eq_self_iff.mpr (List.all_eq_true.mp hall),
    dropWhile_eq_nil_iff.mpr (List.all_eq_true.mp hall)]
  have hfold := foldl_digits digits 0
  rw [Nat.cast_zero] at hfold
  dsimp only
  rw [append_nil, if_neg (by simpa using hne), bind_some, hfold, ← hn]
  split_ifs with hzero hlarge hscale
  · rw [hzero]
    rfl
  · simp at hlarge
  · simp
  · simp at hscale

theorem scanSign_of_digits {cs : List Char} (h : ∀ c ∈ cs, isDigit c = true) : scanSign cs = (false, cs) := by
  unfold scanSign
  split
  · exact absurd (h '-' mem_cons_self) (by decide)
  · exact absurd (h '+' mem_cons_self) (by decide)
  · rfl

theorem isDigit_of_mem_toDigits {n : Nat} {c : Char} (h : c ∈ Nat.toDigits 10 n) : isDigit c = true := by
  have hdigit := Nat.isDigit_of_mem_toDigits (by decide) (by decide) h
  simpa [Char.isDigit, isDigit, Char.le_def] using hdigit

/-- What `strconv` writes it reads back. -/
theorem parseInt64_toString {n : Int} (hn : 0 ≤ n) (hmax : n ≤ maxInt64) :
    parseInt64 (toString n) = some n := by
  obtain ⟨m, rfl⟩ := Int.eq_ofNat_of_zero_le hn
  have hlist : (toString (m : Int)).toList = Nat.toDigits 10 m := Nat.toList_repr
  have hdigits : (Nat.toDigits 10 m).all isDigit = true :=
    List.all_eq_true.mpr fun c hc => isDigit_of_mem_toDigits hc
  have hmin : -maxInt64 - 1 ≤ (m : Int) := by
    have : (0 : Int) ≤ maxInt64 := by decide
    omega
  rw [parseInt64_eq, hlist, scanSign_of_digits (List.all_eq_true.mp hdigits)]
  dsimp only
  rw [hdigits, Nat.ofDigitChars_ten_toDigits, if_neg (by simp [Nat.toDigits_ne_nil])]
  exact if_pos ⟨hmin, hmax⟩

/-! ### Maps -/

section Maps

variable {α β : Type}

theorem lookup_mapM {f : String → α → Except Failure β} {l : List (String × α)} {m : List (String × β)}
    (h : (l.mapM fun x => (f x.1 x.2).map (x.1, ·)) = .ok m) (key : String) :
    (l.lookup key = none ∧ m.lookup key = none) ∨
      ∃ a b, l.lookup key = some a ∧ m.lookup key = some b ∧ f key a = .ok b := by
  induction l generalizing m with
  | nil =>
    cases h
    exact Or.inl ⟨rfl, rfl⟩
  | cons x l ih =>
    obtain ⟨key', a⟩ := x
    rw [mapM_cons, bind_eq_ok] at h
    obtain ⟨_, hhead, h⟩ := h
    obtain ⟨b, hb, rfl⟩ := map_eq_ok.mp hhead
    obtain ⟨rest, hrest, h⟩ := bind_eq_ok.mp h
    cases h
    by_cases hkey : key = key'
    · subst hkey
      exact Or.inr ⟨a, b, lookup_cons_self, lookup_cons_self, hb⟩
    · have hne : (key == key') = false := beq_false_of_ne hkey
      rw [lookup_cons, lookup_cons, hne]
      exact ih hrest

theorem lookup_map (g : String → α → β) (l : List (String × α)) (key : String) :
    (l.map fun x => (x.1, g x.1 x.2)).lookup key = (l.lookup key).map (g key) := by
  induction l with
  | nil => rfl
  | cons x l ih =>
    obtain ⟨key', a⟩ := x
    by_cases hkey : key = key'
    · subst hkey
      rw [map_cons, lookup_cons_self, lookup_cons_self]
      rfl
    · have hne : (key == key') = false := beq_false_of_ne hkey
      rw [map_cons, lookup_cons, lookup_cons, hne]
      exact ih

end Maps

theorem lookup_ceilings (authority : PolicyMap) (key : String) :
    (ceilings authority).lookup key =
      (authority.lookup key).map fun ceiling => (ceiling, intersectConstraint ceiling) := by
  induction authority with
  | nil => rfl
  | cons x rest ih =>
    obtain ⟨key', ceiling⟩ := x
    rw [ceilings, lookup_cons, lookup_cons]
    cases key == key'
    · exact ih
    · rfl

/-! ### What an intersection keeps -/

variable {authority restrictions m : PolicyMap} {key : String}

/-- The result has the keys of the authority, at each one the ceiling's answer to the restriction or, without
one, to itself. -/
theorem intersectConstraints_spec (h : intersectConstraints authority restrictions = .ok m) (key : String) :
    (authority.lookup key = none ∧ m.lookup key = none ∧ restrictions.lookup key = none) ∨
      ∃ ceiling value, authority.lookup key = some ceiling ∧ m.lookup key = some value ∧
        intersectConstraint ceiling ((restrictions.lookup key).getD ceiling) = .ok value := by
  unfold intersectConstraints intersectWith at h
  obtain ⟨kept, hkept, h⟩ := bind_eq_ok.mp h
  obtain ⟨narrowed, hnarrowed, h⟩ := bind_eq_ok.mp h
  cases h
  have hceiling := lookup_mapM (f := fun _ (x : PolicyValue × (PolicyValue → Except Failure PolicyValue)) =>
    x.2 x.1) hkept key
  have hrestriction := lookup_mapM (f := fun key restriction =>
    match (ceilings authority).lookup key with
    | none => .error (.plain "constraint has no authoritative ceiling")
    | some (_, narrow) => narrow restriction) (l := restrictions) (m := narrowed) (by
      rw [← hnarrowed]
      congr 1
      funext x
      cases hx : (ceilings authority).lookup x.1 <;> simp [hx, Except.map]) key
  rw [lookup_map fun key value => (narrowed.lookup key).getD value]
  rw [lookup_ceilings] at hceiling hrestriction
  cases hauthority : authority.lookup key with
  | none =>
    simp only [hauthority, map_none, reduceCtorEq, false_and, exists_false, and_false, or_false]
      at hceiling hrestriction
    exact Or.inl ⟨rfl, by rw [hceiling.2]; rfl, hrestriction.1⟩
  | some ceiling =>
    simp only [hauthority, map_some, reduceCtorEq, false_and, false_or, Option.some.injEq] at hceiling
    obtain ⟨_, own, rfl, hown, hself⟩ := hceiling
    refine Or.inr ⟨ceiling, _, rfl, by rw [hown]; rfl, ?_⟩
    rcases hrestriction with ⟨hnone, hnarrowed⟩ | ⟨r, value, hr, hnarrowed, hvalue⟩
    · rw [hnone, hnarrowed]
      exact hself
    · rw [hr, hnarrowed]
      rw [hauthority] at hvalue
      exact hvalue

theorem intersectConstraints_isSome (h : intersectConstraints authority restrictions = .ok m) (key : String) :
    (m.lookup key).isSome = (authority.lookup key).isSome := by
  rcases intersectConstraints_spec h key with ⟨hnone, hm, _⟩ | ⟨ceiling, value, hceiling, hm, _⟩
  · rw [hnone, hm]
  · rw [hceiling, hm]
    rfl

/-- A number that comes out is one of the two that went in, and bounded by both. -/
theorem intersectConstraint_number {ceiling restriction value : PolicyValue}
    (h : intersectConstraint ceiling restriction = .ok value) (hvalue : numericType value = true) :
    ∃ q limit bound, constraintNumber value = some q ∧ constraintNumber ceiling = some limit ∧
      constraintNumber restriction = some bound ∧ q ≤ limit ∧ q ≤ bound ∧
      (value = ceiling ∨ value = restriction) := by
  unfold intersectConstraint at h
  cases hlimit : constraintNumber ceiling with
  | some limit =>
    rw [hlimit] at h
    cases hbound : constraintNumber restriction with
    | none =>
      rw [hbound] at h
      cases h
    | some bound =>
      rw [hbound] at h
      dsimp only at h
      split_ifs at h with _ hless
      · cases h
        exact ⟨bound, limit, bound, hbound, rfl, rfl, hless.le, le_rfl, Or.inr rfl⟩
      · cases h
        exact ⟨limit, limit, bound, hlimit, rfl, rfl, le_rfl, not_lt.mp hless, Or.inl rfl⟩
  | none =>
    -- Texts, allowlists and objects come out as such.
    rw [hlimit] at h
    dsimp only at h
    split at h
    · split_ifs at h
      cases h
      cases hvalue
    · obtain ⟨_, _, h⟩ := bind_eq_ok.mp h
      obtain ⟨_, _, h⟩ := bind_eq_ok.mp h
      cases h
      cases hvalue
    · obtain ⟨_, _, rfl⟩ := map_eq_ok.mp h
      cases hvalue
    · cases h

/-- Where a number comes out of an intersection of maps: the ceiling and, if there is one, the restriction
are numbers that bound it. -/
theorem intersectConstraints_number (h : intersectConstraints authority restrictions = .ok m)
    {value : PolicyValue} (hvalue : m.lookup key = some value) (hnumeric : numericType value = true) :
    ∃ q, constraintNumber value = some q ∧
      (∃ ceiling limit, authority.lookup key = some ceiling ∧ constraintNumber ceiling = some limit ∧
        q ≤ limit) ∧
      (∀ r ∈ restrictions.lookup key, ∃ bound, constraintNumber r = some bound ∧ q ≤ bound) ∧
      (authority.lookup key = some value ∨ restrictions.lookup key = some value) := by
  rcases intersectConstraints_spec h key with ⟨_, hnone, _⟩ | ⟨ceiling, value', hceiling, hm, hintersect⟩
  · rw [hnone] at hvalue
    cases hvalue
  · cases hvalue.symm.trans hm
    obtain ⟨q, limit, bound, hq, hlimit, hbound, hle, hle', horigin⟩ :=
      intersectConstraint_number hintersect hnumeric
    refine ⟨q, hq, ⟨ceiling, limit, hceiling, hlimit, hle⟩, fun r hr => ?_, ?_⟩
    · rw [mem_def.mp hr] at hbound
      exact ⟨bound, hbound, hle'⟩
    · rcases horigin with rfl | rfl
      · exact Or.inl hceiling
      · cases hrestriction : restrictions.lookup key with
        | none =>
          left
          simpa [hrestriction] using hceiling
        | some restriction => exact Or.inr rfl

/-- The resolved map has the keys of the authority, and a number in it is bounded by the authority, the
caller's request and the policy's decision, and is one of theirs. -/
theorem resolveConstraints_spec {requested : PolicyMap} {resolved : Option PolicyMap}
    (h : resolveConstraints authority requested resolved = .ok m) :
    (∀ key, (m.lookup key).isSome = (authority.lookup key).isSome) ∧
      ∃ decided, resolved = some decided ∧ ∀ key value, m.lookup key = some value → numericType value = true →
        ∃ q, constraintNumber value = some q ∧
          (∃ ceiling limit, authority.lookup key = some ceiling ∧ constraintNumber ceiling = some limit ∧
            q ≤ limit) ∧
          (∀ r ∈ requested.lookup key, ∃ bound, constraintNumber r = some bound ∧ q ≤ bound) ∧
          (∀ r ∈ decided.lookup key, ∃ bound, constraintNumber r = some bound ∧ q ≤ bound) ∧
          (authority.lookup key = some value ∨ requested.lookup key = some value ∨
            decided.lookup key = some value) := by
  obtain ⟨effective, heffective, h⟩ := bind_eq_ok.mp h
  cases resolved with
  | none => cases h
  | some decided =>
    dsimp only at h
    split_ifs at h
    refine ⟨fun key => (intersectConstraints_isSome h key).trans (intersectConstraints_isSome heffective key),
      decided, rfl, fun key value hvalue hnumeric => ?_⟩
    obtain ⟨q, hq, ⟨ceiling, limit, hceiling, hlimit, hle⟩, hdecided, horigin⟩ :=
      intersectConstraints_number h hvalue hnumeric
    obtain ⟨q', hq', ⟨top, bound, htop, hbound, hle'⟩, hrequested, horigin'⟩ :=
      intersectConstraints_number heffective hceiling (numericType_of_constraintNumber hlimit)
    cases hlimit.symm.trans hq'
    refine ⟨q, hq, ⟨top, bound, htop, hbound, hle.trans hle'⟩, fun r hr => ?_, hdecided, ?_⟩
    · obtain ⟨bound', hbound', hle''⟩ := hrequested r hr
      exact ⟨bound', hbound', hle.trans hle''⟩
    · rcases horigin with horigin | horigin
      · cases hceiling.symm.trans horigin
        rcases horigin' with horigin' | horigin'
        · exact Or.inl horigin'
        · exact Or.inr (Or.inl horigin')
      · exact Or.inr (Or.inr horigin)

/-! ### Narrowing at every depth -/

/-- What stands at a path of keys. -/
def atPath : PolicyValue → List String → Option PolicyValue
  | value, [] => some value
  | .object fields, key :: path => (fields.lookup key).bind (atPath · path)
  | _, _ :: _ => none

/-- The ceiling has something at the path: it bounds a number, is the same text, lists what a list has, and is
printed as a truth value or null is. -/
def Covers (ceiling : PolicyMap) (path : List String) (v : PolicyValue) : Prop :=
  ∃ l, atPath (.object ceiling) path = some l ∧
    (∀ q, constraintNumber v = some q → ∃ bound, constraintNumber l = some bound ∧ q ≤ bound) ∧
    (∀ text, v = .text text → l = .text text) ∧
    (∀ values, v = .list values →
      ∃ allowed, l = .list allowed ∧ ∀ x ∈ values, ∃ y ∈ allowed, sprint y = sprint x) ∧
    (v = .null ∨ (∃ b, v = .bool b) → sprint l = sprint v)

variable {got ceiling : PolicyMap} {value limit v : PolicyValue} {path : List String}

theorem lookup_of_constraintsNarrow (h : constraintsNarrow got ceiling = true)
    (hvalue : got.lookup key = some value) :
    ∃ limit, ceiling.lookup key = some limit ∧ narrowsTo value limit = true := by
  induction got with
  | nil => cases hvalue
  | cons entry rest ih =>
    obtain ⟨key', value'⟩ := entry
    rw [constraintsNarrow, Bool.and_eq_true] at h
    rw [lookup_cons] at hvalue
    cases hkey : key == key' with
    | false => exact ih h.2 (by rwa [hkey] at hvalue)
    | true =>
      obtain rfl := eq_of_beq hkey
      cases hlimit : ceiling.lookup key with
      | none => simp [hlimit] at h
      | some limit =>
        rw [hkey, Option.some.injEq] at hvalue
        rw [hlimit, hvalue] at h
        exact ⟨limit, rfl, h.1⟩

theorem narrowsTo_atPath (h : narrowsTo value limit = true) (hv : atPath value path = some v) :
    ∃ l, atPath limit path = some l ∧ narrowsTo v l = true := by
  induction path generalizing value limit with
  | nil =>
    cases hv
    exact ⟨limit, rfl, h⟩
  | cons key path ih =>
    -- Only objects have something below a key, and an object narrows to an object.
    cases value with
    | object fields =>
      obtain ⟨below, hbelow, hv⟩ := bind_eq_some_iff.mp hv
      cases limit with
      | object ceiling =>
        unfold narrowsTo at h
        obtain ⟨l, hl, hnarrows⟩ := lookup_of_constraintsNarrow h hbelow
        obtain ⟨l', hl', hrest⟩ := ih hnarrows hv
        exact ⟨l', bind_eq_some_iff.mpr ⟨l, hl, hl'⟩, hrest⟩
      | _ => simp [narrowsTo, constraintNumber] at h
    | _ => cases hv

theorem covers_of_constraintsNarrow (h : constraintsNarrow got ceiling = true)
    (hv : atPath (.object got) path = some v) : Covers ceiling path v := by
  have hobject : narrowsTo (.object got) (.object ceiling) = true := by
    rw [narrowsTo]
    exact h
  obtain ⟨l, hl, hnarrows⟩ := narrowsTo_atPath hobject hv
  unfold narrowsTo at hnarrows
  refine ⟨l, hl, fun q hq => ?_, ?_, ?_, ?_⟩
  · rw [hq] at hnarrows
    obtain ⟨bound, hbound, hle⟩ := (Option.any_eq_true _ _).mp hnarrows
    exact ⟨bound, hbound, of_decide_eq_true hle⟩
  · rintro text rfl
    cases l <;> simp_all [constraintNumber]
  · rintro values rfl
    cases l with
    | list allowed =>
      refine ⟨allowed, rfl, fun x hx => ?_⟩
      simpa [constraintNumber] using List.all_eq_true.mp hnarrows x hx
    | _ => simp [constraintNumber] at hnarrows
  · rintro (rfl | ⟨b, rfl⟩) <;> exact (of_decide_eq_true hnarrows).symm

end Policy

end AgentGovernor
