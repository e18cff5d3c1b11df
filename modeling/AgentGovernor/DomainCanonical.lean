import AgentGovernor.DomainResource

/-! Canonical forms of the domain package: the text of an identifier and its order, and the vector of
a reservation. Row locks are taken and pages are cut in the order of these texts. -/

namespace AgentGovernor

open List

/-! ### Identifier text

A Go string is a list of bytes. The text of an identifier is ASCII, so its bytes are the codes of its
characters. -/

/-- The digits of `n` to base `β` among `width` digits, from digit `first` on. -/
def positional (digit : Nat → UInt8) (β width n first count : Nat) : List UInt8 :=
  (List.range count).map fun k => digit (n / β ^ (width - 1 - (first + k)) % β)

namespace ID

def digit (n : Nat) : UInt8 := (hexDigit n).toUInt8

def text (id : ID) : List UInt8 := id.string.toList.map Char.toUInt8

/-- Byte `k` of the sixteen. -/
def byte (id : ID) (k : Nat) : UInt8 := UInt8.ofNat (id.bits.toNat / 256 ^ (15 - k) % 256)

def bytes (id : ID) : List UInt8 := (List.range 16).map id.byte

def ofBytes (bytes : List UInt8) : ID := ofNat (bytes.foldl (fun n b => n * 256 + b.toNat) 0)

/-- Version 7 and the RFC 9562 variant. -/
def isV7 (id : ID) : Bool := id.byte 6 >>> 4 = 7 ∧ id.byte 8 >>> 6 = 2

def dash : UInt8 := 45

/-- `strings.ToLower` on ASCII. What it does to other characters does not matter: the decoder refuses
them. -/
def lower (b : UInt8) : UInt8 := if 65 ≤ b ∧ b ≤ 90 then b + 32 else b

/-- The digits the decoder accepts, in either case. -/
def hexValue (b : UInt8) : Option Nat :=
  if 48 ≤ b ∧ b ≤ 57 then some (b.toNat - 48)
  else if 97 ≤ b ∧ b ≤ 102 then some (b.toNat - 87)
  else if 65 ≤ b ∧ b ≤ 70 then some (b.toNat - 55)
  else none

/-- `hex.Decode` into a big-endian number. -/
def hexDecode : Nat → List UInt8 → Option Nat
  | n, [] => some n
  | n, b :: rest => (hexValue b).bind fun d => hexDecode (n * 16 + d) rest

def slice (value : List UInt8) (first past : Nat) : List UInt8 := (value.take past).drop first

def parseID (value : List UInt8) : Option ID :=
  if value.length ≠ 36 ∨ value ≠ value.map lower ∨ value[8]? ≠ some dash ∨ value[13]? ≠ some dash ∨
      value[18]? ≠ some dash ∨ value[23]? ≠ some dash then none
  else
    let compact := slice value 0 8 ++ slice value 9 13 ++ slice value 14 18 ++ slice value 19 23 ++
      slice value 24 36
    match hexDecode 0 compact with
    | none => none
    | some n => if (ofNat n).isV7 then some (ofNat n) else none

def invalidID (message : String) : Failure := .plain ("invalid UUIDv7 identifier" ++ message)

/-- `milliseconds` is `now.UTC().UnixMilli()`, `random` what the reader holds. -/
def newID (milliseconds : Int) (random : List UInt8) : Except Failure ID :=
  if milliseconds < 0 ∨ milliseconds > 2 ^ 48 - 1 then
    .error (invalidID ": timestamp outside UUIDv7 range")
  else if random.length < 16 then .error (.plain "generate ID randomness")
  else
    let (bytes, _) := [5, 4, 3, 2, 1, 0].foldl
      (fun (bytes, left) i => (bytes.set i (UInt8.ofNat (left % 256)), left / 256))
      (random.take 16, milliseconds.toNat)
    let bytes := bytes.modify 6 fun b => b &&& 0x0f ||| 0x70
    let bytes := bytes.modify 8 fun b => b &&& 0x3f ||| 0x80
    .ok (ofBytes bytes)

end ID

/-! ### Positional texts -/

section positional

variable {f : Nat → UInt8} {β width n first count : Nat}

theorem positional_length : (positional f β width n first count).length = count := by
  simp [positional]

theorem positional_succ : positional f β width n first (count + 1) =
    f (n / β ^ (width - 1 - first) % β) :: positional f β width n (first + 1) count := by
  simp only [positional, range_succ_eq_map, map_cons, List.map_map, Nat.add_zero]
  congr 2
  funext k
  simp only [Function.comp_apply, Nat.succ_eq_add_one]
  rw [show first + (k + 1) = first + 1 + k by omega]

theorem positional_append (count' : Nat) : positional f β width n first count ++
    positional f β width n (first + count) count' = positional f β width n first (count + count') := by
  induction count generalizing first with
  | zero => simp [positional]
  | succ count ih =>
    rw [positional_succ, show count + 1 + count' = count + count' + 1 by omega, positional_succ,
      cons_append, show first + (count + 1) = first + 1 + count by omega, ih]

/-- Equal leading digits decide nothing: the order of two texts is the order of the two numbers as
soon as it is for what follows in the case that these digits are equal too. -/
theorem positional_lt {m : Nat} {x y : List UInt8} (hβ : 0 < β)
    (hf : ∀ d < β, ∀ e < β, (f d < f e ↔ d < e)) (hfirst : first + count ≤ width)
    (hleading : m / β ^ (width - first) = n / β ^ (width - first))
    (hrest : m / β ^ (width - (first + count)) = n / β ^ (width - (first + count)) →
      (x < y ↔ m < n)) :
    positional f β width m first count ++ x < positional f β width n first count ++ y ↔ m < n := by
  induction count generalizing first with
  | zero => simpa [positional] using hrest hleading
  | succ count ih =>
    rw [positional_succ, positional_succ, cons_append, cons_append, cons_lt_cons_iff]
    have hp : width - first = width - 1 - first + 1 := by omega
    rw [hp, pow_succ, ← Nat.div_div_eq_div_mul, ← Nat.div_div_eq_div_mul] at hleading
    set u := m / β ^ (width - 1 - first) with hu
    set v := n / β ^ (width - 1 - first) with hv
    have hum := Nat.div_add_mod u β
    have hvm := Nat.div_add_mod v β
    rw [hleading] at hum
    rw [hf _ (Nat.mod_lt _ hβ) _ (Nat.mod_lt _ hβ)]
    rcases lt_trichotomy (u % β) (v % β) with hlt | heq | hgt
    · have huv : u < v := by omega
      exact iff_of_true (Or.inl hlt) (lt_of_not_ge fun hle => absurd (Nat.div_le_div_right hle) (not_le.mpr huv))
    · have huv : u = v := by omega
      have hih := @ih (first + 1) (by omega)
        (by rwa [show width - (first + 1) = width - 1 - first by omega])
        (by rwa [show first + 1 + count = first + (count + 1) by omega])
      rw [hih, heq]
      simp
    · have huv : v < u := by omega
      have hne : f (u % β) ≠ f (v % β) := by
        intro h
        have := (hf _ (Nat.mod_lt v hβ) _ (Nat.mod_lt u hβ)).mpr hgt
        rw [h] at this
        exact UInt8.lt_irrefl _ this
      refine iff_of_false (fun h => h.elim (fun h => absurd h (by omega)) fun h => hne h.1) ?_
      exact fun hlt => absurd (Nat.div_le_div_right hlt.le) (not_le.mpr huv)

end positional

/-! ### Identifiers are their texts -/

namespace ID

theorem hexValue_digit : ∀ d < 16, hexValue (digit d) = some d := by decide

theorem lower_digit : ∀ d < 16, lower (digit d) = digit d := by decide

theorem digit_lt_iff : ∀ d < 16, ∀ e < 16, (digit d < digit e ↔ d < e) := by decide

/-- A lower-case byte that decodes is the digit of its value. -/
theorem digit_of_hexValue {b : UInt8} {d : Nat} (h : hexValue b = some d) (hlower : lower b = b) :
    d < 16 ∧ b = digit d := by
  have hall : ∀ k < 256, ∀ d ∈ hexValue (UInt8.ofNat k), lower (UInt8.ofNat k) = UInt8.ofNat k →
      d < 16 ∧ UInt8.ofNat k = digit d := by decide +kernel
  have hb := hall b.toNat b.toNat_lt
  rw [UInt8.ofNat_toNat] at hb
  exact hb d h hlower

theorem hexDecode_positional {n first count : Nat} (hfirst : first + count ≤ 32) :
    hexDecode (n / 16 ^ (32 - first)) (positional digit 16 32 n first count) =
      some (n / 16 ^ (32 - (first + count))) := by
  induction count generalizing first with
  | zero => simp [positional, hexDecode]
  | succ count ih =>
    rw [positional_succ, hexDecode, hexValue_digit _ (Nat.mod_lt _ (by decide)), Option.bind_some,
      show 32 - first = 32 - 1 - first + 1 by omega, pow_succ, ← Nat.div_div_eq_div_mul,
      Nat.div_add_mod', show 32 - 1 - first = 32 - (first + 1) by omega, ih (by omega),
      show first + 1 + count = first + (count + 1) by omega]

theorem positional_of_hexDecode {l : List UInt8} {m n first : Nat} (hfirst : first + l.length = 32)
    (hlower : l.map lower = l) (h : hexDecode m l = some n) :
    n / 16 ^ l.length = m ∧ l = positional digit 16 32 n first l.length := by
  induction l generalizing m first with
  | nil =>
    cases h
    simp [positional]
  | cons b rest ih =>
    rw [map_cons, List.cons.injEq] at hlower
    rw [hexDecode, Option.bind_eq_some_iff] at h
    obtain ⟨d, hd, h⟩ := h
    obtain ⟨hlt, hb⟩ := digit_of_hexValue hd hlower.1
    rw [length_cons] at hfirst
    obtain ⟨hm, hrest⟩ := @ih _ (first + 1) (by omega) hlower.2 h
    rw [length_cons, pow_succ, ← Nat.div_div_eq_div_mul, hm]
    refine ⟨by omega, ?_⟩
    rw [positional_succ, show 32 - 1 - first = rest.length by omega, hm, ← hrest, hb,
      show (m * 16 + d) % 16 = d by omega]

variable {a b id : ID}

theorem text_eq : id.text = positional digit 16 32 id.bits.toNat 0 8 ++ dash ::
    (positional digit 16 32 id.bits.toNat 8 4 ++ dash ::
      (positional digit 16 32 id.bits.toNat 12 4 ++ dash ::
        (positional digit 16 32 id.bits.toNat 16 4 ++ dash ::
          positional digit 16 32 id.bits.toNat 20 12))) := by
  simp only [text, string, hex, String.toList_ofList, map_append, map_cons, List.map_map,
    append_assoc, cons_append]
  rfl

theorem bits_lt (id : ID) : id.bits.toNat < 16 ^ 32 := id.bits.isLt

theorem text_lt_iff : a.text < b.text ↔ a.bits.toNat < b.bits.toNat := by
  have hleading : a.bits.toNat / 16 ^ (32 - 0) = b.bits.toNat / 16 ^ (32 - 0) := by
    rw [Nat.div_eq_of_lt a.bits_lt, Nat.div_eq_of_lt b.bits_lt]
  have hdash : ∀ {x y : List UInt8}, dash :: x < dash :: y ↔ x < y := by simp
  rw [text_eq, text_eq, ← append_nil (positional digit 16 32 a.bits.toNat 20 12),
    ← append_nil (positional digit 16 32 b.bits.toNat 20 12)]
  -- Group by group; the dashes stand at the same places of both texts.
  refine positional_lt (by decide) digit_lt_iff (by decide) hleading fun h => hdash.trans ?_
  refine positional_lt (by decide) digit_lt_iff (by decide) h fun h => hdash.trans ?_
  refine positional_lt (by decide) digit_lt_iff (by decide) h fun h => hdash.trans ?_
  refine positional_lt (by decide) digit_lt_iff (by decide) h fun h => hdash.trans ?_
  refine positional_lt (by decide) digit_lt_iff (by decide) h fun h => ?_
  simp only [Nat.reduceAdd, Nat.sub_self, pow_zero, Nat.div_one] at h
  simp [h]

/-- Numbers are ordered as their big-endian bytes are. -/
theorem positional_byte_lt {width m n : Nat} (hm : m < 256 ^ width) (hn : n < 256 ^ width) :
    positional UInt8.ofNat 256 width m 0 width < positional UInt8.ofNat 256 width n 0 width ↔ m < n := by
  have hbyte : ∀ d < 256, ∀ e < 256, (UInt8.ofNat d < UInt8.ofNat e ↔ d < e) := by
    intro d hd e he
    rw [UInt8.lt_iff_toNat_lt, UInt8.toNat_ofNat_of_lt' hd, UInt8.toNat_ofNat_of_lt' he]
  rw [← append_nil (positional _ _ _ m _ _), ← append_nil (positional _ _ _ n _ _)]
  refine positional_lt (by decide) hbyte (Nat.zero_add _).le ?_ fun h => ?_
  · rw [Nat.sub_zero, Nat.div_eq_of_lt hm, Nat.div_eq_of_lt hn]
  · simp only [Nat.zero_add, Nat.sub_self, pow_zero, Nat.div_one] at h
    simp [h]

theorem bytes_lt_iff : a.bytes < b.bytes ↔ a.bits.toNat < b.bits.toNat := by
  have hbytes : ∀ id : ID, id.bytes = positional UInt8.ofNat 256 16 id.bits.toNat 0 16 := by
    intro id
    simp [bytes, positional, byte]
  rw [hbytes, hbytes]
  exact positional_byte_lt a.bits.isLt b.bits.isLt

theorem toNat_ofNat {n : Nat} (h : n < 2 ^ 128) : (ofNat n).bits.toNat = n :=
  (BitVec.toNat_ofNat n 128).trans (Nat.mod_eq_of_lt h)

/-! Reading a text. -/

theorem drop_eq_slice {value : List UInt8} {first past : Nat} (hle : first ≤ past)
    (hdash : value[past]? = some dash) :
    value.drop first = slice value first past ++ dash :: value.drop (past + 1) := by
  obtain ⟨hlt, hget⟩ := List.getElem?_eq_some_iff.mp hdash
  have hsplit : value = value.take past ++ dash :: value.drop (past + 1) := by
    rw [← hget, ← drop_eq_getElem_cons hlt, take_append_drop]
  calc value.drop first = (value.take past ++ dash :: value.drop (past + 1)).drop first := by
        rw [← hsplit]
    _ = slice value first past ++ dash :: value.drop (past + 1) := by
        rw [drop_append_of_le_length (by rw [length_take]; omega), slice]

theorem map_lower_slice {value : List UInt8} (h : value = value.map lower) (first past : Nat) :
    (slice value first past).map lower = slice value first past := by
  rw [slice, map_drop, map_take, ← h]

/-- The five groups of a text of 32 digits. -/
theorem positional_groups (n : Nat) : positional digit 16 32 n 0 32 =
    positional digit 16 32 n 0 8 ++ positional digit 16 32 n 8 4 ++
      positional digit 16 32 n 12 4 ++ positional digit 16 32 n 16 4 ++
      positional digit 16 32 n 20 12 := by
  rw [positional_append 4, positional_append 4, positional_append 4, positional_append 12]

theorem text_of_parseID {value : List UInt8} {id : ID} (h : parseID value = some id) :
    value = id.text := by
  unfold parseID at h
  split_ifs at h with hguard
  simp only [not_or, not_not] at hguard
  obtain ⟨hlength, hlower, h8, h13, h18, h23⟩ := hguard
  have hslice : ∀ first past, past ≤ 36 → (slice value first past).length = past - first := by
    intro first past hpast
    simp only [slice, length_drop, length_take]
    omega
  dsimp only at h
  split at h
  · cases h
  · rename_i n hdecode
    split_ifs at h
    cases h
    obtain ⟨hzero, hcompact⟩ := @positional_of_hexDecode _ _ _ 0 (by simp [hslice])
      (by simp only [map_append, map_lower_slice hlower]) hdecode
    simp only [length_append, hslice, le_refl, Nat.reduceLeDiff, Nat.reduceSub, Nat.reduceAdd]
      at hzero hcompact
    have hn : n < 16 ^ 32 := (Nat.div_eq_zero_iff_lt (by decide)).mp hzero
    rw [positional_groups] at hcompact
    obtain ⟨h₁, h₅⟩ := append_inj hcompact (by simp [hslice, positional_length])
    obtain ⟨h₁, h₄⟩ := append_inj h₁ (by simp [hslice, positional_length])
    obtain ⟨h₁, h₃⟩ := append_inj h₁ (by simp [hslice, positional_length])
    obtain ⟨h₁, h₂⟩ := append_inj h₁ (by simp [hslice, positional_length])
    have hlast : value.drop 24 = slice value 24 36 := by rw [slice, take_of_length_le hlength.le]
    rw [text_eq, toNat_ofNat hn, ← h₁, ← h₂, ← h₃, ← h₄, ← h₅, ← hlast,
      ← drop_eq_slice (by decide) h23, ← drop_eq_slice (by decide) h18,
      ← drop_eq_slice (by decide) h13, ← drop_eq_slice (by decide) h8, drop_zero]

theorem parseID_text {id : ID} (h : id.isV7) : parseID id.text = some id := by
  have hlower : id.text = id.text.map lower := by
    have hpart : ∀ first count, (positional digit 16 32 id.bits.toNat first count).map lower =
        positional digit 16 32 id.bits.toNat first count := by
      intro first count
      simp only [positional, List.map_map]
      exact map_congr_left fun k _ => lower_digit _ (Nat.mod_lt _ (by decide))
    simp only [text_eq, map_append, map_cons, hpart]
    rfl
  have hcompact : slice id.text 0 8 ++ slice id.text 9 13 ++ slice id.text 14 18 ++
      slice id.text 19 23 ++ slice id.text 24 36 = positional digit 16 32 id.bits.toNat 0 32 := by
    rw [positional_groups]
    simp [text_eq, slice, take_append, drop_append, positional_length,
      drop_of_length_le, take_of_length_le]
  have hdecode := @hexDecode_positional id.bits.toNat 0 32 (by decide)
  rw [Nat.div_eq_of_lt (show id.bits.toNat < 16 ^ (32 - 0) from id.bits.isLt)] at hdecode
  simp only [Nat.zero_add, Nat.sub_self, pow_zero, Nat.div_one] at hdecode
  have hid : ofNat id.bits.toNat = id := by
    cases id
    simp [ofNat]
  unfold parseID
  rw [if_neg]
  · simp only [hcompact, hdecode, hid, h, if_true]
  · simp only [not_or, not_not]
    refine ⟨?_, hlower, ?_, ?_, ?_, ?_⟩ <;>
      simp [text_eq, positional_length]

/-- The time leads the sixteen bytes: it is the quotient by the other eighty bits. -/
theorem newID_time {milliseconds : Int} {random : List UInt8} {id : ID}
    (h : newID milliseconds random = .ok id) :
    ((id.bits.toNat / 2 ^ 80 : Nat) : Int) = milliseconds := by
  unfold newID at h
  split_ifs at h with hrange hrandom
  have htake : (random.take 16).length = 16 := by
    rw [length_take]
    omega
  match hbytes : random.take 16, htake with
  | [_, _, _, _, _, _, b₆, b₇, b₈, b₉, b₁₀, b₁₁, b₁₂, b₁₃, b₁₄, b₁₅], _ =>
    simp only [hbytes, foldl_cons, foldl_nil, set_cons_succ, set_cons_zero,
      modify_succ_cons, modify_zero_cons] at h
    cases h
    simp only [ofBytes, foldl_cons, foldl_nil, UInt8.toNat_ofNat']
    generalize b₆ &&& 15 ||| 112 = c₆, b₈ &&& 63 ||| 128 = c₈
    have hb₇ := b₇.toNat_lt
    have hb₉ := b₉.toNat_lt
    have hb₁₀ := b₁₀.toNat_lt
    have hb₁₁ := b₁₁.toNat_lt
    have hb₁₂ := b₁₂.toNat_lt
    have hb₁₃ := b₁₃.toNat_lt
    have hb₁₄ := b₁₄.toNat_lt
    have hb₁₅ := b₁₅.toNat_lt
    have hc₆ := c₆.toNat_lt
    have hc₈ := c₈.toNat_lt
    rw [toNat_ofNat (by omega)]
    omega

/-- Identifiers and their texts: only the text of an identifier is read, every text is read back,
texts are ordered as the bytes are, and a later millisecond gives a later text. -/
theorem identifiers_read_and_ordered_as_texts :
    (∀ value id, parseID value = some id → value = id.text) ∧
      (∀ id : ID, id.isV7 → parseID id.text = some id) ∧
      (∀ a b : ID, a.text < b.text ↔ a.bytes < b.bytes) ∧
      ∀ milliseconds later random random' a b, newID milliseconds random = .ok a →
        newID later random' = .ok b → milliseconds < later → a.text < b.text := by
  refine ⟨fun _ _ => text_of_parseID, fun _ => parseID_text, ?_, ?_⟩
  · intro a b
    rw [text_lt_iff, bytes_lt_iff]
  · intro milliseconds later random random' a b ha hb hlt
    rw [text_lt_iff]
    have hlt' : a.bits.toNat / 2 ^ 80 < b.bits.toNat / 2 ^ 80 := by
      rw [← newID_time ha, ← newID_time hb] at hlt
      exact_mod_cast hlt
    exact lt_of_not_ge fun hle => absurd (Nat.div_le_div_right hle) (not_le.mpr hlt')

end ID

/-! ### Reservation vectors -/

/-- The call in the memory it runs in: the caller's slice is one of the arrays, the copy is appended
to them and sorted where it stands. -/
def validateAndSortIn (arrays : List (List ResourceReservationAmount)) (address : Nat)
    (reservation : ResourceReservation) :
    List (List ResourceReservationAmount) × Except Failure ResourceReservation :=
  let amounts := arrays.getD address []
  if reservation.id.isZero ∨ reservation.tenantID.isZero ∨ reservation.parentEnvelopeID.isZero ∨
      reservation.childEnvelopeID.isZero ∨ reservation.childRunID.isZero then
    (arrays, .error (invalidReservation "identifiers must be set"))
  else if reservation.parentEnvelopeID = reservation.childEnvelopeID ∨ reservation.createdAt.isZero ∨
      amounts = [] then
    (arrays, .error (invalidReservation "parent, time, and amounts are invalid"))
  else if reservation.expiresAt.any fun expiry => !expiry.after reservation.createdAt then
    (arrays, .error (invalidReservation "expiry must follow creation"))
  else
    let copied := arrays ++ [amounts]
    let sorted := copied.modify arrays.length sortAmounts
    let result := sorted.getD arrays.length []
    match checkAmounts none result with
    | .error error => (sorted, .error error)
    | .ok _ => (sorted, .ok { reservation with amounts := result })

theorem validateAndSortIn_spec {arrays : List (List ResourceReservationAmount)} {address : Nat}
    {reservation : ResourceReservation} (h : arrays[address]? = some reservation.amounts) :
    (validateAndSortIn arrays address reservation).2 =
        validateAndSortResourceReservation reservation ∧
      (validateAndSortIn arrays address reservation).1[address]? = some reservation.amounts := by
  have hlt : address < arrays.length := (List.getElem?_eq_some_iff.mp h).1
  have hamounts : arrays.getD address [] = reservation.amounts := by simp [List.getD, h]
  have hother : ((arrays ++ [reservation.amounts]).modify arrays.length sortAmounts)[address]? =
      some reservation.amounts := by
    rw [getElem?_modify_ne _ _ (by omega), getElem?_append_left hlt, h]
  have hcopy : ((arrays ++ [reservation.amounts]).modify arrays.length sortAmounts).getD
      arrays.length [] = sortAmounts reservation.amounts := by
    simp [List.getD]
  unfold validateAndSortIn validateAndSortResourceReservation
  simp only [hamounts, hcopy, sortAmounts]
  split_ifs
  · exact ⟨rfl, h⟩
  · exact ⟨rfl, h⟩
  · exact ⟨rfl, h⟩
  · cases checkAmounts none _ with
    | error error => exact ⟨rfl, hother⟩
    | ok _ => exact ⟨rfl, hother⟩

/-- Sorted vectors of one set of amounts are equal once no dimension appears twice. -/
theorem sortAmounts_congr {amounts amounts' : List ResourceReservationAmount}
    (hperm : amounts.Perm amounts') (hnodup : (amounts'.map (·.dimensionID)).Nodup) :
    sortAmounts amounts = sortAmounts amounts' := by
  have hsorted : (sortAmounts amounts).Perm amounts' := (sortAmounts_perm _).trans hperm
  refine List.Perm.eq_of_pairwise (fun a b ha hb hab hba => ?_) (sortAmounts_sorted _)
    (sortAmounts_sorted _) (hsorted.trans (sortAmounts_perm _).symm)
  exact inj_on_of_nodup_map hnodup (hsorted.mem_iff.mp ha)
    ((sortAmounts_perm _).mem_iff.mp hb) (ID.le_antisymm hab hba)

theorem sortAmounts_strict {amounts : List ResourceReservationAmount}
    (hnodup : (amounts.map (·.dimensionID)).Nodup) :
    (sortAmounts amounts).Pairwise fun a b => a.dimensionID.text < b.dimensionID.text := by
  have hne := pairwise_map.mp (((sortAmounts_perm amounts).map _).nodup_iff.mpr hnodup)
  refine ((sortAmounts_sorted amounts).and hne).imp fun {a b} h => ?_
  rw [ID.text_lt_iff]
  refine lt_of_le_of_ne h.1 fun heq => h.2 (ID.le_antisymm h.1 heq.ge)

/-- Exactly the valid commands pass; the amounts come back strictly increasing by dimension, whatever
order they were given in, and the slice of the caller stays as it is. -/
theorem reservation_vector_canonical (reservation : ResourceReservation) :
    ((∃ result, validateAndSortResourceReservation reservation = .ok result) ↔ reservation.Valid) ∧
      (∀ result, validateAndSortResourceReservation reservation = .ok result →
        result = { reservation with amounts := result.amounts } ∧
        result.amounts.Perm reservation.amounts ∧
        (result.amounts.Pairwise fun a b => a.dimensionID.text < b.dimensionID.text) ∧
        ∀ amounts, amounts.Perm reservation.amounts →
          validateAndSortResourceReservation { reservation with amounts := amounts } = .ok result) ∧
      ∀ arrays address, arrays[address]? = some reservation.amounts →
        (validateAndSortIn arrays address reservation).2 =
            validateAndSortResourceReservation reservation ∧
          (validateAndSortIn arrays address reservation).1[address]? = some reservation.amounts := by
  refine ⟨?_, fun result h => ?_, fun arrays address => validateAndSortIn_spec⟩
  · simp only [validateAndSort_eq_ok_iff, exists_and_left, exists_eq, and_true]
  · obtain ⟨hvalid, rfl⟩ := validateAndSort_eq_ok_iff.mp h
    refine ⟨rfl, sortAmounts_perm _, sortAmounts_strict hvalid.distinct, fun amounts hperm => ?_⟩
    rw [validateAndSort_eq_ok_iff]
    refine ⟨⟨hvalid.identified, hvalid.delegates, hvalid.created, hvalid.expires, ?_, ?_, ?_⟩, ?_⟩
    · exact fun hnil : amounts = [] => hvalid.nonempty (hnil ▸ hperm).symm.eq_nil
    · exact fun a ha => hvalid.positive a (hperm.mem_iff.mp ha)
    · exact (hperm.map _).nodup_iff.mpr hvalid.distinct
    · simp only [sortAmounts_congr hperm hvalid.distinct]

end AgentGovernor
