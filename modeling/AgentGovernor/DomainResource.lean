import AgentGovernor.DomainRun
import Mathlib.Data.Rat.Floor

/-! The resource commands of the domain package and their validators: root grants out of resolved
constraints, reservations, trusted usage, extensions, settlements and run admissions. -/

namespace AgentGovernor

open List Option

/-! ### Dimensions -/

inductive ResourceClass where
  | consumable | structural | deadline
  deriving DecidableEq

inductive ResourceAggregation where
  | sum | maximum | minimum | absolute
  deriving DecidableEq

structure ResourceDimension where
  id : ID
  name : String
  resourceClass : ResourceClass
  unit : String
  scale : Nat
  minimum : Int
  maximum : Int
  aggregation : ResourceAggregation
  deriving DecidableEq

/-- The `CHECK`s of `resource_dimensions`, the columns being `bigint`. -/
def ResourceDimension.valid (d : ResourceDimension) : Bool :=
  resourceDimensionNamePattern d.name && validUnit d.unit && d.scale ≤ 18
    && 0 ≤ d.minimum && d.minimum ≤ d.maximum && d.maximum ≤ maxInt64
    && match d.resourceClass with
      | .consumable => d.aggregation = .sum
      | .structural => d.aggregation = .maximum || d.aggregation = .minimum
      | .deadline => d.aggregation = .absolute && d.unit = "unix_microseconds_utc" && d.scale = 0

/-- The repository of one tenant: its scope, its dimension definitions, which no operation changes, the
SHA-256 function, of which only equality of results is ever used, and what is used of JSON objects: which
texts are objects to the program, and the text that a `jsonb` column gives back for one. -/
structure Deployment where
  tenantID : ID
  dimensions : List ResourceDimension
  sha256 : String → String
  validJSONObject : String → Bool
  jsonb : String → Option String
  jsonb_valid : ∀ text stored, jsonb text = some stored → validJSONObject stored = true
  tenantID_set : tenantID.isZero = false
  dimensions_valid : ∀ d ∈ dimensions, d.valid = true
  names_nodup : (dimensions.map (·.name)).Nodup
  ids_nodup : (dimensions.map (·.id)).Nodup

namespace Deployment

variable (dep : Deployment)

def byName (name : String) : Option ResourceDimension := dep.dimensions.find? (·.name = name)

def byID (id : ID) : Option ResourceDimension := dep.dimensions.find? (·.id = id)

/-- `"sha256:" + hex.EncodeToString(sum[:])`. -/
def digest (material : String) : String := "sha256:" ++ dep.sha256 material

variable {dep}

theorem digest_injective (h : Function.Injective dep.sha256) : Function.Injective dep.digest :=
  fun _ _ heq => h (String.append_right_inj _ |>.mp heq)

variable {d : ResourceDimension}

theorem byID_of_mem (h : d ∈ dep.dimensions) : dep.byID d.id = some d := by
  cases hfind : dep.byID d.id with
  | none =>
    have hnone := find?_eq_none.mp hfind d h
    simp at hnone
  | some d' =>
    have hid : d'.id = d.id := by simpa using find?_some hfind
    rw [inj_on_of_nodup_map dep.ids_nodup (mem_of_find?_eq_some hfind) h hid]

theorem byName_spec {name : String} (h : dep.byName name = some d) :
    d.name = name ∧ dep.byID d.id = some d :=
  ⟨by simpa using find?_some h, byID_of_mem (mem_of_find?_eq_some h)⟩

end Deployment

/-! ### Root grants -/

/-- A value of a constraint map: the four numeric Go types it may hold, or anything else. -/
inductive ConstraintValue where
  | int (value : Int)
  | int64 (value : Int)
  | number (text : String)
  | float64 (value : Rat)
  | other
  deriving DecidableEq

abbrev Constraints := List (String × ConstraintValue)

structure RootResourceGrant where
  dimensionName : String
  coefficient : Int
  deriving DecidableEq

def rootResourceConstraintDimensions : List (String × String) :=
  [("max_budget_usd_microunits", "budget_usd_microunits"),
   ("max_llm_tokens", "llm_tokens"),
   ("max_tool_calls", "tool_calls"),
   ("max_tool_calls_per_minute", "tool_calls_per_minute"),
   ("max_active_children", "active_children"),
   ("max_total_children", "total_children"),
   ("max_delegation_depth", "delegation_depth")]

/-- `strconv.ParseInt(text, 10, 64)`. -/
def parseInt64 (text : String) : Option Int :=
  let (negative, digits) := match text.toList with
    | '-' :: rest => (true, rest)
    | '+' :: rest => (false, rest)
    | rest => (false, rest)
  if digits.isEmpty || !digits.all isDigit then none
  else
    let magnitude : Int := digits.foldl (fun n c => 10 * n + (c.toNat - 48 : Nat)) 0
    let value := if negative then -magnitude else magnitude
    if -maxInt64 - 1 ≤ value ∧ value ≤ maxInt64 then some value else none

/-- An integral `float64` of 2^63 or more, or below -2^63, converts to the least `int64`, which is
refused as negative. -/
def exactInt64 : ConstraintValue → Option Int
  | .int n => some n
  | .int64 n => some n
  | .number text => parseInt64 text
  | .float64 q => if q.isInt ∧ q < 9223372036854775808 then some q.num else none
  | .other => none

def exactNonnegativeInt64 (value : ConstraintValue) : Option Int :=
  (exactInt64 value).bind fun result => if result < 0 then none else some result

def rootGrant (constraints : Constraints) (entry : String × String) :
    Except Failure (Option RootResourceGrant) :=
  match constraints.lookup entry.1 with
  | none => .ok none
  | some value =>
    match exactNonnegativeInt64 value with
    | none => .error (.plain ("invalid resource dimension: " ++ entry.1
        ++ " must be an exact nonnegative integer"))
    | some coefficient => .ok (some ⟨entry.2, coefficient⟩)

def rootResourceGrants (constraints : Constraints) : Except Failure (List RootResourceGrant) := do
  let grants ← rootResourceConstraintDimensions.mapM (rootGrant constraints)
  return (grants.filterMap id).insertionSort fun a b => a.dimensionName ≤ b.dimensionName

variable {constraints : Constraints}

theorem rootGrant_spec {entry : String × String}
    {grant : RootResourceGrant} (h : rootGrant constraints entry = .ok (some grant)) :
    grant.dimensionName = entry.2 ∧ 0 ≤ grant.coefficient ∧
      (constraints.lookup entry.1).isSome = true := by
  unfold rootGrant at h
  split at h
  · cases h
  · rename_i value hlookup
    split at h
    · cases h
    · rename_i coefficient hvalue
      cases h
      refine ⟨rfl, ?_, by rw [hlookup]; rfl⟩
      unfold exactNonnegativeInt64 at hvalue
      rw [bind_eq_some_iff] at hvalue
      obtain ⟨result, _, hresult⟩ := hvalue
      split_ifs at hresult with hneg
      cases hresult
      exact not_lt.mp hneg

variable {entries : List (String × String)} {grants : List (Option RootResourceGrant)}

/-- The conversions behind the grants, in the order of the table. -/
theorem rootGrants_forall₂
    (h : entries.mapM (rootGrant constraints) = .ok grants) :
    List.Forall₂ (fun entry grant => rootGrant constraints entry = .ok grant) entries grants := by
  induction entries generalizing grants with
  | nil =>
    cases h
    exact .nil
  | cons entry entries ih =>
    rw [mapM_cons, bind_eq_ok] at h
    obtain ⟨grant, hgrant, h⟩ := h
    obtain ⟨rest, hrest, h⟩ := bind_eq_ok.mp h
    cases h
    exact .cons hgrant (ih hrest)

/-- The grants name dimensions of the table, in its order. -/
theorem rootGrants_sublist
    (h : List.Forall₂ (fun entry grant => rootGrant constraints entry = .ok grant) entries grants) :
    ((grants.filterMap id).map (·.dimensionName)).Sublist (entries.map (·.2)) := by
  induction h with
  | nil => exact List.Sublist.slnil
  | @cons entry grant _ rest hgrant _ ih =>
    cases grant with
    | none => exact ih.cons _
    | some grant =>
      rw [show (some grant :: rest).filterMap id = grant :: rest.filterMap id from rfl,
        map_cons, map_cons, (rootGrant_spec hgrant).1]
      exact ih.cons_cons _

/-- A grant comes from an entry of the table, and an entry with a constraint gives a grant. -/
theorem mem_rootGrants
    (h : List.Forall₂ (fun entry grant => rootGrant constraints entry = .ok grant) entries grants) :
    (∀ g ∈ grants.filterMap id, ∃ entry ∈ entries, rootGrant constraints entry = .ok (some g)) ∧
      ∀ entry ∈ entries, (constraints.lookup entry.1).isSome = true →
        ∃ g ∈ grants.filterMap id, g.dimensionName = entry.2 := by
  induction h with
  | nil => exact ⟨fun g hg => absurd hg not_mem_nil, fun e he => absurd he not_mem_nil⟩
  | @cons entry grant entries rest hgrant _ ih =>
    obtain ⟨hback, hforth⟩ := ih
    constructor
    · intro g hg
      obtain ⟨grant', hmem, rfl⟩ := mem_filterMap.mp hg
      rcases mem_cons.mp hmem with rfl | hmem
      · exact ⟨entry, mem_cons_self, hgrant⟩
      · obtain ⟨entry', hentry', hok⟩ := hback g (mem_filterMap.mpr ⟨_, hmem, rfl⟩)
        exact ⟨entry', mem_cons_of_mem _ hentry', hok⟩
    · intro entry' hentry' hsome
      rcases mem_cons.mp hentry' with rfl | hentry'
      · obtain ⟨value, hvalue⟩ := isSome_iff_exists.mp hsome
        cases grant with
        | none =>
          simp only [rootGrant, hvalue] at hgrant
          split at hgrant <;> cases hgrant
        | some g => exact ⟨g, mem_cons_self, (rootGrant_spec hgrant).1⟩
      · obtain ⟨g, hg, hname⟩ := hforth entry' hentry' hsome
        obtain ⟨_, hmem, rfl⟩ := mem_filterMap.mp hg
        exact ⟨g, mem_filterMap.mpr ⟨_, mem_cons_of_mem _ hmem, rfl⟩, hname⟩

/-- Root grants name each dimension at most once and are nonnegative; they are those of the constraints
that the map holds. -/
theorem rootResourceGrants_spec {grants : List RootResourceGrant}
    (h : rootResourceGrants constraints = .ok grants) :
    (grants.map (·.dimensionName)).Nodup ∧ (∀ g ∈ grants, 0 ≤ g.coefficient) ∧
      ∀ name, (∃ g ∈ grants, g.dimensionName = name) ↔
        ∃ entry ∈ rootResourceConstraintDimensions, entry.2 = name ∧
          (constraints.lookup entry.1).isSome = true := by
  obtain ⟨raw, hmap, h⟩ := bind_eq_ok.mp h
  cases h
  have hall := rootGrants_forall₂ hmap
  obtain ⟨hback, hforth⟩ := mem_rootGrants hall
  have hperm := perm_insertionSort (fun a b : RootResourceGrant =>
    a.dimensionName ≤ b.dimensionName) (raw.filterMap id)
  have hnames : (rootResourceConstraintDimensions.map (·.2)).Nodup := by decide
  refine ⟨(hperm.map _).nodup_iff.mpr ((rootGrants_sublist hall).nodup hnames), fun g hg => ?_,
    fun name => ⟨?_, ?_⟩⟩
  · obtain ⟨_, _, hok⟩ := hback g (hperm.mem_iff.mp hg)
    exact (rootGrant_spec hok).2.1
  · rintro ⟨g, hg, rfl⟩
    obtain ⟨entry, hentry, hok⟩ := hback g (hperm.mem_iff.mp hg)
    obtain ⟨hname, _, hsome⟩ := rootGrant_spec hok
    exact ⟨entry, hentry, hname.symm, hsome⟩
  · rintro ⟨entry, hentry, rfl, hsome⟩
    obtain ⟨g, hg, hname⟩ := hforth entry hentry hsome
    exact ⟨g, hperm.mem_iff.mpr hg, hname⟩

/-- The root grants are the values of the constraints. -/
theorem mem_rootResourceGrants {grants : List RootResourceGrant}
    (h : rootResourceGrants constraints = .ok grants) (name : String) (v : Int) :
    ⟨name, v⟩ ∈ grants ↔ ∃ entry ∈ rootResourceConstraintDimensions, entry.2 = name ∧
      (constraints.lookup entry.1).bind exactNonnegativeInt64 = some v := by
  have hrootGrant : ∀ entry : String × String,
      rootGrant constraints entry = .ok (some ⟨entry.2, v⟩) ↔
        (constraints.lookup entry.1).bind exactNonnegativeInt64 = some v := by
    intro entry
    unfold rootGrant
    cases hlookup : constraints.lookup entry.1 with
    | none => simp
    | some value => cases hvalue : exactNonnegativeInt64 value <;> simp [hvalue]
  obtain ⟨raw, hmap, h⟩ := bind_eq_ok.mp h
  cases h
  have hall := rootGrants_forall₂ hmap
  rw [(perm_insertionSort _ _).mem_iff]
  constructor
  · intro hg
    obtain ⟨entry, hentry, hok⟩ := (mem_rootGrants hall).1 _ hg
    have hname : name = entry.2 := (rootGrant_spec hok).1
    subst hname
    exact ⟨entry, hentry, rfl, (hrootGrant entry).mp hok⟩
  · rintro ⟨entry, hentry, rfl, hvalue⟩
    obtain ⟨value, hlookup, _⟩ := bind_eq_some_iff.mp hvalue
    obtain ⟨g, hg, hname⟩ := (mem_rootGrants hall).2 entry hentry (by rw [hlookup]; rfl)
    -- No other entry gives a grant of this name.
    obtain ⟨entry', hentry', hok⟩ := (mem_rootGrants hall).1 g hg
    have hnames : (rootResourceConstraintDimensions.map (·.2)).Nodup := by decide
    have hsame : entry' = entry := inj_on_of_nodup_map hnames hentry' hentry
      ((rootGrant_spec hok).1.symm.trans hname)
    rw [hsame, (hrootGrant entry).mpr hvalue] at hok
    cases hok
    exact hg

/-! ### Reservations -/

structure ResourceReservationAmount where
  dimensionID : ID
  coefficient : Int
  deriving DecidableEq

structure ResourceReservation where
  id : ID
  tenantID : ID
  parentEnvelopeID : ID
  childEnvelopeID : ID
  childRunID : ID
  amounts : List ResourceReservationAmount
  expiresAt : Option Time
  createdAt : Time
  deriving DecidableEq

def invalidReservation (message : String) : Failure :=
  .plain ("invalid resource reservation: " ++ message)

/-- The loop over the sorted amounts; `previous` is the dimension before. -/
def checkAmounts (previous : Option ID) : List ResourceReservationAmount → Except Failure Unit
  | [] => .ok ()
  | amount :: rest =>
    if amount.dimensionID.isZero ∨ amount.coefficient ≤ 0 then
      .error (invalidReservation "amounts must be positive and identified")
    else if previous = some amount.dimensionID then
      .error (invalidReservation "dimensions must be unique")
    else checkAmounts (some amount.dimensionID) rest

def validateAndSortResourceReservation (reservation : ResourceReservation) :
    Except Failure ResourceReservation :=
  if reservation.id.isZero ∨ reservation.tenantID.isZero ∨ reservation.parentEnvelopeID.isZero ∨
      reservation.childEnvelopeID.isZero ∨ reservation.childRunID.isZero then
    .error (invalidReservation "identifiers must be set")
  else if reservation.parentEnvelopeID = reservation.childEnvelopeID ∨ reservation.createdAt.isZero ∨
      reservation.amounts = [] then
    .error (invalidReservation "parent, time, and amounts are invalid")
  else if reservation.expiresAt.any fun expiry => !expiry.after reservation.createdAt then
    .error (invalidReservation "expiry must follow creation")
  else
    let amounts := reservation.amounts.insertionSort fun a b => ID.le a.dimensionID b.dimensionID
    match checkAmounts none amounts with
    | .error error => .error error
    | .ok _ => .ok { reservation with amounts := amounts }

theorem checkAmounts_identified {amounts : List ResourceReservationAmount} {previous : Option ID}
    (h : checkAmounts previous amounts = .ok ()) :
    ∀ a ∈ amounts, ¬a.dimensionID.isZero ∧ 0 < a.coefficient := by
  induction amounts generalizing previous with
  | nil => exact fun a ha => absurd ha not_mem_nil
  | cons amount rest ih =>
    unfold checkAmounts at h
    split_ifs at h with hbad hdup
    intro a ha
    rcases mem_cons.mp ha with rfl | ha
    · exact ⟨fun hzero => hbad (Or.inl hzero), not_le.mp fun hle => hbad (Or.inr hle)⟩
    · exact ih h a ha

/-- Sorted amounts without equal neighbours have no equal dimensions at all. -/
theorem checkAmounts_nodup {amounts : List ResourceReservationAmount} {previous : Option ID}
    (hsorted : amounts.Pairwise fun a b => ID.le a.dimensionID b.dimensionID)
    (hfirst : ∀ d, previous = some d → ∀ a ∈ amounts, ID.le d a.dimensionID)
    (h : checkAmounts previous amounts = .ok ()) :
    (amounts.map (·.dimensionID)).Nodup ∧ ∀ a ∈ amounts, previous ≠ some a.dimensionID := by
  induction amounts generalizing previous with
  | nil => exact ⟨nodup_nil, fun a ha => absurd ha not_mem_nil⟩
  | cons amount rest ih =>
    unfold checkAmounts at h
    split_ifs at h with hbad hdup
    obtain ⟨hle, hrest⟩ := pairwise_cons.mp hsorted
    obtain ⟨hnodup, hne⟩ := ih hrest (by rintro d ⟨⟩; exact hle) h
    refine ⟨?_, ?_⟩
    · rw [map_cons, nodup_cons]
      refine ⟨fun hmem => ?_, hnodup⟩
      obtain ⟨a, ha, heq⟩ := List.mem_map.mp hmem
      exact hne a ha (congrArg some heq.symm)
    · intro a ha hprev
      rcases mem_cons.mp ha with rfl | ha
      · exact hdup hprev
      · -- The previous dimension is at most this one and at least a later one.
        have hamount : amount.dimensionID = a.dimensionID :=
          ID.le_antisymm (hle a ha) (hfirst _ hprev amount mem_cons_self)
        exact hne a ha (congrArg some hamount)

theorem checkAmounts_of_distinct {amounts : List ResourceReservationAmount} {previous : Option ID}
    (hpositive : ∀ a ∈ amounts, ¬a.dimensionID.isZero ∧ 0 < a.coefficient)
    (hnodup : (amounts.map (·.dimensionID)).Nodup)
    (hprevious : ∀ a ∈ amounts, previous ≠ some a.dimensionID) :
    checkAmounts previous amounts = .ok () := by
  induction amounts generalizing previous with
  | nil => rfl
  | cons amount rest ih =>
    obtain ⟨hzero, hpos⟩ := hpositive amount mem_cons_self
    rw [map_cons, nodup_cons] at hnodup
    rw [checkAmounts, if_neg (not_or.mpr ⟨hzero, not_le.mpr hpos⟩),
      if_neg (hprevious amount mem_cons_self)]
    refine ih (fun a ha => hpositive a (mem_cons_of_mem _ ha)) hnodup.2 fun a ha heq => ?_
    exact hnodup.1 (List.mem_map.mpr ⟨a, ha, (Option.some.inj heq).symm⟩)

/-- What a reservation command must satisfy. -/
structure ResourceReservation.Valid (reservation : ResourceReservation) : Prop where
  identified : ¬reservation.id.isZero ∧ ¬reservation.tenantID.isZero ∧
    ¬reservation.parentEnvelopeID.isZero ∧ ¬reservation.childEnvelopeID.isZero ∧
    ¬reservation.childRunID.isZero
  delegates : reservation.parentEnvelopeID ≠ reservation.childEnvelopeID
  created : ¬reservation.createdAt.isZero
  expires : ∀ expiry, reservation.expiresAt = some expiry → expiry.after reservation.createdAt
  nonempty : reservation.amounts ≠ []
  positive : ∀ a ∈ reservation.amounts, ¬a.dimensionID.isZero ∧ 0 < a.coefficient
  distinct : (reservation.amounts.map (·.dimensionID)).Nodup

/-- The order in which the rows of the amounts are locked. -/
def sortAmounts (amounts : List ResourceReservationAmount) : List ResourceReservationAmount :=
  amounts.insertionSort fun a b => ID.le a.dimensionID b.dimensionID

theorem sortAmounts_perm (amounts : List ResourceReservationAmount) :
    (sortAmounts amounts).Perm amounts :=
  perm_insertionSort _ _

theorem sortAmounts_sorted (amounts : List ResourceReservationAmount) :
    (sortAmounts amounts).Pairwise fun a b => ID.le a.dimensionID b.dimensionID := by
  have : Std.Total fun a b : ResourceReservationAmount => ID.le a.dimensionID b.dimensionID :=
    ⟨fun a b => Nat.le_total _ _⟩
  have : IsTrans ResourceReservationAmount fun a b => ID.le a.dimensionID b.dimensionID :=
    ⟨fun a b c => Nat.le_trans⟩
  exact pairwise_insertionSort _ _

theorem validateAndSort_eq_ok_iff {reservation result : ResourceReservation} :
    validateAndSortResourceReservation reservation = .ok result ↔
      reservation.Valid ∧ result = { reservation with amounts := sortAmounts reservation.amounts } := by
  have hperm := sortAmounts_perm reservation.amounts
  constructor
  · intro h
    unfold validateAndSortResourceReservation at h
    split_ifs at h with hids hparent hexpiry
    simp only [not_or] at hids hparent
    dsimp only at h
    split at h
    · cases h
    · rename_i hcheck
      cases h
      refine ⟨⟨hids, hparent.1, hparent.2.1, ?_, hparent.2.2, ?_, ?_⟩, rfl⟩
      · intro expiry heq
        simpa [heq] using hexpiry
      · exact fun a ha => checkAmounts_identified hcheck a (hperm.mem_iff.mpr ha)
      · exact (hperm.map _).nodup_iff.mp
          (checkAmounts_nodup (sortAmounts_sorted _) (by rintro d ⟨⟩) hcheck).1
  · rintro ⟨hvalid, rfl⟩
    have hcheck : checkAmounts none (sortAmounts reservation.amounts) = .ok () :=
      checkAmounts_of_distinct (fun a ha => hvalid.positive a (hperm.mem_iff.mp ha))
        ((hperm.map _).nodup_iff.mpr hvalid.distinct) fun a _ => nofun
    unfold validateAndSortResourceReservation
    rw [if_neg (by simpa only [not_or] using hvalid.identified),
      if_neg (by simpa only [not_or] using ⟨hvalid.delegates, hvalid.created, hvalid.nonempty⟩), if_neg]
    · rw [sortAmounts] at hcheck
      simp only [hcheck, sortAmounts]
    · cases hexpiry : reservation.expiresAt with
      | none => simp
      | some expiry => simpa using hvalid.expires expiry hexpiry

theorem validateAndSort_spec {reservation result : ResourceReservation}
    (h : validateAndSortResourceReservation reservation = .ok result) :
    result.id = reservation.id ∧ result.tenantID = reservation.tenantID ∧
      result.parentEnvelopeID = reservation.parentEnvelopeID ∧
      result.childEnvelopeID = reservation.childEnvelopeID ∧
      result.childRunID = reservation.childRunID ∧ result.createdAt = reservation.createdAt ∧
      result.expiresAt = reservation.expiresAt ∧ result.parentEnvelopeID ≠ result.childEnvelopeID ∧
      result.amounts ≠ [] ∧ result.amounts.Perm reservation.amounts ∧
      (result.amounts.map (·.dimensionID)).Nodup ∧ ∀ a ∈ result.amounts, 0 < a.coefficient := by
  obtain ⟨hvalid, rfl⟩ := validateAndSort_eq_ok_iff.mp h
  have hperm := sortAmounts_perm reservation.amounts
  refine ⟨rfl, rfl, rfl, rfl, rfl, rfl, rfl, hvalid.delegates, ?_, hperm,
    (hperm.map _).nodup_iff.mpr hvalid.distinct,
    fun a ha => (hvalid.positive a (hperm.mem_iff.mp ha)).2⟩
  exact fun hnil : sortAmounts _ = [] => hvalid.nonempty (hnil ▸ hperm).symm.eq_nil

/-! ### Trusted usage -/

inductive ExhaustionDisposition where
  | fail
  | pause
  | other (text : String)
  deriving DecidableEq

def ExhaustionDisposition.valid : ExhaustionDisposition → Bool
  | .fail | .pause => true
  | .other _ => false

def throughputDimensionName (resourceName : String) : Option String :=
  if !resourceDimensionNamePattern resourceName || 63 < byteLength resourceName + 11 then none
  else some (resourceName ++ "_per_minute")

def throughputUnitName (unit : String) : Option String :=
  if !validUnit unit || 64 < byteLength unit + 11 then none else some (unit ++ "_per_minute")

/-- Evidence of the accelerator; it can only make the repository more restrictive. -/
structure ThroughputHint where
  dimensionName : String
  blocked : Bool
  deriving DecidableEq

structure TrustedUsage where
  id : ID
  tenantID : ID
  runID : ID
  producerID : ID
  sourceEventID : String
  resourceName : String
  quantity : Quantity
  observedAt : Time
  recordedAt : Time
  contentDigest : String
  deriving DecidableEq

structure UsageReceipt where
  usageID : ID
  duplicate : Bool
  acceptedAt : Time
  deriving DecidableEq

def invalidTrustedUsage (detail : String) : Failure :=
  .plain ("invalid trusted usage event" ++ detail)

/-- The text under the content digest of a usage event. -/
def TrustedUsage.material (usage : TrustedUsage) (observed : Time) : String :=
  "trusted-usage/v1\x00" ++ usage.tenantID.string ++ "\x00" ++ usage.runID.string ++ "\x00"
    ++ usage.producerID.string ++ "\x00" ++ usage.sourceEventID ++ "\x00" ++ usage.resourceName
    ++ "\x00" ++ toString usage.quantity.amount.coefficient ++ "\x00"
    ++ toString usage.quantity.amount.scale ++ "\x00" ++ usage.quantity.unit ++ "\x00"
    ++ observed.formatRFC3339Nano

def validateTrustedUsage (dep : Deployment) (usage : TrustedUsage) : Except Failure TrustedUsage :=
  if usage.id.isZero ∨ usage.tenantID.isZero ∨ usage.runID.isZero ∨ usage.producerID.isZero ∨
      byteLength usage.sourceEventID < 1 ∨ 256 < byteLength usage.sourceEventID ∨
      !trimmed usage.sourceEventID ∨ !resourceDimensionNamePattern usage.resourceName then
    .error (invalidTrustedUsage "")
  else if !usage.quantity.valid then
    .error (invalidTrustedUsage
      ": invalid decimal: amount must be nonnegative and unit canonical")
  else
    match requireUTC usage.observedAt, requireUTC usage.recordedAt with
    | .error _, _ => .error (invalidTrustedUsage ": observed time")
    | .ok _, .error _ => .error (invalidTrustedUsage ": recorded time")
    | .ok observed, .ok recorded =>
      .ok { usage with
        observedAt := observed
        recordedAt := recorded
        contentDigest := dep.digest (usage.material observed) }

/-- Validation keeps the command; it normalizes the two instants and adds the digest. -/
theorem validateTrustedUsage_spec {dep : Deployment} {usage result : TrustedUsage}
    (h : validateTrustedUsage dep usage = .ok result) :
    result.id = usage.id ∧ result.tenantID = usage.tenantID ∧ result.runID = usage.runID ∧
      result.producerID = usage.producerID ∧ result.sourceEventID = usage.sourceEventID ∧
      result.resourceName = usage.resourceName ∧ result.quantity = usage.quantity ∧
      0 ≤ usage.quantity.amount.coefficient ∧ requireUTC usage.recordedAt = .ok result.recordedAt ∧
      ∃ observed, requireUTC usage.observedAt = .ok observed ∧
        result.contentDigest = dep.digest (usage.material observed) := by
  unfold validateTrustedUsage at h
  split_ifs at h with hids hquantity
  split at h
  · cases h
  · cases h
  · rename_i observed recorded hobserved hrecorded
    cases h
    have hvalid : usage.quantity.valid = true := by simpa using hquantity
    simp only [Quantity.valid, Bool.and_eq_true, decide_eq_true_eq] at hvalid
    exact ⟨rfl, rfl, rfl, rfl, rfl, rfl, rfl, hvalid.1, hrecorded, observed, hobserved, rfl⟩

/-! ### Settlements -/

structure ResourceSettlement where
  id : ID
  tenantID : ID
  reservationID : ID
  actorPrincipalID : ID
  policyDecisionID : ID
  idempotencyKey : String
  terminalRunState : RunState
  finalUsageEventIDs : List ID
  settledAt : Time
  deriving DecidableEq

structure ResourceSettlementAmount where
  name : String
  unit : String
  scale : Nat
  value : Int
  deriving DecidableEq

structure ResourceSettlementResult where
  id : ID
  reservationID : ID
  consumed : List ResourceSettlementAmount
  returned : List ResourceSettlementAmount
  settledAt : Time
  duplicate : Bool
  deriving DecidableEq

structure ResourceReconciliationResult where
  settlement : ResourceSettlementResult
  expired : Bool
  deriving DecidableEq

/-- The loop over the sorted final usage identifiers. -/
def checkFinalUsage (previous : Option ID) : List ID → Bool
  | [] => true
  | id :: rest => !id.isZero && previous ≠ some id && checkFinalUsage (some id) rest

def validateResourceSettlement (candidate : ResourceSettlement) :
    Except Failure ResourceSettlement :=
  let invalid : Failure := .plain "invalid resource settlement"
  if candidate.id.isZero ∨ candidate.tenantID.isZero ∨ candidate.reservationID.isZero ∨
      candidate.actorPrincipalID.isZero ∨ candidate.policyDecisionID.isZero ∨
      !extensionReferencePattern candidate.idempotencyKey ∨ !candidate.terminalRunState.terminal ∨
      candidate.terminalRunState = .budgetExhausted ∨ 10000 < candidate.finalUsageEventIDs.length then
    .error invalid
  else
    match requireUTC candidate.settledAt with
    | .error _ => .error invalid
    | .ok settledAt =>
      let ids := candidate.finalUsageEventIDs.insertionSort ID.le
      if settledAt.isZero ∨ !checkFinalUsage none ids then .error invalid
      else .ok { candidate with settledAt := settledAt, finalUsageEventIDs := ids }

theorem validateResourceSettlement_spec {candidate result : ResourceSettlement}
    (h : validateResourceSettlement candidate = .ok result) :
    result.id = candidate.id ∧ result.tenantID = candidate.tenantID ∧
      result.reservationID = candidate.reservationID ∧
      result.actorPrincipalID = candidate.actorPrincipalID ∧
      result.idempotencyKey = candidate.idempotencyKey ∧
      result.terminalRunState = candidate.terminalRunState ∧
      result.finalUsageEventIDs = candidate.finalUsageEventIDs.insertionSort ID.le := by
  unfold validateResourceSettlement at h
  dsimp only at h
  split_ifs at h with hids
  split at h
  · cases h
  · split_ifs at h with hzero
    cases h
    exact ⟨rfl, rfl, rfl, rfl, rfl, rfl, rfl⟩

/-! ### Extensions -/

structure ResourceExtensionAmount where
  name : String
  quantity : Quantity
  deriving DecidableEq

structure ResourceExtension where
  id : ID
  tenantID : ID
  runID : ID
  actorPrincipalID : ID
  policyDecisionID : ID
  idempotencyKey : String
  reasonCode : String
  approvalReference : String
  additions : List ResourceExtensionAmount
  deadlineExtensionSeconds : Int
  createdAt : Time
  deriving DecidableEq

structure ResourceExtensionResult where
  id : ID
  envelopeVersion : Int
  deadlineAt : Option Time
  resumed : Bool
  deriving DecidableEq

def validateResourceExtension (candidate : ResourceExtension) : Except Failure ResourceExtension :=
  let invalid : Failure := .plain "invalid resource extension"
  if candidate.id.isZero ∨ candidate.tenantID.isZero ∨ candidate.runID.isZero ∨
      candidate.actorPrincipalID.isZero ∨ candidate.policyDecisionID.isZero ∨
      !extensionReferencePattern candidate.idempotencyKey ∨
      !extensionReasonPattern candidate.reasonCode ∨
      !extensionReferencePattern candidate.approvalReference ∨
      (candidate.additions = [] ∧ candidate.deadlineExtensionSeconds = 0) ∨
      candidate.deadlineExtensionSeconds < 0 ∨ 31536000 < candidate.deadlineExtensionSeconds then
    .error invalid
  else
    match requireUTC candidate.createdAt with
    | .error _ => .error invalid
    | .ok created =>
      if created.isZero ∨ 100 < candidate.additions.length ∨
          (candidate.additions.any fun addition => !resourceDimensionNamePattern addition.name ||
            addition.quantity.amount.coefficient ≤ 0) ∨
          ¬(candidate.additions.map (·.name)).Nodup then
        .error invalid
      else .ok { candidate with
        createdAt := created
        additions := candidate.additions.insertionSort fun a b => a.name ≤ b.name }

variable {candidate result : ResourceExtension}

theorem validateResourceExtension_spec
    (h : validateResourceExtension candidate = .ok result) :
    result.id = candidate.id ∧ result.tenantID = candidate.tenantID ∧
      result.runID = candidate.runID ∧ result.actorPrincipalID = candidate.actorPrincipalID ∧
      result.idempotencyKey = candidate.idempotencyKey ∧
      0 ≤ result.deadlineExtensionSeconds ∧ result.deadlineExtensionSeconds ≤ 31536000 ∧
      ∀ a ∈ result.additions, 0 < a.quantity.amount.coefficient := by
  unfold validateResourceExtension at h
  dsimp only at h
  split_ifs at h with hids
  split at h
  · cases h
  · split_ifs at h with hbad
    cases h
    simp only [not_or, not_lt] at hids hbad
    refine ⟨rfl, rfl, rfl, rfl, rfl, hids.2.2.2.2.2.2.2.2.2.1, hids.2.2.2.2.2.2.2.2.2.2, ?_⟩
    intro a ha
    have hmem := (perm_insertionSort _ _).mem_iff.mp ha
    have hpos := hbad.2.2.1
    simp only [List.any_eq_true, not_exists, not_and, Bool.or_eq_true, decide_eq_true_eq, not_or]
      at hpos
    exact not_le.mp (hpos a hmem).2

/-- The time of a validated extension is the normalized one. -/
theorem validateResourceExtension_createdAt
    (h : validateResourceExtension candidate = .ok result) :
    requireUTC candidate.createdAt = .ok result.createdAt := by
  unfold validateResourceExtension at h
  dsimp only at h
  rw [ite_error_eq_ok] at h
  obtain ⟨_, h⟩ := h
  split at h
  · cases h
  · rename_i created hcreated
    rw [ite_error_eq_ok] at h
    cases h.2
    exact hcreated

/-- Validation normalises the time and sorts the additions. -/
theorem validateResourceExtension_eq
    (h : validateResourceExtension candidate = .ok result) :
    ∃ created, requireUTC candidate.createdAt = .ok created ∧ result = { candidate with
      createdAt := created
      additions := candidate.additions.insertionSort fun a b => a.name ≤ b.name } := by
  unfold validateResourceExtension at h
  dsimp only at h
  split_ifs at h
  split at h
  · cases h
  · rename_i created hcreated
    split_ifs at h
    cases h
    exact ⟨created, hcreated, rfl⟩

/-! ### Run admissions -/

inductive VersionResolutionMode where
  | automatic | pinned | rollback
  deriving DecidableEq

structure RunAdmission where
  runID : ID
  envelopeID : ID
  tenantID : ID
  agentID : ID
  agentVersionID : ID
  agentVersionDigest : String
  requestedBy : ID
  policyDecisionID : ID
  state : RunState
  stateVersion : Int
  constraints : Option Constraints
  deadlineAt : Option Time
  createdAt : Time
  updatedAt : Time
  deriving DecidableEq

def RunAdmission.validate (admission : RunAdmission) : Except Failure Unit :=
  if admission.runID.isZero ∨ admission.envelopeID.isZero ∨ admission.tenantID.isZero ∨
      admission.agentID.isZero ∨ admission.agentVersionID.isZero ∨ admission.requestedBy.isZero ∨
      admission.policyDecisionID.isZero then
    .error (.plain "run admission identifiers must be set")
  else if !validDigest admission.agentVersionDigest then
    .error (.plain "run admission version digest must be canonical")
  else if admission.state ≠ .admitted ∨ admission.stateVersion ≠ 1 ∨ admission.constraints = none then
    .error (.plain "run admission must establish admitted state version one and constraints")
  else
    match requireUTC admission.createdAt, requireUTC admission.updatedAt with
    | .error _, _ => .error (.plain "run admission creation time must be non-zero UTC")
    | .ok created, updated =>
      if created.isZero then .error (.plain "run admission creation time must be non-zero UTC")
      else if updated ≠ .ok created then
        .error (.plain "run admission update time must equal creation time")
      else
        match admission.deadlineAt with
        | none => .ok ()
        | some deadlineAt =>
          match requireUTC deadlineAt with
          | .error _ => .error (.plain "run admission deadline must be UTC and after creation")
          | .ok deadline =>
            if deadline.after created then .ok ()
            else .error (.plain "run admission deadline must be UTC and after creation")

structure RunVersionResolution where
  runID : ID
  tenantID : ID
  agentID : ID
  agentVersionID : ID
  approvalID : ID
  agentContentDigest : String
  policyBundleDigest : String
  policyActivationVersion : Int
  mode : VersionResolutionMode
  invocationDecisionID : ID
  selectionDecisionID : ID
  resolvedConstraints : Option Constraints
  resolvedAt : Time
  deriving DecidableEq

def RunVersionResolution.validate (resolution : RunVersionResolution) : Except Failure Unit :=
  if resolution.runID.isZero ∨ resolution.tenantID.isZero ∨ resolution.agentID.isZero ∨
      resolution.agentVersionID.isZero ∨ resolution.approvalID.isZero ∨
      resolution.invocationDecisionID.isZero then
    .error (.plain "version resolution identifiers must be set")
  else if !validDigest resolution.agentContentDigest ∨ !validDigest resolution.policyBundleDigest ∨
      resolution.policyActivationVersion < 1 then
    .error (.plain "version resolution policy or content metadata is invalid")
  else if decide (resolution.mode = .automatic) ≠ resolution.selectionDecisionID.isZero then
    .error (.plain "controlled version selection requires separate policy evidence")
  else if resolution.resolvedConstraints = none then
    .error (.plain "version resolution constraints must be present")
  else
    match requireUTC resolution.resolvedAt with
    | .error _ => .error (.plain "version resolution time must be a non-zero UTC timestamp")
    | .ok _ =>
      if resolution.resolvedAt.isZero then
        .error (.plain "version resolution time must be a non-zero UTC timestamp")
      else .ok ()

end AgentGovernor
