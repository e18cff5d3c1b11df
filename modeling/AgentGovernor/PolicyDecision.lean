import AgentGovernor.JsonText
import AgentGovernor.PolicyConstraints
import Mathlib.Data.Nat.Digits.Defs

/-! What a policy engine may answer. Its decision is checked against the contract, the ceilings of the request
and the longest time that a decision may be kept. -/

namespace AgentGovernor

/-! ### Values as JSON -/

/-- The grammar of JSON's numbers. -/
def validNumber (text : List Char) : Bool :=
  let unsigned := if text.head? = some '-' then text.tail else text
  let whole := unsigned.takeWhile isDigit
  let rest := unsigned.dropWhile isDigit
  let (fractionValid, rest) := match rest with
    | '.' :: rest => (!(rest.takeWhile isDigit).isEmpty, rest.dropWhile isDigit)
    | rest => (true, rest)
  let exponentValid := match rest with
    | [] => true
    | c :: rest =>
      let digits := match rest with
        | '+' :: digits | '-' :: digits => digits
        | digits => digits
      (c = 'e' || c = 'E') && !digits.isEmpty && digits.all isDigit
  (whole = ['0'] || (!whole.isEmpty && whole.head? ≠ some '0')) && fractionValid && exponentValid

/-- The text of a number as it is written out; an empty `json.Number` is zero. -/
def numberJson (text : String) : Option Json :=
  if text = "" then some (.number (.ofInt 0))
  else if h : validNumber text.toList ∧ text.toList ≠ [] ∧ text.toList.all numberChar = true then
    some (.number ⟨text, h.2.1, h.2.2⟩)
  else none

mutual

/-- `json.Marshal`; members stand in the order of their names. -/
def PolicyValue.json : PolicyValue → Option Json
  | .null => some .null
  | .bool value => some (.bool value)
  | .text value => some (.string value)
  | .int value => some (.number (.ofInt value))
  | .int64 value => some (.number (.ofInt value))
  | .number text => numberJson text
  | .float64 _ shortest => numberJson shortest
  | .texts values => some (.array (values.map .string))
  | .list values => (jsonItems values).map .array
  | .object fields => (jsonMembers fields).map fun members =>
    .object (members.insertionSort fun a b => a.1 ≤ b.1)

def jsonItems : List PolicyValue → Option (List Json)
  | [] => some []
  | value :: rest => do
    let item ← value.json
    let items ← jsonItems rest
    return item :: items

def jsonMembers : PolicyMap → Option (List (String × Json))
  | [] => some []
  | (name, value) :: rest => do
    let member ← value.json
    let members ← jsonMembers rest
    return (name, member) :: members

end

namespace Policy

def Obligation.json (o : Obligation) : Json :=
  .object [("type", .string o.type), ("mandatory", .bool o.mandatory)]

def Decision.json (d : Decision) : Option Json := do
  let constraints ← match d.resolvedConstraints with
    | none => some .null
    | some constraints => (PolicyValue.object constraints).json
  return .object
    [("contract_version", .string d.contractVersion), ("decision_id", .string d.decisionID),
      ("allow", .bool d.allow), ("reason_codes", .array (d.reasonCodes.map .string)),
      ("resolved_constraints", constraints),
      ("obligations", (d.obligations.map fun obligations => .array (obligations.map Obligation.json)).getD .null),
      ("decision_ttl_seconds", .number (.ofInt d.decisionTTLSeconds))]

/-- A value that has a JSON text of no more than `limit` bytes. -/
def boundedJSON (value : Option Json) (limit : Nat) : Except Failure Unit :=
  match value with
  | none => .error (.plain "json: unsupported value")
  | some value =>
    if limit < byteLength value.encode then .error (.plain "policy contract exceeds size bound") else .ok ()

/-! ### The contract of a decision -/

def reasonCodes : List String :=
  ["agent.discover.allowed", "agent.invoke.allowed", "run.access.allowed", "workload.operation.allowed",
    "governance.operation.allowed", "resource.extension.approved", "identity.invalid", "tenant.mismatch",
    "resource.not_visible", "agent.not_approved", "agent.revoked", "principal.revoked", "policy.revoked",
    "security_state.stale", "security_state.gap", "constraint.expands_authority", "approval.required",
    "action.not_permitted", "contract.invalid"]

/-- One second in nanoseconds. -/
def second : Int := 1000000000

/-- The duration that the seconds of a decision are converted to, an `int64` of nanoseconds. -/
def Decision.ttl (d : Decision) : Int := wrapInt64 (d.decisionTTLSeconds * second)

def validateDecision (d : Decision) (input : Input) (maxTTL : Int) : Except Failure Unit :=
  let resolved := d.resolvedConstraints.getD []
  if d.contractVersion ≠ contractVersion ∨ d.decisionID ≠ input.decisionID ∨ d.reasonCodes.length = 0 ∨
      16 < d.reasonCodes.length ∨ d.resolvedConstraints.isNone ∨ d.obligations.isNone ∨
      d.decisionTTLSeconds < 0 then
    .error (.plain "invalid policy decision contract")
  else if !d.reasonCodes.all reasonCodes.contains then .error (.plain "unregistered policy reason code")
  else if (d.obligations.getD []).any fun o => o.type = "" || o.mandatory then
    .error (.plain "unknown mandatory policy obligation")
  else if maxTTL < d.ttl then .error (.plain "policy decision TTL exceeds configured maximum")
  else if !constraintsNarrow resolved (input.authorityConstraints.getD []) then
    .error (.plain "policy decision expands authority constraints")
  else if d.allow && input.action = "runs.create" then do
    let _ ← resolveConstraints (input.authorityConstraints.getD []) (input.requestedConstraints.getD [])
      d.resolvedConstraints
    boundedJSON d.json 65536
  else if !constraintsNarrow resolved (input.requestedConstraints.getD []) then
    .error (.plain "policy decision expands requested constraints")
  else boundedJSON d.json 65536

/-- The refusal to be kept for this many seconds, and what it answers. -/
def refusal (ttl : Int) : Decision :=
  { contractVersion := contractVersion, decisionID := "decision", allow := false
    reasonCodes := ["action.not_permitted"], resolvedConstraints := some [], obligations := some []
    decisionTTLSeconds := ttl }

def refusedInput : Input :=
  { contractVersion := contractVersion, decisionID := "decision", requestTime := ⟨0, true⟩
    subject := ⟨"principal", "tenant", "human", [], [], ""⟩, action := "agents.list"
    resource := ⟨"agent_catalog", "", "tenant", some []⟩, agent := none, requestedConstraints := some []
    authorityConstraints := some [], securityState := ⟨0, 0, 0, 0, 0, 0, false, true⟩
    context := ⟨"request", ""⟩ }

theorem byteLength_le (s : String) : byteLength s ≤ 4 * s.toList.length := by
  unfold byteLength
  induction s.toList with
  | nil => rfl
  | cons c cs ih =>
    have := c.utf8Size_le_four
    simp only [List.map_cons, List.sum_cons, List.length_cons]
    omega

theorem boundedJSON_refusal {ttl : Int} (h : 0 ≤ ttl) (hmax : ttl ≤ maxInt64) :
    boundedJSON (refusal ttl).json 65536 = .ok () := by
  obtain ⟨n, rfl⟩ := Int.eq_ofNat_of_zero_le h
  have hdigits : (toString (n : Int)).toList.length ≤ 19 := by
    rw [show (toString (n : Int)).toList = Nat.toDigits 10 n from Nat.toList_repr]
    unfold maxInt64 at hmax
    exact Nat.toDigits_length 10 n 19 (by decide) (by omega)
  obtain ⟨j, hj⟩ : ∃ j, (refusal n).json = some j := ⟨_, rfl⟩
  have hlength : j.chars.length ≤ 1000 := by
    cases hj
    simp only [refusal, Json.chars, Json.moreMembers, NumberText.ofInt, List.length_cons, List.length_append]
    -- Only the digits of the seconds are not fixed.
    generalize (toString (n : Int)).toList.length = digits at hdigits ⊢
    revert digits
    decide
  have hbytes := byteLength_le j.encode
  rw [Json.encode, String.toList_ofList] at hbytes
  rw [hj]
  exact if_neg (by unfold Json.encode; omega)

theorem validateDecision_refusal {ttl : Int} (h : 0 ≤ ttl) (hmax : ttl ≤ maxInt64) :
    validateDecision (refusal ttl) refusedInput maxInt64 = .ok () := by
  have hcontract : ¬ttl < 0 := by omega
  have hwrapped : ¬maxInt64 < (refusal ttl).ttl := by
    have := Int.bmod_lt (x := ttl * second) (m := 2 ^ 64) (by decide)
    unfold Decision.ttl wrapInt64 refusal maxInt64
    dsimp only
    omega
  have hjson := boundedJSON_refusal h hmax
  unfold validateDecision
  dsimp only
  rw [if_neg hwrapped, hjson]
  simp [refusal, refusedInput, reasonCodes, constraintsNarrow, hcontract]

theorem ttl_of_validateDecision {d : Decision} {input : Input} {maxTTL : Int}
    (h : validateDecision d input maxTTL = .ok ()) : 0 ≤ d.decisionTTLSeconds ∧ d.ttl ≤ maxTTL := by
  unfold validateDecision at h
  simp only [ite_error_eq_ok] at h
  obtain ⟨hcontract, _, _, httl, _⟩ := h
  exact ⟨by omega, by omega⟩

/-- The lifetime of every decision that is accepted with these seconds is bounded by the configured one
exactly when the seconds are a duration. -/
theorem decision_ttl_bounded_iff {ttl : Int} (hmin : -maxInt64 - 1 ≤ ttl) (hmax : ttl ≤ maxInt64) :
    (∀ (d : Decision) (input : Input) (maxTTL : Int), d.decisionTTLSeconds = ttl → 0 < maxTTL →
        maxTTL ≤ maxInt64 → validateDecision d input maxTTL = .ok () → ttl * second ≤ maxTTL) ↔
      ttl ≤ 9223372036 := by
  constructor
  · intro h
    rcases Int.lt_or_le ttl 0 with hnegative | hnonneg
    · omega
    · have hbound := h (refusal ttl) refusedInput maxInt64 rfl (by decide) le_rfl
        (validateDecision_refusal hnonneg hmax)
      unfold second maxInt64 at hbound
      omega
  · rintro hfits d input maxTTL rfl _ _ h
    obtain ⟨hnonneg, hle⟩ := ttl_of_validateDecision h
    have hexact : d.ttl = d.decisionTTLSeconds * second := by
      unfold Decision.ttl second wrapInt64
      exact Int.bmod_eq_of_le (by omega) (by omega)
    omega

theorem decision_ttl_bounded_hour :
    validateDecision (refusal 3600) refusedInput (7200 * second) = .ok () ∧ 3600 * second ≤ 7200 * second := by
  have hvalid : validateDecision (refusal 3600) refusedInput (7200 * second) = .ok () := by decide +kernel
  have hbounded := (@decision_ttl_bounded_iff 3600 (by decide) (by decide)).mpr (by decide)
  exact ⟨hvalid, hbounded _ _ _ rfl (by decide) (by decide) hvalid⟩

/-- A lifetime of about 584 years is taken for less than a third of a second. -/
theorem decision_ttl_wraps :
    validateDecision (refusal 18446744074) refusedInput (30 * second) = .ok () ∧
      (refusal 18446744074).ttl = 290448384 ∧ 30 * second < 18446744074 * second := by
  decide +kernel

/-- Whatever an accepted decision says at any depth is covered by the authority, and by what the caller asked
for or, to create a run, by what the authority leaves of it. -/
theorem accepted_decision_narrows {d : Decision} {input : Input} {maxTTL : Int} {path : List String}
    {v : PolicyValue} (h : validateDecision d input maxTTL = .ok ())
    (hv : atPath (.object (d.resolvedConstraints.getD [])) path = some v) :
    Covers (input.authorityConstraints.getD []) path v ∧
    if d.allow = true ∧ input.action = "runs.create" then
      ∃ effective, intersectConstraints (input.authorityConstraints.getD [])
        (input.requestedConstraints.getD []) = .ok effective ∧ Covers effective path v
    else Covers (input.requestedConstraints.getD []) path v := by
  unfold validateDecision at h
  simp only [ite_error_eq_ok, Bool.not_eq_true', Bool.not_eq_false, Bool.and_eq_true, decide_eq_true_eq] at h
  obtain ⟨_, _, _, _, hauthority, h⟩ := h
  refine ⟨covers_of_constraintsNarrow hauthority hv, ?_⟩
  split_ifs at h ⊢ with hcreates hrequested
  · obtain ⟨_, hresolved, _⟩ := bind_eq_ok.mp h
    obtain ⟨effective, heffective, hresolved⟩ := bind_eq_ok.mp hresolved
    refine ⟨effective, heffective, ?_⟩
    cases hdecided : d.resolvedConstraints with
    | none =>
      rw [hdecided] at hresolved
      cases hresolved
    | some decided =>
      rw [hdecided] at hresolved hv
      dsimp only at hresolved
      split_ifs at hresolved with hnarrows
      exact covers_of_constraintsNarrow hnarrows hv
  · exact covers_of_constraintsNarrow (by simpa using hrequested) hv

/-- A decision of three calls, where five are allowed and nine were asked for. -/
theorem accepted_decision_narrows_calls : Covers [("limits", .object [("max_tool_calls", .int 5)])]
    ["limits", "max_tool_calls"] (.int 3) :=
  (@accepted_decision_narrows
    { refusal 0 with resolvedConstraints := some [("limits", .object [("max_tool_calls", .int 3)])] }
    { refusedInput with
      requestedConstraints := some [("limits", .object [("max_tool_calls", .int 9)])]
      authorityConstraints := some [("limits", .object [("max_tool_calls", .int 5)])] }
    0 _ _ (by decide +kernel) rfl).1

end Policy

end AgentGovernor
