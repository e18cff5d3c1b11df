import AgentGovernor.StoreBalance
import AgentGovernor.VersionResolution

/-! Admission of a root run. Its grants and its deadline come from the constraints that the resolver has
resolved, so four authorities bound them: the ceilings of the deployment, the limits of the approved manifest,
the caller's request and the policy's decision. -/

namespace AgentGovernor

open Ledger Transaction Engine Policy List Option

variable {s t : Store} {dep : Deployment}

/-! ### The service -/

structure AdmitRun where
  tenantID : ID
  principalID : ID
  agentID : ID
  requestID : ID
  roles : List String
  requestedVersionDigest : String
  requestedConstraints : Option PolicyMap
  authorityConstraints : Option PolicyMap
  securityState : SecurityState

/-- The identifiers that one admission generates. -/
structure AdmissionIDs where
  runID : ID
  envelopeID : ID
  eventID : ID
  auditID : ID
  outboxID : ID

def invalidDeadline : Failure := .domain .unavailable "policy resolved an invalid execution deadline"

def deadlineSeconds : ConstraintValue → Option Int
  | .float64 q => if q.isInt ∧ 1 ≤ q ∧ q ≤ 604800 then some q.num else none
  | .int64 n => some n
  | .int n => some n
  | .number text => parseInt64 text
  | .other => none

def admissionDeadline (now : Time) (constraints : Constraints) : Except Failure (Option Time) :=
  match constraints.lookup "max_execution_time_seconds" with
  | none => .ok none
  | some value =>
    match deadlineSeconds value with
    | none => .error invalidDeadline
    | some seconds =>
      if seconds < 1 ∨ 604800 < seconds then .error invalidDeadline
      else .ok (some ⟨now.nanos + seconds * 1000000000, now.utc⟩)

def AdmitRun.resolveCommand (command : AdmitRun) (runID : ID) : ResolveAgentVersion where
  runID := runID
  tenantID := command.tenantID
  agentID := command.agentID
  principalID := command.principalID
  requestID := command.requestID
  roles := command.roles
  requestedVersionDigest := command.requestedVersionDigest
  requestedConstraints := some (command.requestedConstraints.getD [])
  authorityConstraints := command.authorityConstraints
  securityState := command.securityState

/-- What `Admit` gives to the repository. -/
def prepare (resolver : VersionResolver) (clock : Time) (ids : AdmissionIDs) (command : AdmitRun) :
    Except Failure (RunAdmission × RunVersionResolution × RunAdmissionEvidence) := do
  if command.tenantID.isZero ∨ command.principalID.isZero ∨ command.agentID.isZero ∨
      command.requestID.isZero ∨ command.authorityConstraints.isNone then
    .error (.domain .unauthenticated "authenticated run admission identity is required")
  let resolution ← resolver.resolve (command.resolveCommand ids.runID)
  let now ← (requireUTC clock).mapError fun _ => .domain .internal "run admission clock is invalid"
  let constraints := resolution.resolvedConstraints.getD []
  let deadline ← admissionDeadline now constraints
  let _ ← (rootResourceGrants constraints).mapError fun _ =>
    Failure.domain .unavailable "policy resolved invalid resource grants"
  let admission : RunAdmission :=
    { runID := ids.runID, envelopeID := ids.envelopeID, tenantID := command.tenantID
      agentID := command.agentID, agentVersionID := resolution.agentVersionID
      agentVersionDigest := resolution.agentContentDigest, requestedBy := command.principalID
      policyDecisionID := resolution.invocationDecisionID, state := .admitted, stateVersion := 1
      constraints := resolution.resolvedConstraints, deadlineAt := deadline, createdAt := now
      updatedAt := now }
  admission.validate.mapError fun _ => .domain .internal "constructed run admission is invalid"
  return (admission, resolution, ⟨ids.eventID, ids.auditID, ids.outboxID, command.requestID,
    ["agent.invoke.allowed"]⟩)

theorem prepare_spec {resolver : VersionResolver} {clock : Time} {ids : AdmissionIDs} {command : AdmitRun}
    {admission : RunAdmission} {r : RunVersionResolution} {evidence : RunAdmissionEvidence}
    (h : prepare resolver clock ids command = .ok (admission, r, evidence)) :
    resolver.resolve (command.resolveCommand ids.runID) = .ok r ∧
      admissionDeadline admission.createdAt (r.resolvedConstraints.getD []) = .ok admission.deadlineAt := by
  obtain ⟨_, h⟩ := ite_error_eq_ok.mp h
  obtain ⟨r', hr, h⟩ := bind_eq_ok.mp h
  obtain ⟨now, _, h⟩ := bind_eq_ok.mp h
  obtain ⟨deadline, hdeadline, h⟩ := bind_eq_ok.mp h
  obtain ⟨_, _, h⟩ := bind_eq_ok.mp h
  obtain ⟨_, _, h⟩ := bind_eq_ok.mp h
  cases h
  exact ⟨hr, hdeadline⟩

/-! ### Limits -/

section Limits

variable {α β γ : Type}

theorem lookup_filterMap {f : α → γ} {l : List (String × Option α × β)} (hnodup : (l.map (·.1)).Nodup)
    (key : String) : (l.filterMap fun x => x.2.1.map fun a => (x.1, f a)).lookup key =
      ((l.lookup key).bind (·.1)).map f := by
  induction l with
  | nil => rfl
  | cons x l ih =>
    obtain ⟨key', value, b⟩ := x
    rw [map_cons, nodup_cons] at hnodup
    have hrest := ih hnodup.2
    by_cases hkey : key = key'
    · subst hkey
      have habsent : l.lookup key = none := by
        rw [lookup_eq_none_iff]
        intro y hy
        rw [bne_iff_ne]
        rintro rfl
        exact hnodup.1 (List.mem_map.mpr ⟨y, hy, rfl⟩)
      cases value with
      | none => simpa [lookup_cons, habsent] using hrest
      | some a => simp
    · have hne : (key == key') = false := beq_false_of_ne hkey
      cases value with
      | none => simpa [lookup_cons, hne] using hrest
      | some a => simpa [lookup_cons, hne] using hrest

end Limits

theorem AgentLimits.lookup_approved (limits : AgentLimits) (key : String) :
    limits.approved.lookup key = (limits.value key).map fun n => .number (toString n) :=
  lookup_filterMap (f := fun n : Int => PolicyValue.number (toString n))
    (show (limits.bounded.map (·.1)).Nodup by simp [bounded]) key

theorem AgentLimits.value_bounds {limits : AgentLimits} (h : limits.validate = .ok ()) {key : String} {n : Int}
    (hn : limits.value key = some n) : 0 ≤ n ∧ n ≤ maxInt64 := by
  obtain ⟨x, hx, hvalue⟩ := bind_eq_some_iff.mp hn
  have hmem : (key, x) ∈ limits.bounded := by
    obtain ⟨l₁, l₂, hsplit, _⟩ := lookup_eq_some_iff.mp hx
    rw [hsplit]
    simp
  have hmax : ∀ y ∈ limits.bounded, y.2.2.1 ≤ maxInt64 := by
    simp [bounded, maxInt64]
  unfold validate at h
  split at h
  · cases h
  · rename_i hnone
    have hok := find?_eq_none.mp hnone (key, x) hmem
    simp only [hvalue, any_some, Bool.or_eq_true, Bool.and_eq_true, decide_eq_true_eq, not_or,
      not_lt] at hok
    exact ⟨hok.1.1, hok.2.trans (hmax _ hmem)⟩

theorem AgentLimits.number_value {limits : AgentLimits} (h : limits.validate = .ok ()) {key : String} {n : Int}
    (hn : limits.value key = some n) : constraintNumber (.number (toString n)) = some (n : Rat) :=
  have ⟨hzero, hmax⟩ := value_bounds h hn
  ratSetString_of_parseInt64 (parseInt64_toString hzero hmax)

/-! ### The four authorities -/

structure Authorities where
  deployment : PolicyMap
  limits : AgentLimits
  requested : PolicyMap
  decision : PolicyMap

namespace Authorities

variable (a : Authorities) (key : String)

/-- No value is a `float64`: the numbers are `int`, `int64` or `json.Number`. -/
def Integral : Prop :=
  ∀ m ∈ [a.deployment, a.requested, a.decision], ∀ value ∈ m.lookup key, ∀ q shortest,
    value ≠ .float64 q shortest

/-- The value is at most each of those present under the key. -/
def Bounds (q : Rat) : Prop :=
  (∀ m ∈ [a.deployment, a.requested, a.decision], ∀ value ∈ m.lookup key,
    ∃ bound, constraintNumber value = some bound ∧ q ≤ bound) ∧
  ∀ n ∈ a.limits.value key, q ≤ n

/-- The deployment or the manifest has a ceiling under the key. -/
def Ceiling : Prop := (a.deployment.lookup key).isSome = true ∨ (a.limits.value key).isSome = true

end Authorities

theorem lookup_append {α : Type} (l₁ l₂ : List (String × α)) (key : String) :
    (l₁ ++ l₂).lookup key = (l₁.lookup key).or (l₂.lookup key) := by
  induction l₁ with
  | nil => rfl
  | cons x l ih =>
    rw [cons_append, lookup_cons, lookup_cons]
    cases key == x.1
    · exact ih
    · rfl

theorem lookup_filter_absent {α β : Type} (l : List (String × α)) (m : List (String × β)) {key : String}
    (h : m.lookup key = none) : (l.filter fun x => (m.lookup x.1).isNone).lookup key = l.lookup key := by
  induction l with
  | nil => rfl
  | cons x l ih =>
    by_cases hkey : key = x.1
    · have hkept : (m.lookup x.1).isNone = true := by rw [← hkey, h]; rfl
      rw [filter_cons, if_pos hkept, lookup_cons, lookup_cons, hkey, beq_self_eq_true]
    · have hne : (key == x.1) = false := beq_false_of_ne hkey
      rw [lookup_cons, hne, ← ih, filter_cons]
      split_ifs
      · rw [lookup_cons, hne]
      · rfl

/-- Ceilings come from the deployment or the manifest, and both bound a number among them. -/
theorem approvedAuthority_spec {deployment authority : PolicyMap} {limits : AgentLimits}
    (h : approvedAuthority deployment limits = .ok authority) :
    (∀ key, (authority.lookup key).isSome = true ↔
        (deployment.lookup key).isSome = true ∨ (limits.value key).isSome = true) ∧
      ∀ key value, authority.lookup key = some value → numericType value = true →
        ∃ q, constraintNumber value = some q ∧
          (∀ d ∈ deployment.lookup key, ∃ bound, constraintNumber d = some bound ∧ q ≤ bound) ∧
          (∀ n ∈ limits.value key, q ≤ n) ∧
          (deployment.lookup key = some value ∨ ∃ n : Int, value = .number (toString n)) := by
  obtain ⟨_, hvalid, h⟩ := bind_eq_ok.mp h
  have hcombined : ∀ key, (deployment ++ limits.approved.filter fun x =>
      (deployment.lookup x.1).isNone).lookup key =
        (deployment.lookup key).or (limits.approved.lookup key) := by
    intro key
    rw [lookup_append]
    cases hkey : deployment.lookup key with
    | some value => rfl
    | none => rw [lookup_filter_absent _ _ hkey]
  refine ⟨fun key => ?_, fun key value hvalue hnumeric => ?_⟩
  · rw [intersectConstraints_isSome h key, hcombined, AgentLimits.lookup_approved, isSome_or,
      isSome_map, Bool.or_eq_true]
  · obtain ⟨q, hq, ⟨ceiling, limit, hceiling, hlimit, hle⟩, hrestriction, horigin⟩ :=
      intersectConstraints_number h hvalue hnumeric
    rw [hcombined] at hceiling horigin
    refine ⟨q, hq, fun d hd => ?_, fun n hn => ?_, ?_⟩
    · rw [mem_def.mp hd] at hceiling
      cases hceiling
      exact ⟨limit, hlimit, hle⟩
    · have happroved : .number (toString n) ∈ limits.approved.lookup key := by
        rw [AgentLimits.lookup_approved, mem_def.mp hn]
        rfl
      obtain ⟨bound, hbound, hle'⟩ := hrestriction _ happroved
      rw [AgentLimits.number_value hvalid hn] at hbound
      cases hbound
      exact hle'
    · have hnumber : limits.approved.lookup key = some value → ∃ n : Int, value = .number (toString n) := by
        intro happroved
        rw [AgentLimits.lookup_approved, map_eq_some_iff] at happroved
        obtain ⟨n, _, hvalue⟩ := happroved
        exact ⟨n, hvalue.symm⟩
      rcases horigin with horigin | horigin
      · rcases or_eq_some_iff.mp horigin with hd | ⟨_, happroved⟩
        · exact Or.inl hd
        · exact Or.inr (hnumber happroved)
      · exact Or.inr (hnumber horigin)

/-- What the four authorities make of the constraints: a value for each ceiling, and numbers that all of them
bound. -/
structure Authorities.Resolves (a : Authorities) (resolved : PolicyMap) : Prop where
  keys : ∀ key, (resolved.lookup key).isSome = true ↔ a.Ceiling key
  numbers : ∀ key value, resolved.lookup key = some value → numericType value = true →
    ∃ q, constraintNumber value = some q ∧ a.Bounds key q
  integral : ∀ key value, resolved.lookup key = some value → numericType value = true → a.Integral key →
    ∀ q shortest, value ≠ .float64 q shortest

theorem resolves_of_authority {a : Authorities} {authority resolved : PolicyMap}
    (happroved : approvedAuthority a.deployment a.limits = .ok authority)
    (hresolved : resolveConstraints authority a.requested (some a.decision) = .ok resolved) :
    a.Resolves resolved := by
  obtain ⟨hkeys, hnumbers⟩ := approvedAuthority_spec happroved
  obtain ⟨hsame, decided, hdecided, hbounds⟩ := resolveConstraints_spec hresolved
  cases hdecided
  refine ⟨fun key => by rw [hsame]; exact hkeys key, fun key value hvalue hnumeric => ?_,
    fun key value hvalue hnumeric hintegral => ?_⟩
  · obtain ⟨q, hq, ⟨ceiling, limit, hceiling, hlimit, hle⟩, hrequest, hdecision, _⟩ :=
      hbounds key value hvalue hnumeric
    obtain ⟨limit', hlimit', hdeployment, hmanifest, _⟩ :=
      hnumbers key ceiling hceiling (numericType_of_constraintNumber hlimit)
    cases hlimit.symm.trans hlimit'
    refine ⟨q, hq, ?_, fun n hn => hle.trans (hmanifest n hn)⟩
    simp only [forall_mem_cons, not_mem_nil, false_imp_iff, implies_true, and_true]
    refine ⟨fun d hd => ?_, hrequest, hdecision⟩
    obtain ⟨bound, hbound, hle'⟩ := hdeployment d hd
    exact ⟨bound, hbound, hle.trans hle'⟩
  · obtain ⟨_, _, _, _, _, horigin⟩ := hbounds key value hvalue hnumeric
    rcases horigin with horigin | horigin | horigin
    · obtain ⟨_, _, _, _, horigin'⟩ := hnumbers key value horigin hnumeric
      rcases horigin' with horigin' | ⟨n, rfl⟩
      · exact hintegral _ mem_cons_self value horigin'
      · exact fun q shortest heq => by cases heq
    · exact hintegral _ (by simp) value horigin
    · exact hintegral _ (by simp) value horigin

/-! ### Grants and deadlines -/

theorem numericType_of_exactInt64 {value : PolicyValue} {n : Int} (h : exactInt64 value.constraint = some n) :
    numericType value = true := by
  cases value <;> first | rfl | cases h

theorem numericType_of_deadlineSeconds {value : PolicyValue} {n : Int}
    (h : deadlineSeconds value.constraint = some n) : numericType value = true := by
  cases value <;> first | rfl | cases h

/-- Without a `float64` the integer that is granted is the number that was compared. -/
theorem constraintNumber_of_exactInt64 {value : PolicyValue} {n : Int}
    (hfloat : ∀ q shortest, value ≠ .float64 q shortest) (h : exactInt64 value.constraint = some n) :
    constraintNumber value = some (n : Rat) := by
  cases value with
  | int | int64 =>
    cases h
    rfl
  | number => exact ratSetString_of_parseInt64 h
  | float64 q shortest => exact absurd rfl (hfloat q shortest)
  | _ => cases h

theorem deadlineSeconds_eq {value : PolicyValue} (hfloat : ∀ q shortest, value ≠ .float64 q shortest) :
    deadlineSeconds value.constraint = exactInt64 value.constraint := by
  cases value with
  | float64 q shortest => exact absurd rfl (hfloat q shortest)
  | _ => rfl

namespace Authorities

variable {a : Authorities} {resolved : PolicyMap} {key : String} {n : Int}

theorem Resolves.value (h : a.Resolves resolved) (hintegral : a.Integral key) {value : PolicyValue}
    (hvalue : resolved.lookup key = some value) (hn : exactInt64 value.constraint = some n) :
    a.Ceiling key ∧ a.Bounds key n := by
  have hnumeric := numericType_of_exactInt64 hn
  obtain ⟨q, hq, hbounds⟩ := h.numbers key value hvalue hnumeric
  rw [constraintNumber_of_exactInt64 (h.integral key value hvalue hnumeric hintegral) hn] at hq
  cases hq
  exact ⟨(h.keys key).mp (by rw [hvalue]; rfl), hbounds⟩

/-- A coefficient that the constraints grant. -/
theorem Resolves.grant (h : a.Resolves resolved) (hintegral : a.Integral key)
    (hn : ((resolved.map fun x => (x.1, x.2.constraint)).lookup key).bind exactNonnegativeInt64 = some n) :
    a.Ceiling key ∧ a.Bounds key n := by
  rw [lookup_map fun _ value => PolicyValue.constraint value] at hn
  obtain ⟨c, hc, hexact⟩ := bind_eq_some_iff.mp hn
  obtain ⟨value, hvalue, rfl⟩ := map_eq_some_iff.mp hc
  obtain ⟨m, hm, hsign⟩ := bind_eq_some_iff.mp hexact
  split_ifs at hsign
  cases hsign
  exact h.value hintegral hvalue hm

/-- The deadline that the constraints set. -/
theorem Resolves.deadline (h : a.Resolves resolved) (hintegral : a.Integral "max_execution_time_seconds")
    {now deadline : Time}
    (hdeadline : admissionDeadline now (resolved.map fun x => (x.1, x.2.constraint)) = .ok (some deadline)) :
    ∃ seconds : Int, deadline.nanos = now.nanos + seconds * 1000000000 ∧
      a.Ceiling "max_execution_time_seconds" ∧ a.Bounds "max_execution_time_seconds" seconds := by
  unfold admissionDeadline at hdeadline
  rw [lookup_map fun _ value => PolicyValue.constraint value] at hdeadline
  cases hvalue : resolved.lookup "max_execution_time_seconds" with
  | none =>
    rw [hvalue] at hdeadline
    cases hdeadline
  | some value =>
    rw [hvalue, map_some] at hdeadline
    dsimp only at hdeadline
    cases hseconds : deadlineSeconds value.constraint with
    | none =>
      rw [hseconds] at hdeadline
      cases hdeadline
    | some seconds =>
      rw [hseconds] at hdeadline
      obtain ⟨_, hdeadline⟩ := ite_error_eq_ok.mp hdeadline
      cases hdeadline
      have hfloat := h.integral _ value hvalue (numericType_of_deadlineSeconds hseconds) hintegral
      rw [deadlineSeconds_eq hfloat] at hseconds
      exact ⟨seconds, rfl, h.value hintegral hvalue hseconds⟩

/-- A ceiling on the execution time always sets one. -/
theorem Resolves.deadline_isSome (h : a.Resolves resolved) (hceiling : a.Ceiling "max_execution_time_seconds")
    {now : Time} {deadline : Option Time}
    (hdeadline : admissionDeadline now (resolved.map fun x => (x.1, x.2.constraint)) = .ok deadline) :
    deadline.isSome = true := by
  obtain ⟨value, hvalue⟩ := isSome_iff_exists.mp ((h.keys _).mpr hceiling)
  unfold admissionDeadline at hdeadline
  rw [lookup_map fun _ value => PolicyValue.constraint value, hvalue, map_some] at hdeadline
  dsimp only at hdeadline
  split at hdeadline
  · cases hdeadline
  · obtain ⟨_, hdeadline⟩ := ite_error_eq_ok.mp hdeadline
    cases hdeadline
    rfl

end Authorities

/-! ### The admitted run -/

theorem exec_issueRootGrants_named {admission : RunAdmission} {grants : List RootResourceGrant} {r : Unit}
    {held held' : List Lock}
    (h : storeEngine.Exec (.forEach grants (issueRootGrant dep admission)) held s r held' t) :
    ∀ g ∈ grants, ∃ d, dep.byName g.dimensionName = some d := by
  let P : List RootResourceGrant → List Lock → Store → Prop := fun rest _ _ =>
    ∃ done, grants = done ++ rest ∧ ∀ g ∈ done, ∃ d, dep.byName g.dimensionName = some d
  obtain ⟨done, hdone, hall⟩ : P [] held' t := by
    refine exec_forEach (P := P) ?_ h ⟨[], rfl, by simp⟩
    rintro grant rest held₁ u held₂ v ⟨done, rfl, hall⟩ hround
    obtain ⟨d, _, _, hdimension, _⟩ := exec_bind.mp hround
    obtain ⟨hfilter, _, _⟩ := exec_orThrow.mp hdimension
    refine ⟨done ++ [grant], by simp, fun g hg => ?_⟩
    rcases mem_append.mp hg with hg | hg
    · exact hall g hg
    · cases mem_singleton.mp hg
      exact ⟨d, (filter_eq_some_iff.mp hfilter).1⟩
  rw [append_nil] at hdone
  exact hdone ▸ hall

theorem exec_admitRun_named {admission : RunAdmission} {resolution : RunVersionResolution}
    {evidence : RunAdmissionEvidence} {r : Unit} {held held' : List Lock}
    (h : storeEngine.Exec (admitRun dep admission resolution evidence) held s r held' t) :
    ∃ grants, admissionGrants dep admission resolution evidence = .ok grants ∧
      ∀ g ∈ grants, ∃ d, dep.byName g.dimensionName = some d := by
  obtain ⟨grants, hok, h₁⟩ := exec_bind_ofExcept.mp h
  obtain ⟨_, _, _, _, h₂⟩ := exec_bind.mp h₁
  obtain ⟨_, _, _, _, hloop⟩ := exec_bind.mp h₂
  exact ⟨grants, hok, exec_issueRootGrants_named hloop⟩

/-- A committed admission of a root run, with its grants. -/
theorem commits_admitsRoot {request : Request} {response : Response} {admission : RunAdmission}
    {resolution : RunVersionResolution} {evidence : RunAdmissionEvidence}
    (hadmits : request.Admits admission resolution evidence none)
    (h : Serves dep request response s t) :
    ∃ grants, rootResourceGrants (resolution.resolvedConstraints.getD []) = .ok grants ∧
      (∀ g ∈ grants, ∃ d, dep.byName g.dimensionName = some d) ∧ Admits dep admission none grants s t := by
  obtain ⟨held, hexec⟩ := h
  rcases hadmits with ⟨rfl, _⟩ | ⟨acquisition, stored, now, rfl, _⟩ | ⟨requested, _, hparent⟩
  · obtain ⟨_, hadmit, _⟩ := exec_respond hexec
    obtain ⟨grants, hgrants, hnamed⟩ := exec_admitRun_named hadmit
    obtain ⟨_, _, grants', hgrants', hresult⟩ := exec_admitRun hadmit
    cases hgrants.symm.trans hgrants'
    exact ⟨grants, admissionGrants_spec hgrants, hnamed, hresult⟩
  · obtain ⟨_, hrun, _⟩ := exec_respond hexec
    obtain ⟨_, mid, _, _, _, _, _, _, hadmit, _, _, _, rfl⟩ := exec_admitRunIdempotently hrun
    obtain ⟨grants, hgrants, hnamed⟩ := exec_admitRun_named hadmit
    obtain ⟨_, _, grants', hgrants', hresult⟩ := exec_admitRun hadmit
    cases hgrants.symm.trans hgrants'
    exact ⟨grants, admissionGrants_spec hgrants, hnamed, hresult.recorded⟩
  · cases hparent

/-- All grants of the new envelope were issued by its admission. -/
theorem Admits.grant_issued {admission : RunAdmission} {parent : Option ID} {grants : List RootResourceGrant}
    (h : Admits dep admission parent grants s t) (hplaced : Placed s) {d : ID} {g : Grant}
    (hg : t.grants.get (admission.envelopeID, d) = some g) :
    ∃ dimension, ⟨dimension.name, g.grantedValue⟩ ∈ grants ∧ dep.byName dimension.name = some dimension ∧
      dimension.id = d := by
  rcases h.posts.grant_origin hg with hold | hissue
  · obtain ⟨b, hb⟩ := hplaced.balance _ g hold
    obtain ⟨e, he⟩ := hplaced.envelope _ b hb
    exact absurd (Table.key_of_get he) (h.envelope_fresh e (Table.mem_of_get he)).1
  · obtain ⟨x, hx, hentry⟩ := mem_filterMap.mp hissue
    obtain ⟨dimension, hdimension, heq⟩ := map_eq_some_iff.mp hentry
    simp only [Entry.issue.injEq, true_and] at heq
    obtain ⟨rfl, hvalue⟩ := heq
    have hname : dimension.name = x.dimensionName := (Deployment.byName_spec hdimension).1
    refine ⟨dimension, ?_, by rw [hname]; exact hdimension, rfl⟩
    rw [hname, ← hvalue]
    exact hx

/-- The admission of a prepared run grants no more than any of the four authorities: each grant, and the
deadline, is at most each value present under its key, it exists only under a key of the deployment or the
manifest, and each such key of a resource dimension yields a grant, or the deadline. The policy's value is
the one of the decision that the resolution names, which was asked for this command. -/
theorem admission_within_authority {governor : Governor} (h : Reachable dep governor)
    {c : Commit Store Response Request} (hc : c ∈ governor.log) {admission : RunAdmission}
    {r : RunVersionResolution} {evidence : RunAdmissionEvidence}
    (hadmits : c.request.Admits admission r evidence none) {resolver : VersionResolver} {clock : Time}
    {ids : AdmissionIDs} {command : AdmitRun}
    (hprepare : prepare resolver clock ids command = .ok (admission, r, evidence)) :
    ∃ a : Authorities, command.authorityConstraints = some a.deployment ∧
      a.requested = command.requestedConstraints.getD [] ∧
      (∃ candidates, resolver.candidates command.agentID command.requestedVersionDigest = .ok candidates ∧
        ∃ candidate ∈ candidates, candidate.version.id = r.agentVersionID ∧
          candidate.version.manifest.limits = a.limits ∧
          ∃ authority now n result, approvedAuthority a.deployment a.limits = .ok authority ∧
            resolver.evaluate (VersionResolver.input (command.resolveCommand ids.runID) authority candidate
              "runs.create" now (resolver.newID n)) = .ok result ∧
            result.decision.allow = true ∧ parseID result.decision.decisionID = some r.invocationDecisionID ∧
            result.decision.resolvedConstraints = some a.decision) ∧
      ((∀ key, a.Integral key) →
        (∀ d g, c.after.grants.get (admission.envelopeID, d) = some g →
          ∃ entry ∈ rootResourceConstraintDimensions, (dep.byName entry.2).map (·.id) = some d ∧
            a.Ceiling entry.1 ∧ a.Bounds entry.1 g.grantedValue) ∧
        (c.after.runs.get admission.runID = some (admittedRun admission) ∧
          ∀ deadline ∈ admission.deadlineAt, ∃ seconds : Int,
            deadline.nanos = admission.createdAt.nanos + seconds * 1000000000 ∧
            a.Ceiling "max_execution_time_seconds" ∧ a.Bounds "max_execution_time_seconds" seconds)) ∧
      (a.Ceiling "max_execution_time_seconds" → admission.deadlineAt.isSome = true) ∧
      ∀ entry ∈ rootResourceConstraintDimensions, a.Ceiling entry.1 →
        ∃ d g, dep.byName entry.2 = some d ∧ c.after.grants.get (admission.envelopeID, d.id) = some g := by
  obtain ⟨⟨hsound, _⟩, _, hcommit⟩ := h.ledger.2 c hc
  obtain ⟨grants, hroot, hnamed, hresult⟩ := commits_admitsRoot hadmits hcommit
  obtain ⟨hresolve, hdeadline⟩ := prepare_spec hprepare
  obtain ⟨deployment, candidates, now, hdeployment, hcandidates, _, candidate, hmem, n, htakes⟩ :=
    VersionResolver.resolve_spec hresolve
  obtain ⟨authority, invocation, resolved, happroved, hdecide, hallow, hid, hresolved, hconstraints⟩ :=
    htakes.decided
  obtain ⟨decision, hdecision⟩ : ∃ decision, invocation.decision.resolvedConstraints = some decision := by
    obtain ⟨_, decided, hdecided, _⟩ := resolveConstraints_spec hresolved
    exact ⟨decided, hdecided⟩
  rw [hdecision] at hresolved
  let a : Authorities := ⟨deployment, candidate.version.manifest.limits,
    command.requestedConstraints.getD [], decision⟩
  have hresolves : a.Resolves resolved := resolves_of_authority happroved hresolved
  rw [hconstraints, getD_some] at hroot hdeadline
  refine ⟨a, hdeployment, rfl, ⟨candidates, hcandidates, candidate, hmem, htakes.version.symm, rfl,
    authority, now, _, invocation, happroved, (VersionResolver.decide_spec hdecide).1, hallow, hid,
    hdecision⟩, fun hintegral => ⟨?_, ?_, ?_⟩, fun hceiling => ?_, ?_⟩
  · intro d g hg
    obtain ⟨dimension, hgrant, hdimension, rfl⟩ := hresult.grant_issued hsound.placed hg
    obtain ⟨entry, hentry, hname, hvalue⟩ := (mem_rootResourceGrants hroot _ _).mp hgrant
    refine ⟨entry, hentry, by rw [hname, hdimension]; rfl, hresolves.grant (hintegral _) hvalue⟩
  · rw [hresult.store_eq.runs]
    exact Table.get_put_self _ _
  · intro deadline hsome
    rw [mem_def.mp hsome] at hdeadline
    exact hresolves.deadline (hintegral _) hdeadline
  · exact hresolves.deadline_isSome hceiling hdeadline
  · intro entry hentry hceiling
    have hkey : ((resolved.map fun x => (x.1, x.2.constraint)).lookup entry.1).isSome = true := by
      rw [lookup_map fun _ value => PolicyValue.constraint value, isSome_map]
      exact (hresolves.keys entry.1).mpr hceiling
    obtain ⟨g, hg, hname⟩ := ((rootResourceGrants_spec hroot).2.2 entry.2).mpr ⟨entry, hentry, rfl, hkey⟩
    obtain ⟨d, hd⟩ := hnamed g hg
    have hissue : .issue admission.envelopeID d.id g.coefficient ∈
        rootEntries dep admission.envelopeID grants := mem_filterMap.mpr ⟨g, hg, by rw [hd]; rfl⟩
    obtain ⟨row, hrow, _⟩ := hresult.posts.issued_value hissue
    exact ⟨d, row, hname ▸ hd, hrow⟩

namespace Sample

/-- Version 3 with a limit of five tool calls and a minute. -/
def limitedCandidate : AgentVersionCandidate where
  agent := ⟨.ofNat 2, .ofNat 1, "planner", "", .ofNat 4, .ofNat 7, .low, .active, instant 1, instant 1⟩
  version := ⟨.ofNat 3, .ofNat 1, .ofNat 2, digest,
    ⟨[], [], ⟨some 60, none, none, some 5, none, none, none, none⟩⟩⟩
  approval := ⟨.ofNat 6, .ofNat 1, .ofNat 2, .ofNat 3, .ofNat 7, .ofNat 5, .approved, "reviewed", "", instant 2⟩
  state := .decided .approved

/-- A policy that allows three tool calls. -/
def threeCalls : Evaluator := fun input =>
  .ok { decision :=
          { contractVersion := contractVersion, decisionID := input.decisionID, allow := true
            reasonCodes := ["agent.invoke.allowed"], resolvedConstraints := some [("max_tool_calls", .int64 3)]
            obligations := some [], decisionTTLSeconds := 0 }
        metadata := ⟨digest, 1, "", ""⟩ }

def resolver : VersionResolver where
  candidates _ _ := .ok [limitedCandidate]
  evaluate := threeCalls
  clock := instant 100
  newID n := .ofNat (0x70008000000000000028 + n)

/-- The deployment's ceiling is eight calls, the caller asks for four. -/
def fourCalls : AdmitRun where
  tenantID := .ofNat 1
  principalID := .ofNat 4
  agentID := .ofNat 2
  requestID := .ofNat 30
  roles := []
  requestedVersionDigest := ""
  requestedConstraints := some [("max_tool_calls", .number "4")]
  authorityConstraints := some [("max_tool_calls", .int 8)]
  securityState := ⟨0, 0, 0, 0, 0, 0, false, true⟩

def admissionIDs : AdmissionIDs := ⟨.ofNat 100, .ofNat 101, .ofNat 102, .ofNat 103, .ofNat 104⟩

def preparedAdmission : RunAdmission :=
  { runID := .ofNat 100, envelopeID := .ofNat 101, tenantID := .ofNat 1, agentID := .ofNat 2
    agentVersionID := .ofNat 3, agentVersionDigest := digest, requestedBy := .ofNat 4
    policyDecisionID := .ofNat 0x70008000000000000029, state := .admitted, stateVersion := 1
    constraints := some [("max_tool_calls", .int64 3), ("max_execution_time_seconds", .number "60")]
    deadlineAt := some (instant 160), createdAt := instant 100, updatedAt := instant 100 }

def preparedResolution : RunVersionResolution :=
  { runID := .ofNat 100, tenantID := .ofNat 1, agentID := .ofNat 2, agentVersionID := .ofNat 3
    approvalID := .ofNat 6, agentContentDigest := digest, policyBundleDigest := digest
    policyActivationVersion := 1, mode := .automatic, invocationDecisionID := .ofNat 0x70008000000000000029
    selectionDecisionID := .ofNat 0
    resolvedConstraints := some [("max_tool_calls", .int64 3), ("max_execution_time_seconds", .number "60")]
    resolvedAt := instant 100 }

def preparedEvidence : RunAdmissionEvidence :=
  ⟨.ofNat 102, .ofNat 103, .ofNat 104, .ofNat 30, ["agent.invoke.allowed"]⟩

theorem prepare_fourCalls : prepare resolver (instant 100) admissionIDs fourCalls =
    .ok (preparedAdmission, preparedResolution, preparedEvidence) := by
  decide +kernel

def prepared : List Request :=
  provision ++ [.admitRun preparedAdmission preparedResolution preparedEvidence]

/-- The commit admits the prepared run, with a grant of tool calls. -/
def admitsPrepared (c : Commit Store Response Request) : Bool :=
  (match c.request with
    | .admitRun admission resolution evidence =>
      admission = preparedAdmission && resolution = preparedResolution && evidence = preparedEvidence
    | _ => false) && (c.after.grants.get (.ofNat 101, .ofNat 11)).isSome

theorem admitsPrepared_spec {c : StoreCommit} (h : admitsPrepared c = true) :
    c.request.Admits preparedAdmission preparedResolution preparedEvidence none ∧
      ∃ g, c.after.grants.get (.ofNat 101, .ofNat 11) = some g := by
  simp only [admitsPrepared, Bool.and_eq_true] at h
  obtain ⟨hrequest, hgrant⟩ := h
  refine ⟨?_, isSome_iff_exists.mp hgrant⟩
  split at hrequest
  · rename_i heq
    simp only [Bool.and_eq_true, decide_eq_true_eq] at hrequest
    obtain ⟨⟨rfl, rfl⟩, rfl⟩ := hrequest
    exact Or.inl ⟨heq, rfl⟩
  · cases hrequest

theorem prepared_admitted : (after prepared).log.any admitsPrepared = true := by
  decide +kernel

theorem mem_lookup_single {name key : String} {entry value : PolicyValue}
    (h : value ∈ List.lookup key [(name, entry)]) : value = entry := by
  rw [lookup_cons] at h
  split at h
  · exact (Option.some.inj h).symm
  · cases h

/-- Dimension 11 is the one of tool calls. -/
theorem dimension_calls : ∀ entry ∈ rootResourceConstraintDimensions,
    (deployment.byName entry.2).map (·.id) = some (.ofNat 11) → entry.1 = "max_tool_calls" := by
  decide +kernel

end Sample

theorem admission_within_authority_prepared : ∃ c ∈ (Sample.after Sample.prepared).log,
    ∃ g, c.after.grants.get (.ofNat 101, .ofNat 11) = some g ∧ g.grantedValue ≤ 3 := by
  obtain ⟨c, hc, hadmits⟩ := List.any_eq_true.mp Sample.prepared_admitted
  obtain ⟨hrequest, g, hg⟩ := Sample.admitsPrepared_spec hadmits
  obtain ⟨⟨deployment, limits, requested, decision⟩, hdeployment, hrequested,
    ⟨_, _, _, _, _, _, _, _, _, result, _, hresult, _, _, hdecision⟩, hwithin, _⟩ :=
    admission_within_authority (Sample.reachable _) hc hrequest Sample.prepare_fourCalls
  cases hresult
  cases hdecision
  cases hrequested
  cases hdeployment
  obtain ⟨entry, hentry, hdimension, _, hbounds, _⟩ := (hwithin fun key => by
    simp only [Authorities.Integral, forall_mem_cons, not_mem_nil, false_imp_iff, implies_true, and_true]
    refine ⟨?_, ?_, ?_⟩ <;>
    · intro value hvalue q shortest heq
      cases (Sample.mem_lookup_single hvalue).symm.trans heq).1 _ _ hg
  refine ⟨c, hc, g, hg, ?_⟩
  rw [Sample.dimension_calls entry hentry hdimension] at hbounds
  obtain ⟨bound, hbound, hle⟩ := hbounds [("max_tool_calls", .int64 3)] (by simp) (.int64 3) rfl
  cases hbound
  exact_mod_cast hle

end AgentGovernor
