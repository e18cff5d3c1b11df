import AgentGovernor.LedgerTable
import AgentGovernor.MachineRun
import AgentGovernor.RevocationDomain

/-! How fresh the revocation state of a process is. The tracker keeps, for each tenant, the last sequence and
epochs that were applied, the authority's head as far as it is known, and the reading of the monotonic clock
at the last observation that was applied; every call takes its mutex once, so a run of the tracker is a
sequence of calls. The readings of the two clocks are part of a call. -/

namespace AgentGovernor

open Ledger

inductive FreshnessError where
  | invalidObservation
  | regression
  | gap
  | monotonicClockRegression
  deriving DecidableEq

structure RevocationFreshnessState where
  lastAppliedSequence : Int
  lastAppliedEpochs : EpochVector
  lastStreamReceipt : Time
  lastReconciliation : Time
  observedElapsed : Int
  authoritativeSequence : Int
  gap : Bool
  hasObservation : Bool
  deriving DecidableEq

def zeroTime : Time := ⟨-62135596800000000000, true⟩

/-- The zero value, which Go's maps also give for absent keys. -/
def RevocationFreshnessState.zero : RevocationFreshnessState :=
  ⟨0, ⟨0, 0, 0, 0⟩, zeroTime, zeroTime, 0, 0, false, false⟩

structure RevocationFreshnessTracker where
  states : Table fun entry : ID × RevocationFreshnessState => entry.1
  gapEvents : Nat

structure RevocationFreshness where
  tenantID : ID
  lastAppliedSequence : Int
  lastAppliedEpochs : EpochVector
  lastStreamReceipt : Time
  lastReconciliation : Time
  age : Int
  hasAuthoritativeState : Bool
  monotonicClockHealthy : Bool
  deriving DecidableEq

/-- The arguments of `record` and what the two clocks read. -/
structure FreshnessObservation where
  tenant : ID
  sequence : Int
  epochs : EpochVector
  stream : Bool
  wall : Time
  elapsed : Int
  deriving DecidableEq

/-- How a call that returns no error ended: `applied` is the one that runs the registered invalidators, on
the text of the tenant. -/
inductive FreshnessReceipt where
  | recorded
  | duplicate
  | applied (invalidate : String)
  deriving DecidableEq

def validEpochVector (v : EpochVector) : Bool :=
  0 ≤ v.security && 0 ≤ v.tenantPolicy && 0 ≤ v.tenantRevocation && 0 ≤ v.agentRevocation

def epochRegresses (next previous : EpochVector) : Bool :=
  next.security < previous.security || next.tenantPolicy < previous.tenantPolicy ||
    next.tenantRevocation < previous.tenantRevocation || next.agentRevocation < previous.agentRevocation

def epochAdvances (next previous : EpochVector) : Bool :=
  previous.security < next.security || previous.tenantPolicy < next.tenantPolicy ||
    previous.tenantRevocation < next.tenantRevocation || previous.agentRevocation < next.agentRevocation

def mergeEpochs (current observed : EpochVector) : EpochVector :=
  ⟨max current.security observed.security, max current.tenantPolicy observed.tenantPolicy,
    max current.tenantRevocation observed.tenantRevocation,
    max current.agentRevocation observed.agentRevocation⟩

namespace RevocationFreshnessState

variable (previous : RevocationFreshnessState)

/-- The authority has reached a sequence that was not applied. -/
def missed (sequence : Int) : RevocationFreshnessState :=
  { previous with authoritativeSequence := max previous.authoritativeSequence sequence, gap := true }

/-- The state after an observation at this wall time. -/
def applied (o : FreshnessObservation) (wall : Time) : RevocationFreshnessState :=
  { previous with
    lastAppliedSequence := o.sequence
    hasObservation := true
    authoritativeSequence := max previous.authoritativeSequence o.sequence
    lastAppliedEpochs := mergeEpochs previous.lastAppliedEpochs o.epochs
    observedElapsed := o.elapsed
    lastStreamReceipt := if o.stream then wall else previous.lastStreamReceipt
    lastReconciliation := if o.stream then previous.lastReconciliation else wall
    gap := if o.stream then previous.gap else false }

/-- The head is behind one that is known. -/
def headRegresses (sequence : Int) : Bool :=
  sequence < previous.authoritativeSequence ||
    (0 < previous.lastAppliedSequence && sequence < previous.lastAppliedSequence)

end RevocationFreshnessState

/-- The checks of `record` before the mutex, with the wall time they normalize. -/
def FreshnessObservation.admitted (o : FreshnessObservation) : Except FreshnessError Time :=
  if o.tenant.isZero || o.sequence < 0 || !validEpochVector o.epochs then .error .invalidObservation
  else match requireUTC o.wall with
    | .error _ => .error .invalidObservation
    | .ok wall =>
      if wall.isZero then .error .invalidObservation
      else if o.elapsed < 0 then .error .monotonicClockRegression
      else .ok wall

theorem FreshnessObservation.admitted_spec {o : FreshnessObservation} {wall : Time}
    (h : o.admitted = .ok wall) :
    o.tenant.isZero = false ∧ 0 ≤ o.sequence ∧ validEpochVector o.epochs = true := by
  unfold admitted at h
  split at h
  · cases h
  · rename_i hvalid
    simpa [and_assoc] using hvalid

namespace RevocationFreshnessTracker

variable (t : RevocationFreshnessTracker)

def new : RevocationFreshnessTracker := ⟨.empty, 0⟩

def state (tenant : ID) : RevocationFreshnessState := ((t.states.get tenant).map (·.2)).getD .zero

def setState (tenant : ID) (state : RevocationFreshnessState) : RevocationFreshnessTracker :=
  { t with states := t.states.put (tenant, state) }

def countGap : RevocationFreshnessTracker := { t with gapEvents := (t.gapEvents + 1) % 2 ^ 64 }

def trackTenant (tenant : ID) : RevocationFreshnessTracker :=
  if tenant.isZero || (t.states.get tenant).isSome then t else t.setState tenant .zero

def recordAuthoritativeHead (tenant : ID) (sequence : Int) :
    Except FreshnessError FreshnessReceipt × RevocationFreshnessTracker :=
  if tenant.isZero || sequence < 0 then (.error .invalidObservation, t)
  else if (t.state tenant).headRegresses sequence then (.error .regression, t)
  else (.ok .recorded, t.setState tenant { t.state tenant with authoritativeSequence := sequence })

def recordGap (tenant : ID) (authoritativeSequence : Int) :
    Except FreshnessError FreshnessReceipt × RevocationFreshnessTracker :=
  if tenant.isZero || authoritativeSequence < 0 then (.error .invalidObservation, t)
  else if (t.state tenant).headRegresses authoritativeSequence then (.error .regression, t)
  else (.ok .recorded,
    (t.setState tenant { t.state tenant with authoritativeSequence, gap := true }).countGap)

/-- What `record` does under the mutex, with the wall time it normalized before. -/
def observe (o : FreshnessObservation) (wall : Time) :
    Except FreshnessError FreshnessReceipt × RevocationFreshnessTracker :=
  let previous := t.state o.tenant
  let known := (t.states.get o.tenant).isSome
  if known && o.elapsed < previous.observedElapsed then (.error .monotonicClockRegression, t)
  else if known && (o.sequence < previous.lastAppliedSequence ||
      o.epochs.security < previous.lastAppliedEpochs.security) then (.error .regression, t)
  else if known && !o.stream && epochRegresses o.epochs previous.lastAppliedEpochs then
    (.error .regression, t)
  else if known && o.stream && previous.hasObservation && o.sequence = previous.lastAppliedSequence &&
      epochAdvances o.epochs previous.lastAppliedEpochs then (.error .regression, t)
  else if known && o.stream && previous.hasObservation && o.sequence = previous.lastAppliedSequence then
    (.ok .duplicate, t)
  else if known && o.stream && previous.hasObservation &&
      wrapInt64 (previous.lastAppliedSequence + 1) < o.sequence then
    (.error .gap, (t.setState o.tenant (previous.missed o.sequence)).countGap)
  else (.ok (.applied o.tenant.string), t.setState o.tenant (previous.applied o wall))

def record (o : FreshnessObservation) :
    Except FreshnessError FreshnessReceipt × RevocationFreshnessTracker :=
  match o.admitted with
  | .error error => (.error error, t)
  | .ok wall => t.observe o wall

/-- `now` is the monotonic clock's reading. -/
def snapshot (tenant : ID) (now : Int) : RevocationFreshness :=
  let out : RevocationFreshness := ⟨tenant, 0, ⟨0, 0, 0, 0⟩, zeroTime, zeroTime, 0, false, true⟩
  if tenant.isZero then { out with monotonicClockHealthy := false }
  else
    let state := t.state tenant
    if (t.states.get tenant).isNone || !state.hasObservation then out
    else
      let out := { out with
        lastAppliedSequence := state.lastAppliedSequence
        lastAppliedEpochs := state.lastAppliedEpochs
        lastStreamReceipt := state.lastStreamReceipt
        lastReconciliation := state.lastReconciliation }
      if state.gap || state.lastAppliedSequence < state.authoritativeSequence then out
      else if now < state.observedElapsed then { out with monotonicClockHealthy := false }
      else { out with hasAuthoritativeState := true, age := now - state.observedElapsed }

end RevocationFreshnessTracker

/-! ### Calls -/

inductive FreshnessCall where
  | trackTenant (tenant : ID)
  | recordStreamReceipt (tenant : ID) (sequence : Int) (epochs : EpochVector) (wall : Time) (elapsed : Int)
  | recordReconciliation (tenant : ID) (sequence : Int) (epochs : EpochVector) (wall : Time) (elapsed : Int)
  | recordGap (tenant : ID) (authoritativeSequence : Int)
  | recordAuthoritativeHead (tenant : ID) (sequence : Int)
  deriving DecidableEq

def FreshnessCall.observation : FreshnessCall → Option FreshnessObservation
  | .recordStreamReceipt tenant sequence epochs wall elapsed =>
    some ⟨tenant, sequence, epochs, true, wall, elapsed⟩
  | .recordReconciliation tenant sequence epochs wall elapsed =>
    some ⟨tenant, sequence, epochs, false, wall, elapsed⟩
  | _ => none

namespace RevocationFreshnessTracker

def call (t : RevocationFreshnessTracker) (c : FreshnessCall) :
    Except FreshnessError FreshnessReceipt × RevocationFreshnessTracker :=
  match c with
  | .trackTenant tenant => (.ok .recorded, t.trackTenant tenant)
  | .recordStreamReceipt tenant sequence epochs wall elapsed =>
    t.record ⟨tenant, sequence, epochs, true, wall, elapsed⟩
  | .recordReconciliation tenant sequence epochs wall elapsed =>
    t.record ⟨tenant, sequence, epochs, false, wall, elapsed⟩
  | .recordGap tenant sequence => t.recordGap tenant sequence
  | .recordAuthoritativeHead tenant sequence => t.recordAuthoritativeHead tenant sequence

/-- The tracker of a process that was called like this. -/
def after (calls : List FreshnessCall) : RevocationFreshnessTracker := Machine.after call new calls

theorem state_setState (t : RevocationFreshnessTracker) (tenant other : ID) (state : RevocationFreshnessState) :
    (t.setState tenant state).state other = if other = tenant then state else t.state other := by
  unfold RevocationFreshnessTracker.state setState
  rw [Table.get_put]
  split_ifs <;> rfl

@[simp] theorem state_countGap (t : RevocationFreshnessTracker) (tenant : ID) :
    t.countGap.state tenant = t.state tenant := rfl

variable {t : RevocationFreshnessTracker} {tenant : ID}

theorem state_of_absent (h : (t.states.get tenant).isSome = false) :
    t.state tenant = .zero := by
  unfold RevocationFreshnessTracker.state
  rw [Option.isSome_eq_false_iff, Option.isNone_iff_eq_none] at h
  rw [h]
  rfl

/-! ### What a call does -/

/-- The state of a tenant after a call. -/
inductive Moves (t : RevocationFreshnessTracker) (tenant : ID) (c : FreshnessCall) :
    Except FreshnessError FreshnessReceipt → RevocationFreshnessState → Prop
  | same (outcome : Except FreshnessError FreshnessReceipt)
      (h : ∀ o, c.observation = some o → o.tenant = tenant → ∀ invalidate, outcome ≠ .ok (.applied invalidate)) :
      Moves t tenant c outcome (t.state tenant)
  | head (sequence : Int) (h : (t.state tenant).authoritativeSequence ≤ sequence) :
      Moves t tenant c (.ok .recorded) { t.state tenant with authoritativeSequence := sequence }
  | gap (sequence : Int) (h : (t.state tenant).authoritativeSequence ≤ sequence) :
      Moves t tenant c (.ok .recorded) { t.state tenant with authoritativeSequence := sequence, gap := true }
  | missed (sequence : Int) : Moves t tenant c (.error .gap) ((t.state tenant).missed sequence)
  | applied (o : FreshnessObservation) (wall : Time) (hobservation : c.observation = some o)
      (htenant : o.tenant = tenant) (h : (t.state tenant).lastAppliedSequence ≤ o.sequence) :
      Moves t tenant c (.ok (.applied tenant.string)) ((t.state tenant).applied o wall)

variable {c : FreshnessCall}

theorem Moves.setState {other : ID}
    {outcome : Except FreshnessError FreshnessReceipt} {state : RevocationFreshnessState}
    (hself : other = tenant → Moves t other c outcome state)
    (hother : other ≠ tenant → ∀ o, c.observation = some o → o.tenant = tenant) :
    Moves t other c outcome ((t.setState tenant state).state other) := by
  rw [state_setState]
  split_ifs with htenant
  · exact hself htenant
  · refine .same _ fun o hobservation hsame => ?_
    exact absurd (hsame.symm.trans (hother htenant o hobservation)) htenant

theorem head_moves {sequence : Int}
    (h : (t.state tenant).headRegresses sequence = false) :
    (t.state tenant).authoritativeSequence ≤ sequence := by
  rw [RevocationFreshnessState.headRegresses, Bool.or_eq_false_iff, decide_eq_false_iff_not] at h
  omega

theorem Moves.rejected (t : RevocationFreshnessTracker) (tenant : ID) (c : FreshnessCall) (e : FreshnessError) :
    Moves t tenant c (.error e) (t.state tenant) :=
  .same _ fun _ _ _ _ h => by cases h

/-- What a known tenant's state says, an unknown tenant's says too: it is zero. -/
theorem sequence_le {sequence : Int} (hsequence : 0 ≤ sequence)
    (h : (t.states.get tenant).isSome = true → (t.state tenant).lastAppliedSequence ≤ sequence) :
    (t.state tenant).lastAppliedSequence ≤ sequence := by
  cases hknown : (t.states.get tenant).isSome with
  | true => exact h hknown
  | false =>
    rw [state_of_absent hknown]
    exact hsequence

variable {o : FreshnessObservation}

theorem observe_moves {wall : Time}
    (hc : c.observation = some o) (hsequence : 0 ≤ o.sequence) (tenant : ID) :
    Moves t tenant c (t.observe o wall).1 ((t.observe o wall).2.state tenant) := by
  have hown : ∀ o', c.observation = some o' → o'.tenant = o.tenant := by
    intro o' ho'
    rw [Option.some.inj (hc.symm.trans ho')]
  unfold observe
  dsimp only
  split_ifs with hclock hbehind hregresses hconflict hduplicate hgap
  · exact Moves.rejected ..
  · exact Moves.rejected ..
  · exact Moves.rejected ..
  · exact Moves.rejected ..
  · exact .same _ fun _ _ _ _ h => by cases h
  · rw [state_countGap]
    refine Moves.setState (fun htenant => ?_) fun _ => hown
    subst htenant
    exact .missed o.sequence
  · refine Moves.setState (fun htenant => ?_) fun _ => hown
    subst htenant
    refine .applied o wall hc rfl (sequence_le hsequence fun hknown => ?_)
    simp only [hknown, Bool.true_and, Bool.or_eq_true, decide_eq_true_eq, not_or, not_lt] at hbehind
    exact hbehind.1

theorem record_moves
    (hc : c.observation = some o) (tenant : ID) :
    Moves t tenant c (t.record o).1 ((t.record o).2.state tenant) := by
  unfold record
  cases hadmitted : o.admitted with
  | error _ => exact Moves.rejected ..
  | ok wall => exact observe_moves hc (FreshnessObservation.admitted_spec hadmitted).2.1 tenant

theorem call_moves (t : RevocationFreshnessTracker) (c : FreshnessCall) (tenant : ID) :
    Moves t tenant c (t.call c).1 ((t.call c).2.state tenant) := by
  cases c with
  | recordStreamReceipt _ _ _ _ _ => exact record_moves rfl tenant
  | recordReconciliation _ _ _ _ _ => exact record_moves rfl tenant
  | trackTenant other =>
    simp only [call, trackTenant]
    split_ifs with hknown
    · exact .same _ fun _ h => by cases h
    · refine Moves.setState (fun htenant => ?_) fun _ _ h => by cases h
      subst htenant
      rw [Bool.or_eq_true, not_or, Bool.not_eq_true, Bool.not_eq_true] at hknown
      rw [← state_of_absent hknown.2]
      exact .same _ fun _ h => by cases h
  | recordGap other sequence =>
    simp only [call, recordGap]
    split_ifs with hinvalid hregresses
    · exact Moves.rejected ..
    · exact Moves.rejected ..
    · rw [state_countGap]
      refine Moves.setState (fun htenant => ?_) fun _ _ h => by cases h
      subst htenant
      exact .gap sequence (head_moves (Bool.eq_false_iff.mpr hregresses))
  | recordAuthoritativeHead other sequence =>
    simp only [call, recordAuthoritativeHead]
    split_ifs with hinvalid hregresses
    · exact Moves.rejected ..
    · exact Moves.rejected ..
    · refine Moves.setState (fun htenant => ?_) fun _ _ h => by cases h
      subst htenant
      exact .head sequence (head_moves (Bool.eq_false_iff.mpr hregresses))

/-! ### Runs -/

/-- Nothing that was applied is taken back. -/
structure Advances (previous next : RevocationFreshnessState) : Prop where
  sequence : previous.lastAppliedSequence ≤ next.lastAppliedSequence
  security : previous.lastAppliedEpochs.security ≤ next.lastAppliedEpochs.security
  tenantPolicy : previous.lastAppliedEpochs.tenantPolicy ≤ next.lastAppliedEpochs.tenantPolicy
  tenantRevocation : previous.lastAppliedEpochs.tenantRevocation ≤ next.lastAppliedEpochs.tenantRevocation
  agentRevocation : previous.lastAppliedEpochs.agentRevocation ≤ next.lastAppliedEpochs.agentRevocation

namespace Advances

theorem of_eq {a b : RevocationFreshnessState} (hsequence : a.lastAppliedSequence = b.lastAppliedSequence)
    (hepochs : a.lastAppliedEpochs = b.lastAppliedEpochs) : Advances a b :=
  ⟨hsequence.le, hepochs ▸ le_rfl, hepochs ▸ le_rfl, hepochs ▸ le_rfl, hepochs ▸ le_rfl⟩

theorem trans {a b c : RevocationFreshnessState} (hab : Advances a b) (hbc : Advances b c) : Advances a c :=
  ⟨hab.sequence.trans hbc.sequence, hab.security.trans hbc.security, hab.tenantPolicy.trans hbc.tenantPolicy,
    hab.tenantRevocation.trans hbc.tenantRevocation, hab.agentRevocation.trans hbc.agentRevocation⟩

end Advances

variable {t : RevocationFreshnessTracker} {tenant : ID} {c : FreshnessCall}
  {outcome : Except FreshnessError FreshnessReceipt} {state : RevocationFreshnessState}

theorem Moves.advances (h : Moves t tenant c outcome state) : Advances (t.state tenant) state := by
  cases h with
  | same => exact .of_eq rfl rfl
  | head => exact .of_eq rfl rfl
  | gap => exact .of_eq rfl rfl
  | missed => exact .of_eq rfl rfl
  | applied o wall _ _ hle =>
    exact ⟨hle, le_max_left _ _, le_max_left _ _, le_max_left _ _, le_max_left _ _⟩

theorem Moves.authoritative (h : Moves t tenant c outcome state)
    (hs : (t.state tenant).lastAppliedSequence ≤ (t.state tenant).authoritativeSequence) :
    state.lastAppliedSequence ≤ state.authoritativeSequence := by
  cases h with
  | same => exact hs
  | head _ hle => exact hs.trans hle
  | gap _ hle => exact hs.trans hle
  | missed => exact hs.trans (le_max_left _ _)
  | applied => exact le_max_right _ _

/-- The call is an accepted observation that is no duplicate. -/
def Applies (t : RevocationFreshnessTracker) (c : FreshnessCall) (o : FreshnessObservation) : Prop :=
  c.observation = some o ∧ (t.call c).1 = .ok (.applied o.tenant.string)

/-- A gap is closed by a reconciliation that was applied. -/
theorem Moves.gap_closed (h : Moves t tenant c outcome state) (hgap : (t.state tenant).gap = true)
    (hclosed : state.gap = false) : ∃ o, c.observation = some o ∧ o.tenant = tenant ∧ o.stream = false ∧
      outcome = .ok (.applied tenant.string) := by
  cases h with
  | same => exact absurd (hgap.symm.trans hclosed) Bool.noConfusion
  | head => exact absurd (hgap.symm.trans hclosed) Bool.noConfusion
  | gap => cases hclosed
  | missed => cases hclosed
  | applied o wall hobservation htenant _ =>
    refine ⟨o, hobservation, htenant, ?_, rfl⟩
    cases hstream : o.stream with
    | false => rfl
    | true =>
      simp only [RevocationFreshnessState.applied, hstream, if_true] at hclosed
      exact absurd (hgap.symm.trans hclosed) Bool.noConfusion

theorem Moves.origin (h : Moves t tenant c outcome state)
    (hnot : ∀ o, c.observation = some o → o.tenant = tenant → outcome ≠ .ok (.applied tenant.string)) :
    state.observedElapsed = (t.state tenant).observedElapsed ∧
      state.hasObservation = (t.state tenant).hasObservation := by
  cases h with
  | same => exact ⟨rfl, rfl⟩
  | head => exact ⟨rfl, rfl⟩
  | gap => exact ⟨rfl, rfl⟩
  | missed => exact ⟨rfl, rfl⟩
  | applied o _ hobservation htenant _ => exact absurd rfl (hnot o hobservation htenant)

theorem after_advances (calls more : List FreshnessCall) (tenant : ID) :
    Advances ((after calls).state tenant) ((after (calls ++ more)).state tenant) := by
  unfold after
  rw [Machine.after_append]
  exact Machine.relates (R := fun s u : RevocationFreshnessTracker => Advances (s.state tenant) (u.state tenant))
    (fun _ => .of_eq rfl rfl) (fun _ _ _ => Advances.trans) (fun s c => (call_moves s c tenant).advances) _ more

theorem after_authoritative (calls : List FreshnessCall) (tenant : ID) :
    ((after calls).state tenant).lastAppliedSequence ≤ ((after calls).state tenant).authoritativeSequence :=
  Machine.invariant (P := fun s : RevocationFreshnessTracker =>
      (s.state tenant).lastAppliedSequence ≤ (s.state tenant).authoritativeSequence)
    (fun s c hs => (call_moves s c tenant).authoritative hs) le_rfl calls

theorem gap_reconciled {calls more : List FreshnessCall}
    (hgap : ((after calls).state tenant).gap = true)
    (hclosed : ((after (calls ++ more)).state tenant).gap = false) :
    ∃ more₁ c more₂ o, more = more₁ ++ c :: more₂ ∧ (after (calls ++ more₁)).Applies c o ∧ o.tenant = tenant ∧
      o.stream = false := by
  unfold after at hclosed hgap ⊢
  rw [Machine.after_append] at hclosed
  obtain ⟨more₁, c, more₂, hmore, hbefore, hafter⟩ :=
    Machine.ended (P := fun s : RevocationFreshnessTracker => (s.state tenant).gap = true)
      hgap (Bool.eq_false_iff.mp hclosed)
  obtain ⟨o, hobservation, rfl, hstream, houtcome⟩ :=
    (call_moves _ c tenant).gap_closed hbefore (Bool.eq_false_iff.mpr hafter)
  refine ⟨more₁, c, more₂, o, hmore, ⟨hobservation, ?_⟩, rfl, hstream⟩
  rw [Machine.after_append]
  exact houtcome

/-- What the call makes of the tenant's age origin. -/
def origin (tenant : ID) (t : RevocationFreshnessTracker) (c : FreshnessCall) : Option (Bool × Int) :=
  match c.observation with
  | some o => if o.tenant = tenant ∧ (t.call c).1 = .ok (.applied tenant.string) then some (true, o.elapsed) else none
  | none => none

theorem origin_eq_some {a : Bool × Int} (h : origin tenant t c = some a) :
    ∃ o, t.Applies c o ∧ o.tenant = tenant ∧ a = (true, o.elapsed) := by
  unfold origin at h
  cases hobservation : c.observation with
  | none =>
    rw [hobservation] at h
    cases h
  | some o =>
    rw [hobservation] at h
    dsimp only at h
    split_ifs at h with happlied
    obtain ⟨rfl, houtcome⟩ := happlied
    exact ⟨o, ⟨hobservation, houtcome⟩, rfl, (Option.some.inj h).symm⟩

theorem origin_eq_none (h : origin tenant t c = none)
    (ho : c.observation = some o) (htenant : o.tenant = tenant) :
    (t.call c).1 ≠ .ok (.applied tenant.string) := by
  intro houtcome
  unfold origin at h
  rw [ho] at h
  dsimp only at h
  rw [if_pos ⟨htenant, houtcome⟩] at h
  cases h

theorem call_origin (t : RevocationFreshnessTracker) (c : FreshnessCall) (tenant : ID) :
    (((t.call c).2.state tenant).hasObservation, ((t.call c).2.state tenant).observedElapsed) =
      (origin tenant t c).getD ((t.state tenant).hasObservation, (t.state tenant).observedElapsed) := by
  cases horigin : origin tenant t c with
  | none =>
    obtain ⟨helapsed, hobservation⟩ := (call_moves t c tenant).origin fun o => origin_eq_none horigin
    rw [helapsed, hobservation]
    rfl
  | some a =>
    obtain ⟨o, ⟨hobservation, houtcome⟩, rfl, rfl⟩ := origin_eq_some horigin
    have hmoves := call_moves t c o.tenant
    rw [houtcome] at hmoves
    generalize (t.call c).2.state o.tenant = state at hmoves
    cases hmoves with
    | same _ h => exact absurd rfl (h o hobservation rfl _)
    | applied o' _ hobservation' _ _ =>
      cases hobservation.symm.trans hobservation'
      rfl

/-- A tenant with an observation has the origin of the last one that was applied. -/
theorem after_origin {calls : List FreshnessCall}
    (h : ((after calls).state tenant).hasObservation = true) :
    ∃ calls₁ c calls₂ o, calls = calls₁ ++ c :: calls₂ ∧ (after calls₁).Applies c o ∧ o.tenant = tenant ∧
      ((after calls).state tenant).observedElapsed = o.elapsed ∧
      ∀ more₁ c' more₂ o', calls₂ = more₁ ++ c' :: more₂ → (after (calls₁ ++ c :: more₁)).Applies c' o' →
        o'.tenant ≠ tenant := by
  rcases Machine.last_write
    (fun s : RevocationFreshnessTracker => ((s.state tenant).hasObservation, (s.state tenant).observedElapsed))
    (origin tenant) (fun s c => call_origin s c tenant) new calls with
    ⟨hfirst, _⟩ | ⟨calls₁, c, calls₂, hcalls, hlast, hlater⟩
  · cases h.symm.trans (congrArg Prod.fst hfirst)
  · obtain ⟨o, happlies, htenant, heq⟩ := origin_eq_some hlast
    refine ⟨calls₁, c, calls₂, o, hcalls, happlies, htenant, congrArg Prod.snd heq, ?_⟩
    rintro more₁ c' more₂ o' hmore ⟨hobservation, houtcome⟩ rfl
    exact origin_eq_none (hlater more₁ c' more₂ hmore) hobservation rfl houtcome

variable {now : Int}

theorem snapshot_authoritative
    (h : (t.snapshot tenant now).hasAuthoritativeState = true) :
    (t.state tenant).hasObservation = true ∧ (t.state tenant).gap = false ∧
      (t.state tenant).authoritativeSequence ≤ (t.state tenant).lastAppliedSequence ∧
      (t.state tenant).observedElapsed ≤ now ∧
      (t.snapshot tenant now).lastAppliedSequence = (t.state tenant).lastAppliedSequence ∧
      (t.snapshot tenant now).age = now - (t.state tenant).observedElapsed := by
  unfold snapshot at h ⊢
  dsimp only at h ⊢
  split_ifs at h ⊢ with hzero habsent hlag hclock
  simp only [Bool.or_eq_true, Bool.not_eq_true', not_or, Bool.not_eq_false, decide_eq_true_eq, not_lt,
    Bool.not_eq_true] at habsent hlag
  exact ⟨habsent.2, hlag.1, hlag.2, not_lt.mp hclock, rfl, rfl⟩

end RevocationFreshnessTracker

open RevocationFreshnessTracker in
theorem freshness_tracked (calls : List FreshnessCall) (tenant : ID) :
    (∀ more, Advances ((after calls).state tenant) ((after (calls ++ more)).state tenant)) ∧
    ((after calls).state tenant).lastAppliedSequence ≤ ((after calls).state tenant).authoritativeSequence ∧
    (∀ more, ((after calls).state tenant).gap = true → ((after (calls ++ more)).state tenant).gap = false →
      ∃ more₁ c more₂ o, more = more₁ ++ c :: more₂ ∧ (after (calls ++ more₁)).Applies c o ∧
        o.tenant = tenant ∧ o.stream = false) ∧
    (∀ c, (∃ error, ((after calls).call c).1 = .error error) ∨ ((after calls).call c).1 = .ok .duplicate →
      ((after (calls ++ [c])).state tenant).observedElapsed = ((after calls).state tenant).observedElapsed) ∧
    ∀ now, ((after calls).snapshot tenant now).hasAuthoritativeState = true →
      ((after calls).state tenant).gap = false ∧
      ((after calls).state tenant).lastAppliedSequence = ((after calls).state tenant).authoritativeSequence ∧
      ∃ calls₁ c calls₂ o, calls = calls₁ ++ c :: calls₂ ∧ (after calls₁).Applies c o ∧ o.tenant = tenant ∧
        (∀ more₁ c' more₂ o', calls₂ = more₁ ++ c' :: more₂ → (after (calls₁ ++ c :: more₁)).Applies c' o' →
          o'.tenant ≠ tenant) ∧
        ((after calls).snapshot tenant now).age = now - o.elapsed := by
  refine ⟨fun more => after_advances calls more tenant, after_authoritative calls tenant,
    fun more => gap_reconciled, fun c hrejected => ?_, fun now hauthoritative => ?_⟩
  · have hnot : ∀ invalidate, ((after calls).call c).1 ≠ .ok (.applied invalidate) := by
      intro invalidate happlied
      rcases hrejected with ⟨error, hrejected⟩ | hrejected
      · cases happlied.symm.trans hrejected
      · cases happlied.symm.trans hrejected
    unfold after at hnot ⊢
    rw [Machine.after_concat]
    exact ((call_moves _ c tenant).origin fun _ _ _ => hnot _).1
  · obtain ⟨hobservation, hgap, hhead, _, _, hage⟩ := snapshot_authoritative hauthoritative
    obtain ⟨calls₁, c, calls₂, o, hcalls, happlies, htenant, horigin, hlater⟩ := after_origin hobservation
    exact ⟨hgap, le_antisymm (after_authoritative calls tenant) hhead, calls₁, c, calls₂, o, hcalls, happlies,
      htenant, hlater, by rw [hage, horigin]⟩

namespace Sample

/-- A reconciliation at five seconds and a duplicate receipt at nine. -/
def freshnessCalls : List FreshnessCall :=
  [.recordReconciliation (.ofNat 1) 8 ⟨3, 2, 2, 0⟩ ⟨1000000000, true⟩ 5,
   .recordStreamReceipt (.ofNat 1) 8 ⟨3, 2, 2, 0⟩ ⟨2000000000, true⟩ 9]

theorem freshnessCalls_authoritative :
    ((RevocationFreshnessTracker.after freshnessCalls).snapshot (.ofNat 1) 12).hasAuthoritativeState = true ∧
      ((RevocationFreshnessTracker.after freshnessCalls).snapshot (.ofNat 1) 12).age = 7 := by
  decide +kernel

end Sample

theorem freshness_tracked_reconciled : ∃ calls₁ c calls₂ o, Sample.freshnessCalls = calls₁ ++ c :: calls₂ ∧
    (RevocationFreshnessTracker.after calls₁).Applies c o ∧ o.tenant = .ofNat 1 ∧ o.elapsed = 5 := by
  obtain ⟨hauthoritative, hage⟩ := Sample.freshnessCalls_authoritative
  obtain ⟨_, _, calls₁, c, calls₂, o, hcalls, happlies, htenant, _, horigin⟩ :=
    (freshness_tracked Sample.freshnessCalls (.ofNat 1)).2.2.2.2 12 hauthoritative
  refine ⟨calls₁, c, calls₂, o, hcalls, happlies, htenant, ?_⟩
  rw [hage] at horigin
  omega

end AgentGovernor
