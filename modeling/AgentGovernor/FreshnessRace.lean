import AgentGovernor.FreshnessTracker

/-! Concurrent observations of one process. `record` reads both clocks before it takes the mutex, so
between its reading and its turn other callers may read and store. -/

namespace AgentGovernor

open Ledger List

/-- A process: `reading` is the last value of the elapsed function, `waiting` are the calls that have
read the clocks and not yet had the mutex, oldest reading first. -/
structure FreshnessProcess where
  tracker : RevocationFreshnessTracker
  reading : Int
  waiting : List (FreshnessObservation × Time)

/-- What a scheduler runs next: a call up to the mutex, where the elapsed function has moved on by
`passed`, or the rest of a call that waits. -/
inductive FreshnessTurn where
  | reads (o : FreshnessObservation) (passed : Nat)
  | enters (index : Nat)

def FreshnessError.returned : Except FreshnessError FreshnessReceipt → Option FreshnessError
  | .error error => some error
  | .ok _ => none

namespace FreshnessProcess

/-- A turn and the error it returns, if it returns one. -/
def turn (p : FreshnessProcess) : FreshnessTurn → Option FreshnessError × FreshnessProcess
  | .reads o passed =>
    let o := { o with elapsed := p.reading + passed }
    match o.admitted with
    | .error error => (some error, { p with reading := o.elapsed })
    | .ok wall => (none, { p with reading := o.elapsed, waiting := p.waiting ++ [(o, wall)] })
  | .enters index =>
    match p.waiting[index]? with
    | none => (none, p)
    | some (o, wall) =>
      let (outcome, tracker) := p.tracker.observe o wall
      (FreshnessError.returned outcome, { p with tracker, waiting := p.waiting.eraseIdx index })

def started (reading : Int) : FreshnessProcess := ⟨.new, reading, []⟩

/-- The errors that the turns of a schedule return. -/
def errors : FreshnessProcess → List FreshnessTurn → List FreshnessError
  | _, [] => []
  | p, turn :: turns => (p.turn turn).1.toList ++ errors (p.turn turn).2 turns

/-- A reading is not negative, and a call does not overtake one for its tenant that has read before. -/
def orderly (p : FreshnessProcess) : FreshnessTurn → Bool
  | .reads _ passed => 0 ≤ p.reading + passed
  | .enters index => p.waiting[index]?.all fun o =>
      (p.waiting.take index).all fun o' => o'.1.tenant ≠ o.1.tenant

def orderlySchedule : FreshnessProcess → List FreshnessTurn → Bool
  | _, [] => true
  | p, turn :: turns => p.orderly turn && orderlySchedule (p.turn turn).2 turns

end FreshnessProcess

theorem FreshnessObservation.admitted_no_regression {o : FreshnessObservation} (h : 0 ≤ o.elapsed) :
    o.admitted ≠ .error .monotonicClockRegression := by
  unfold admitted
  cases requireUTC o.wall with
  | error _ => split_ifs <;> exact nofun
  | ok wall =>
    simp only [if_neg (not_lt.mpr h)]
    split_ifs <;> exact nofun

namespace RevocationFreshnessTracker

/-- An observation that is applied stores its reading for its tenant. -/
theorem observe_elapsed (t : RevocationFreshnessTracker) (o : FreshnessObservation) (wall : Time)
    (tenant : ID) :
    ((t.observe o wall).2.state tenant).observedElapsed = (t.state tenant).observedElapsed ∨
      tenant = o.tenant ∧ ((t.observe o wall).2.state tenant).observedElapsed = o.elapsed := by
  unfold observe
  dsimp only
  split_ifs
  all_goals try exact Or.inl rfl
  · rw [state_countGap, state_setState]
    split_ifs with htenant
    · subst htenant
      exact Or.inl rfl
    · exact Or.inl rfl
  · rw [state_setState]
    split_ifs with htenant
    · exact Or.inr ⟨htenant, rfl⟩
    · exact Or.inl rfl

theorem observe_no_regression {t : RevocationFreshnessTracker} {o : FreshnessObservation} {wall : Time}
    (h : (t.state o.tenant).observedElapsed ≤ o.elapsed) :
    FreshnessError.returned (t.observe o wall).1 ≠ some .monotonicClockRegression := by
  unfold observe
  rw [if_neg (by simpa using fun _ => h)]
  split_ifs <;> simp [FreshnessError.returned]

end RevocationFreshnessTracker

namespace FreshnessProcess

/-- No stored reading is ahead of one that waits for its tenant. -/
structure Timely (p : FreshnessProcess) : Prop where
  stored : ∀ tenant, (p.tracker.state tenant).observedElapsed ≤ max 0 p.reading
  ordered : p.waiting.Pairwise fun o o' => o.1.elapsed ≤ o'.1.elapsed
  waiting : ∀ o ∈ p.waiting, (p.tracker.state o.1.tenant).observedElapsed ≤ o.1.elapsed ∧
    o.1.elapsed ≤ p.reading

variable {p : FreshnessProcess}

theorem Timely.turn (h : p.Timely) {turn : FreshnessTurn} (hturn : p.orderly turn) :
    (p.turn turn).1 ≠ some .monotonicClockRegression ∧ (p.turn turn).2.Timely := by
  cases turn with
  | reads o passed =>
    simp only [orderly, decide_eq_true_eq] at hturn
    have hreading : max 0 p.reading ≤ p.reading + passed := max_le hturn (by omega)
    have hstored : ∀ tenant, (p.tracker.state tenant).observedElapsed ≤ p.reading + passed :=
      fun tenant => (h.stored tenant).trans hreading
    have hwaiting : ∀ o ∈ p.waiting, (p.tracker.state o.1.tenant).observedElapsed ≤ o.1.elapsed ∧
        o.1.elapsed ≤ p.reading + passed :=
      fun o ho => ⟨(h.waiting o ho).1, (h.waiting o ho).2.trans (by omega)⟩
    simp only [FreshnessProcess.turn]
    split
    · rename_i error herror
      refine ⟨?_, fun tenant => (hstored tenant).trans (le_max_right _ _), h.ordered, hwaiting⟩
      rintro ⟨⟩
      exact FreshnessObservation.admitted_no_regression hturn herror
    · refine ⟨nofun, fun tenant => (hstored tenant).trans (le_max_right _ _), ?_, ?_⟩
      · rw [pairwise_append]
        refine ⟨h.ordered, pairwise_singleton _ _, fun o ho o' ho' => ?_⟩
        rw [mem_singleton.mp ho']
        exact (hwaiting o ho).2
      · intro o' ho'
        rcases mem_append.mp ho' with ho' | ho'
        · exact hwaiting o' ho'
        · rw [mem_singleton.mp ho']
          exact ⟨hstored _, le_refl _⟩
  | enters index =>
    simp only [FreshnessProcess.turn]
    split
    · exact ⟨nofun, h⟩
    · rename_i o wall hget
      have hmem := mem_of_getElem? hget
      refine ⟨RevocationFreshnessTracker.observe_no_regression (h.waiting _ hmem).1, ?_, ?_, ?_⟩
      · intro tenant
        rcases p.tracker.observe_elapsed o wall tenant with heq | ⟨_, heq⟩
        · exact heq ▸ h.stored tenant
        · exact heq ▸ (h.waiting _ hmem).2.trans (le_max_right _ _)
      · exact h.ordered.sublist (eraseIdx_sublist _ _)
      · intro o' ho'
        obtain ⟨hlt, hat⟩ := List.getElem?_eq_some_iff.mp hget
        have hordered := h.ordered
        rw [← take_append_drop index p.waiting, drop_eq_getElem_cons hlt, hat,
          pairwise_append, pairwise_cons] at hordered
        have hold := h.waiting o' (mem_of_mem_eraseIdx ho')
        refine ⟨?_, hold.2⟩
        rcases p.tracker.observe_elapsed o wall o'.1.tenant with heq | ⟨htenant, heq⟩
        · exact heq ▸ hold.1
        · -- A call for the same tenant that still waits has read later.
          rw [eraseIdx_eq_take_drop_succ, mem_append] at ho'
          rcases ho' with ho' | ho'
          · simp only [orderly, hget, Option.all_some, List.all_eq_true, decide_eq_true_eq] at hturn
            exact absurd htenant (hturn o' ho')
          · exact heq ▸ hordered.2.1.1 o' ho'

theorem Timely.errors (h : p.Timely) {turns : List FreshnessTurn} (hturns : p.orderlySchedule turns) :
    .monotonicClockRegression ∉ p.errors turns := by
  induction turns generalizing p with
  | nil => exact not_mem_nil
  | cons turn turns ih =>
    rw [orderlySchedule, Bool.and_eq_true] at hturns
    obtain ⟨hnone, hnext⟩ := h.turn hturns.1
    rw [FreshnessProcess.errors, mem_append, Option.mem_toList, not_or]
    exact ⟨hnone, ih hnext hturns.2⟩

end FreshnessProcess

open FreshnessProcess

/-- If no reading is negative and no call overtakes another for its tenant, no call is told that the
clock went backwards, whatever the schedule. -/
theorem concurrent_observations_orderly (reading : Int) (turns : List FreshnessTurn)
    (h : (started reading).orderlySchedule turns) :
    .monotonicClockRegression ∉ (started reading).errors turns := by
  have htimely : (started reading).Timely := ⟨fun _ => le_max_left 0 reading, .nil, nofun⟩
  exact htimely.errors h

namespace Sample

def observed (sequence : Int) : FreshnessObservation :=
  ⟨.ofNat 1, sequence, ⟨0, 0, 0, 0⟩, true, ⟨1000000000, true⟩, 0⟩

/-- Two receipts of a tenant that read 5 and 6. -/
def receipts : List FreshnessTurn := [.reads (observed 1) 5, .reads (observed 2) 1]

end Sample

theorem concurrent_observations_in_turn :
    (started 0).orderlySchedule (Sample.receipts ++ [.enters 0, .enters 0]) ∧
    .monotonicClockRegression ∉ (started 0).errors (Sample.receipts ++ [.enters 0, .enters 0]) :=
  ⟨by decide, concurrent_observations_orderly 0 _ (by decide)⟩

/-- The second receipt stores 6 before the first, which read 5, has the mutex. -/
theorem concurrent_observations_overtaken :
    (started 0).errors (Sample.receipts ++ [.enters 1, .enters 0]) = [.monotonicClockRegression] := by
  decide

end AgentGovernor
