import AgentGovernor.DomainPrimitives

/-! The lifecycle of a run: its states, who may move it, and the compare-and-swap transition. -/

namespace AgentGovernor

inductive RunState where
  | pending | rejected | admitted | running | completed | failed | cancelled | timedOut
  | budgetExhausted | pausedForBudget | failedBudget
  deriving DecidableEq

namespace RunState

def text : RunState → String
  | pending => "PENDING"
  | rejected => "REJECTED"
  | admitted => "ADMITTED"
  | running => "RUNNING"
  | completed => "COMPLETED"
  | failed => "FAILED"
  | cancelled => "CANCELLED"
  | timedOut => "TIMED_OUT"
  | budgetExhausted => "BUDGET_EXHAUSTED"
  | pausedForBudget => "PAUSED_FOR_BUDGET"
  | failedBudget => "FAILED_BUDGET"

def terminal : RunState → Bool
  | rejected | completed | failed | cancelled | timedOut | failedBudget => true
  | _ => false

end RunState

inductive RunActor where
  | caller | worker | governor | operator | system
  deriving DecidableEq

def transitionAllowed : RunState → RunState → Bool
  | .pending, target => target = .admitted || target = .rejected
  | .admitted, target => target = .running || target = .cancelled || target = .timedOut
  | .running, target =>
    target = .completed || target = .failed || target = .cancelled || target = .timedOut || target = .budgetExhausted
  | .budgetExhausted, target => target = .pausedForBudget || target = .failedBudget
  | .pausedForBudget, target => target = .running || target = .cancelled || target = .timedOut
  | _, _ => false

def actorAllowed (source target : RunState) (actor : RunActor) : Bool :=
  if source = .pending then actor = .system
  else if source = .admitted ∧ target = .running then actor = .worker
  else if target = .completed ∨ target = .failed then actor = .worker
  else if target = .cancelled then actor = .caller || actor = .operator || actor = .system
  else if target = .timedOut ∨ target = .budgetExhausted ∨ target = .failedBudget then
    actor = .governor || actor = .system
  else if source = .budgetExhausted ∧ target = .pausedForBudget then actor = .governor
  else if source = .pausedForBudget ∧ target = .running then actor = .governor
  else false

def actorCanEstablishTerminal (actor : RunActor) : RunState → Bool
  | .rejected => actor = .system
  | .completed | .failed => actor = .worker
  | .cancelled => actor = .caller || actor = .operator || actor = .system
  | .timedOut | .failedBudget => actor = .governor || actor = .system
  | _ => false

structure RunLifecycle where
  state : RunState
  version : Int
  updatedAt : Time
  terminalAt : Option Time
  deriving DecidableEq

structure RunTransition where
  target : RunState
  actor : RunActor
  expectedVersion : Int
  instant : Time
  deriving DecidableEq

namespace RunLifecycle

def validate (run : RunLifecycle) : Except Failure Unit := do
  if run.version ≤ 0 then throw (.plain "run state version conflict")
  match requireUTC run.updatedAt with
  | .error _ => throw (.plain "run update time must be a non-zero UTC timestamp")
  | .ok updated =>
    if run.updatedAt.isZero then throw (.plain "run update time must be a non-zero UTC timestamp")
    if run.state.terminal ≠ run.terminalAt.isSome then
      throw (.plain "run terminal timestamp does not match state")
    match run.terminalAt with
    | none => pure ()
    | some terminalAt =>
      match requireUTC terminalAt with
      | .error _ =>
        throw (.plain "run terminal timestamp must equal the last update time in UTC")
      | .ok terminal =>
        if terminalAt.isZero ∨ terminal ≠ updated then
          throw (.plain "run terminal timestamp must equal the last update time in UTC")

/-- The next lifecycle and whether it differs; an authorized replay of the established terminal state
is accepted even when its expected version is stale. -/
def transition (run : RunLifecycle) (command : RunTransition) :
    Except Failure (RunLifecycle × Bool) :=
  match run.validate, requireUTC command.instant with
  | .error error, _ => .error error
  | .ok _, .error _ =>
    .error (.plain "run transition time must be UTC and not precede the last update")
  | .ok _, .ok normalized =>
    if command.instant.isZero ∨ normalized.nanos < run.updatedAt.nanos then
      .error (.plain "run transition time must be UTC and not precede the last update")
    else if command.expectedVersion ≤ 0 then .error (.plain "run state version conflict")
    else if run.state.terminal then
      if run.state = command.target ∧ actorCanEstablishTerminal command.actor command.target then
        .ok (run, false)
      else .error (.plain "terminal run cannot transition")
    else if command.expectedVersion ≠ run.version then
      .error (.plain "run state version conflict")
    else if !transitionAllowed run.state command.target then
      .error (.plain "invalid run state transition")
    else if !actorAllowed run.state command.target command.actor then
      .error (.plain "run actor is not permitted for transition")
    else if run.version = maxInt64 then .error (.plain "run state version conflict")
    else .ok ({ state := command.target, version := run.version + 1, updatedAt := normalized,
                terminalAt := if command.target.terminal then some normalized else none }, true)

/-- Terminal states are absorbing. -/
theorem transition_of_terminal {run next : RunLifecycle} {command : RunTransition} {changed : Bool}
    (h : run.transition command = .ok (next, changed)) (hterminal : run.state.terminal = true) :
    next = run ∧ changed = false := by
  unfold transition at h
  split at h
  · cases h
  · cases h
  · split_ifs at h
    simp only [Except.ok.injEq, Prod.mk.injEq] at h
    exact ⟨h.1.symm, h.2.symm⟩

/-- From a state that is not terminal every accepted transition is a change, and the tables allow
it. -/
theorem transition_of_active {run next : RunLifecycle} {command : RunTransition} {changed : Bool}
    (h : run.transition command = .ok (next, changed)) (hactive : run.state.terminal = false) :
    changed = true ∧ transitionAllowed run.state command.target = true ∧
      actorAllowed run.state command.target command.actor = true ∧
      ∃ normalized, requireUTC command.instant = .ok normalized ∧
        run.updatedAt.nanos ≤ normalized.nanos ∧
        next = ⟨command.target, run.version + 1, normalized,
          if command.target.terminal then some normalized else none⟩ := by
  unfold transition at h
  split at h
  · cases h
  · cases h
  · rename_i normalized _ hnormalized
    simp only [hactive, Bool.false_eq_true, if_false, ite_error_eq_ok, Except.ok.injEq,
      Prod.mk.injEq] at h
    obtain ⟨htime, _, _, hallowed, hactor, _, hnext, hchanged⟩ := h
    simp only [not_or, not_lt] at htime
    simp only [Bool.not_eq_true', Bool.not_eq_false] at hallowed hactor
    exact ⟨hchanged.symm, hallowed, hactor, normalized, hnormalized, htime.2, hnext.symm⟩

end RunLifecycle

end AgentGovernor
