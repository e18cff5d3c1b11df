import AgentGovernor.StoreBalance
import AgentGovernor.StoreTransition

/-! The persisted lifecycle of runs. Every commit moves a run along a path of the transition table, and
the events of a run are numbered without a gap, the newest of them with the state and the version of the
row. -/

namespace AgentGovernor

open Ledger Table Transaction Engine Sample List Bool

variable {s t : Store} {dep : Deployment} {request : Request} {response : Response} {r r' : Run}

/-! ### Paths of the transition table -/

/-- A path of the transition table, each step taken by an actor that may take it. -/
inductive StatePath : RunState → List RunActor → RunState → Prop where
  | done (state : RunState) : StatePath state [] state
  | step {source target last : RunState} {actor : RunActor} {actors : List RunActor}
      (hallowed : transitionAllowed source target = true)
      (hactor : actorAllowed source target actor = true) (hrest : StatePath target actors last) :
      StatePath source (actor :: actors) last

variable {source : RunState}

theorem transitionAllowed_of_terminal {target : RunState} (h : source.terminal = true) :
    transitionAllowed source target = false := by
  cases source <;> first | rfl | cases h

/-- No path leaves a terminal state. -/
theorem StatePath.of_terminal {last : RunState} {actors : List RunActor}
    (h : StatePath source actors last) (hterminal : source.terminal = true) : last = source := by
  cases h with
  | done => rfl
  | step hallowed =>
    rw [transitionAllowed_of_terminal hterminal] at hallowed
    cases hallowed

variable {changed : Bool} {command : RunTransition} {next : RunLifecycle}

/-- A transition of a lifecycle that is not terminal is a path of one step. -/
theorem RunLifecycle.transition_path {run : RunLifecycle}
    (h : run.transition command = .ok (next, changed))
    (hactive : run.state.terminal = false) : StatePath run.state [command.actor] next.state ∧
      next.version = run.version + 1 ∧ next.state = command.target := by
  obtain ⟨_, hallowed, hactor, _, _, _, rfl⟩ := transition_of_active h hactive
  exact ⟨.step hallowed hactor (.done _), rfl, rfl⟩

/-- The actors that a call passes to `Transition`, in order. -/
def Request.actors : Request → List RunActor
  | .mutateWorkerRun _ operation _ _ => [operation.target.2]
  | .cancelRun _ _ => [.caller]
  | .recordTrustedUsage _ _ disposition _ =>
    [.governor, if disposition = .pause then .governor else .system]
  | .extendResources _ _ => [.governor]
  | .reconcileNextReservation _ => [.system]
  | _ => []

/-- The state in which a disposition leaves the run. -/
def ExhaustionDisposition.state (disposition : ExhaustionDisposition) : RunState :=
  if disposition = .pause then .pausedForBudget else .failedBudget

theorem exhaustionTransitions_spec {usage : TrustedUsage} {disposition : ExhaustionDisposition}
    {exhausted final : RunLifecycle}
    (h : exhaustionTransitions usage r disposition = .ok (exhausted, final)) :
    (∃ changed, RunLifecycle.transition ⟨.running, r.stateVersion, .ofStored r.updatedAt, none⟩
      ⟨.budgetExhausted, .governor, r.stateVersion, usage.recordedAt⟩ = .ok (exhausted, changed)) ∧
    ∃ changed, exhausted.transition
      ⟨disposition.state, if disposition = .pause then .governor else .system, exhausted.version,
        usage.recordedAt⟩ = .ok (final, changed) := by
  unfold exhaustionTransitions at h
  dsimp only at h
  split at h
  · cases h
  · rename_i first changed hfirst
    split at h
    · cases h
    · rename_i second changed' hsecond
      rw [ite_error_eq_ok] at h
      cases h.2
      refine ⟨⟨changed, hfirst⟩, changed', ?_⟩
      unfold ExhaustionDisposition.state
      split_ifs at hsecond ⊢ with hpause
      · exact hsecond
      · exact hsecond

variable {now : Time}

theorem exhaustion_final {usage : TrustedUsage} {disposition : ExhaustionDisposition}
    {exhausted final : RunLifecycle}
    (h : exhaustionTransitions usage r disposition = .ok (exhausted, final)) :
    final.state = disposition.state := by
  obtain ⟨⟨_, hfirst⟩, _, hsecond⟩ := exhaustionTransitions_spec h
  have hactive : exhausted.state.terminal = false := by
    rw [(RunLifecycle.transition_path hfirst rfl).2.2]
    rfl
  exact (RunLifecycle.transition_path hsecond hactive).2.2

theorem timeoutTransition_spec
    (h : timeoutTransition r now = .ok next) :
    RunLifecycle.transition ⟨r.state, r.stateVersion, .ofStored r.updatedAt, none⟩
      ⟨.timedOut, .system, r.stateVersion, now⟩ = .ok (next, true) := by
  unfold timeoutTransition at h
  rw [ite_error_eq_ok] at h
  obtain ⟨_, h⟩ := h
  dsimp only at h
  split at h
  · rename_i hnext
    cases h
    exact hnext
  · cases h

/-- A paused run resumes by a transition; any other run keeps its state. -/
theorem extendedState_spec {extension : ResourceExtension} {state : RunState × Int}
    (h : extendedState extension r = .ok state) :
    (r.state = .pausedForBudget ∧ ∃ next changed, RunLifecycle.transition
        ⟨.pausedForBudget, r.stateVersion, .ofStored r.updatedAt, none⟩
        ⟨.running, .governor, r.stateVersion, extension.createdAt⟩ = .ok (next, changed) ∧
        state = (next.state, next.version)) ∨
      (r.state ≠ .pausedForBudget ∧ state = (r.state, r.stateVersion)) := by
  unfold extendedState at h
  split_ifs at h with hpaused
  · dsimp only at h
    split at h
    · rename_i next changed hnext
      cases h
      exact Or.inl ⟨hpaused, next, changed, hnext, rfl⟩
    · cases h
  · cases h
    exact Or.inr ⟨hpaused, rfl⟩

/-- A move changes the state along a path of the table, taken by the actors of the call, and counts its
steps in the version. -/
theorem RunMove.path (h : RunMove dep request response r r') :
    ∃ actors, (actors = [] ∨ actors = request.actors) ∧ StatePath r.state actors r'.state ∧
      r'.stateVersion = r.stateVersion + actors.length := by
  cases h with
  | claim | heartbeat | signal => exact ⟨[], Or.inl rfl, .done _, (add_zero _).symm⟩
  | operate lease operation eventID now _ _ next _ hactive hnext =>
    obtain ⟨hpath, hversion, htarget⟩ := RunLifecycle.transition_path hnext hactive
    rw [htarget] at hpath
    exact ⟨_, Or.inr rfl, hpath, hversion⟩
  | cancel cancellation evidence _ _ next _ hactive hnext =>
    obtain ⟨_, htransition⟩ := cancelTransition_spec hnext
    obtain ⟨hpath, hversion, htarget⟩ := RunLifecycle.transition_path htransition hactive
    rw [htarget] at hpath
    exact ⟨_, Or.inr rfl, hpath, hversion⟩
  | exhaust candidate usage hint disposition ids _ _ exhausted final _ hrunning hnext =>
    obtain ⟨⟨_, hfirst⟩, _, hsecond⟩ := exhaustionTransitions_spec hnext
    obtain ⟨hpath, hversion, hexhausted⟩ := RunLifecycle.transition_path hfirst rfl
    have hactive : exhausted.state.terminal = false := by
      rw [hexhausted]
      rfl
    obtain ⟨hpath', hversion', _⟩ := RunLifecycle.transition_path hsecond hactive
    refine ⟨_, Or.inr rfl, ?_, ?_⟩
    · rw [hrunning]
      cases hpath with
      | step hallowed hactor hrest =>
        cases hrest
        exact .step hallowed hactor hpath'
    · have hone : exhausted.version = r.stateVersion + 1 := hversion
      show final.version = r.stateVersion + 2
      omega
  | extend candidate extension evidence _ _ deadlineAt state _ _ _ hstate =>
    rcases extendedState_spec hstate with ⟨hpaused, next, _, hnext, rfl⟩ | ⟨_, rfl⟩
    · obtain ⟨hpath, hversion, _⟩ := RunLifecycle.transition_path hnext rfl
      exact ⟨_, Or.inr rfl, hpaused ▸ hpath, hversion⟩
    · exact ⟨[], Or.inl rfl, .done _, (add_zero _).symm⟩
  | timeout request now _ _ next _ hactive hnext =>
    obtain ⟨hpath, hversion, htarget⟩ :=
      RunLifecycle.transition_path (timeoutTransition_spec hnext) hactive
    rw [htarget] at hpath
    exact ⟨_, Or.inr rfl, hpath, hversion⟩

/-! ### Sequence numbers -/

/-- The numbers `1..n`. -/
def sequences (n : Nat) : List Int := (List.range n).map fun k : Nat => (k : Int) + 1

variable {n : Nat}

theorem mem_sequences {k : Int} : k ∈ sequences n ↔ 1 ≤ k ∧ k ≤ n := by
  simp only [sequences, List.mem_map, mem_range]
  constructor
  · rintro ⟨m, hm, rfl⟩
    omega
  · rintro ⟨hpos, hle⟩
    exact ⟨(k - 1).toNat, by omega, by omega⟩

theorem sequences_add (n m : Nat) :
    sequences (n + m) = sequences n ++ (List.range m).map fun k : Nat => (n : Int) + 1 + k := by
  simp only [sequences, range_add, map_append, List.map_map]
  congr 1
  apply map_congr_left
  intro k _
  simp only [Function.comp_apply, Nat.cast_add]
  omega

variable {id : ID}

/-- The largest sequence of `1..n` is `n`. -/
theorem lastSequence_of_numbered
    (h : (s.eventsOf id).map (·.sequence) = sequences n) : s.lastSequence id = n := by
  have hmem : ∀ k, k ∈ sequences n ↔ ∃ e ∈ s.eventsOf id, e.sequence = k := by
    intro k
    rw [← h, List.mem_map]
  obtain ⟨hzero, hall, hmax⟩ := foldl_max_spec (s.eventsOf id) 0
  refine le_antisymm ?_ ?_
  · rcases hmax with hmax | ⟨e, he, hmax⟩
    · exact hmax.trans_le (Int.natCast_nonneg n)
    · have hle := mem_sequences.mp ((hmem e.sequence).mpr ⟨e, he, rfl⟩)
      exact hmax.symm.trans_le hle.2
  · rcases Nat.eq_zero_or_pos n with rfl | hpos
    · exact hzero
    · obtain ⟨e, he, hlast⟩ := (hmem n).mp (mem_sequences.mpr (by omega))
      exact hlast.symm.trans_le (hall e he)

variable {events : List RunEvent}

theorem Numbered.sequences {last : Int}
    (h : Numbered id last events) : (∀ e ∈ events, e.runID = id) ∧
      events.map (·.sequence) = (List.range events.length).map fun k : Nat => last + 1 + k := by
  induction events generalizing last with
  | nil => simp
  | cons e events ih =>
    obtain ⟨hid, hsequence, hrest⟩ := h
    obtain ⟨hall, hmap⟩ := ih hrest
    refine ⟨forall_mem_cons.mpr ⟨hid, hall⟩, ?_⟩
    rw [map_cons, hmap, hsequence, length_cons, range_succ_eq_map, map_cons,
      List.map_map]
    congr 1
    · simp
    · apply map_congr_left
      intro k _
      simp only [Function.comp_apply, Nat.cast_succ]
      omega

/-! ### The journal of every reachable tenant -/

/-- Rows pass their checks, the events of a run are numbered from one, and the newest carries the state
and the version of the row. -/
structure Journaled (s : Store) : Prop where
  check : ∀ id r, s.runs.get id = some r → r.check = true
  numbered : ∀ id, (s.eventsOf id).map (·.sequence) = sequences (s.eventsOf id).length
  newest : ∀ id r, s.runs.get id = some r → ∃ e, (s.eventsOf id).getLast? = some e ∧
    e.state = r.state ∧ e.stateVersion = r.stateVersion

theorem eventsOf_append
    (h : t.events.rows = s.events.rows ++ events) (hid : ∀ e ∈ events, e.runID = id) (x : ID) :
    t.eventsOf x = if x = id then s.eventsOf x ++ events else s.eventsOf x := by
  unfold Store.eventsOf
  rw [h, filter_append]
  split_ifs with hx
  · congr 1
    exact filter_eq_self.mpr fun e he => decide_eq_true ((hid e he).trans hx.symm)
  · have hnone : events.filter (·.runID = x) = [] := by
      refine filter_eq_nil_iff.mpr fun e he => ?_
      simpa [hid e he] using fun heq => hx heq.symm
    rw [hnone, append_nil]

/-- Numbered events may be appended to those of one run. -/
theorem Journaled.append (h : Journaled s)
    (hevents : t.events.rows = s.events.rows ++ events)
    (hnumbered : Numbered id (s.lastSequence id) events) (x : ID) :
    (t.eventsOf x).map (·.sequence) = sequences (t.eventsOf x).length := by
  obtain ⟨hall, hmap⟩ := hnumbered.sequences
  rw [eventsOf_append hevents hall]
  split_ifs with hx
  · subst hx
    rw [map_append, length_append, sequences_add, h.numbered, hmap,
      lastSequence_of_numbered (h.numbered x)]
  · exact h.numbered x

theorem Journaled.advances (h : Journaled s)
    (hadvances : Advances dep request response s t r r' events) : Journaled t where
  check id x hx := by
    rw [hadvances.runs_eq, get_put] at hx
    split_ifs at hx
    · cases hx
      exact hadvances.check (h.check _ r hadvances.run)
    · exact h.check id x hx
  numbered := h.append hadvances.events_eq hadvances.numbered
  newest id x hx := by
    rw [eventsOf_append hadvances.events_eq hadvances.numbered.sequences.1]
    rw [hadvances.runs_eq, get_put, hadvances.move.id_eq] at hx
    split_ifs at hx ⊢ with hid
    · cases hx
      obtain ⟨e, hlast, hstate⟩ := hadvances.newest
      exact ⟨e, by rw [getLast?_append, hlast]; rfl, hstate⟩
    · exact h.newest id x hx

theorem admittedRun_check (admission : RunAdmission) : (admittedRun admission).check = true := by
  simp [Run.check, admittedRun, RunState.terminal]

theorem Journaled.enters {admission : RunAdmission} {e : RunEvent} (h : Journaled s)
    (henters : Enters admission s t e) : Journaled t := by
  obtain ⟨hid, hsequence, hstate⟩ := henters.event
  -- A run that had events would have one with the sequence of the new one.
  have hnone : s.eventsOf admission.runID = [] := by
    by_contra hne
    have hone : (1 : Int) ∈ (s.eventsOf admission.runID).map (·.sequence) := by
      have hpos := length_pos_iff.mpr hne
      rw [h.numbered, mem_sequences]
      omega
    obtain ⟨x, hx, hxone⟩ := List.mem_map.mp hone
    obtain ⟨hxmem, hxid⟩ := mem_filter.mp hx
    exact henters.event_fresh x hxmem ⟨(of_decide_eq_true hxid).trans hid.symm,
      hxone.trans hsequence.symm⟩
  have hnumbered : Numbered admission.runID (s.lastSequence admission.runID) [e] := by
    refine ⟨hid, ?_, trivial⟩
    rw [hsequence, lastSequence_of_numbered (h.numbered _), hnone]
    rfl
  refine ⟨fun id x hx => ?_, h.append henters.events_eq hnumbered, fun id x hx => ?_⟩
  · rw [henters.runs_eq, get_put] at hx
    split_ifs at hx
    · cases hx
      exact admittedRun_check admission
    · exact h.check id x hx
  · rw [eventsOf_append henters.events_eq hnumbered.sequences.1]
    rw [henters.runs_eq, get_put, show (admittedRun admission).id = admission.runID from rfl] at hx
    split_ifs at hx ⊢ with hxid
    · cases hx
      exact ⟨e, getLast?_concat, hstate⟩
    · exact h.newest id x hx

theorem Journaled.journals (h : Journaled s) (hcommit : Journals dep request response s t) :
    Journaled t := by
  cases hcommit with
  | keep hjournal =>
    obtain ⟨hruns, hevents, _⟩ := Store.journal_eq.mp hjournal
    have heventsOf : ∀ id, t.eventsOf id = s.eventsOf id := by
      intro id
      unfold Store.eventsOf
      rw [hevents]
    exact ⟨hruns ▸ h.check, fun id => heventsOf id ▸ h.numbered id,
      fun id r hr => heventsOf id ▸ h.newest id r (hruns ▸ hr)⟩
  | admission _ _ _ _ _ _ henters => exact h.enters henters
  | move _ _ _ hadvances => exact h.advances hadvances

theorem Reachable.journaled {governor : Governor} (h : Reachable dep governor) :
    Journaled governor.committed := by
  have hempty : Journaled Store.empty :=
    ⟨fun _ _ hr => (by cases hr), fun _ => rfl, fun _ _ hr => (by cases hr)⟩
  exact (h.history.invariant hempty fun _ _ _ _ hcommit hs =>
    hs.journals (commits_journals hcommit)).1

/-- A run that was there stays, moved by the request or as it was. -/
theorem Journals.run_get (h : Journals dep request response s t)
    (hr : s.runs.get id = some r) :
    ∃ r', t.runs.get id = some r' ∧ (r' = r ∨ RunMove dep request response r r') := by
  cases h with
  | keep hjournal =>
    exact ⟨r, (Store.journal_eq.mp hjournal).1 ▸ hr, Or.inl rfl⟩
  | admission admission _ _ _ _ _ henters =>
    refine ⟨r, ?_, Or.inl rfl⟩
    rw [henters.runs_eq, get_put_of_ne]
    · exact hr
    · rintro rfl
      rw [show (admittedRun admission).id = admission.runID from rfl, henters.run_fresh] at hr
      cases hr
  | move x x' _ hadvances =>
    rw [hadvances.runs_eq, get_put, hadvances.move.id_eq]
    split_ifs with hid
    · subst hid
      have hsame : x = r := Option.some.inj (hadvances.run.symm.trans hr)
      subst hsame
      exact ⟨x', rfl, Or.inr hadvances.move⟩
    · exact ⟨r, hr, Or.inl rfl⟩

/-- A run that was not there is as it was admitted. -/
theorem Journals.run_new (h : Journals dep request response s t)
    (hnone : s.runs.get id = none) (hr : t.runs.get id = some r) :
    ∃ admission resolution evidence parent,
      request.Admits admission resolution evidence parent ∧ r = admittedRun admission := by
  cases h with
  | keep hjournal =>
    rw [(Store.journal_eq.mp hjournal).1, hnone] at hr
    cases hr
  | admission admission resolution evidence parent _ hrequest henters =>
    rw [henters.runs_eq, get_put] at hr
    split_ifs at hr
    · cases hr
      exact ⟨admission, resolution, evidence, parent, hrequest, rfl⟩
    · rw [hnone] at hr
      cases hr
  | move x x' _ hadvances =>
    rw [hadvances.runs_eq, get_put, hadvances.move.id_eq] at hr
    split_ifs at hr with hid
    · rw [hid, hadvances.run] at hnone
      cases hnone
    · rw [hnone] at hr
      cases hr

/-- Over every interleaving: a commit takes the state of a run along a path of the transition table for
the actors it passes to `Transition`, counts the steps in the version and never leaves a terminal state;
a new run is admitted at version one; the terminal time is set exactly in terminal states; and the events
of a run are numbered `1..n`, the last with the state and the version of the row. -/
theorem run_lifecycle_persisted {governor : Governor} (h : Reachable dep governor) :
    (∀ c ∈ governor.log, ∀ id r, c.before.runs.get id = some r →
      ∃ r' actors, c.after.runs.get id = some r' ∧ (actors = [] ∨ actors = c.request.actors) ∧
        StatePath r.state actors r'.state ∧ r'.stateVersion = r.stateVersion + actors.length ∧
        (r.state.terminal = true → r' = r)) ∧
    (∀ c ∈ governor.log, ∀ id r, c.before.runs.get id = none → c.after.runs.get id = some r →
      r.state = .admitted ∧ r.stateVersion = 1) ∧
    ∀ id r, governor.committed.runs.get id = some r →
      (r.terminalAt.isSome = true ↔ r.state.terminal = true) ∧
      ∃ n : Nat, (governor.committed.eventsOf id).map (·.sequence) = sequences n ∧
        ∃ e ∈ governor.committed.eventsOf id, e.sequence = n ∧
          (e.state, e.stateVersion) = (r.state, r.stateVersion) := by
  refine ⟨fun c hc id r hr => ?_, fun c hc id r hnone hr => ?_, fun id r hr => ⟨?_, ?_⟩⟩
  · have hcommit := h.commits hc
    obtain ⟨held, htransition⟩ := commits_transition hcommit
    obtain ⟨r', hr', hmoved⟩ := (commits_journals hcommit).run_get hr
    obtain ⟨x, hx, hkeep⟩ := htransition.keeps.runs id r hr
    have hsame : r' = x := Option.some.inj (hr'.symm.trans hx)
    subst hsame
    rcases hmoved with rfl | hmove
    · exact ⟨r', [], hr', Or.inl rfl, .done _, (add_zero _).symm, hkeep.1⟩
    · obtain ⟨actors, hactors, hpath, hversion⟩ := hmove.path
      exact ⟨r', actors, hr', hactors, hpath, hversion, hkeep.1⟩
  · obtain ⟨_, _, _, _, _, rfl⟩ := (commits_journals (h.commits hc)).run_new hnone hr
    exact ⟨rfl, rfl⟩
  · have hcheck := h.journaled.check id r hr
    simp only [Run.check, and_eq_true, decide_eq_true_eq] at hcheck
    rw [hcheck.2]
  · obtain ⟨e, hlast, hstate, hversion⟩ := h.journaled.newest id r hr
    refine ⟨_, h.journaled.numbered id, e, mem_of_getLast? hlast, ?_, Prod.ext hstate hversion⟩
    have hmax := congrArg List.getLast? (h.journaled.numbered id)
    rw [getLast?_map, hlast] at hmax
    have hne : governor.committed.eventsOf id ≠ [] := ne_nil_of_mem (mem_of_getLast? hlast)
    obtain ⟨n, hn⟩ := Nat.exists_eq_succ_of_ne_zero (length_pos_iff.mpr hne).ne'
    rw [hn, Nat.succ_eq_add_one, sequences_add n 1] at hmax
    rw [hn]
    simpa using hmax

namespace Sample

/-- A run spends its budget and pauses, is extended, claimed again and completed. -/
def exhausted : List Request :=
  provision ++ [admitRoot 100 (("max_tool_calls", .int 2) :: limits)] ++ start 100 ++
    [meter 100 500, extend 700 100,
      .claimRun ⟨.ofNat 1, .ofNat 4, .ofNat 120, instant 410, instant 1000, .ofNat 121, []⟩,
      .mutateWorkerRun ⟨.ofNat 100, .ofNat 1, .ofNat 120, .ofNat 4, 3, instant 1000⟩ .complete
        (.ofNat 122) (instant 420)]

theorem exhausted_run : ∃ r, (after exhausted).committed.runs.get (.ofNat 100) = some r ∧
    (r.state, r.stateVersion, r.fencingToken) = (.completed, 6, 3) := by
  have hrow : ((after exhausted).committed.runs.get (.ofNat 100)).any
      (fun r => (r.state, r.stateVersion, r.fencingToken) = (.completed, 6, 3)) = true := by
    decide +kernel
  rw [Option.any_eq_true] at hrow
  obtain ⟨r, hr, hcolumns⟩ := hrow
  exact ⟨r, hr, of_decide_eq_true hcolumns⟩

end Sample

theorem run_lifecycle_persisted_exhausted : ∃ (n : Nat) (e : RunEvent),
    ((after exhausted).committed.eventsOf (.ofNat 100)).map (·.sequence) = sequences n ∧
    e ∈ (after exhausted).committed.eventsOf (.ofNat 100) ∧ e.sequence = n ∧
    (e.state, e.stateVersion) = (.completed, 6) := by
  obtain ⟨r, hr, hcolumns⟩ := exhausted_run
  obtain ⟨_, n, hnumbered, e, he, hlast, hstate⟩ :=
    (run_lifecycle_persisted (reachable exhausted)).2.2 _ r hr
  simp only [Prod.mk.injEq] at hcolumns
  rw [hcolumns.1, hcolumns.2.1] at hstate
  exact ⟨n, e, hnumbered, he, hlast, hstate⟩

/-! ### Update times -/

/-- A transition stores a time that is not before the last update, when the time can be expressed in
nanoseconds. -/
theorem RunLifecycle.le_stored_of_transition {state : RunState} {version updatedAt : Int}
    {terminalAt : Option Time}
    (h : RunLifecycle.transition ⟨state, version, .ofStored updatedAt, terminalAt⟩ command =
      .ok (next, changed)) (hactive : state.terminal = false)
    (htime : command.instant.representable = true) : updatedAt ≤ command.instant.stored := by
  obtain ⟨_, _, _, normalized, hnormalized, hle, _⟩ := transition_of_active h hactive
  have hnanos := nanos_of_requireUTC hnormalized htime
  simp only [Time.ofStored] at hle
  simp only [Time.stored]
  omega

/-- A run that ends with a transition meets the checks of its row. -/
theorem Run.check_ended {state : RunState} (hcheck : r.check = true) (hactive : r.state.terminal = false)
    (htime : command.instant.representable = true) (hterminal : state.terminal = true)
    (h : RunLifecycle.transition ⟨r.state, r.stateVersion, .ofStored r.updatedAt, none⟩ command =
      .ok (next, changed)) :
    ({ r with
      state := state
      stateVersion := next.version
      updatedAt := command.instant.stored
      terminalAt := some command.instant.stored
      leaseID := none
      leaseExpiresAt := none
      fencingToken := r.fencingToken + 1 } : Run).check = true := by
  obtain ⟨_, hversion, _⟩ := RunLifecycle.transition_path h hactive
  have hle := RunLifecycle.le_stored_of_transition h hactive htime
  simp only [Run.check, Bool.and_eq_true, decide_eq_true_eq] at hcheck ⊢
  dsimp only at hversion
  obtain ⟨⟨⟨⟨⟨hpositive, htoken⟩, _⟩, hcreated⟩, _⟩, _⟩ := hcheck
  refine ⟨⟨⟨⟨⟨by omega, by omega⟩, rfl⟩, by omega⟩, ?_⟩, hterminal⟩
  simpa using hcreated.trans hle

/-- The times that a request stores: those of worker operations and cancellations fit into nanoseconds,
and a first extension of a run that is not paused is not dated before the run's last update. -/
def Request.onTime (s : Store) : Request → Bool
  | .mutateWorkerRun _ _ _ now => now.representable
  | .cancelRun cancellation _ => cancellation.createdAt.representable
  | .extendResources candidate _ => (s.runs.get candidate.runID).all fun r =>
    r.state = .pausedForBudget
      || (s.extensions.rows.any fun x => x.actorPrincipalID = candidate.actorPrincipalID &&
        x.idempotencyKey = candidate.idempotencyKey)
      || match requireUTC candidate.createdAt with
        | .ok created => r.updatedAt ≤ created.stored
        | .error _ => true
  | _ => true

/-- The commit moves no update time back. -/
def UpdatedAtGrows (c : Commit Store Response Request) : Prop :=
  ∀ id r r', c.before.runs.get id = some r → c.after.runs.get id = some r' → r.updatedAt ≤ r'.updatedAt

/-- Every move but an extension stores a time that passed `Transition`, or none. -/
theorem RunMove.updatedAt_le (h : RunMove dep request response r r') (hontime : request.onTime s = true)
    (hextend : ∀ candidate evidence, request ≠ .extendResources candidate evidence) :
    r.updatedAt ≤ r'.updatedAt := by
  cases h with
  | claim | heartbeat | signal => exact le_refl _
  | operate _ _ _ now _ _ _ _ hactive hnext =>
    exact RunLifecycle.le_stored_of_transition hnext hactive hontime
  | cancel cancellation _ _ _ _ _ hactive hnext =>
    obtain ⟨_, htransition⟩ := cancelTransition_spec hnext
    exact RunLifecycle.le_stored_of_transition htransition hactive hontime
  | exhaust _ _ _ _ _ _ _ _ _ hvalid _ hnext =>
    obtain ⟨⟨_, hfirst⟩, _⟩ := exhaustionTransitions_spec hnext
    obtain ⟨_, _, _, _, _, _, _, _, hrecorded, _⟩ := validateTrustedUsage_spec hvalid
    exact RunLifecycle.le_stored_of_transition hfirst rfl (representable_of_requireUTC hrecorded)
  | extend candidate _ evidence => exact absurd rfl (hextend candidate evidence)
  | timeout _ _ _ _ _ hvalid hactive hnext =>
    exact RunLifecycle.le_stored_of_transition (timeoutTransition_spec hnext) hactive
      (representable_of_requireUTC (requireUTC_of_validateReconciliation hvalid))

/-- An extension moves no update time back exactly when it is on time. -/
theorem updatedAtGrows_extend_iff {c : StoreCommit} {candidate : ResourceExtension}
    {evidence : ResourceExtensionEvidence}
    (hcommit : Served dep c)
    (hrequest : c.request = .extendResources candidate evidence) :
    UpdatedAtGrows c ↔ c.request.onTime c.before = true := by
  obtain ⟨held, hexec⟩ := hcommit
  rw [hrequest] at hexec ⊢
  obtain ⟨result, hextend, _⟩ := exec_respond hexec
  obtain ⟨extension, hvalid, hcases⟩ := exec_extendResources hextend
  obtain ⟨_, _, hrunID, hactor, hkey, _⟩ := validateResourceExtension_spec hvalid
  have hcreated := validateResourceExtension_createdAt hvalid
  rcases hcases with ⟨hsame, x, hx, hxactor, hxkey, _⟩ | ⟨row, e, run, run', hextends, _⟩
  · refine iff_of_true (fun id r r' hr hr' => ?_) ?_
    · rw [hsame, hr] at hr'
      cases hr'
      exact le_refl _
    · simp only [Request.onTime, Option.all_eq_true, or_eq_true]
      refine fun r _ => Or.inl (Or.inr (List.any_eq_true.mpr ⟨x, hx, ?_⟩))
      simp [hxactor, hxkey, hactor, hkey]
  · obtain ⟨state, hstate, _, hrun'⟩ := hextends.run_eq
    have hget : c.before.runs.get candidate.runID = some run := hrunID ▸ hextends.run_get
    have hfresh : (c.before.extensions.rows.any fun x =>
        x.actorPrincipalID = candidate.actorPrincipalID &&
          x.idempotencyKey = candidate.idempotencyKey) = false := by
      rw [List.any_eq_false]
      intro x hx
      have hother := (hextends.fresh x hx).2
      rw [hactor, hkey] at hother
      simpa using hother
    -- The row that changes is the run's, and its new time is the extension's.
    have hgrows : UpdatedAtGrows c ↔ run.updatedAt ≤ extension.createdAt.stored := by
      constructor
      · intro hgrows
        have hafter : c.after.runs.get run'.id = some run' := by
          rw [hextends.store_eq.runs]
          exact get_put_self _ _
        have hle := hgrows _ run run' hextends.run_get' hafter
        rwa [hrun'] at hle
      · intro hle id r r' hr hr'
        rw [hextends.store_eq.runs, get_put] at hr'
        split_ifs at hr' with hid
        · cases hr'
          rw [hid, hextends.run_get'] at hr
          cases hr
          rw [hrun']
          exact hle
        · rw [hr] at hr'
          cases hr'
          exact le_refl _
    have hpaused : run.state = .pausedForBudget → run.updatedAt ≤ extension.createdAt.stored := by
      intro hpaused
      rcases extendedState_spec hstate with ⟨_, _, _, hnext, _⟩ | ⟨hne, _⟩
      · exact RunLifecycle.le_stored_of_transition hnext rfl (representable_of_requireUTC hcreated)
      · exact absurd hpaused hne
    rw [hgrows]
    simp only [Request.onTime, hget, Option.all_some, hfresh, hcreated, Bool.or_false, or_eq_true,
      decide_eq_true_eq]
    exact ⟨Or.inr, fun honTime => honTime.elim hpaused id⟩

/-- Each commit that is on time moves no update time back, and a committed extension must be on time for
that. -/
theorem updated_at_monotone {governor : Governor} (h : Reachable dep governor) :
    (∀ c ∈ governor.log, c.request.onTime c.before = true → UpdatedAtGrows c) ∧
    ∀ c ∈ governor.log, ∀ candidate evidence, c.request = .extendResources candidate evidence →
      UpdatedAtGrows c → c.request.onTime c.before = true := by
  refine ⟨fun c hc hontime => ?_, fun c hc _ _ hrequest =>
    (updatedAtGrows_extend_iff (h.commits hc) hrequest).mp⟩
  by_cases hextend : ∃ candidate evidence, c.request = .extendResources candidate evidence
  · obtain ⟨candidate, evidence, hrequest⟩ := hextend
    exact (updatedAtGrows_extend_iff (h.commits hc) hrequest).mpr hontime
  · intro id r r' hr hr'
    obtain ⟨x, hx, hmoved⟩ := (commits_journals (h.commits hc)).run_get hr
    have hsame : x = r' := Option.some.inj (hx.symm.trans hr')
    subst hsame
    rcases hmoved with rfl | hmove
    · exact le_refl _
    · exact hmove.updatedAt_le hontime fun candidate evidence hrequest =>
        hextend ⟨candidate, evidence, hrequest⟩

theorem Sample.exhausted_onTime : (after exhausted).log.length = 13 ∧
    ((after exhausted).log.all fun c => c.request.onTime c.before) = true := by
  decide +kernel

theorem updated_at_monotone_exhausted : (after exhausted).log.length = 13 ∧
    ∀ c ∈ (after exhausted).log, UpdatedAtGrows c := by
  obtain ⟨hlength, hontime⟩ := exhausted_onTime
  exact ⟨hlength, fun c hc => (updated_at_monotone (reachable exhausted)).1 c hc
    (List.all_eq_true.mp hontime c hc)⟩

/-- A run is started at 110 and then extended by a call dated 105. -/
def Sample.backdated : List Request :=
  provision ++ [admitRoot 100 (("max_tool_calls", .int 2) :: limits)] ++ start 100 ++
    [.extendResources ⟨.ofNat 700, .ofNat 1, .ofNat 100, .ofNat 7, .ofNat 5, "more", "manual", "ticket",
      [⟨"tool_calls", addedCalls⟩], 0, instant 105⟩
      ⟨.ofNat 701, .ofNat 702, .ofNat 703, .ofNat 704, ["ok"]⟩]

theorem Sample.backdated_evaluated : ((after backdated).log.any fun c =>
    (c.before.runs.get (.ofNat 100)).any (·.updatedAt = 110000000) &&
      (c.after.runs.get (.ofNat 100)).any (·.updatedAt = 105000000)) = true := by
  decide +kernel

theorem updated_at_moved_back : Reachable deployment (after backdated) ∧
    ∃ c ∈ (after backdated).log, ¬UpdatedAtGrows c := by
  refine ⟨reachable backdated, ?_⟩
  obtain ⟨c, hc, hrows⟩ := List.any_eq_true.mp backdated_evaluated
  simp only [and_eq_true, Option.any_eq_true, decide_eq_true_eq] at hrows
  obtain ⟨⟨r, hr, hbefore⟩, r', hr', hafter⟩ := hrows
  refine ⟨c, hc, fun hgrows => ?_⟩
  have hle := hgrows _ r r' hr hr'
  omega

end AgentGovernor
