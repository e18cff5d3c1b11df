import AgentGovernor.StoreCommits

/-! What a commit does to the runs, to their events and to their signals: nothing, the admission of one run
with its first event, or one move of one run with the events that follow the last one and the signal that
caused it. `RunMove` says for each request how it changes the row. -/

namespace AgentGovernor

open Ledger Table Handle Transaction Engine List

variable {held held' : List Lock} {s t v : Store} {dep : Deployment} {request : Request}
  {response : Response}

/-! ### Moves of a run -/

/-- The lease is the one stored with the run, and it has not expired. -/
structure RunLease.Holds (lease : RunLease) (now : Int) (r : Run) : Prop where
  run : r.id = lease.runID
  leaseID : r.leaseID = some lease.leaseID
  token : r.fencingToken = lease.fencingToken
  unexpired : r.leaseExpiresAt.any (now < ·) = true

/-- How a request changes the row of a run, and what it answers to a claim. -/
inductive RunMove (dep : Deployment) : Request → Response → Run → Run → Prop where
  | claim (claim : RunClaim) (r : Run) (fence : Int)
      (hclaimable : claimable claim.now.stored r = true)
      (hfence : nextFencingToken r.fencingToken = some fence) :
      RunMove dep (.claimRun claim)
        (.leased ⟨r.id, claim.tenantID, claim.leaseID, claim.workerID, fence, claim.expiresAt⟩) r
        { r with leaseID := some claim.leaseID, leaseExpiresAt := some claim.expiresAt.stored,
                 fencingToken := fence }
  | heartbeat (lease : RunLease) (now expiresAt : Time) (eventID : ID) (response : Response) (r : Run)
      (hlease : lease.Holds now.stored r) (hactive : r.state.terminal = false) :
      RunMove dep (.heartbeatRun lease now expiresAt eventID) response r
        { r with leaseExpiresAt := some expiresAt.stored }
  | operate (lease : RunLease) (operation : WorkerRunOperation) (eventID : ID) (now : Time)
      (response : Response) (r : Run) (next : RunLifecycle) (hlease : lease.Holds now.stored r)
      (hactive : r.state.terminal = false)
      (hnext : RunLifecycle.transition
        ⟨r.state, r.stateVersion, .ofStored r.updatedAt, r.terminalAt.map .ofStored⟩
        ⟨operation.target.1, operation.target.2, r.stateVersion, now⟩ = .ok (next, true)) :
      RunMove dep (.mutateWorkerRun lease operation eventID now) response r
        { r with
          state := operation.target.1
          stateVersion := next.version
          updatedAt := now.stored
          terminalAt := next.terminalAt.map Time.stored
          leaseID := if operation.target.1.terminal then none else r.leaseID
          leaseExpiresAt := if operation.target.1.terminal then none else r.leaseExpiresAt }
  | cancel (cancellation : RunCancellation) (evidence : RunCancellationEvidence)
      (response : Response) (r : Run) (next : RunLifecycle) (hrun : r.id = cancellation.runID)
      (hactive : r.state.terminal = false) (hnext : cancelTransition cancellation r = .ok next) :
      RunMove dep (.cancelRun cancellation evidence) response r
        { r with
          state := .cancelled
          stateVersion := next.version
          updatedAt := cancellation.createdAt.stored
          terminalAt := some cancellation.createdAt.stored
          leaseID := none
          leaseExpiresAt := none
          fencingToken := r.fencingToken + 1 }
  | signal (signal : RunSignalSubmission) (evidence : RunSignalEvidence) (response : Response)
      (r : Run) (hactive : r.state.terminal = false) :
      RunMove dep (.appendRunSignal signal evidence) response r r
  | exhaust (candidate usage : TrustedUsage) (hint : ThroughputHint)
      (disposition : ExhaustionDisposition) (ids : ExhaustionIDs) (response : Response) (r : Run)
      (exhausted final : RunLifecycle) (hvalid : validateTrustedUsage dep candidate = .ok usage)
      (hrunning : r.state = .running)
      (hnext : exhaustionTransitions usage r disposition = .ok (exhausted, final)) :
      RunMove dep (.recordTrustedUsage candidate hint disposition ids) response r
        { r with
          state := final.state
          stateVersion := final.version
          updatedAt := usage.recordedAt.stored
          terminalAt := final.terminalAt.map Time.stored
          leaseID := none
          leaseExpiresAt := none
          fencingToken := r.fencingToken + 1 }
  | extend (candidate extension : ResourceExtension) (evidence : ResourceExtensionEvidence)
      (response : Response) (r : Run) (deadlineAt : Option Int) (state : RunState × Int)
      (hvalid : validateResourceExtension candidate = .ok extension)
      (hrun : r.id = extension.runID) (hactive : r.state.terminal = false)
      (hstate : extendedState extension r = .ok state) :
      RunMove dep (.extendResources candidate evidence) response r
        { r with
          deadlineAt := deadlineAt
          state := state.1
          stateVersion := state.2
          updatedAt := extension.createdAt.stored }
  | timeout (request : ResourceReconciliation) (now : Time) (response : Response) (r : Run)
      (next : RunLifecycle) (hvalid : validateReconciliation request = .ok now)
      (hactive : r.state.terminal = false) (hnext : timeoutTransition r now = .ok next) :
      RunMove dep (.reconcileNextReservation request) response r
        { r with
          state := .timedOut
          stateVersion := next.version
          updatedAt := now.stored
          terminalAt := some now.stored
          leaseID := none
          leaseExpiresAt := none
          fencingToken := r.fencingToken + 1 }

variable {r r' : Run}

theorem RunMove.id_eq (h : RunMove dep request response r r') : r'.id = r.id := by
  cases h <;> rfl

theorem RunMove.active (h : RunMove dep request response r r') : r.state.terminal = false := by
  cases h with
  | claim _ _ _ hclaimable =>
    simp only [claimable, Bool.and_eq_true, Bool.or_eq_true, decide_eq_true_eq] at hclaimable
    rcases hclaimable.1 with hstate | hstate <;> rw [hstate] <;> rfl
  | exhaust _ _ _ _ _ _ _ _ _ _ hrunning => rw [hrunning]; rfl
  | _ => assumption

/-! ### Events -/

/-- The runs, their events and their signals. -/
def Store.journal (s : Store) : Table Run.id × Table RunEvent.id × Table RunSignal.id :=
  (s.runs, s.events, s.signals)

theorem Store.journal_eq :
    t.journal = s.journal ↔ t.runs = s.runs ∧ t.events = s.events ∧ t.signals = s.signals := by
  simp [Store.journal]

/-- What is neither a run nor evidence. -/
def Store.rest (s : Store) : Store :=
  { s with runs := .empty, events := .empty, signals := .empty, audits := .empty, outbox := .empty }

/-- The events of a run, in the order of their inserts. -/
def Store.eventsOf (s : Store) (runID : ID) : List RunEvent :=
  s.events.rows.filter (·.runID = runID)

/-- `COALESCE(max(sequence),0)`. -/
def Store.lastSequence (s : Store) (runID : ID) : Int :=
  (s.eventsOf runID).foldl (fun m e => max m e.sequence) 0

/-- Events of one run, numbered one after the other. -/
def Numbered (runID : ID) : Int → List RunEvent → Prop
  | _, [] => True
  | last, e :: events => e.runID = runID ∧ e.sequence = last + 1 ∧ Numbered runID (last + 1) events

/-- The row of the cancellation among the signals of its run. -/
def RunCancellation.signal (cancellation : RunCancellation) (evidence : RunCancellationEvidence) :
    RunSignal :=
  ⟨evidence.signalID, cancellation.runID, .cancel,
    .object [("reason_code", .string cancellation.reasonCode)], cancellation.idempotencyKey,
    cancellation.actorPrincipalID, cancellation.createdAt.stored⟩

def RunSignalSubmission.row (signal : RunSignalSubmission) : RunSignal :=
  ⟨signal.id, signal.runID, signal.content.signalType, signal.content.payload, signal.idempotencyKey,
    signal.actorPrincipalID, signal.createdAt.stored⟩

/-- The signal that a request stores when it moves a run. -/
def Request.signal : Request → Option RunSignal
  | .cancelRun cancellation evidence => some (cancellation.signal evidence)
  | .appendRunSignal signal _ => some signal.row
  | _ => none

/-- The signal that the events of a request name. -/
def Request.acceptedID : Request → Option ID
  | .appendRunSignal signal _ => some signal.id
  | _ => none

/-- A signal is stored, under an identifier and a key of its run that were free, or none is. -/
def Store.Signals (s t : Store) : Option RunSignal → Prop
  | none => t.signals = s.signals
  | some x => (∀ y ∈ s.signals.rows, y.id ≠ x.id ∧
      ¬(y.runID = x.runID ∧ y.idempotencyKey = x.idempotencyKey)) ∧ t.signals = s.signals.put x

/-- The request admits this run, under this parent. -/
def Request.Admits (admission : RunAdmission) (resolution : RunVersionResolution)
    (evidence : RunAdmissionEvidence) (parent : Option ID) (request : Request) : Prop :=
  (request = .admitRun admission resolution evidence ∧ parent = none) ∨
    (∃ acquisition response now, request = .admitRunIdempotently admission resolution evidence
      acquisition response now ∧ parent = none) ∨
    ∃ requested, request = .admitChildRun admission resolution evidence requested ∧
      parent = some requested.parentEnvelopeID

/-- A commit that moves one run and appends its events. -/
structure Advances (dep : Deployment) (request : Request) (response : Response) (s t : Store)
    (r r' : Run) (events : List RunEvent) : Prop where
  run : s.runs.get r.id = some r
  move : RunMove dep request response r r'
  check : r.check = true → r'.check = true
  runs_eq : t.runs = s.runs.put r'
  events_eq : t.events.rows = s.events.rows ++ events
  numbered : Numbered r.id (s.lastSequence r.id) events
  newest : ∃ e, events.getLast? = some e ∧ e.state = r'.state ∧ e.stateVersion = r'.stateVersion
  signals : s.Signals t request.signal
  accepted : ∀ e ∈ events, e.signalID = request.acceptedID

/-- A commit that admits a run, with its first event. -/
structure Enters (admission : RunAdmission) (s t : Store) (e : RunEvent) : Prop where
  run_fresh : s.runs.get admission.runID = none
  runs_eq : t.runs = s.runs.put (admittedRun admission)
  event : e.runID = admission.runID ∧ e.sequence = 1 ∧ e.state = .admitted ∧ e.stateVersion = 1
  unsignalled : e.signalID = none
  event_fresh : ∀ x ∈ s.events.rows, ¬(x.runID = e.runID ∧ x.sequence = e.sequence)
  events_eq : t.events.rows = s.events.rows ++ [e]
  signals_eq : t.signals = s.signals

/-- What a commit does to the runs, to their events and to their signals. -/
inductive Journals (dep : Deployment) (request : Request) (response : Response) (s t : Store) :
    Prop where
  | keep (h : t.journal = s.journal)
  | admission (admission : RunAdmission) (resolution : RunVersionResolution)
      (evidence : RunAdmissionEvidence) (parent : Option ID) (e : RunEvent)
      (hrequest : request.Admits admission resolution evidence parent)
      (h : Enters admission s t e)
  | move (r r' : Run) (events : List RunEvent) (h : Advances dep request response s t r r' events)

variable {t' : Store}

/-- What comes after may do anything to the other tables. -/
theorem Advances.frame {events : List RunEvent} (h : Advances dep request response s t' r r' events)
    (ht : t.journal = t'.journal) : Advances dep request response s t r r' events := by
  obtain ⟨hruns, hevents, hsignals⟩ := Store.journal_eq.mp ht
  refine ⟨h.run, h.move, h.check, hruns.trans h.runs_eq, (congrArg Table.rows hevents).trans h.events_eq,
    h.numbered, h.newest, ?_, h.accepted⟩
  have hstored := h.signals
  unfold Store.Signals at hstored ⊢
  rw [hsignals]
  exact hstored

variable {e : RunEvent}

theorem Enters.frame {admission : RunAdmission} (h : Enters admission s t' e)
    (ht : t.journal = t'.journal) : Enters admission s t e := by
  obtain ⟨hruns, hevents, hsignals⟩ := Store.journal_eq.mp ht
  exact ⟨h.run_fresh, hruns.trans h.runs_eq, h.event, h.unsignalled, h.event_fresh,
    (congrArg Table.rows hevents).trans h.events_eq, hsignals.trans h.signals_eq⟩

/-! ### Sequence numbers -/

theorem foldl_max_spec (events : List RunEvent) (m : Int) :
    m ≤ events.foldl (fun m e => max m e.sequence) m ∧
      (∀ e ∈ events, e.sequence ≤ events.foldl (fun m e => max m e.sequence) m) ∧
      (events.foldl (fun m e => max m e.sequence) m = m ∨
        ∃ e ∈ events, e.sequence = events.foldl (fun m e => max m e.sequence) m) := by
  induction events generalizing m with
  | nil => simp
  | cons x xs ih =>
    obtain ⟨hle, hall, hmax⟩ := ih (max m x.sequence)
    rw [foldl_cons]
    refine ⟨by omega, ?_, ?_⟩
    · intro e he
      rcases mem_cons.mp he with rfl | he
      · omega
      · exact hall e he
    · rcases hmax with hmax | ⟨e, he, hmax⟩
      · rcases le_total x.sequence m with hx | hx
        · exact Or.inl (by omega)
        · exact Or.inr ⟨x, mem_cons_self, by omega⟩
      · exact Or.inr ⟨e, mem_cons_of_mem x he, hmax⟩

variable {runID : ID}

/-- The largest sequence depends only on which events there are. -/
theorem lastSequence_congr
    (h : ∀ e, e.runID = runID → (e ∈ t.events.rows ↔ e ∈ s.events.rows)) :
    t.lastSequence runID = s.lastSequence runID := by
  have hmem : ∀ e, e ∈ t.eventsOf runID ↔ e ∈ s.eventsOf runID := by
    intro e
    simp only [Store.eventsOf, mem_filter, decide_eq_true_eq]
    exact and_congr_left fun he => h e he
  have hle : ∀ {u w : Store}, (∀ e, e ∈ u.eventsOf runID → e ∈ w.eventsOf runID) →
      u.lastSequence runID ≤ w.lastSequence runID := by
    intro u w hsub
    obtain ⟨hzero, hall, _⟩ := foldl_max_spec (w.eventsOf runID) 0
    rcases (foldl_max_spec (u.eventsOf runID) 0).2.2 with hmax | ⟨e, he, hmax⟩
    · exact hmax.trans_le hzero
    · exact hmax.symm.trans_le (hall e (hsub e he))
  exact le_antisymm (hle fun e => (hmem e).mp) (hle fun e => (hmem e).mpr)

/-- Under the run's lock the sequence read from a snapshot is still the next one. -/
theorem exec_nextSequence {sequence : Int} (hlocked : .run runID ∈ held)
    (h : storeEngine.Exec (nextSequence runID) held s sequence held' t) :
    sequence = s.lastSequence runID + 1 ∧ held = held' ∧ s = t := by
  obtain ⟨⟨seen, hseen, rfl⟩, hheld, ht⟩ := exec_snapshot.mp h
  refine ⟨?_, hheld, ht⟩
  have hsame : s.lastSequence runID = seen.lastSequence runID := by
    refine lastSequence_congr fun e he => ?_
    refine mem_iff_of_interference (H := eventRows)
      (excluded_of_mem (l := .run e.runID) ?_ ?_ rfl) hseen
    · simp [updateLocks]
    · rw [he]
      exact hlocked
  rw [hsame]
  rfl

variable {error : Failure} {event : RunEvent} {u : Unit}

/-- The insert of an event. -/
theorem exec_insertEvent
    (h : storeEngine.Exec (insertEvent event error) held s u held' t) :
    ∃ events, t = { s with events := events } ∧ events.rows = s.events.rows ++ [event] ∧
      ∀ x ∈ s.events.rows, ¬(x.runID = event.runID ∧ x.sequence = event.sequence) := by
  obtain ⟨hclash, _, rfl⟩ := exec_insert.mp h
  have hfresh : ∀ x ∈ s.events.rows, x.id ≠ event.id ∧
      ¬(x.runID = event.runID ∧ x.sequence = event.sequence) := by
    intro x hx
    simpa [not_or] using hclash x hx
  refine ⟨_, rfl, ?_, fun x hx => (hfresh x hx).2⟩
  exact rows_put_of_none _ (get_eq_none_iff.mpr fun x hx => (hfresh x hx).1)

/-! ### Worker operations -/

theorem Advances.single (hrun : s.runs.get r.id = some r)
    (hmove : RunMove dep request response r r') (hcheck : r.check = true → r'.check = true)
    (hruns : t.runs = s.runs.put r') (hevents : t.events.rows = s.events.rows ++ [e])
    (hevent : e.runID = r.id ∧ e.sequence = s.lastSequence r.id + 1)
    (hstate : e.state = r'.state ∧ e.stateVersion = r'.stateVersion)
    (hsignals : s.Signals t request.signal) (haccepted : e.signalID = request.acceptedID) :
    Advances dep request response s t r r' [e] :=
  ⟨hrun, hmove, hcheck, hruns, hevents, ⟨hevent.1, hevent.2, trivial⟩, ⟨e, rfl, hstate⟩, hsignals,
    fun _ he => mem_singleton.mp he ▸ haccepted⟩

variable {change : Run → Run}

theorem exec_updateRun
    (hr : s.runs.get runID = some r)
    (h : storeEngine.Exec (updateRun runID change error) held s u held' t) :
    (change r).check = true ∧ held ⊆ held' ∧ t = { s with runs := s.runs.put (change r) } := by
  have hsub := exec_subset h
  obtain ⟨old, row, hold, hchange, _, rfl⟩ := exec_update.mp h
  have hsame : r = old := Option.some.inj (hr.symm.trans hold)
  subst hsame
  split_ifs at hchange with hcheck
  cases hchange
  exact ⟨hcheck, hsub, rfl⟩

variable {eventID : ID}

variable {actor : RunActor} {eventType : String} {occurredAt version : Int} {state : RunState} {workerID : ID}

/-- A worker's event follows the last one of its run. -/
theorem exec_appendWorkerEvent
    (hlocked : .run runID ∈ held)
    (h : storeEngine.Exec (appendWorkerEvent runID workerID eventID eventType actor state version
      occurredAt) held s u held' t) :
    t.rest = s.rest ∧ t.runs = s.runs ∧ t.signals = s.signals ∧ ∃ e, t.events.rows = s.events.rows ++ [e] ∧
      (e.runID = runID ∧ e.sequence = s.lastSequence runID + 1) ∧
      (e.state = state ∧ e.stateVersion = version) ∧ e.signalID = none := by
  obtain ⟨sequence, _, _, hsequence, h₁⟩ := exec_bind.mp h
  obtain ⟨hnext, rfl, rfl⟩ := exec_nextSequence hlocked hsequence
  obtain ⟨_, _, mid, hevent, houtbox⟩ := exec_bind.mp h₁
  obtain ⟨events, rfl, hevents, _⟩ := exec_insertEvent hevent
  obtain ⟨_, rfl⟩ := exec_insertOutbox houtbox
  exact ⟨rfl, rfl, rfl, _, hevents, ⟨rfl, hnext⟩, ⟨rfl, rfl⟩, rfl⟩

/-- An update of a locked run, followed by a worker's event. -/
theorem advances_work
    {w : Unit}
    {held₁ : List Lock} (hr : s.runs.get r.id = some r) (hlocked : .run r.id ∈ held)
    (hupdate : storeEngine.Exec (updateRun r.id change error) held s u held₁ v)
    (hevent : storeEngine.Exec (appendWorkerEvent r.id workerID eventID eventType actor state version
      occurredAt) held₁ v w held' t)
    (hmove : RunMove dep request response r (change r))
    (hstate : state = (change r).state ∧ version = (change r).stateVersion)
    (hsignal : request.signal = none ∧ request.acceptedID = none) :
    ∃ e, t.rest = s.rest ∧ Advances dep request response s t r (change r) [e] := by
  obtain ⟨hcheck, hsub, rfl⟩ := exec_updateRun hr hupdate
  obtain ⟨hrest, hruns, hsignals, e, hevents, hnumbered, hestate, hunsignalled⟩ :=
    exec_appendWorkerEvent (hsub hlocked) hevent
  exact ⟨e, hrest, .single hr hmove (fun _ => hcheck) hruns hevents hnumbered
    ⟨hestate.1.trans hstate.1, hestate.2.trans hstate.2⟩ (hsignal.1 ▸ hsignals)
    (hunsignalled.trans hsignal.2.symm)⟩

variable {lease : RunLease}

theorem advances_claimRun {claim : RunClaim}
    (h : storeEngine.Exec (claimRun dep claim) held s lease held' t) :
    ∃ r r' e, t.rest = s.rest ∧ Advances dep (.claimRun claim) (.leased lease) s t r r' [e] := by
  obtain ⟨_, _, h₂⟩ := exec_bind_snapshot.mp h.checked
  obtain ⟨candidate, _, h₃⟩ := exec_bind_orThrow.mp h₂
  obtain ⟨run, _, _, hrun, h₄⟩ := exec_bind.mp h₃
  obtain ⟨r, hr, hrOk, rfl, rfl⟩ := exec_lock.mp hrun
  split_ifs at hrOk with hclaimable
  cases hrOk
  obtain ⟨fence, hnext, h₅⟩ := exec_bind_orThrow.mp h₄
  obtain ⟨_, _, _, hupdate, h₆⟩ := exec_bind.mp h₅
  obtain ⟨_, _, _, hevent, hpure⟩ := exec_bind.mp h₆
  obtain ⟨rfl, _, rfl⟩ := hpure
  have hid : run.id = candidate.id := key_of_get hr
  obtain ⟨e, hadvances⟩ := advances_work (hid ▸ hr) (by simp [hid]) hupdate hevent
    (RunMove.claim claim run fence hclaimable hnext) ⟨rfl, rfl⟩ ⟨rfl, rfl⟩
  exact ⟨run, _, e, hadvances⟩

variable {run : Run}

theorem exec_lockLeasedRun_holds {now : Int}
    (h : storeEngine.Exec (lockLeasedRun dep lease now) held s run held' t) :
    t = s ∧ lease.Holds now run ∧ .run run.id ∈ held' ∧ s.runs.get run.id = some run := by
  obtain ⟨r, hr, hrOk, rfl, rfl⟩ := exec_lock.mp h.checked
  split_ifs at hrOk with hlease
  cases hrOk
  have hid : run.id = lease.runID := key_of_get hr
  exact ⟨rfl, ⟨hid, hlease.1, hlease.2.1, hlease.2.2⟩, by simp [hid], hid ▸ hr⟩

variable {now : Time}

theorem advances_heartbeatRun {l : RunLease} {expiresAt : Time} (response : Response)
    (h : storeEngine.Exec (heartbeatRun dep lease now expiresAt eventID) held s l held' t) :
    ∃ r r' e, t.rest = s.rest ∧
      Advances dep (.heartbeatRun lease now expiresAt eventID) response s t r r' [e] := by
  obtain ⟨run, _, _, hrun, h₂⟩ := exec_bind.mp h.checked
  obtain ⟨rfl, hlease, hlocked, hr⟩ := exec_lockLeasedRun_holds hrun
  obtain ⟨hactive, h₃⟩ := exec_bind_require.mp h₂
  obtain ⟨_, _, _, hupdate, h₄⟩ := exec_bind.mp h₃
  obtain ⟨_, _, _, hevent, hpure⟩ := exec_bind.mp h₄
  obtain ⟨_, _, rfl⟩ := hpure
  rw [← hlease.run] at hupdate hevent
  obtain ⟨e, hadvances⟩ := advances_work hr hlocked hupdate hevent
    (RunMove.heartbeat lease now expiresAt eventID response run hlease hactive) ⟨rfl, rfl⟩ ⟨rfl, rfl⟩
  exact ⟨run, _, e, hadvances⟩

/-- A worker's operation moves the run that its lease holds, unless that run has ended. -/
theorem advances_mutateWorkerRun {operation : WorkerRunOperation}
    (response : Response)
    (h : storeEngine.Exec (mutateWorkerRun dep lease operation eventID now) held s u held' t) :
    ∃ run, s.runs.get run.id = some run ∧ lease.Holds now.stored run ∧
      (run.state.terminal = true ∧ t = s ∨ ∃ run' e, t.rest = s.rest ∧
        Advances dep (.mutateWorkerRun lease operation eventID now) response s t run run' [e]) := by
  obtain ⟨run, _, _, hrun, h₂⟩ := exec_bind.mp h.checked
  obtain ⟨rfl, hlease, hlocked, hr⟩ := exec_lockLeasedRun_holds hrun
  obtain ⟨moved, hmapped, h₃⟩ := exec_bind_ofExcept.mp h₂
  have htransition := mapError_eq_ok.mp hmapped
  refine ⟨run, hr, hlease, ?_⟩
  cases hactive : run.state.terminal with
  | true =>
    rw [if_pos (RunLifecycle.transition_of_terminal htransition hactive).2] at h₃
    obtain ⟨_, _, rfl⟩ := h₃
    exact Or.inl ⟨rfl, rfl⟩
  | false =>
    obtain ⟨next, changed⟩ := moved
    obtain ⟨rfl, _, _, normalized, _, _, rfl⟩ := RunLifecycle.transition_of_active htransition hactive
    rw [if_neg (by simp)] at h₃
    obtain ⟨_, _, _, hupdate, hevent⟩ := exec_bind.mp h₃
    dsimp only at htransition hupdate hevent
    rw [← hlease.run] at hevent
    unfold persistWorkerOperation at hupdate
    rw [← hlease.run] at hupdate
    obtain ⟨e, hadvances⟩ := advances_work hr hlocked hupdate hevent
      (RunMove.operate lease operation eventID now response run _ hlease hactive htransition)
      ⟨rfl, rfl⟩ ⟨rfl, rfl⟩
    exact Or.inr ⟨_, e, hadvances⟩

/-! ### Cancellation and signals -/

variable {cancellation : RunCancellation}

theorem cancelTransition_spec {next : RunLifecycle}
    (h : cancelTransition cancellation r = .ok next) : ∃ changed, RunLifecycle.transition
      ⟨r.state, r.stateVersion, .ofStored r.updatedAt, none⟩
      ⟨.cancelled, .caller, cancellation.expectedStateVersion.getD r.stateVersion,
        cancellation.createdAt⟩ = .ok (next, changed) := by
  unfold cancelTransition at h
  dsimp only at h
  split at h
  · cases h
  · cases h
  · rename_i changed htransition
    cases h
    exact ⟨changed, htransition⟩

/-- The insert of a signal. -/
theorem exec_insertSignal {x : RunSignal}
    (h : storeEngine.Exec (signalRows.insert [.signal x.id] x (fun y => y.id = x.id ||
      (y.runID = x.runID && y.idempotencyKey = x.idempotencyKey)) error) held s u held' t) :
    s.Signals t (some x) ∧ t = { s with signals := s.signals.put x } := by
  obtain ⟨hclash, _, rfl⟩ := exec_insert.mp h
  refine ⟨⟨fun y hy => ?_, rfl⟩, rfl⟩
  simpa [not_or] using hclash y hy

/-- A cancellation moves its run, unless that has ended. -/
theorem advances_cancelRun {evidence : RunCancellationEvidence}
    (response : Response)
    (h : storeEngine.Exec (cancelRun dep cancellation evidence) held s u held' t) :
    ∃ run, s.runs.get run.id = some run ∧ run.id = cancellation.runID ∧
      (run.state.terminal = true ∧ t = s ∨ ∃ run' e, t.rest = s.rest ∧
        Advances dep (.cancelRun cancellation evidence) response s t run run' [e]) := by
  obtain ⟨_, _, h₂⟩ := exec_bind_ofExcept.mp h.checked
  obtain ⟨run, _, _, hrun, h₄⟩ := exec_bind.mp h₂.checked
  obtain ⟨_, hr, hrOk, rfl, rfl⟩ := exec_lock.mp hrun
  cases hrOk
  have hid : run.id = cancellation.runID := key_of_get hr
  refine ⟨run, hid ▸ hr, hid, ?_⟩
  split_ifs at h₄ with hterminal
  · obtain ⟨_, _, rfl⟩ := h₄
    exact Or.inl ⟨hterminal, rfl⟩
  · rw [Bool.not_eq_true] at hterminal
    obtain ⟨next, hcancel, h₅⟩ := exec_bind_ofExcept.mp h₄
    obtain ⟨sequence, _, _, hsequence, h₇⟩ := exec_bind.mp h₅.checked
    obtain ⟨hlast, rfl, rfl⟩ := exec_nextSequence (by simp) hsequence
    obtain ⟨_, _, _, hupdate, h₈⟩ := exec_bind.mp h₇.vetted
    obtain ⟨hcheck, _, rfl⟩ := exec_updateRun hr hupdate
    obtain ⟨_, _, mid, hsignal, h₉⟩ := exec_bind.mp h₈
    obtain ⟨hsignals, rfl⟩ := exec_insertSignal (x := cancellation.signal evidence) hsignal
    obtain ⟨_, _, _, hevent, h₁₀⟩ := exec_bind.mp h₉
    obtain ⟨_, rfl, hevents, _⟩ := exec_insertEvent hevent
    obtain ⟨_, _, rfl⟩ := exec_evidence h₁₀
    refine Or.inr ⟨_, _, rfl, .single (hid ▸ hr)
      (.cancel cancellation evidence response run next hid hterminal hcancel) (fun _ => hcheck)
      rfl hevents ⟨hid.symm, ?_⟩ ⟨rfl, rfl⟩ hsignals rfl⟩
    rw [hid]
    exact hlast

/-- A signal whose key the run has seen is answered with the event of the stored one; any other is
stored. -/
theorem advances_appendRunSignal {signal : RunSignalSubmission} {evidence : RunSignalEvidence}
    (response : Response)
    (h : storeEngine.Exec (appendRunSignal dep signal evidence) held s event held' t) :
    ∃ run, s.runs.get run.id = some run ∧ run.id = signal.runID ∧ run.state.terminal = false ∧
      signal.expectedStateVersion.all (· = run.stateVersion) = true ∧
      ((∃ x ∈ s.signals.rows, x.runID = signal.runID ∧ x.idempotencyKey = signal.idempotencyKey ∧
          event ∈ s.events.rows ∧ event.runID = signal.runID ∧ event.signalID = some x.id ∧ t = s) ∨
        (event = signalEvent signal evidence run (s.lastSequence signal.runID + 1) ∧ t.rest = s.rest ∧
          Advances dep (.appendRunSignal signal evidence) response s t run run [event])) := by
  obtain ⟨_, _, h₂⟩ := exec_bind_ofExcept.mp h.checked
  obtain ⟨run, _, _, hrun, h₄⟩ := exec_bind.mp h₂.checked
  obtain ⟨_, hr, hrOk, rfl, rfl⟩ := exec_lock.mp hrun
  cases hrOk
  have hid : run.id = signal.runID := key_of_get hr
  obtain ⟨hactive, h₅⟩ := exec_bind_require.mp h₄
  obtain ⟨hversion, h₆⟩ := exec_bind_require.mp h₅
  refine ⟨run, hid ▸ hr, hid, hactive, hversion, ?_⟩
  obtain ⟨existing, ⟨seen, hseen, hfound⟩, h₇⟩ := exec_bind_snapshot.mp h₆
  cases existing with
  | some x =>
    left
    have hkey : x.runID = signal.runID ∧ x.idempotencyKey = signal.idempotencyKey := by
      simpa using find?_some hfound
    -- Under the run's lock nobody else stores a signal or an event of the run.
    have hx := (mem_iff_of_interference (H := signalRows) (r := x)
      (excluded_of_mem (l := .run x.runID) (by simp [updateLocks]) (by simp [hkey.1]) rfl)
      hseen).mpr (mem_of_find?_eq_some hfound)
    obtain ⟨stored, ⟨seen', hseen', hfound'⟩, h₈⟩ := exec_bind_snapshot.mp h₇
    obtain ⟨rfl, rfl, rfl⟩ := exec_orThrow.mp h₈
    have hevent : event.runID = signal.runID ∧ event.signalID = some x.id := by
      simpa using find?_some hfound'
    have he := (mem_iff_of_interference (H := eventRows) (r := event)
      (excluded_of_mem (l := .run event.runID) (by simp [updateLocks]) (by simp [hevent.1]) rfl)
      hseen').mpr (mem_of_find?_eq_some hfound')
    exact ⟨x, hx, hkey.1, hkey.2, he, hevent.1, hevent.2, rfl⟩
  | none =>
    right
    obtain ⟨sequence, _, _, hsequence, h₈⟩ := exec_bind.mp h₇
    obtain ⟨rfl, rfl, rfl⟩ := exec_nextSequence (by simp) hsequence
    obtain ⟨_, _, _, hpersist, hpure⟩ := exec_bind.mp h₈
    obtain ⟨rfl, _, rfl⟩ := hpure
    obtain ⟨_, _, mid, hsignal, h₉⟩ := exec_bind.mp hpersist.vetted
    obtain ⟨hsignals, rfl⟩ := exec_insertSignal (x := signal.row) hsignal
    obtain ⟨_, _, _, hevent, h₁₀⟩ := exec_bind.mp h₉
    obtain ⟨_, rfl, hevents, _⟩ := exec_insertEvent hevent
    obtain ⟨_, _, rfl⟩ := exec_evidence h₁₀
    rw [← hid] at hr
    exact ⟨rfl, rfl, .single hr (.signal signal evidence response run hactive) id (put_of_get hr).symm
      hevents ⟨hid.symm, by rw [hid]; rfl⟩ ⟨rfl, rfl⟩ hsignals rfl⟩

end AgentGovernor
