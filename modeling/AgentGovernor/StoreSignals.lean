import AgentGovernor.StoreTimeouts
import AgentGovernor.TransactionAlone

/-! The signals of runs. A run keeps one signal under each key, with one event. A call with a key that the run
has seen is answered with that event, whoever sends it and whatever it says, as long as the run has not
ended and has the version that the call expects. Cancellations are stored among the signals, under keys
with a prefix that signals may have too. -/

namespace AgentGovernor

open Ledger Transaction Engine Sample List

variable {s t : Store} {dep : Deployment} {request : Request} {response : Response}

/-- A run has one signal under each key; a signal of a caller has one event; and a cancellation is stored
only with a run that has ended. -/
structure Signalled (s : Store) : Prop where
  keyed : ∀ x ∈ s.signals.rows, ∀ y ∈ s.signals.rows, x.runID = y.runID →
    x.idempotencyKey = y.idempotencyKey → x = y
  signal : ∀ e ∈ s.events.rows, ∀ id, e.signalID = some id → ∃ x ∈ s.signals.rows, x.id = id
  event : ∀ e ∈ s.events.rows, ∀ e' ∈ s.events.rows, ∀ id, e.signalID = some id → e'.signalID = some id →
    e = e'
  cancelled : ∀ x ∈ s.signals.rows, x.signalType = .cancel → ∃ r, s.runs.get x.runID = some r ∧
    r.state.terminal = true

theorem RunSignalContent.signalType_ne (content : RunSignalContent) : content.signalType ≠ .cancel := by
  cases content <;> nofun

variable {x : RunSignal}

/-- A stored signal is put after the others. -/
theorem Store.Signals.rows (h : s.Signals t (some x)) :
    t.signals.rows = s.signals.rows ++ [x] := by
  rw [h.2]
  exact Table.rows_put_of_none _ (Table.get_eq_none_iff.mpr fun y hy => (h.1 y hy).1)

/-- Besides what was stored before there is at most the signal of the request. -/
theorem Store.Signals.mem {stored : Option RunSignal} (h : s.Signals t stored) :
    x ∈ t.signals.rows ↔ x ∈ s.signals.rows ∨ stored = some x := by
  cases stored with
  | none =>
    rw [show t.signals = s.signals from h]
    simp
  | some y =>
    rw [h.rows]
    simp [eq_comm]

section Advances

variable {r r' : Run} {events : List RunEvent}

/-- Runs that have ended stay so. -/
theorem Advances.terminal_kept (h : Advances dep request response s t r r' events) {id : ID} {x : Run}
    (hx : s.runs.get id = some x) (hterminal : x.state.terminal = true) :
    ∃ x', t.runs.get id = some x' ∧ x'.state.terminal = true := by
  rw [h.runs_eq, Table.get_put, h.move.id_eq]
  split_ifs with hid
  · subst hid
    cases hx.symm.trans h.run
    refine ⟨r', rfl, ?_⟩
    obtain ⟨actors, _, hpath, _⟩ := h.move.path
    rw [hpath.of_terminal hterminal]
    exact hterminal
  · exact ⟨x, hx, hterminal⟩

/-- The key of the signal was free. -/
theorem Store.Signals.keyed {stored : Option RunSignal} (h : s.Signals t stored)
    (hs : ∀ x ∈ s.signals.rows, ∀ y ∈ s.signals.rows, x.runID = y.runID →
      x.idempotencyKey = y.idempotencyKey → x = y) :
    ∀ x ∈ t.signals.rows, ∀ y ∈ t.signals.rows, x.runID = y.runID →
      x.idempotencyKey = y.idempotencyKey → x = y := by
  intro x hx y hy hrun hkey
  rcases h.mem.mp hx with hx | rfl <;> rcases h.mem.mp hy with hy | hy
  · exact hs x hx y hy hrun hkey
  · subst hy
    exact absurd ⟨hrun, hkey⟩ (h.1 x hx).2
  · exact absurd ⟨hrun.symm, hkey.symm⟩ (h.1 y hy).2
  · exact Option.some.inj hy

theorem Signalled.advances (hs : Signalled s) (h : Advances dep request response s t r r' events)
    (hsingle : request.acceptedID.isSome = true → events.length ≤ 1) : Signalled t := by
  have hmem : ∀ e, e ∈ t.events.rows ↔ e ∈ s.events.rows ∨ e ∈ events := by
    intro e
    rw [h.events_eq, mem_append]
  -- No earlier event names the signal that is stored.
  have hnew : ∀ e ∈ s.events.rows, ∀ e' ∈ events, ∀ id, e.signalID = some id →
      e'.signalID = some id → False := by
    intro e he e' he' id hid hid'
    have haccepted := (h.accepted e' he').symm.trans hid'
    obtain ⟨x, hx, hxid⟩ := hs.signal e he id hid
    cases request with
    | appendRunSignal signal evidence =>
      cases haccepted
      exact (h.signals.1 x hx).1 hxid
    | _ => cases haccepted
  refine ⟨h.signals.keyed hs.keyed, fun e he id hid => ?_, fun e he e' he' id hid hid' => ?_,
    fun x hx hcancel => ?_⟩
  · rcases (hmem e).mp he with he | he
    · obtain ⟨x, hx, hxid⟩ := hs.signal e he id hid
      exact ⟨x, h.signals.mem.mpr (Or.inl hx), hxid⟩
    · have haccepted := (h.accepted e he).symm.trans hid
      cases request with
      | appendRunSignal signal evidence =>
        cases haccepted
        exact ⟨signal.row, h.signals.mem.mpr (Or.inr rfl), rfl⟩
      | _ => cases haccepted
  · rcases (hmem e).mp he with he | he <;> rcases (hmem e').mp he' with he' | he'
    · exact hs.event e he e' he' id hid hid'
    · exact absurd hid' fun hid' => hnew e he e' he' id hid hid'
    · exact absurd hid fun hid => hnew e' he' e he id hid' hid
    · have haccepted := (h.accepted e he).symm.trans hid
      have hlength := hsingle (by rw [haccepted]; rfl)
      obtain ⟨y, hy⟩ := length_eq_one_iff.mp
        (le_antisymm hlength (length_pos_of_mem he))
      rw [hy, mem_singleton] at he he'
      exact he.trans he'.symm
  · rcases h.signals.mem.mp hx with hx | hx
    · obtain ⟨z, hz, hterminal⟩ := hs.cancelled x hx hcancel
      exact h.terminal_kept hz hterminal
    · cases request with
      | cancelRun cancellation evidence =>
        cases hx
        have hput : t.runs.get r'.id = some r' := by
          rw [h.runs_eq, Table.get_put_self]
        cases h.move with
        | cancel _ _ _ _ _ hrun => exact ⟨_, hrun ▸ hput, rfl⟩
      | appendRunSignal signal evidence =>
        cases hx
        exact absurd hcancel signal.content.signalType_ne
      | _ => cases hx

end Advances

variable {e : RunEvent}

theorem Signalled.enters {admission : RunAdmission} (hs : Signalled s)
    (h : Enters admission s t e) : Signalled t := by
  have hold : ∀ x ∈ t.events.rows, ∀ id, x.signalID = some id → x ∈ s.events.rows := by
    intro x hx id hid
    rw [h.events_eq] at hx
    rcases mem_append.mp hx with hx | hx
    · exact hx
    · rw [mem_singleton.mp hx, h.unsignalled] at hid
      cases hid
  refine ⟨h.signals_eq ▸ hs.keyed, fun x hx id hid => ?_, fun x hx y hy id hid hid' => ?_,
    fun x hx hcancel => ?_⟩
  · rw [h.signals_eq]
    exact hs.signal x (hold x hx id hid) id hid
  · exact hs.event x (hold x hx id hid) y (hold y hy id hid') id hid hid'
  · rw [h.signals_eq] at hx
    obtain ⟨r, hr, hterminal⟩ := hs.cancelled x hx hcancel
    refine ⟨r, ?_, hterminal⟩
    rw [h.runs_eq, Table.get_put_of_ne]
    · exact hr
    · rintro hid
      rw [hid, show (admittedRun admission).id = admission.runID from rfl, h.run_fresh] at hr
      cases hr

theorem Signalled.commits (hs : Signalled s)
    (h : Serves dep request response s t) : Signalled t := by
  have hkeep : t.journal = s.journal → Signalled t := by
    intro hjournal
    obtain ⟨hruns, hevents, hsignals⟩ := Store.journal_eq.mp hjournal
    refine ⟨?_, ?_, ?_, ?_⟩
    · exact hsignals ▸ hs.keyed
    · exact hevents ▸ hsignals ▸ hs.signal
    · exact hevents ▸ hs.event
    · exact hruns ▸ hsignals ▸ hs.cancelled
  cases hjournals : commits_journals h with
  | keep hjournal => exact hkeep hjournal
  | admission _ _ _ _ _ _ henters => exact hs.enters henters
  | move r r' events hadvances =>
    cases request with
    | appendRunSignal signal evidence =>
      obtain ⟨_, hexec⟩ := h
      obtain ⟨event, hbody, _⟩ := exec_respond hexec
      obtain ⟨run, _, _, _, _, ⟨_, _, _, _, _, _, _, rfl⟩ | ⟨_, _, hsingle⟩⟩ :=
        advances_appendRunSignal response hbody
      · exact hs
      · exact hs.advances hsingle fun _ => le_refl 1
    | _ => exact hs.advances hadvances fun hsome => nomatch hsome

theorem Reachable.signalled {governor : Governor} (h : Reachable dep governor) :
    Signalled governor.committed ∧ ∀ c ∈ governor.log, Signalled c.before ∧ Signalled c.after := by
  have hinvariant := h.history.invariant (P := Signalled)
    ⟨fun _ hx => absurd hx not_mem_nil, fun _ he => absurd he not_mem_nil,
      fun _ he => absurd he not_mem_nil, fun _ hx => absurd hx not_mem_nil⟩
    fun _ _ _ _ hcommit hs => hs.commits hcommit
  exact ⟨hinvariant.1, fun c hc => ⟨(hinvariant.2 c hc).1, (hinvariant.2 c hc).2.1⟩⟩

/-! ### What is stored -/

/-- The stored signal is the one that the caller sent. -/
structure RunSignal.Matches (x : RunSignal) (signal : RunSignalSubmission) : Prop where
  principal : x.actorPrincipalID = signal.actorPrincipalID
  signalType : x.signalType = signal.content.signalType
  payload : x.payload = signal.content.payload

/-- A signal of the run is stored under the key of the call. -/
def RunSignal.SharesKey (x : RunSignal) (signal : RunSignalSubmission) : Prop :=
  x.runID = signal.runID ∧ x.idempotencyKey = signal.idempotencyKey

/-- Over every interleaving, a call that succeeds left its signal, and answered with the event of that, exactly
when no signal with another principal, type or payload was stored under its key. -/
theorem signals_stored_iff {governor : Governor} (h : Reachable dep governor)
    {c : Commit Store Response Request} (hc : c ∈ governor.log) {signal : RunSignalSubmission}
    {evidence : RunSignalEvidence} {event : RunEvent}
    (hrequest : c.request = .appendRunSignal signal evidence) (hresponse : c.response = .signalled event) :
    (∃ x ∈ c.after.signals.rows, x.SharesKey signal ∧ x.Matches signal ∧
        event ∈ c.after.events.rows ∧ event.runID = x.runID ∧ event.signalID = some x.id) ↔
      ¬∃ x ∈ c.before.signals.rows, x.SharesKey signal ∧ ¬x.Matches signal := by
  have hcommit := h.commits hc
  have hafter := (h.signalled.2 c hc).2
  rw [hrequest, hresponse] at hcommit
  obtain ⟨_, hexec⟩ := hcommit
  obtain ⟨_, hbody, hevent⟩ := exec_respond hexec
  cases hevent
  obtain ⟨run, _, hrun, _, _, ⟨x, hx, hxrun, hxkey, he, herun, heid, hsame⟩ | ⟨hnew, _, hadvances⟩⟩ :=
    advances_appendRunSignal (.signalled event) hbody
  · rw [hsame] at hafter ⊢
    constructor
    · rintro ⟨y, hy, hykey, hymatches, _⟩ ⟨z, hz, hzkey, hzother⟩
      have hyz := hafter.keyed y hy z hz (hykey.1.trans hzkey.1.symm) (hykey.2.trans hzkey.2.symm)
      exact hzother (hyz ▸ hymatches)
    · intro hnone
      refine ⟨x, hx, ⟨hxrun, hxkey⟩, ?_, he, herun.trans hxrun.symm, heid⟩
      by_contra hother
      exact hnone ⟨x, hx, ⟨hxrun, hxkey⟩, hother⟩
  · refine iff_of_true ⟨signal.row, ?_, ⟨rfl, rfl⟩, ⟨rfl, rfl, rfl⟩, ?_, ?_, ?_⟩ ?_
    · exact hadvances.signals.mem.mpr (Or.inr rfl)
    · rw [hadvances.events_eq]
      exact mem_append_right _ mem_cons_self
    · rw [hnew]
      rfl
    · rw [hnew]
      rfl
    · rintro ⟨x, hx, ⟨hxrun, hxkey⟩, _⟩
      exact (hadvances.signals.1 x hx).2 ⟨hxrun, hxkey⟩

namespace Sample

/-- A caller's signal to run 100. -/
def submission (id principal : Nat) (content : RunSignalContent) (key : String) (seconds : Int) :
    RunSignalSubmission :=
  ⟨.ofNat id, .ofNat 1, .ofNat 100, .ofNat principal, content, key, none, instant seconds⟩

/-- The identifiers after the one of the signal. -/
def signalEvidence (id : Nat) : RunSignalEvidence :=
  ⟨.ofNat (id + 1), .ofNat (id + 2), .ofNat (id + 3), .ofNat (id + 4), .ofNat 5, ["allowed"]⟩

def pause (id : Nat) (seconds : Int) : RunSignalSubmission :=
  submission id 4 (.pause none) "operator-key-0001" seconds

/-- A run is started and paused by one caller. -/
def paused : List Request :=
  provision ++ [admitRoot 100 (("max_tool_calls", .int 2) :: limits)] ++ start 100 ++
    [.appendRunSignal (pause 800 120) (signalEvidence 800)]

/-- Another caller then sends a resume under the same key. -/
def shared : List Request :=
  paused ++ [.appendRunSignal (submission 810 7 .resume "operator-key-0001" 130) (signalEvidence 810)]

/-- The commit answers a signal of this caller. -/
def answers (principal : Nat) (c : Commit Store Response Request) : Bool :=
  match c.request, c.response with
  | .appendRunSignal signal _, .signalled _ => signal.actorPrincipalID = .ofNat principal
  | _, _ => false

/-- The commit answers a signal of which nothing is stored with the event of another caller's. -/
def misanswers (c : Commit Store Response Request) : Bool :=
  match c.request, c.response with
  | .appendRunSignal signal _, .signalled event =>
    c.after.signals.rows.all (fun x => x.actorPrincipalID ≠ signal.actorPrincipalID) &&
      c.before.signals.rows.any fun x => x.runID = signal.runID &&
        x.idempotencyKey = signal.idempotencyKey && event.signalID = some x.id
  | _, _ => false

theorem shared_evaluated :
    (∃ c ∈ (after shared).log, answers 4 c = true ∧ c.before.signals.rows = []) ∧
      ∃ c ∈ (after shared).log, misanswers c = true := by
  decide +kernel

end Sample

theorem signals_stored_paused : ∃ c ∈ (after shared).log, ∃ signal evidence event,
    c.request = .appendRunSignal signal evidence ∧ c.response = .signalled event ∧
    ∃ x ∈ c.after.signals.rows, x.Matches signal ∧ event.signalID = some x.id := by
  obtain ⟨c, hc, hanswers, hfirst⟩ := shared_evaluated.1
  unfold answers at hanswers
  split at hanswers
  · rename_i signal evidence event hrequest hresponse
    obtain ⟨x, hx, _, hmatches, _, _, hid⟩ :=
      (signals_stored_iff (reachable _) hc hrequest hresponse).mpr (by simp [hfirst])
    exact ⟨c, hc, signal, evidence, event, hrequest, hresponse, x, hx, hmatches, hid⟩
  · cases hanswers

/-- A resume is accepted and not stored: it is answered with the event of another caller's pause. -/
theorem signal_misanswered : Reachable deployment (after shared) ∧
    ∃ c ∈ (after shared).log, ∃ signal evidence event,
      c.request = .appendRunSignal signal evidence ∧ c.response = .signalled event ∧
      (∀ x ∈ c.after.signals.rows, ¬x.Matches signal) ∧
      ∃ x ∈ c.before.signals.rows, x.SharesKey signal ∧ event.signalID = some x.id := by
  obtain ⟨c, hc, hmisanswers⟩ := shared_evaluated.2
  unfold misanswers at hmisanswers
  split at hmisanswers
  · rename_i signal evidence event hrequest hresponse
    simp only [Bool.and_eq_true, List.all_eq_true, List.any_eq_true, decide_eq_true_eq] at hmisanswers
    obtain ⟨hnone, x, hx, hkey, hid⟩ := hmisanswers
    exact ⟨reachable _, c, hc, signal, evidence, event, hrequest, hresponse,
      fun y hy hmatches => hnone y hy hmatches.principal, x, hx, hkey, hid⟩
  · cases hmisanswers

/-! ### Retries -/

/-- The event of the signal that a run has under a key. -/
def Store.acceptedEvent (s : Store) (runID : ID) (key : String) : Option RunEvent :=
  (s.signals.rows.find? fun x => x.runID = runID && x.idempotencyKey = key).bind fun x =>
    s.events.rows.find? fun e => e.runID = runID && e.signalID = some x.id

theorem Store.acceptedEvent_eq {runID : ID} {key : String} (hs : Signalled s)
    (hx : x ∈ s.signals.rows) (hrun : x.runID = runID) (hkey : x.idempotencyKey = key)
    (he : e ∈ s.events.rows) (herun : e.runID = runID) (heid : e.signalID = some x.id) :
    s.acceptedEvent runID key = some e := by
  have hsignal : s.signals.rows.find? (fun x => x.runID = runID && x.idempotencyKey = key) = some x := by
    cases hfind : s.signals.rows.find? fun x => x.runID = runID && x.idempotencyKey = key with
    | none => simpa [hrun, hkey] using find?_eq_none.mp hfind x hx
    | some y =>
      have hfound : y.runID = runID ∧ y.idempotencyKey = key := by simpa using find?_some hfind
      rw [hs.keyed y (mem_of_find?_eq_some hfind) x hx (hfound.1.trans hrun.symm)
        (hfound.2.trans hkey.symm)]
  unfold Store.acceptedEvent
  rw [hsignal, Option.bind_some]
  cases hfind : s.events.rows.find? fun e => e.runID = runID && e.signalID = some x.id with
  | none => simpa [herun, heid] using find?_eq_none.mp hfind e he
  | some y =>
    have hfound : y.runID = runID ∧ y.signalID = some x.id := by simpa using find?_some hfind
    rw [hs.event y (mem_of_find?_eq_some hfind) e he x.id hfound.2 heid]

/-- Signals and events are never changed nor removed. -/
structure Store.Recalls (s t : Store) : Prop where
  signals : s.signals.rows ⊆ t.signals.rows
  events : s.events.rows ⊆ t.events.rows

theorem Store.Recalls.refl (s : Store) : s.Recalls s := ⟨List.Subset.refl _, List.Subset.refl _⟩

theorem Store.Recalls.trans (s t u : Store) (h : s.Recalls t) (h' : t.Recalls u) : s.Recalls u :=
  ⟨List.Subset.trans h.signals h'.signals, List.Subset.trans h.events h'.events⟩

theorem commits_recalled (h : Serves dep request response s t) :
    s.Recalls t := by
  cases commits_journals h with
  | keep hjournal =>
    obtain ⟨_, hevents, hsignals⟩ := Store.journal_eq.mp hjournal
    exact ⟨hsignals ▸ List.Subset.refl _, hevents ▸ List.Subset.refl _⟩
  | admission _ _ _ _ _ _ henters =>
    exact ⟨henters.signals_eq ▸ List.Subset.refl _, henters.events_eq ▸ subset_append_left _ _⟩
  | move _ _ _ hadvances =>
    exact ⟨fun x hx => hadvances.signals.mem.mpr (Or.inl hx),
      hadvances.events_eq ▸ subset_append_left _ _⟩

/-- The call and its retry: for the same run, under the same key, with the same content and the same expected
version, each with identifiers and a time of its own. -/
structure RunSignalSubmission.Retries (retry signal : RunSignalSubmission) : Prop where
  tenantID : retry.tenantID = signal.tenantID
  runID : retry.runID = signal.runID
  idempotencyKey : retry.idempotencyKey = signal.idempotencyKey
  actorPrincipalID : retry.actorPrincipalID = signal.actorPrincipalID
  content : retry.content = signal.content
  expectedStateVersion : retry.expectedStateVersion = signal.expectedStateVersion

variable {event : RunEvent} {evidence : RunSignalEvidence} {signal : RunSignalSubmission}

/-- The event that a call was answered with is found again ever after. -/
theorem commits_accepted
    (h : storeEngine.Commits (program dep) (.appendRunSignal signal evidence) (.signalled event) s t) :
    ∃ x ∈ t.signals.rows, x.SharesKey signal ∧ event ∈ t.events.rows ∧ event.runID = signal.runID ∧
      event.signalID = some x.id := by
  obtain ⟨_, hexec⟩ := h
  obtain ⟨_, hbody, hevent⟩ := exec_respond hexec
  cases hevent
  obtain ⟨run, _, _, _, _, ⟨x, hx, hxrun, hxkey, he, herun, heid, rfl⟩ | ⟨hnew, _, hadvances⟩⟩ :=
    advances_appendRunSignal (.signalled event) hbody
  · exact ⟨x, hx, ⟨hxrun, hxkey⟩, he, herun, heid⟩
  · refine ⟨signal.row, hadvances.signals.mem.mpr (Or.inr rfl), ⟨rfl, rfl⟩, ?_, ?_, ?_⟩
    · rw [hadvances.events_eq]
      exact mem_append_right _ mem_cons_self
    · rw [hnew]
      rfl
    · rw [hnew]
      rfl

/-- A call whose signal is stored changes nothing and is answered with the event of the stored one. -/
theorem commits_replayed (hs : Signalled s)
    (hx : x ∈ s.signals.rows) (hkey : x.SharesKey signal)
    (he : event ∈ s.events.rows) (heid : event.signalID = some x.id)
    (h : storeEngine.Commits (program dep) (.appendRunSignal signal evidence) response s t) :
    response = .signalled event ∧ t = s := by
  obtain ⟨_, hexec⟩ := h
  obtain ⟨_, hbody, rfl⟩ := exec_respond hexec
  obtain ⟨run, _, _, _, _, ⟨y, hy, hyrun, hykey, he', _, heid', rfl⟩ | ⟨_, _, hadvances⟩⟩ :=
    advances_appendRunSignal .done hbody
  · have hsame : y = x := hs.keyed y hy x hx (hyrun.trans hkey.1.symm) (hykey.trans hkey.2.symm)
    subst hsame
    rw [hs.event _ he' event he y.id heid' heid]
    exact ⟨rfl, rfl⟩
  · exact absurd hkey (hadvances.signals.1 x hx).2

/-- Run alone, such a call gets to the stored event when the run has not ended and has the version that the
call expects. -/
theorem run_appendRunSignal_replay {r : Run}
    (htenant : signal.tenantID = dep.tenantID) (hvalid : signal.validate = .ok ())
    (hevidence : evidence.valid = true) (hr : s.runs.get signal.runID = some r)
    (hactive : r.state.terminal = false)
    (hversion : signal.expectedStateVersion.all (· = r.stateVersion) = true)
    (hstored : s.acceptedEvent signal.runID signal.idempotencyKey = some event) :
    storeEngine.run (appendRunSignal dep signal evidence) s = .ok (event, s) := by
  obtain ⟨x, hx, he⟩ := Option.bind_eq_some_iff.mp hstored
  have hbody : storeEngine.run (.ofExcept signal.validate : Op Unit) s = .ok ((), s) := by
    rw [hvalid]
    rfl
  unfold appendRunSignal
  refine (run_bind_of_run (run_require htenant)).trans ((run_bind_of_run hbody).trans
    ((run_bind_of_run (run_require hevidence)).trans ((run_bind_of_run
      (Handle.run_lock (H := runRows) hr rfl)).trans ((run_bind_of_run (run_require hactive)).trans
      ((run_bind_of_run (run_require hversion)).trans ((run_bind_of_run (run_snapshot _)).trans ?_))))))
  rw [hx]
  refine (run_bind_of_run (run_snapshot _)).trans ?_
  rw [he]
  rfl

/-- Once a call has been answered with an event, a retry gets to that event, and changes nothing, exactly when
the run has not ended and has the version that the caller expects; and every retry that commits later, beside
whatever else, is answered with it and changes nothing. -/
theorem signal_retries_iff {governor : Governor} (h : Reachable dep governor)
    {log₁ log₂ : List (Commit Store Response Request)} {c : Commit Store Response Request}
    (hlog : governor.log = log₁ ++ c :: log₂) {signal : RunSignalSubmission} {evidence : RunSignalEvidence}
    {event : RunEvent} (hrequest : c.request = .appendRunSignal signal evidence)
    (hresponse : c.response = .signalled event) :
    (∀ retry evidence' r, retry.Retries signal → retry.validate = .ok () → evidence'.valid = true →
      governor.committed.runs.get signal.runID = some r →
      (storeEngine.run (program dep (.appendRunSignal retry evidence')) governor.committed =
          .ok (.signalled event, governor.committed) ↔
        r.state.terminal = false ∧ signal.expectedStateVersion.all (· = r.stateVersion) = true)) ∧
    ∀ c' ∈ log₂, ∀ retry evidence', c'.request = .appendRunSignal retry evidence' →
      retry.Retries signal → c'.response = .signalled event ∧ c'.after = c'.before := by
  have hc : c ∈ governor.log := hlog ▸ mem_append_right _ mem_cons_self
  have hcommit := h.commits hc
  rw [hrequest, hresponse] at hcommit
  obtain ⟨x, hx, hkey, he, herun, heid⟩ := commits_accepted hcommit
  have hrecalled : ∀ c' ∈ log₂, c'.before.Recalls c'.after := fun c' hc' => commits_recalled
    (h.commits (hlog ▸ mem_append_right _ (mem_cons_of_mem _ hc')))
  have hhistory : storeEngine.History (program dep) Store.empty (log₁ ++ c :: log₂) governor.committed :=
    hlog ▸ h.history
  refine ⟨fun retry evidence' r hretry hvalid hevidence hr => ?_,
    fun c' hc' retry evidence' hrequest' hretry => ?_⟩
  · obtain ⟨hsignals, hevents⟩ :=
      hhistory.since_commit Store.Recalls.refl Store.Recalls.trans hrecalled
    constructor
    · intro hrun
      obtain ⟨_, hexec⟩ := exec_of_run [] hrun
      obtain ⟨_, hbody, _⟩ := exec_respond hexec
      obtain ⟨run, hget, hid, hactive, hversion, _⟩ := advances_appendRunSignal .done hbody
      rw [hid, hretry.runID] at hget
      cases hr.symm.trans hget
      exact ⟨hactive, hretry.expectedStateVersion ▸ hversion⟩
    · rintro ⟨hactive, hversion⟩
      obtain ⟨_, hexec⟩ := hcommit
      obtain ⟨_, hbody, _⟩ := exec_respond hexec
      obtain ⟨_, _, _, htenant, _⟩ := exec_bind.mp hbody
      have hreplay := run_appendRunSignal_replay (hretry.tenantID.trans (exec_require.mp htenant).1) hvalid
        hevidence (hretry.runID ▸ hr) hactive (hretry.expectedStateVersion ▸ hversion)
        (Store.acceptedEvent_eq h.signalled.1 (hsignals hx) (hkey.1.trans hretry.runID.symm)
          (hkey.2.trans hretry.idempotencyKey.symm) (hevents he) (herun.trans hretry.runID.symm) heid)
      exact run_bind_of_run hreplay
  · have hc'log : c' ∈ governor.log := hlog ▸ mem_append_right _ (mem_cons_of_mem _ hc')
    obtain ⟨log₃, log₄, rfl⟩ := append_of_mem hc'
    obtain ⟨hsignals, hevents⟩ := hhistory.between Store.Recalls.refl Store.Recalls.trans
      fun y hy => hrecalled y (mem_append_left _ hy)
    have hcommit' := h.commits hc'log
    rw [hrequest'] at hcommit'
    exact commits_replayed (h.signalled.2 c' hc'log).1 (hsignals hx)
      ⟨hkey.1.trans hretry.runID.symm, hkey.2.trans hretry.idempotencyKey.symm⟩ (hevents he) heid hcommit'

namespace Sample

/-- The commit accepts the pause. -/
def pauses (c : Commit Store Response Request) : Bool :=
  match c.request, c.response with
  | .appendRunSignal signal _, .signalled _ => signal = pause 800 120
  | _, _ => false

/-- The same pause is sent again, after a hundred seconds. -/
def pauseAgain : Request := .appendRunSignal (pause 820 220) (signalEvidence 820)

theorem pause_retries : (pause 820 220).Retries (pause 800 120) := ⟨rfl, rfl, rfl, rfl, rfl, rfl⟩

theorem paused_evaluated :
    ((after paused).log.any pauses = true ∧
      ((after paused).committed.runs.get (.ofNat 100)).any (!·.state.terminal) = true) ∧
    (after (paused ++ [complete 100])).log.any pauses = true ∧
      (match storeEngine.run (program deployment pauseAgain)
          (after (paused ++ [complete 100])).committed with
        | .ok _ => false
        | .error error => error = conflict "terminal run cannot accept signals") = true := by
  decide +kernel

end Sample

theorem signal_retries_paused : ∃ event, storeEngine.run (program deployment pauseAgain)
    (after paused).committed =
      .ok (.signalled event, (after paused).committed) := by
  obtain ⟨⟨hlog, hrow⟩, _⟩ := paused_evaluated
  obtain ⟨c, hc, hpauses⟩ := List.any_eq_true.mp hlog
  obtain ⟨r, hr, hactive⟩ := (Option.any_eq_true _ _).mp hrow
  obtain ⟨log₁, log₂, hsplit⟩ := append_of_mem hc
  unfold pauses at hpauses
  split at hpauses
  · rename_i signal evidence event hrequest hresponse
    cases of_decide_eq_true hpauses
    have hretries := (signal_retries_iff (reachable _) hsplit hrequest hresponse).1
    exact ⟨event, (hretries _ (signalEvidence 820) r pause_retries (by decide) (by decide)
      hr).mpr ⟨by simpa using hactive, rfl⟩⟩
  · cases hpauses

/-- The run completes, and the caller that sends its pause again is not told that it was accepted. -/
theorem signal_retry_fails :
    Reachable deployment (after (paused ++ [complete 100])) ∧
    (∃ c ∈ (after (paused ++ [complete 100])).log, ∃ evidence event,
      c.request = .appendRunSignal (pause 800 120) evidence ∧ c.response = .signalled event) ∧
    (pause 820 220).Retries (pause 800 120) ∧
    ∀ response t, storeEngine.run (program deployment pauseAgain)
      (after (paused ++ [complete 100])).committed ≠ .ok (response, t) := by
  obtain ⟨_, hlog, hrefused⟩ := paused_evaluated
  refine ⟨reachable _, ?_, pause_retries, fun response t hrun => ?_⟩
  · obtain ⟨c, hc, hpauses⟩ := List.any_eq_true.mp hlog
    unfold pauses at hpauses
    split at hpauses
    · rename_i signal evidence event hrequest hresponse
      cases of_decide_eq_true hpauses
      exact ⟨c, hc, evidence, event, hrequest, hresponse⟩
    · cases hpauses
  · rw [hrun] at hrefused
    cases hrefused

end AgentGovernor
