import AgentGovernor.StoreLifecycle

/-! The stream of the events of a run. A client polls with the sequence it received last; the call reads the
bounds of the stored log in one statement and the next events in another, and a client that starts reads both
again from the oldest retained event. Every statement sees the committed state of its own moment. -/

namespace AgentGovernor

open Ledger Transaction Sample
open List hiding after

variable {dep : Deployment} {request : Request} {response : Response} {s t : Store} {runID : ID}

/-! ### The repository -/

/-- What the stream returns of an event has an identifier, a run, a number, a name and a time. -/
def RunEvent.validate (event : RunEvent) : Except Failure Unit :=
  if event.id.isZero ∨ event.runID.isZero ∨ event.sequence < 1 ∨ !signalNamePattern event.eventType ∨
      (Time.ofStored event.occurredAt).isZero then .error (.plain "run event is invalid")
  else match requireUTC (.ofStored event.occurredAt) with
    | .error _ => .error (.plain "run event time is invalid")
    | .ok _ => .ok ()

structure RunEventWindow where
  oldestRetained : Int
  latest : Int
  events : List RunEvent
  deriving DecidableEq

/-- `ORDER BY sequence`. -/
def Store.eventLog (s : Store) (runID : ID) : List RunEvent :=
  (s.eventsOf runID).insertionSort fun a b => a.sequence ≤ b.sequence

/-- `COALESCE(min(sequence),0)`. -/
def Store.oldestSequence (s : Store) (runID : ID) : Int :=
  ((s.eventsOf runID).map (·.sequence)).min?.getD 0

/-- `bounds` is what the statement about the log sees, `rows` what the statement that lists events sees. -/
def listRunEvents (bounds rows : Store) (runID : ID) (after limit : Int) : Except Failure RunEventWindow :=
  if runID.isZero ∨ after < 0 ∨ limit < 1 ∨ 256 < limit then .error (.plain "invalid run event query")
  else if (bounds.runs.get runID).isNone then .error (.domain .notFound "run not found")
  else .ok ⟨bounds.oldestSequence runID, bounds.lastSequence runID,
    ((rows.eventLog runID).filter (after < ·.sequence)).take limit.toNat⟩

/-! ### The service -/

def runNotFound : Failure → Failure
  | .domain .notFound _ => .domain .notFound "run not found"
  | failure => failure

def errRunEventCursorGone : Failure := .plain "run event cursor is outside retention"

/-- The number of events that are retained is positive. -/
structure RunEventStream where
  retain : Int
  retain_pos : 1 ≤ retain

/-- The committed states that the statements of one call see: of the first query, and of the second one for a
client that starts. -/
structure EventReads where
  bounds : Store
  rows : Store
  restartBounds : Store
  restartRows : Store

def EventReads.states (reads : EventReads) : List Store :=
  [reads.bounds, reads.rows, reads.restartBounds, reads.restartRows]

/-- Every event up to the floor is outside the window. -/
def RunEventStream.retentionFloor (stream : RunEventStream) (window : RunEventWindow) : Int :=
  let retentionFloor := if window.latest - stream.retain < 0 then 0 else window.latest - stream.retain
  let physicalFloor := window.oldestRetained - 1
  if retentionFloor < physicalFloor then physicalFloor else retentionFloor

def checkOrdering (runID : ID) : Int → List RunEvent → Except Failure Unit
  | _, [] => .ok ()
  | previous, event :: events =>
    if event.validate ≠ .ok () ∨ event.runID ≠ runID ∨ event.sequence ≤ previous then
      .error (.domain .internal "run event repository returned invalid ordering")
    else checkOrdering runID event.sequence events

def RunEventStream.events (stream : RunEventStream) (reads : EventReads) (runID : ID) (after limit : Int) :
    Except Failure (List RunEvent) :=
  if runID.isZero ∨ after < 0 ∨ limit < 1 ∨ 256 < limit then
    .error (.domain .invalidArgument "run event request is invalid")
  else do
    let first ← (listRunEvents reads.bounds reads.rows runID after limit).mapError runNotFound
    let floor := stream.retentionFloor first
    -- A client without a cursor starts at the oldest retained event; a cursor has to be in the window.
    let window ← if after = 0 ∧ 0 < floor then
        (listRunEvents reads.restartBounds reads.restartRows runID floor limit).mapError runNotFound
      else if after < floor then .error errRunEventCursorGone
      else .ok first
    checkOrdering runID (if after < floor then floor else after) window.events
    return window.events

/-- The handler: every poll asks for what follows the event that was sent last, and an error ends the stream. -/
def RunEventStream.follow (stream : RunEventStream) (runID : ID) (limit : Int) :
    Int → List EventReads → List RunEvent × Option Failure
  | _, [] => ([], none)
  | after, reads :: polls =>
    match stream.events reads runID after limit with
    | .error failure => ([], some failure)
    | .ok events =>
      let rest := stream.follow runID limit (events.foldl (fun _ event => event.sequence) after) polls
      (events ++ rest.1, rest.2)

/-! ### Consecutive numbers -/

theorem Numbered.mem_sequence {last : Int} {events : List RunEvent} (h : Numbered runID last events) {n : Int} :
    (∃ e ∈ events, e.sequence = n) ↔ last < n ∧ n ≤ last + events.length := by
  have hmap := h.sequences.2
  have hmem : (∃ e ∈ events, e.sequence = n) ↔ n ∈ events.map (·.sequence) := List.mem_map.symm
  rw [hmem, hmap, List.mem_map]
  constructor
  · rintro ⟨k, hk, rfl⟩
    have hlt := mem_range.mp hk
    omega
  · rintro ⟨hlt, hle⟩
    exact ⟨(n - last - 1).toNat, mem_range.mpr (by omega), by omega⟩

theorem Numbered.pairwise {last : Int} {events : List RunEvent} (h : Numbered runID last events) :
    events.Pairwise fun a b => a.sequence ≤ b.sequence := by
  induction events generalizing last with
  | nil => exact List.Pairwise.nil
  | cons e events ih =>
    obtain ⟨_, hsequence, hrest⟩ := h
    refine List.Pairwise.cons (fun x hx => ?_) (ih hrest)
    have hlt := (hrest.mem_sequence.mp ⟨x, hx, rfl⟩).1
    omega

/-- What follows a number in a log is what is left without its first events. -/
theorem Numbered.filter_after {last after : Int} {events : List RunEvent} (h : Numbered runID last events) :
    events.filter (after < ·.sequence) = events.drop (after - last).toNat := by
  induction events generalizing last with
  | nil => simp
  | cons e events ih =>
    obtain ⟨hid, hsequence, hrest⟩ := h
    by_cases hafter : after < e.sequence
    · have hzero : (after - last).toNat = 0 := by omega
      rw [hzero, drop_zero]
      refine filter_eq_self.mpr (forall_mem_cons.mpr ⟨decide_eq_true hafter, fun x hx => ?_⟩)
      have hlt := (hrest.mem_sequence.mp ⟨x, hx, rfl⟩).1
      exact decide_eq_true (by omega)
    · have hsucc : (after - last).toNat = (after - (last + 1)).toNat + 1 := by omega
      rw [hsucc, drop_succ_cons, filter_cons_of_neg (by simpa using hafter), ih hrest]

theorem Numbered.drop {last : Int} {events : List RunEvent} (h : Numbered runID last events) {n : Nat}
    (hn : n ≤ events.length) : Numbered runID (last + n) (events.drop n) := by
  induction n generalizing last events with
  | zero => simpa using h
  | succ n ih =>
    cases events with
    | nil => cases hn
    | cons e events =>
      have hrest := ih h.2.2 (Nat.le_of_succ_le_succ hn)
      rw [drop_succ_cons, show last + ((n + 1 : Nat) : Int) = last + 1 + n by omega]
      exact hrest

theorem Numbered.take {last : Int} {events : List RunEvent} (h : Numbered runID last events) (n : Nat) :
    Numbered runID last (events.take n) := by
  induction n generalizing last events with
  | zero => rw [take_zero]; trivial
  | succ n ih =>
    cases events with
    | nil => trivial
    | cons e events => exact ⟨h.1, h.2.1, ih h.2.2⟩

theorem Numbered.append {last : Int} {events more : List RunEvent} (h : Numbered runID last events)
    (hmore : Numbered runID (last + events.length) more) : Numbered runID last (events ++ more) := by
  induction events generalizing last with
  | nil => simpa using hmore
  | cons e events ih =>
    refine ⟨h.1, h.2.1, ih h.2.2 ?_⟩
    rw [length_cons] at hmore
    rwa [show last + 1 + (events.length : Int) = last + ((events.length + 1 : Nat) : Int) by omega]

/-- The cursor after a batch. -/
theorem Numbered.cursor {last : Int} {events : List RunEvent} (h : Numbered runID last events) :
    events.foldl (fun _ event => event.sequence) last = last + events.length := by
  induction events generalizing last with
  | nil => simp
  | cons e events ih =>
    obtain ⟨_, hsequence, hrest⟩ := h
    rw [foldl_cons, hsequence, ih hrest, length_cons]
    omega

/-! ### Logs -/

/-- The run exists, and its stored events are valid and numbered without a hole. -/
structure Store.Contiguous (s : Store) (runID : ID) : Prop where
  run : (s.runs.get runID).isSome = true
  log : ∃ removed, 0 ≤ removed ∧ Numbered runID removed (s.eventLog runID)
  valid : ∀ e ∈ s.eventLog runID, e.validate = .ok ()

/-- Events were appended under the next numbers. -/
def Store.Grows (runID : ID) (s t : Store) : Prop :=
  ∃ events, t.eventLog runID = s.eventLog runID ++ events ∧ Numbered runID (s.lastSequence runID) events

/-- The number of an event of the run that is older than the newest retained ones or whose row was removed. -/
def RunEventStream.Outside (stream : RunEventStream) (s : Store) (runID : ID) (n : Int) : Prop :=
  1 ≤ n ∧ n ≤ s.lastSequence runID ∧
    (n ≤ s.lastSequence runID - stream.retain ∨ ∀ e ∈ s.eventLog runID, e.sequence ≠ n)

/-- The oldest event that is inside the window. -/
structure RunEventStream.Oldest (stream : RunEventStream) (s : Store) (runID : ID) (e : RunEvent) : Prop where
  mem : e ∈ s.eventLog runID
  inside : ¬stream.Outside s runID e.sequence
  oldest : ∀ x ∈ s.eventLog runID, ¬stream.Outside s runID x.sequence → e.sequence ≤ x.sequence

theorem mem_eventLog {e : RunEvent} : e ∈ s.eventLog runID ↔ e ∈ s.eventsOf runID :=
  mem_insertionSort _

/-- The bounds of a log with these events removed. -/
theorem bounds_of_numbered {removed : Int} (hremoved : 0 ≤ removed)
    (h : Numbered runID removed (s.eventLog runID)) :
    (s.eventLog runID = [] ∧ s.oldestSequence runID = 0 ∧ s.lastSequence runID = 0) ∨
    (s.eventLog runID ≠ [] ∧ s.oldestSequence runID = removed + 1 ∧
      s.lastSequence runID = removed + (s.eventLog runID).length) := by
  obtain ⟨hzero, hall, hmax⟩ := foldl_max_spec (s.eventsOf runID) 0
  change 0 ≤ s.lastSequence runID at hzero
  change ∀ e ∈ s.eventsOf runID, e.sequence ≤ s.lastSequence runID at hall
  change s.lastSequence runID = 0 ∨ ∃ e ∈ s.eventsOf runID, e.sequence = s.lastSequence runID at hmax
  simp only [← mem_eventLog] at hall hmax
  by_cases hnil : s.eventLog runID = []
  · refine Or.inl ⟨hnil, ?_, ?_⟩
    · have hrows : s.eventsOf runID = [] := eq_nil_iff_forall_not_mem.mpr fun e he => by
        have hlog := mem_eventLog.mpr he
        rw [hnil] at hlog
        cases hlog
      rw [Store.oldestSequence, hrows]
      rfl
    · rcases hmax with hmax | ⟨e, he, _⟩
      · exact hmax
      · rw [hnil] at he
        cases he
  · have hpos := length_pos_iff.mpr hnil
    refine Or.inr ⟨hnil, ?_, ?_⟩
    · have hmin : ((s.eventsOf runID).map (·.sequence)).min? = some (removed + 1) := by
        rw [min?_eq_some_iff]
        constructor
        · obtain ⟨e, he, hsequence⟩ := h.mem_sequence.mpr
            (show removed < removed + 1 ∧ removed + 1 ≤ removed + (s.eventLog runID).length by omega)
          exact List.mem_map.mpr ⟨e, mem_eventLog.mp he, hsequence⟩
        · intro n hn
          obtain ⟨e, he, rfl⟩ := List.mem_map.mp hn
          have hlt := (h.mem_sequence.mp ⟨e, mem_eventLog.mpr he, rfl⟩).1
          omega
      rw [Store.oldestSequence, hmin]
      rfl
    · obtain ⟨e, he, hlast⟩ := h.mem_sequence.mpr
        (show removed < removed + (s.eventLog runID).length ∧
          removed + (s.eventLog runID).length ≤ removed + (s.eventLog runID).length by omega)
      have hge := hall e he
      rcases hmax with hmax | ⟨x, hx, hmax⟩
      · omega
      · have hle := (h.mem_sequence.mp ⟨x, hx, rfl⟩).2
        omega

theorem Numbered.mem_take {last : Int} {events : List RunEvent} (h : Numbered runID last events) {n : Nat}
    {e : RunEvent} : e ∈ events.take n ↔ e ∈ events ∧ e.sequence ≤ last + n := by
  induction n generalizing last events with
  | zero =>
    rw [take_zero]
    refine ⟨fun he => (not_mem_nil he).elim, fun ⟨he, hle⟩ => ?_⟩
    have hlt := (h.mem_sequence.mp ⟨e, he, rfl⟩).1
    omega
  | succ n ih =>
    cases events with
    | nil => simp
    | cons x events =>
      obtain ⟨_, hsequence, hrest⟩ := h
      rw [take_succ_cons, mem_cons, mem_cons, ih hrest]
      constructor
      · rintro (rfl | ⟨he, hle⟩)
        · exact ⟨Or.inl rfl, by omega⟩
        · exact ⟨Or.inr he, by omega⟩
      · rintro ⟨rfl | he, hle⟩
        · exact Or.inl rfl
        · exact Or.inr ⟨he, by omega⟩

/-- The floor that the bounds of the stored log give. -/
def RunEventStream.floor (stream : RunEventStream) (s : Store) (runID : ID) : Int :=
  stream.retentionFloor ⟨s.oldestSequence runID, s.lastSequence runID, []⟩

/-- The floor of a log: nothing of an empty one is outside, and the newest event of another one is inside. -/
theorem floor_of_numbered (stream : RunEventStream) {removed : Int} (hremoved : 0 ≤ removed)
    (h : Numbered runID removed (s.eventLog runID)) :
    (s.eventLog runID = [] ∧ s.lastSequence runID = 0 ∧ stream.floor s runID = 0) ∨
    (s.eventLog runID ≠ [] ∧ s.lastSequence runID = removed + (s.eventLog runID).length ∧
      removed ≤ stream.floor s runID ∧ s.lastSequence runID - stream.retain ≤ stream.floor s runID ∧
      stream.floor s runID < s.lastSequence runID ∧ 0 ≤ stream.floor s runID ∧
      (stream.floor s runID = removed ∨ stream.floor s runID = s.lastSequence runID - stream.retain)) := by
  have hretain := stream.retain_pos
  rcases bounds_of_numbered hremoved h with ⟨hnil, holdest, hlast⟩ | ⟨hnil, holdest, hlast⟩
  · refine Or.inl ⟨hnil, hlast, ?_⟩
    simp only [RunEventStream.floor, RunEventStream.retentionFloor, holdest, hlast]
    split_ifs <;> omega
  · have hpos := length_pos_iff.mpr hnil
    refine Or.inr ⟨hnil, hlast, ?_⟩
    simp only [RunEventStream.floor, RunEventStream.retentionFloor, holdest]
    split_ifs <;> omega

/-- The floor divides the numbers of the run into those outside and those inside the window. -/
theorem Store.Contiguous.outside_iff (hs : s.Contiguous runID) (stream : RunEventStream) {n : Int} :
    stream.Outside s runID n ↔ 1 ≤ n ∧ n ≤ stream.floor s runID := by
  obtain ⟨removed, hremoved, hlog⟩ := hs.log
  have hrow : (∀ e ∈ s.eventLog runID, e.sequence ≠ n) ↔
      ¬(removed < n ∧ n ≤ removed + (s.eventLog runID).length) := by
    rw [← hlog.mem_sequence]
    simp only [not_exists, not_and, ne_eq]
  unfold RunEventStream.Outside
  rw [hrow]
  rcases floor_of_numbered stream hremoved hlog with ⟨_, hlast, hfloor⟩ | ⟨_, hlast, hfloor⟩
  · omega
  · omega

/-- A later log is numbered as well, from no later than the floor of the earlier one. -/
theorem Store.Contiguous.grown (hs : s.Contiguous runID) (hgrows : s.Grows runID t) (stream : RunEventStream) :
    ∃ removed, removed ≤ stream.floor s runID ∧ Numbered runID removed (t.eventLog runID) := by
  obtain ⟨removed, hremoved, hlog⟩ := hs.log
  obtain ⟨events, happend, hevents⟩ := hgrows
  rcases floor_of_numbered stream hremoved hlog with ⟨hnil, hlast, hfloor⟩ | ⟨_, hlast, hle, _⟩
  · refine ⟨0, hfloor.ge, ?_⟩
    rw [happend, hnil, nil_append, ← hlast]
    exact hevents
  · refine ⟨removed, hle, ?_⟩
    rw [happend]
    exact hlog.append (hlast ▸ hevents)

/-- What follows a number that is not below the floor. -/
theorem Store.Contiguous.numbered_after (hs : s.Contiguous runID) (hgrows : s.Grows runID t)
    {stream : RunEventStream} {start : Int} (hstart : stream.floor s runID ≤ start) :
    Numbered runID start ((t.eventLog runID).filter (start < ·.sequence)) := by
  obtain ⟨removed, hle, hlog⟩ := hs.grown hgrows stream
  rw [hlog.filter_after]
  rcases le_total (start - removed).toNat (t.eventLog runID).length with hk | hk
  · have hdrop := hlog.drop hk
    rwa [show removed + ((start - removed).toNat : Int) = start by omega] at hdrop
  · rw [drop_eq_nil_of_le hk]
    trivial

/-! ### One call -/

theorem checkOrdering_of_numbered {last : Int} {events : List RunEvent} (h : Numbered runID last events)
    (hvalid : ∀ e ∈ events, e.validate = .ok ()) : checkOrdering runID last events = .ok () := by
  induction events generalizing last with
  | nil => rfl
  | cons e events ih =>
    obtain ⟨hid, hsequence, hrest⟩ := h
    obtain ⟨he, hvalid⟩ := forall_mem_cons.mp hvalid
    rw [checkOrdering, if_neg (by simp [he, hid, hsequence]), hsequence]
    exact ih hrest hvalid

/-- The states of one call show a contiguous log that only grows. -/
structure EventReads.Growing (reads : EventReads) (runID : ID) : Prop where
  contiguous : ∀ s ∈ reads.states, s.Contiguous runID
  grows : reads.states.Pairwise (Store.Grows runID)

/-- The state from which the events of the answer come. -/
def EventReads.source (reads : EventReads) (stream : RunEventStream) (runID : ID) (after : Int) : Store :=
  if after = 0 ∧ 0 < stream.floor reads.bounds runID then reads.restartRows else reads.rows

/-- The events that a call returns, if the cursor is not gone. -/
def RunEventStream.batch (stream : RunEventStream) (reads : EventReads) (runID : ID) (after limit : Int) :
    List RunEvent :=
  (((reads.source stream runID after).eventLog runID).filter
    (max after (stream.floor reads.bounds runID) < ·.sequence)).take limit.toNat

section call

variable {stream : RunEventStream} {reads : EventReads} {after limit : Int}

theorem EventReads.Growing.source (h : reads.Growing runID) (stream : RunEventStream) (after : Int) :
    reads.bounds.Contiguous runID ∧ (reads.source stream runID after).Contiguous runID ∧
      reads.bounds.Grows runID (reads.source stream runID after) := by
  obtain ⟨hcontiguous, hgrows⟩ := h
  simp only [EventReads.states, mem_cons, not_mem_nil, or_false, forall_eq_or_imp, forall_eq]
    at hcontiguous
  simp only [EventReads.states, pairwise_cons, mem_cons, not_mem_nil, or_false,
    forall_eq_or_imp, forall_eq] at hgrows
  refine ⟨hcontiguous.1, ?_⟩
  unfold EventReads.source
  split_ifs
  · exact ⟨hcontiguous.2.2.2, hgrows.1.2.2⟩
  · exact ⟨hcontiguous.2.1, hgrows.1.1⟩

theorem EventReads.Growing.numbered (h : reads.Growing runID) (stream : RunEventStream) (after : Int) :
    Numbered runID (max after (stream.floor reads.bounds runID))
      (((reads.source stream runID after).eventLog runID).filter
        (max after (stream.floor reads.bounds runID) < ·.sequence)) :=
  let ⟨hbounds, _, hgrows⟩ := h.source stream after
  hbounds.numbered_after hgrows (le_max_right _ _)

/-- A call fails only for a cursor below the floor, and otherwise returns the next events. -/
theorem EventReads.Growing.events_eq (h : reads.Growing runID) (hrun : runID.isZero = false)
    (hlimit : 1 ≤ limit ∧ limit ≤ 256) (hafter : 0 ≤ after) :
    stream.events reads runID after limit =
      if 0 < after ∧ after < stream.floor reads.bounds runID then .error errRunEventCursorGone
      else .ok (stream.batch reads runID after limit) := by
  have hlist : ∀ {bounds rows : Store} {start : Int}, bounds.Contiguous runID → 0 ≤ start →
      listRunEvents bounds rows runID start limit = .ok ⟨bounds.oldestSequence runID,
        bounds.lastSequence runID, ((rows.eventLog runID).filter (start < ·.sequence)).take limit.toNat⟩ := by
    intro bounds rows start hbounds hstart
    have hsome : (bounds.runs.get runID).isNone = false := by
      rw [← Option.not_isSome, hbounds.run]
      rfl
    rw [listRunEvents, if_neg (by simp only [hrun, Bool.false_eq_true, false_or]; omega),
      if_neg (by rw [hsome]; exact Bool.false_ne_true)]
  have hordering : checkOrdering runID (max after (stream.floor reads.bounds runID))
      (stream.batch reads runID after limit) = .ok () :=
    checkOrdering_of_numbered ((h.numbered stream after).take _) fun e he =>
      (h.source stream after).2.1.valid e (mem_of_mem_filter (mem_of_mem_take he))
  have hbounds : reads.bounds.Contiguous runID := h.contiguous _ (by simp [EventReads.states])
  have hrestart : reads.restartBounds.Contiguous runID := h.contiguous _ (by simp [EventReads.states])
  have hfloor : stream.retentionFloor ⟨reads.bounds.oldestSequence runID, reads.bounds.lastSequence runID,
      ((reads.rows.eventLog runID).filter (after < ·.sequence)).take limit.toNat⟩ =
        stream.floor reads.bounds runID := rfl
  have hprevious : (if after < stream.floor reads.bounds runID then stream.floor reads.bounds runID
      else after) = max after (stream.floor reads.bounds runID) := by
    split_ifs <;> omega
  unfold RunEventStream.events
  rw [if_neg (by simp only [hrun, Bool.false_eq_true, false_or]; omega), hlist hbounds hafter]
  simp only [Except.mapError, Except.bind, bind, hfloor, hprevious]
  by_cases hstart : after = 0 ∧ 0 < stream.floor reads.bounds runID
  · have hbatch : stream.batch reads runID after limit = ((reads.restartRows.eventLog runID).filter
        (stream.floor reads.bounds runID < ·.sequence)).take limit.toNat := by
      rw [RunEventStream.batch, EventReads.source, if_pos hstart, max_eq_right (by omega)]
    rw [if_pos hstart, hlist hrestart hstart.2.le, ← hbatch, if_neg (by omega)]
    dsimp only
    rw [hordering]
    rfl
  · by_cases hgone : after < stream.floor reads.bounds runID
    · rw [if_neg hstart, if_pos hgone, if_pos (by omega)]
    · have hbatch : stream.batch reads runID after limit = ((reads.rows.eventLog runID).filter
          (after < ·.sequence)).take limit.toNat := by
        rw [RunEventStream.batch, EventReads.source, if_neg hstart, max_eq_left (by omega)]
      rw [if_neg hstart, if_neg hgone, ← hbatch, if_neg (by omega), hordering]
      rfl

/-- A call from the beginning returns the oldest event of the window first. -/
theorem EventReads.Growing.oldest (h : reads.Growing runID) (stream : RunEventStream) (hlimit : 1 ≤ limit)
    (hnonempty : reads.bounds.eventLog runID ≠ []) :
    ∃ e, stream.Oldest reads.bounds runID e ∧ e.sequence = stream.floor reads.bounds runID + 1 ∧
      (stream.batch reads runID 0 limit).head? = some e := by
  obtain ⟨hbounds, _, more, happend, _⟩ := h.source stream 0
  obtain ⟨removed, hremoved, hlog⟩ := hbounds.log
  rcases floor_of_numbered stream hremoved hlog with ⟨hnil, _⟩ | ⟨_, hlast, hle, _, hlt, hpos, _⟩
  · exact (hnonempty hnil).elim
  · obtain ⟨e, he, hsequence⟩ := hlog.mem_sequence.mpr
      (show removed < stream.floor reads.bounds runID + 1 ∧ stream.floor reads.bounds runID + 1 ≤
        removed + (reads.bounds.eventLog runID).length by omega)
    refine ⟨e, ⟨he, ?_, fun x hx hinside => ?_⟩, hsequence, ?_⟩
    · rw [hbounds.outside_iff]
      omega
    · rw [hbounds.outside_iff] at hinside
      have hfirst := (hlog.mem_sequence.mp ⟨x, hx, rfl⟩).1
      omega
    · have hnumbered := h.numbered stream 0
      have hmem : e ∈ (((reads.source stream runID 0).eventLog runID).filter
          (max 0 (stream.floor reads.bounds runID) < ·.sequence)).take 1 := by
        refine hnumbered.mem_take.mpr ⟨mem_filter.mpr ⟨?_, decide_eq_true ?_⟩, ?_⟩
        · rw [happend]
          exact mem_append_left _ he
        · omega
        · rw [Nat.cast_one]
          omega
      rw [RunEventStream.batch, head?_take, if_neg (by omega)]
      cases hfiltered : ((reads.source stream runID 0).eventLog runID).filter
          (max 0 (stream.floor reads.bounds runID) < ·.sequence) with
      | nil =>
        rw [hfiltered] at hmem
        cases hmem
      | cons x rest =>
        rw [hfiltered, take_succ_cons, take_zero, mem_singleton] at hmem
        rw [head?_cons, hmem]

end call

/-! ### Every stream -/

/-- The polls of a stream see a contiguous log that only grows, one call after the other. -/
structure Polls (runID : ID) (polls : List EventReads) : Prop where
  contiguous : ∀ s ∈ polls.flatMap EventReads.states, s.Contiguous runID
  grows : (polls.flatMap EventReads.states).Pairwise (Store.Grows runID)

theorem Polls.growing {polls : List EventReads} (h : Polls runID polls) {reads : EventReads}
    (hreads : reads ∈ polls) : reads.Growing runID := by
  refine ⟨fun s hs => h.contiguous s (mem_flatMap_of_mem hreads hs), h.grows.sublist ?_⟩
  rw [flatMap_def]
  exact sublist_flatten_of_mem (List.mem_map_of_mem hreads)

theorem Polls.tail {reads : EventReads} {polls : List EventReads} (h : Polls runID (reads :: polls)) :
    Polls runID polls := by
  obtain ⟨hcontiguous, hgrows⟩ := h
  rw [flatMap_cons] at hcontiguous hgrows
  exact ⟨fun s hs => hcontiguous s (mem_append_right _ hs), (pairwise_append.mp hgrows).2.1⟩

/-- What one poll saw, the next one sees. -/
theorem Polls.next {reads next : EventReads} {polls : List EventReads}
    (h : Polls runID (reads :: next :: polls)) {e : RunEvent} (he : e ∈ reads.bounds.eventLog runID) :
    e ∈ next.bounds.eventLog runID := by
  have hgrows := h.grows
  rw [flatMap_cons, pairwise_append] at hgrows
  obtain ⟨more, happend, _⟩ := hgrows.2.2 reads.bounds (by simp [EventReads.states]) next.bounds
    (by simp [EventReads.states])
  rw [happend]
  exact mem_append_left _ he

/-- What a stream delivers: stored events of the run, each following the one before, and among them every event
of the log of the first poll that its polls leave room for. -/
structure RunEventStream.Delivers (stream : RunEventStream) (runID : ID) (limit : Int)
    (polls : List EventReads) (start : Int) (delivered : List RunEvent) (failure : Option Failure) : Prop where
  consecutive : Numbered runID start delivered
  stored : ∀ e ∈ delivered, ∃ s ∈ polls.flatMap EventReads.states, e ∈ s.eventLog runID
  complete : failure = none → ∀ reads ∈ polls.head?, ∀ e ∈ reads.bounds.eventLog runID,
    start < e.sequence → e.sequence ≤ start + limit * polls.length → e ∈ delivered

/-- A poll from a number that is not below its floor takes the first of the events that follow. -/
theorem RunEventStream.Delivers.cons {stream : RunEventStream} {limit after : Int} {reads : EventReads}
    {polls : List EventReads} {delivered : List RunEvent} {failure : Option Failure}
    (h : Polls runID (reads :: polls)) (hlimit : 1 ≤ limit)
    (hrest : stream.Delivers runID limit polls
      (max after (stream.floor reads.bounds runID) + (stream.batch reads runID after limit).length) delivered
      failure) :
    stream.Delivers runID limit (reads :: polls) (max after (stream.floor reads.bounds runID))
      (stream.batch reads runID after limit ++ delivered) failure := by
  have hgrowing := h.growing (mem_cons_self (a := reads) (l := polls))
  have hnumbered := hgrowing.numbered stream after
  obtain ⟨_, _, more, happend, _⟩ := hgrowing.source stream after
  refine ⟨(hnumbered.take _).append hrest.consecutive, fun e he => ?_, fun hnone first hfirst e he hlt hle => ?_⟩
  · rcases mem_append.mp he with he | he
    · refine ⟨reads.source stream runID after, ?_, mem_of_mem_filter (mem_of_mem_take he)⟩
      rw [flatMap_cons]
      refine mem_append_left _ ?_
      unfold EventReads.source
      split_ifs <;> simp [EventReads.states]
    · obtain ⟨s, hs, hstored⟩ := hrest.stored e he
      exact ⟨s, mem_flatMap.mpr (by
        obtain ⟨r, hr, hs⟩ := mem_flatMap.mp hs
        exact ⟨r, mem_cons_of_mem _ hr, hs⟩), hstored⟩
  · cases hfirst
    have hfollows : e ∈ ((reads.source stream runID after).eventLog runID).filter
        (max after (stream.floor reads.bounds runID) < ·.sequence) := by
      refine mem_filter.mpr ⟨?_, decide_eq_true hlt⟩
      rw [happend]
      exact mem_append_left _ he
    by_cases hbatch : e.sequence ≤ max after (stream.floor reads.bounds runID) + limit.toNat
    · exact mem_append_left _ (hnumbered.mem_take.mpr ⟨hfollows, hbatch⟩)
    · -- The batch is full, and the event is left to the next polls.
      have hcount := (hnumbered.mem_sequence.mp ⟨e, hfollows, rfl⟩).2
      have hfull : (stream.batch reads runID after limit).length = limit.toNat := by
        rw [RunEventStream.batch, length_take]
        omega
      rw [length_cons, Nat.cast_succ, mul_add, mul_one] at hle
      cases polls with
      | nil =>
        rw [length_nil, Nat.cast_zero, mul_zero] at hle
        omega
      | cons next polls =>
        refine mem_append_right _ (hrest.complete hnone next rfl e (h.next he) ?_ ?_)
        · rw [hfull]
          omega
        · rw [hfull]
          omega

theorem Polls.follow {polls : List EventReads} (h : Polls runID polls) (stream : RunEventStream)
    (hrun : runID.isZero = false) {limit : Int} (hlimit : 1 ≤ limit ∧ limit ≤ 256) {after : Int}
    (hafter : 0 ≤ after) :
    (∀ failure ∈ (stream.follow runID limit after polls).2, failure = errRunEventCursorGone) ∧
    ∃ start, (0 < after → start = after) ∧
      (after = 0 → ∀ reads ∈ polls.head?, reads.bounds.eventLog runID ≠ [] →
        start = stream.floor reads.bounds runID) ∧
      stream.Delivers runID limit polls start
        (stream.follow runID limit after polls).1 (stream.follow runID limit after polls).2 := by
  induction polls generalizing after with
  | nil =>
    refine ⟨fun failure hfailure => ?_, after, fun _ => rfl, fun _ reads hreads => ?_, trivial,
      fun e he => ?_, fun _ reads hreads => ?_⟩
    · cases hfailure
    · cases hreads
    · cases he
    · cases hreads
  | cons reads polls ih =>
    have hgrowing := h.growing (mem_cons_self (a := reads) (l := polls))
    simp only [RunEventStream.follow, hgrowing.events_eq hrun hlimit hafter]
    by_cases hgone : 0 < after ∧ after < stream.floor reads.bounds runID
    · rw [if_pos hgone]
      refine ⟨fun failure hfailure => ?_, after, fun _ => rfl, fun hzero => ?_, trivial, fun e he => ?_,
        fun hnone => ?_⟩
      · cases hfailure
        rfl
      · omega
      · cases he
      · cases hnone
    · rw [if_neg hgone]
      have hbatch := (hgrowing.numbered stream after).take limit.toNat
      change Numbered runID _ (stream.batch reads runID after limit) at hbatch
      by_cases hidle : after = 0 ∧ stream.batch reads runID after limit = []
      · -- Nothing is stored yet, and the next poll starts anew.
        obtain ⟨rfl, hempty⟩ := hidle
        have hnil : reads.bounds.eventLog runID = [] := by
          by_contra hnonempty
          obtain ⟨x, _, _, hhead⟩ := hgrowing.oldest stream hlimit.1 hnonempty
          rw [hempty] at hhead
          cases hhead
        obtain ⟨hfailure, start, _, _, hdelivers⟩ := ih h.tail le_rfl
        simp only [hempty, foldl_nil, nil_append]
        refine ⟨hfailure, start, fun hpos => (lt_irrefl _ hpos).elim, fun _ first hfirst hlog => ?_,
          hdelivers.consecutive, fun e he => ?_, fun _ first hfirst e he => ?_⟩
        · cases hfirst
          exact (hlog hnil).elim
        · obtain ⟨s, hs, hstored⟩ := hdelivers.stored e he
          rw [flatMap_cons]
          exact ⟨s, mem_append_right _ hs, hstored⟩
        · cases hfirst
          rw [hnil] at he
          cases he
      · have hcursor : (stream.batch reads runID after limit).foldl (fun _ event => event.sequence) after =
            max after (stream.floor reads.bounds runID) + (stream.batch reads runID after limit).length := by
          rw [← hbatch.cursor]
          cases hevents : stream.batch reads runID after limit with
          | nil =>
            rw [foldl_nil, foldl_nil]
            have hpos : after ≠ 0 := fun hzero => hidle ⟨hzero, hevents⟩
            omega
          | cons e events => rfl
        have hpos : 0 < max after (stream.floor reads.bounds runID) +
            (stream.batch reads runID after limit).length := by
          rcases hafter.eq_or_lt with rfl | hpos
          · have hlength := length_pos_iff.mpr fun hempty => hidle ⟨rfl, hempty⟩
            omega
          · omega
        dsimp only
        rw [hcursor]
        obtain ⟨hfailure, start, hstart, _, hdelivers⟩ := ih h.tail hpos.le
        rw [hstart hpos] at hdelivers
        refine ⟨hfailure, _, fun _ => by omega, fun hzero first hfirst hlog => ?_, hdelivers.cons h hlimit.1⟩
        cases hfirst
        obtain ⟨removed, hremoved, hnumbered⟩ := (hgrowing.source stream after).1.log
        rcases floor_of_numbered stream hremoved hnumbered with ⟨hnil, _⟩ | ⟨_, _, _, _, _, hfloor, _⟩
        · exact (hlog hnil).elim
        · rw [hzero, max_eq_right hfloor]

/-! ### The log of the governor -/

theorem numbered_of_sequences {last : Int} {events : List RunEvent} (hid : ∀ e ∈ events, e.runID = runID)
    (h : events.map (·.sequence) = (List.range events.length).map fun k : Nat => last + 1 + k) :
    Numbered runID last events := by
  induction events generalizing last with
  | nil => trivial
  | cons e events ih =>
    obtain ⟨he, hid⟩ := forall_mem_cons.mp hid
    rw [map_cons, length_cons, range_succ_eq_map, map_cons, List.map_map,
      List.cons.injEq] at h
    refine ⟨he, by simpa using h.1, ih hid (h.2.trans (map_congr_left fun k _ => ?_))⟩
    simp only [Function.comp_apply, Nat.cast_succ]
    omega

/-- The stored events of a run are its log from the first event on. -/
theorem Journaled.numbered_zero (h : Journaled s) (runID : ID) :
    s.eventLog runID = s.eventsOf runID ∧ Numbered runID 0 (s.eventsOf runID) := by
  have hnumbered : Numbered runID 0 (s.eventsOf runID) := by
    refine numbered_of_sequences (fun e he => of_decide_eq_true (mem_filter.mp he).2) ?_
    rw [h.numbered runID, sequences]
    exact map_congr_left fun k _ => by omega
  exact ⟨hnumbered.pairwise.insertionSort_eq, hnumbered⟩

theorem commits_eventsOf_prefix (h : Serves dep request response s t) (runID : ID) :
    s.eventsOf runID <+: t.eventsOf runID := by
  have happend : ∃ events, t.events.rows = s.events.rows ++ events := by
    cases commits_journals h with
    | keep hjournal =>
      obtain ⟨_, hevents, _⟩ := Store.journal_eq.mp hjournal
      exact ⟨[], by rw [hevents, append_nil]⟩
    | admission _ _ _ _ e _ henters => exact ⟨[e], henters.events_eq⟩
    | move _ _ events hadvances => exact ⟨events, hadvances.events_eq⟩
  obtain ⟨events, happend⟩ := happend
  rw [Store.eventsOf, Store.eventsOf, happend, filter_append]
  exact prefix_append _ _

/-- In every reachable governor the log of a run is contiguous, and it has only grown in every later one. -/
theorem Reachable.event_log {governor governor' : Governor} (h : Reachable dep governor)
    (hlater : Later dep governor governor') (runID : ID) :
    Numbered runID 0 (governor.committed.eventLog runID) ∧
      governor.committed.Grows runID governor'.committed := by
  obtain ⟨hlog, hnumbered⟩ := h.journaled.numbered_zero runID
  obtain ⟨hlog', hnumbered'⟩ := (h.later hlater).journaled.numbered_zero runID
  obtain ⟨events, happend⟩ := Engine.Reaches.relates
    (R := fun s t : Store => s.eventsOf runID <+: t.eventsOf runID) (disciplined_program dep)
    (fun _ => prefix_rfl) (fun _ _ _ => List.IsPrefix.trans)
    (fun _ _ _ _ hcommit => commits_eventsOf_prefix hcommit runID) h hlater
  refine ⟨hlog ▸ hnumbered, events, ?_, ?_⟩
  · rw [hlog, hlog', happend]
  · have hlast := lastSequence_of_numbered (h.journaled.numbered runID)
    have hdrop := hnumbered'.drop (n := (governor.committed.eventsOf runID).length) (by
      rw [← happend, length_append]
      omega)
    rw [← happend, drop_left, zero_add] at hdrop
    rwa [hlast]

namespace Sample

/-- The run of the sample after it was started. -/
def streamed : List Request :=
  provision ++ [admitRoot 100 (("max_tool_calls", .int 2) :: limits)] ++ start 100

theorem streamed_evaluated :
    ((after streamed).committed.runs.get (.ofNat 100)).isSome = true ∧
      ((after streamed).committed.eventsOf (.ofNat 100)).all (fun e => e.validate = .ok ()) = true ∧
      ((after streamed).committed.eventsOf (.ofNat 100)).length = 3 := by
  decide +kernel

/-- A poll during which nothing happens. -/
def quiet (s : Store) : EventReads := ⟨s, s, s, s⟩

theorem streamed_polls :
    Polls (.ofNat 100) [quiet (after streamed).committed, quiet (after streamed).committed] := by
  have hstates : ∀ s ∈ [quiet (after streamed).committed, quiet (after streamed).committed].flatMap
      EventReads.states, s = (after streamed).committed := by
    simp [quiet, EventReads.states]
  obtain ⟨hrun, hvalid, _⟩ := streamed_evaluated
  obtain ⟨hlog, hgrows⟩ := (reachable streamed).event_log Relation.ReflTransGen.refl (.ofNat 100)
  refine ⟨fun s hs => ?_, pairwise_of_forall_mem_list fun s hs t ht => ?_⟩
  · rw [hstates s hs]
    exact ⟨hrun, ⟨0, le_rfl, hlog⟩, fun e he => of_decide_eq_true (List.all_eq_true.mp hvalid e
      (mem_eventLog.mp he))⟩
  · rw [hstates s hs, hstates t ht]
    exact hgrows

end Sample

end AgentGovernor
