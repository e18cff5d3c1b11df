import AgentGovernor.CommitRun

/-! What metering commits. -/

namespace AgentGovernor

open Ledger Table Handle Transaction Engine

variable {held held' : List Lock} {s t : Store} {dep : Deployment}

/-! ### The reservation of the envelope is open -/

variable {e : ID}

/-- While the run and the envelope are locked, nobody closes or opens the reservation of the
envelope. -/
theorem reservation_open {seen : Store} {runID : ID} (hrun : .run runID ∈ held)
    (henvelope : .envelope e ∈ held) (h : storeEngine.Interference held seen s)
    (hclosed : reservationClosed seen e = false) :
    ∀ r ∈ s.reservations.rows, r.childEnvelopeID = e → r.childRunID = runID → r.state = .opened := by
  refine h.preserves (P := fun u => ∀ r ∈ u.reservations.rows, r.childEnvelopeID = e →
    r.childRunID = runID → r.state = .opened) ?_ ?_
  · rintro u v ⟨other, hcompat, hg, hp⟩ hu r hr hchild hchildRun
    have hstep : RowStep other (u.reservations.get r.id) (v.reservations.get r.id) :=
      Store.Evolves.reservations hg r.id
    rw [get_of_mem hr] at hstep
    have hfree : Lock.envelope e ∉ other := fun hmem =>
      hcompat _ hmem _ henvelope (Lock.conflict_self rfl)
    obtain ⟨r₀, hget, hlocks, _⟩ := hstep.exists_before (l := .envelope e)
      (by simp [insertLocks, hchild]) hfree
    simp only [insertLocks, List.cons.injEq, Lock.run.injEq, Lock.envelope.injEq] at hlocks
    obtain ⟨_, hrun₀, _, hchild₀, _⟩ := hlocks
    by_cases hsame : r = r₀
    · subst hsame
      exact hu r (mem_of_get hget) hchild hchildRun
    · have hlocked := Store.Keeps.closed_locked hp _ r₀ r hget (get_of_mem hr) hsame
      rw [hrun₀, hchildRun] at hlocked
      exact absurd (Lock.conflict_self rfl) (hcompat _ hlocked _ hrun)
  · intro r hr hchild _
    by_contra hstate
    have hany : reservationClosed seen e = true := by
      rw [reservationClosed, List.any_eq_true]
      exact ⟨r, hr, by simp [hchild, hstate]⟩
    rw [hclosed] at hany
    cases hany

/-! ### Throughput windows -/

/-- The structural companion that an envelope grants to a resource. -/
def companion (dep : Deployment) (s : Store) (e : ID) (resourceName : String) :
    Option (ResourceDimension × Int) :=
  (throughputDimensionName resourceName).bind fun rate => throughputGrant dep e rate s

/-- What an accepted event does to the windows. -/
def WindowsCount (dep : Deployment) (e : ID) (usage : TrustedUsage) (s : Store)
    (windows : Table fun w : RateWindow => (w.envelopeID, w.dimensionID, w.windowStart)) : Prop :=
  match companion dep s e usage.resourceName with
  | none => windows = s.windows
  | some (d, rateLimit) => ∃ w : RateWindow,
      (w.envelopeID, w.dimensionID, w.windowStart) =
        (e, d.id, usage.recordedAt.truncateToWindow.stored) ∧
      w.usedValue = s.windows.column (·.usedValue)
          (e, d.id, usage.recordedAt.truncateToWindow.stored) + usage.quantity.amount.coefficient ∧
      w.usedValue ≤ rateLimit ∧ windows = s.windows.put w

variable {r : Unit} {usage : TrustedUsage}

theorem exec_applyWindow {d : ID} {rate : String} {rateLimit : Int}
    (h : storeEngine.Exec (applyWindow e d rate usage rateLimit) held s r held' t) :
    ∃ w : RateWindow, (w.envelopeID, w.dimensionID, w.windowStart) =
        (e, d, usage.recordedAt.truncateToWindow.stored) ∧
      w.usedValue = s.windows.column (·.usedValue)
          (e, d, usage.recordedAt.truncateToWindow.stored) + usage.quantity.amount.coefficient ∧
      w.usedValue ≤ rateLimit ∧ t = { s with windows := s.windows.put w } := by
  unfold applyWindow at h
  obtain ⟨w, hchange, _, rfl⟩ := exec_upsert.mp h
  rw [windowRows_table] at hchange
  cases hget : s.windows.get (e, d, usage.recordedAt.truncateToWindow.stored) with
  | none =>
    rw [hget] at hchange
    dsimp only at hchange
    split_ifs at hchange with hlimit
    cases hchange
    exact ⟨_, rfl, by simp [column_of_none hget], hlimit, rfl⟩
  | some old =>
    rw [hget] at hchange
    dsimp only at hchange
    split_ifs at hchange with hlimit
    cases hchange
    have hkey : (old.envelopeID, old.dimensionID, old.windowStart) =
        (e, d, usage.recordedAt.truncateToWindow.stored) := key_of_get (t := s.windows) hget
    refine ⟨_, ?_, ?_, ?_, rfl⟩
    · exact hkey
    · rw [column_of_get hget]
    · dsimp only
      omega

theorem throughputGrant_eq {seen : Store} (henvelope : .envelope e ∈ held)
    (h : storeEngine.Interference held seen s) (rate : String) :
    throughputGrant dep e rate seen = throughputGrant dep e rate s := by
  have hsame : ∀ d, s.grants.get (e, d) = seen.grants.get (e, d) := fun d =>
    get_of_interference (H := grantRows) (grants_keyed.isProtected henvelope) h
  simp only [throughputGrant, hsame]

variable {hint : ThroughputHint}

/-- The windows count the event, and a blocked hint did not name the companion. -/
theorem exec_enforceThroughput
    (henvelope : .envelope e ∈ held)
    (h : storeEngine.Exec (enforceThroughput dep e usage hint) held s r held' t) :
    ∃ windows, WindowsCount dep e usage s windows ∧ t = { s with windows := windows } := by
  unfold enforceThroughput at h
  cases hrate : throughputDimensionName usage.resourceName with
  | none =>
    rw [hrate] at h
    obtain ⟨_, _, rfl⟩ := h
    exact ⟨s.windows, by simp [WindowsCount, companion, hrate], rfl⟩
  | some rate =>
    rw [hrate] at h
    obtain ⟨found, ⟨seen, hseen, rfl⟩, h₁⟩ := exec_bind_snapshot.mp h
    have hcompanion : companion dep s e usage.resourceName = throughputGrant dep e rate seen := by
      rw [throughputGrant_eq henvelope hseen]
      simp [companion, hrate]
    cases hgrant : throughputGrant dep e rate seen with
    | none =>
      rw [hgrant] at h₁ hcompanion
      obtain ⟨_, _, rfl⟩ := h₁
      exact ⟨s.windows, by simp [WindowsCount, hcompanion], rfl⟩
    | some found =>
      obtain ⟨d, rateLimit⟩ := found
      rw [hgrant] at h₁ hcompanion
      obtain ⟨w, hkey, hused, hlimit, rfl⟩ := exec_applyWindow h₁.checked.checked
      refine ⟨_, ?_, rfl⟩
      rw [WindowsCount, hcompanion]
      exact ⟨w, hkey, hused, hlimit, rfl⟩

/-! ### Exhaustion -/

variable {disposition : ExhaustionDisposition} {ids : ExhaustionIDs}

/-- The row of a run that its budget stops: without a lease, and under the next fencing token. -/
def Run.exhaustedBy (r : Run) (usage : TrustedUsage) (final : RunLifecycle) : Run :=
  { r with
    state := final.state
    stateVersion := final.version
    updatedAt := usage.recordedAt.stored
    terminalAt := final.terminalAt.map Time.stored
    leaseID := none
    leaseExpiresAt := none
    fencingToken := r.fencingToken + 1 }

/-- The two events of an exhaustion, after the event numbered `last`. -/
def exhaustionEvents (usage : TrustedUsage) (disposition : ExhaustionDisposition) (ids : ExhaustionIDs)
    (last : Int) (exhausted final : RunLifecycle) : List RunEvent :=
  [{ id := ids.first, runID := usage.runID, sequence := last + 1, eventType := "run.budget_exhausted"
     actorType := .governor, actorID := none, state := exhausted.state
     stateVersion := exhausted.version, occurredAt := usage.recordedAt.stored },
   { id := ids.second, runID := usage.runID, sequence := last + 1 + 1
     eventType := budgetDispositionEvent disposition
     actorType := if disposition = .pause then .governor else .system, actorID := none
     state := final.state, stateVersion := final.version, occurredAt := usage.recordedAt.stored }]

/-- What an exhaustion commits. -/
structure Exhausts (usage : TrustedUsage) (disposition : ExhaustionDisposition) (ids : ExhaustionIDs)
    (r : Run) (exhausted final : RunLifecycle) (s t : Store) : Prop where
  run : s.runs.get usage.runID = some r
  running : r.state = .running
  transitions : exhaustionTransitions usage r disposition = .ok (exhausted, final)
  check : (r.exhaustedBy usage final).check = true
  runs_eq : t.runs = s.runs.put (r.exhaustedBy usage final)
  events_eq : t.events.rows = s.events.rows ++
    exhaustionEvents usage disposition ids (s.lastSequence usage.runID) exhausted final
  signals_eq : t.signals = s.signals

/-- Exhaustion moves the running run and appends its two events. -/
theorem exec_applyBudgetExhaustion {run : Run}
    (hr : s.runs.get usage.runID = some run) (hlocked : .run usage.runID ∈ held)
    (h : storeEngine.Exec (applyBudgetExhaustion usage run disposition ids) held s r held' t) :
    ∃ exhausted final, Exhausts usage disposition ids run exhausted final s t ∧
      Store.Evidenced { s with runs := s.runs.put (run.exhaustedBy usage final) } t := by
  obtain ⟨⟨exhausted, final⟩, _, _, hnext, h₁⟩ := exec_bind.mp h
  obtain ⟨htransitions, rfl, rfl⟩ := exec_ofExcept.mp hnext
  obtain ⟨_, _, _, hupdate, h₂⟩ := exec_bind.mp h₁
  have hsub := exec_subset hupdate
  obtain ⟨old, row, hold, hchange, _, rfl⟩ := exec_update.mp hupdate
  have hsame : run = old := Option.some.inj (hr.symm.trans hold)
  subst hsame
  dsimp only at hchange
  split_ifs at hchange with hrunning
  cases hchange
  obtain ⟨sequence, _, _, hsequence, h₃⟩ := exec_bind.mp h₂
  obtain ⟨hlast, rfl, rfl⟩ := exec_nextSequence (hsub hlocked) hsequence
  obtain ⟨_, _, _, hfirst, h₄⟩ := exec_bind.mp h₃
  obtain ⟨_, _, _, hevent, houtbox⟩ := exec_bind.mp hfirst
  obtain ⟨_, rfl, hevents, _⟩ := exec_insertEvent hevent
  obtain ⟨_, rfl⟩ := exec_insertOutbox houtbox
  obtain ⟨_, _, _, hsecond, haudit⟩ := exec_bind.mp h₄
  obtain ⟨_, _, _, hevent', houtbox'⟩ := exec_bind.mp hsecond
  obtain ⟨_, rfl, hevents', _⟩ := exec_insertEvent hevent'
  obtain ⟨_, rfl⟩ := exec_insertOutbox houtbox'
  obtain ⟨_, rfl⟩ := exec_insertAudit haudit
  dsimp only at hevents'
  rw [hevents, List.append_assoc] at hevents'
  subst hlast
  exact ⟨exhausted, final, ⟨hr, hrunning.1, htransitions, hrunning.2.2, rfl, hevents', rfl⟩,
    _, _, _, _, rfl⟩

theorem exec_exhaustWhenSpent {availableAfter : Int} {run : Run}
    (h : storeEngine.Exec (exhaustWhenSpent availableAfter usage run disposition ids) held s r held' t)
    (hr : s.runs.get usage.runID = some run) (hlocked : .run usage.runID ∈ held) :
    ∃ runs, RunsWork s.runs runs ∧ Store.Evidenced { s with runs := runs } t ∧
      (availableAfter = 0 → ∃ exhausted final, Exhausts usage disposition ids run exhausted final s t) ∧
      (availableAfter ≠ 0 → t = s) := by
  unfold exhaustWhenSpent at h
  split_ifs at h with hspent
  · obtain ⟨exhausted, final, hexhausts, hevidence⟩ := exec_applyBudgetExhaustion hr hlocked h
    have hid : run.id = usage.runID := key_of_get hr
    refine ⟨_, Or.inr ⟨run, run.exhaustedBy usage final, hid ▸ hr, ⟨?_, rfl, rfl, rfl, rfl⟩, rfl⟩, hevidence,
      fun _ => ⟨exhausted, final, hexhausts⟩, fun hleft => absurd hspent hleft⟩
    rw [hexhausts.running]
    rfl
  · obtain ⟨_, _, rfl⟩ := h
    exact ⟨s.runs, Or.inl rfl, Store.Evidenced.refl s, fun hnone => absurd hnone hspent, fun _ => rfl⟩

/-! ### Metering -/

/-- What a committed first delivery did. -/
structure Meters (dep : Deployment) (usage : TrustedUsage) (target : MeteringTarget)
    (s t : Store) : Prop where
  fresh : ∀ u ∈ s.usage.rows, u.id ≠ usage.id ∧
    ¬(u.producerID = usage.producerID ∧ u.sourceEventID = usage.sourceEventID)
  envelope : ∃ e, s.envelopes.get target.envelopeID = some e ∧ e.runID = usage.runID
  dimension : dep.byName usage.resourceName = some target.dimension
  consumable : target.dimension.resourceClass = .consumable
  grant : s.grants.get (target.envelopeID, target.dimension.id) = some target.grant
  running : ∃ run, s.runs.get usage.runID = some run ∧ run.state = .running
  reservation_open : ∀ r ∈ s.reservations.rows, r.childEnvelopeID = target.envelopeID →
    r.childRunID = usage.runID → r.state = .opened
  windows : WindowsCount dep target.envelopeID usage s t.windows
  runs : RunsWork s.runs t.runs
  posts : Posts [.move target.envelopeID target.dimension.id
    (-usage.quantity.amount.coefficient) usage.quantity.amount.coefficient 0] s.accounts t.accounts
  store_eq : Store.Evidenced { s with
    balances := t.balances
    usage := s.usage.put (usageEntry target usage)
    windows := t.windows
    runs := t.runs } t

theorem meteringTarget_spec {target : MeteringTarget}
    (h : meteringTarget dep usage s = some target) :
    dep.byName usage.resourceName = some target.dimension ∧
      s.grants.get (target.envelopeID, target.dimension.id) = some target.grant := by
  simp only [meteringTarget, Option.bind_eq_bind, Option.bind_eq_some_iff] at h
  obtain ⟨e, _, d, hd, g, hg, hactive⟩ := h
  split_ifs at hactive
  cases hactive
  exact ⟨hd, hg⟩

/-- What a first delivery does to its run: nothing while something is left in the metered dimension,
and the exhaustion when nothing is. -/
structure Spends (dep : Deployment) (usage : TrustedUsage) (disposition : ExhaustionDisposition)
    (ids : ExhaustionIDs) (e : Envelope) (d : ResourceDimension) (b : Balance) (s t : Store) :
    Prop where
  envelope : s.envelopes.get e.id = some e
  envelope_run : e.runID = usage.runID
  dimension : dep.byName usage.resourceName = some d
  consumable : d.resourceClass = .consumable
  balance : t.balances.get (e.id, d.id) = some b
  running : ∃ r, s.runs.get usage.runID = some r ∧ r.state = .running
  spent : b.availableValue = 0 → ∃ r exhausted final,
    Exhausts usage disposition ids r exhausted final s t
  unspent : b.availableValue ≠ 0 → t.journal = s.journal

theorem exec_meterUsage
    {receipt : UsageReceipt}
    (h : storeEngine.Exec (meterUsage dep usage hint disposition ids) held s receipt held' t) :
    receipt = ⟨usage.id, false, usage.recordedAt⟩ ∧ ∃ target, Meters dep usage target s t ∧
      ∃ e b, Spends dep usage disposition ids e target.dimension b s t := by
  obtain ⟨_, ⟨seen, hseen, rfl⟩, h₁⟩ := exec_bind_snapshot.mp h
  obtain ⟨target, hspec, h₂⟩ := exec_bind_orThrow.mp h₁
  obtain ⟨run, _, _, hrun, h₃⟩ := exec_bind.mp h₂
  obtain ⟨_, hrunGet, hrunOk, rfl, rfl⟩ := exec_lock.mp hrun
  cases hrunOk
  obtain ⟨_, _, _, henvelope, h₄⟩ := exec_bind.mp h₃
  obtain ⟨e, heGet, heOk, rfl, rfl⟩ := exec_lock.mp henvelope
  split_ifs at heOk with heRun
  obtain ⟨⟨hconsumable, _⟩, h₅⟩ := exec_bind_require.mp h₄
  obtain ⟨hrunning, h₆⟩ := exec_bind_require.mp h₅
  obtain ⟨_, ⟨seen', hseen', rfl⟩, h₇⟩ := exec_bind_snapshot.mp h₆
  obtain ⟨hnotClosed, h₈⟩ := exec_bind_require.mp h₇
  obtain ⟨_, _, _, hwindow, h₉⟩ := exec_bind.mp h₈
  obtain ⟨windows, hcount, rfl⟩ := exec_enforceThroughput (by simp) hwindow
  obtain ⟨availableAfter, _, _, hdebit, h₁₀⟩ := exec_bind.mp h₉
  obtain ⟨b, b', hget, _, hresult, hkey, havailable, hdirect, hallocated, rfl⟩ :=
    exec_moveBalance (fun _ => rfl) hdebit
  have hleft : b'.availableValue = availableAfter := (Prod.mk.inj hresult).1
  obtain ⟨_, _, _, hinsert, h₁₁⟩ := exec_bind.mp h₁₀
  obtain ⟨hclash, _, rfl⟩ := exec_insert.mp hinsert
  obtain ⟨_, _, _, hexhaust, hpure⟩ := exec_bind.mp h₁₁
  obtain ⟨runs, hruns, ⟨_, _, _, _, rfl⟩, hspent, hunspent⟩ := exec_exhaustWhenSpent hexhaust
    hrunGet (exec_subset hinsert (exec_subset hdebit (exec_subset hwindow (by simp))))
  obtain ⟨rfl, _, rfl⟩ := hpure
  obtain ⟨hname, hgrant⟩ := meteringTarget_spec hspec
  obtain ⟨_, hgrantNow, rfl⟩ := grants_kept hseen _ _ hgrant
  have heid : e.id = target.envelopeID := key_of_get heGet
  refine ⟨rfl, target, ⟨?_, ⟨e, heGet, heRun⟩, hname, hconsumable, hgrantNow, ⟨run, hrunGet, hrunning⟩,
    reservation_open (by simp) (by simp) hseen' hnotClosed, hcount, hruns, ?_, _, _, _, _, rfl⟩, e, b',
    heid ▸ heGet, heRun, hname, hconsumable, ?_, ⟨run, hrunGet, hrunning⟩, fun hnone => ?_,
    fun hsome => (congrArg Store.journal (hunspent (hleft ▸ hsome))).trans rfl⟩
  · intro u hu
    have hfree := hclash u hu
    simp only [usageEntry, Bool.or_eq_false_iff, Bool.and_eq_false_iff] at hfree
    refine ⟨of_decide_eq_false hfree.1, fun hsame => ?_⟩
    rcases hfree.2 with hproducer | hsource
    · exact of_decide_eq_false hproducer hsame.1
    · exact of_decide_eq_false hsource hsame.2
  · exact .move b b' hget hkey havailable hdirect hallocated (.nil _)
  · rw [heid, ← hkey]
    exact get_put_self _ _
  · obtain ⟨exhausted, final, hexhausts⟩ := hspent (hleft ▸ hnone)
    exact ⟨run, exhausted, final, hrunGet, hrunning, hexhausts.transitions, hexhausts.check, hexhausts.runs_eq,
      hexhausts.events_eq, hexhausts.signals_eq⟩

/-- A committed delivery is a replay of the stored entry, or a first delivery. -/
theorem exec_recordTrustedUsage {candidate : TrustedUsage}
    {receipt : UsageReceipt}
    (h : storeEngine.Exec (recordTrustedUsage dep candidate hint disposition ids) held s receipt
      held' t) :
    ∃ usage, validateTrustedUsage dep candidate = .ok usage ∧
      ((∃ u ∈ s.usage.rows, u.producerID = usage.producerID ∧
          u.sourceEventID = usage.sourceEventID ∧ u.contentDigest = usage.contentDigest ∧
          receipt = ⟨u.id, true, .ofStored u.recordedAt⟩ ∧ t = s) ∨
        (receipt = ⟨usage.id, false, usage.recordedAt⟩ ∧ ∃ target, Meters dep usage target s t ∧
          ∃ e b, Spends dep usage disposition ids e target.dimension b s t)) := by
  obtain ⟨usage, hmapped, h₃⟩ := exec_bind_ofExcept.mp h.checked.checked
  obtain ⟨_, _, _, hadvisory, h₄⟩ := exec_bind.mp h₃
  obtain ⟨rfl, rfl⟩ := exec_acquire.mp hadvisory
  obtain ⟨existing, ⟨seen, hseen, hfind⟩, h₅⟩ := exec_bind_snapshot.mp h₄
  refine ⟨usage, mapError_eq_ok.mp hmapped, ?_⟩
  cases existing with
  | none => exact Or.inr (exec_meterUsage h₅)
  | some u =>
    obtain ⟨hsame, hpure⟩ := exec_bind_require.mp h₅
    obtain ⟨rfl, _, rfl⟩ := hpure
    have hkey : u.producerID = usage.producerID ∧ u.sourceEventID = usage.sourceEventID := by
      simpa using List.find?_some hfind
    obtain ⟨_, hget, rfl⟩ := usage_kept hseen _ u
      (get_of_mem (List.mem_of_find?_eq_some hfind))
    exact Or.inl ⟨u, mem_of_get hget, hkey.1, hkey.2, hsame, rfl, rfl⟩

variable {candidate : TrustedUsage} {response : Response}

theorem Exhausts.journals {run : Run} {exhausted final : RunLifecycle}
    (hvalid : validateTrustedUsage dep candidate = .ok usage)
    (h : Exhausts usage disposition ids run exhausted final s t) :
    Journals dep (.recordTrustedUsage candidate hint disposition ids) response s t := by
  have hid : run.id = usage.runID := key_of_get h.run
  refine .move run _ _ ⟨hid ▸ h.run, .exhaust candidate usage hint disposition ids response run exhausted
    final hvalid h.running h.transitions, fun _ => h.check, h.runs_eq, h.events_eq, ?_, ⟨_, rfl, rfl, rfl⟩,
    h.signals_eq, ?_⟩
  · rw [hid]
    exact ⟨rfl, rfl, rfl, rfl, trivial⟩
  · simp [exhaustionEvents, Request.acceptedID]

theorem Spends.journals {e : Envelope} {d : ResourceDimension} {b : Balance}
    (hvalid : validateTrustedUsage dep candidate = .ok usage)
    (h : Spends dep usage disposition ids e d b s t) :
    Journals dep (.recordTrustedUsage candidate hint disposition ids) response s t := by
  by_cases hspent : b.availableValue = 0
  · obtain ⟨run, exhausted, final, hexhausts⟩ := h.spent hspent
    exact hexhausts.journals hvalid
  · exact .keep (h.unspent hspent)

end AgentGovernor
