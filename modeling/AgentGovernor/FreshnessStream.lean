import AgentGovernor.FreshnessTracker
import AgentGovernor.RevocationCheckpoints

/-! Streams that the tracker follows. It takes every number but the next one for a lost entry. The log numbers
the entries of all tenants together, and a transaction that is rolled back leaves its number unused, so that
what a tenant may see has holes although nothing was lost. -/

namespace AgentGovernor

open Ledger RevocationSample List Option Bool

variable {a : RevocationSystem × Int} {tenantID : ID}

/-- All entries that a tenant may see, in the order of their numbers. -/
def RevocationStore.stream (s : RevocationStore) (tenantID : ID) : List RevocationLogEntry :=
  (s.visible tenantID).filterMap s.readEntry

/-- What the two clocks of the tracker read. -/
structure ClockReading where
  wall : Time
  elapsed : Int

/-- The wall clock is in UTC, and the monotonic one does not go back. -/
structure HealthyClocks (readings : List ClockReading) : Prop where
  utc : ∀ r ∈ readings, r.wall.utc = true
  started : ∀ r ∈ readings, 0 ≤ r.elapsed
  monotonic : readings.Pairwise fun r r' => r.elapsed ≤ r'.elapsed

/-- The receipts of entries, one after the other. -/
def streamReceipts (tenantID : ID) (entries : List RevocationLogEntry) (readings : List ClockReading) :
    List FreshnessCall :=
  entries.zipWith (fun e r => .recordStreamReceipt tenantID e.sequence e.epochs r.wall r.elapsed) readings

def FreshnessCall.tenant : FreshnessCall → ID
  | .trackTenant tenant => tenant
  | .recordStreamReceipt tenant _ _ _ _ => tenant
  | .recordReconciliation tenant _ _ _ _ => tenant
  | .recordGap tenant _ => tenant
  | .recordAuthoritativeHead tenant _ => tenant

/-- The number of the second entry is the next one. -/
def RevocationLogEntry.Next (e e' : RevocationLogEntry) : Prop := e'.sequence = e.sequence + 1

namespace RevocationFreshnessTracker

/-- No call for the tenant finds a gap or a regression, and the gap state is never set. -/
def Clean (tenantID : ID) : RevocationFreshnessTracker → List FreshnessCall → Prop
  | _, [] => True
  | t, c :: rest =>
    (c.tenant = tenantID → (t.call c).1 ≠ .error .gap ∧ (t.call c).1 ≠ .error .regression) ∧
      ((t.call c).2.state tenantID).gap = false ∧ Clean tenantID (t.call c).2 rest

/-! ### One receipt -/

/-- The tracker has applied entries of the tenant up to this one, or none, at this reading at the latest. -/
def Fed (t : RevocationFreshnessTracker) (tenantID : ID) (elapsed : Int) : Option RevocationLogEntry → Prop
  | none => t.states.get tenantID = none
  | some e => 0 ≤ e.sequence ∧ ∃ state, t.states.get tenantID = some (tenantID, state) ∧
      state.hasObservation = true ∧ state.lastAppliedSequence = e.sequence ∧
      state.lastAppliedEpochs.security = e.epochs.security ∧ state.observedElapsed ≤ elapsed ∧ state.gap = false

variable {t : RevocationFreshnessTracker} {c : FreshnessCall} {e : RevocationLogEntry} {r : ClockReading}
  {last : Option RevocationLogEntry} {elapsed : Int}

theorem Fed.gap (h : Fed t tenantID elapsed last) : (t.state tenantID).gap = false := by
  unfold RevocationFreshnessTracker.state
  cases last with
  | none =>
    rw [show t.states.get tenantID = none from h]
    rfl
  | some e =>
    obtain ⟨_, state, hget, _, _, _, _, hgap⟩ := h
    rw [hget]
    exact hgap

theorem Fed.of_get {u : RevocationFreshnessTracker} (h : Fed t tenantID elapsed last)
    (hget : u.states.get tenantID = t.states.get tenantID) : Fed u tenantID elapsed last := by
  cases last with
  | none => exact hget.trans h
  | some e =>
    obtain ⟨hnonneg, state, hstate, hrest⟩ := h
    exact ⟨hnonneg, state, hget.trans hstate, hrest⟩

/-- A call for another tenant leaves this one's state. -/
theorem call_other (h : c.tenant ≠ tenantID) : (t.call c).2.states.get tenantID = t.states.get tenantID := by
  let Same (x : Except FreshnessError FreshnessReceipt × RevocationFreshnessTracker) : Prop :=
    x.2.states.get tenantID = t.states.get tenantID
  have hset : ∀ state, (t.setState c.tenant state).states.get tenantID = t.states.get tenantID :=
    fun _ => Table.get_put_of_ne _ h.symm
  have hite : ∀ {p : Prop} [Decidable p] {x y}, Same x → Same y → Same (if p then x else y) := by
    intro p _ x y hx hy
    split
    · exact hx
    · exact hy
  have hrecord : ∀ o : FreshnessObservation, o.tenant = c.tenant → Same (t.record o) := by
    intro o ho
    unfold record
    cases o.admitted with
    | error _ => exact rfl
    | ok wall =>
      unfold observe
      rw [ho]
      exact hite rfl (hite rfl (hite rfl (hite rfl (hite rfl (hite (hset _) (hset _))))))
  cases c with
  | recordStreamReceipt => exact hrecord _ rfl
  | recordReconciliation => exact hrecord _ rfl
  | trackTenant tenant =>
    show (t.trackTenant tenant).states.get tenantID = _
    unfold trackTenant
    split
    · rfl
    · exact hset _
  | recordGap tenant sequence => exact hite rfl (hite rfl (hset _))
  | recordAuthoritativeHead tenant sequence => exact hite rfl (hite rfl (hset _))

/-- What the tracker makes sure of before it looks at the tenant's state. -/
structure Receivable (e : RevocationLogEntry) : Prop where
  sequence : 0 ≤ e.sequence ∧ e.sequence ≤ maxInt64
  epochs : validEpochVector e.epochs = true

theorem wrapInt64_ne_zeroTime (n : Int) : (⟨wrapInt64 n, true⟩ : Time).isZero = false := by
  have hlower := @Int.le_bmod n (2 ^ 64) (by decide)
  refine decide_eq_false fun hzero => ?_
  have hzero : n.bmod (2 ^ 64) = -62135596800000000000 := hzero
  omega

theorem call_receipt (hzero : tenantID.isZero = false) (he : Receivable e) (hutc : r.wall.utc = true)
    (hstarted : 0 ≤ r.elapsed) :
    t.call (.recordStreamReceipt tenantID e.sequence e.epochs r.wall r.elapsed) =
      t.observe ⟨tenantID, e.sequence, e.epochs, true, r.wall, r.elapsed⟩ ⟨wrapInt64 r.wall.nanos, true⟩ := by
  have hsequence := he.sequence.1
  simp only [call, record, FreshnessObservation.admitted, requireUTC, hutc, if_true, wrapInt64_ne_zeroTime]
  rw [if_neg (by simp [hzero, he.epochs, hsequence]), if_neg (by simp), if_neg (by omega)]

/-- The addition does not overflow where there is a next number. -/
theorem wrapInt64_next {n : Int} (hn : 0 ≤ n) (hbound : n < maxInt64) : wrapInt64 (n + 1) = n + 1 := by
  unfold maxInt64 at hbound
  unfold wrapInt64
  rw [Int.bmod_eq_of_le] <;> omega

theorem state_of_get {state : RevocationFreshnessState} (h : t.states.get tenantID = some (tenantID, state)) :
    t.state tenantID = state := by
  unfold RevocationFreshnessTracker.state
  rw [h]
  rfl

/-- The receipt is applied, and the tracker has come to its entry. -/
theorem Fed.applied (h : Fed t tenantID elapsed last) (he : Receivable e)
    (hsecurity : ∀ e₀ ∈ last, e₀.epochs.security ≤ e.epochs.security) (wall : Time) :
    Fed (t.setState tenantID ((t.state tenantID).applied
      ⟨tenantID, e.sequence, e.epochs, true, r.wall, r.elapsed⟩ wall)) tenantID r.elapsed (some e) := by
  have hepoch : (t.state tenantID).lastAppliedEpochs.security ≤ e.epochs.security := by
    cases last with
    | none =>
      rw [state_of_absent (by rw [show t.states.get tenantID = none from h]; rfl)]
      have hvalid := he.epochs
      simp only [validEpochVector, and_eq_true, decide_eq_true_eq] at hvalid
      exact hvalid.1.1.1
    | some e₀ =>
      obtain ⟨_, state, hget, _, _, hsame, _, _⟩ := h
      rw [state_of_get hget, hsame]
      exact hsecurity e₀ rfl
  exact ⟨he.sequence.1, _, Table.get_put_self _ _, rfl, rfl, max_eq_right hepoch, Int.le_refl _, h.gap⟩

/-- The next entry is applied. -/
theorem Fed.observe_next (h : Fed t tenantID elapsed last) (he : Receivable e) (helapsed : elapsed ≤ r.elapsed)
    (hnext : ∀ e₀ ∈ last, e₀.Next e ∧ e₀.epochs.security ≤ e.epochs.security) (wall : Time) :
    t.observe ⟨tenantID, e.sequence, e.epochs, true, r.wall, r.elapsed⟩ wall =
      (.ok (.applied tenantID.string), t.setState tenantID ((t.state tenantID).applied
        ⟨tenantID, e.sequence, e.epochs, true, r.wall, r.elapsed⟩ wall)) := by
  unfold observe
  cases last with
  | none =>
    simp only [show t.states.get tenantID = none from h, isSome_none, Bool.false_and,
      false_eq_true, if_false]
  | some e₀ =>
    obtain ⟨hnonneg, state, hget, _, hsequence, hepoch, hobserved, _⟩ := h
    have hsecurity := (hnext e₀ rfl).2
    have hnumber : e.sequence = e₀.sequence + 1 := (hnext e₀ rfl).1
    have hbound := he.sequence.2
    have hwrap : wrapInt64 (state.lastAppliedSequence + 1) = e.sequence := by
      rw [hsequence, wrapInt64_next hnonneg (by omega), hnumber]
    have hne : ¬e.sequence = state.lastAppliedSequence := by omega
    rw [state_of_get hget]
    simp only [hget, hwrap, hne, isSome_some, Bool.true_and, decide_false, Bool.and_false,
      Bool.false_and, false_eq_true, Bool.not_true, if_false, or_eq_true, decide_eq_true_eq, lt_irrefl]
    rw [if_neg (by omega), if_neg (by omega)]

/-- Any other entry is a gap. -/
theorem Fed.observe_skips {e₀ : RevocationLogEntry} (h : Fed t tenantID elapsed (some e₀)) (he : Receivable e)
    (helapsed : elapsed ≤ r.elapsed) (hsequence : e₀.sequence < e.sequence)
    (hsecurity : e₀.epochs.security ≤ e.epochs.security) (hskips : ¬e₀.Next e) (wall : Time) :
    t.observe ⟨tenantID, e.sequence, e.epochs, true, r.wall, r.elapsed⟩ wall =
      (.error .gap, (t.setState tenantID ((t.state tenantID).missed e.sequence)).countGap) := by
  obtain ⟨hnonneg, state, hget, hobservation, hnumber, hepoch, hobserved, _⟩ := h
  have hskips : ¬e.sequence = e₀.sequence + 1 := hskips
  have hbound := he.sequence.2
  have hwrap : wrapInt64 (state.lastAppliedSequence + 1) < e.sequence := by
    rw [hnumber, wrapInt64_next hnonneg (by omega)]
    omega
  have hne : ¬e.sequence = state.lastAppliedSequence := by omega
  unfold observe
  rw [state_of_get hget]
  simp only [hget, hwrap, hne, hobservation, isSome_some, Bool.true_and, decide_false, Bool.and_false,
    Bool.false_and, false_eq_true, Bool.not_true, if_false, or_eq_true, decide_eq_true_eq, if_true]
  rw [if_neg (by omega), if_neg (by omega)]

/-! ### All receipts -/

theorem isChain_last {R : RevocationLogEntry → RevocationLogEntry → Prop} {entries : List RevocationLogEntry} :
    (last.toList ++ e :: entries).IsChain R ↔ (∀ e₀ ∈ last, R e₀ e) ∧ (e :: entries).IsChain R := by
  cases last with
  | none => simp
  | some e₀ => simp [isChain_cons_cons]

/-- Calls of which those for the tenant are the receipts of these entries, one after the other, find no gap just
when the numbers are consecutive. -/
theorem Fed.clean_iff (hzero : tenantID.isZero = false) {calls : List FreshnessCall}
    {entries : List RevocationLogEntry} {readings : List ClockReading} (h : Fed t tenantID elapsed last)
    (hreadings : readings.length = entries.length) (hclocks : HealthyClocks readings)
    (helapsed : ∀ r ∈ readings, elapsed ≤ r.elapsed) (hentries : ∀ e ∈ entries, Receivable e)
    (hordered : (last.toList ++ entries).Pairwise fun e e' =>
      e.sequence < e'.sequence ∧ e.epochs.security < e'.epochs.security)
    (hcalls : calls.filter (·.tenant = tenantID) = streamReceipts tenantID entries readings) :
    t.Clean tenantID calls ↔ (last.toList ++ entries).IsChain RevocationLogEntry.Next := by
  induction calls generalizing t last elapsed entries readings with
  | nil =>
    cases entries with
    | nil =>
      rw [append_nil]
      refine iff_of_true trivial ?_
      cases last with
      | none => exact isChain_nil
      | some e => exact isChain_singleton e
    | cons e entries =>
      cases readings with
      | nil => cases hreadings
      | cons r readings => cases hcalls
  | cons c rest ih =>
    by_cases hc : c.tenant = tenantID
    · rw [filter_cons_of_pos (by simpa using hc)] at hcalls
      cases entries with
      | nil => cases hcalls
      | cons e entries =>
        cases readings with
        | nil => cases hreadings
        | cons r readings =>
          obtain ⟨rfl, hreceipts⟩ := List.cons.inj hcalls
          obtain ⟨he, hentries⟩ := forall_mem_cons.mp hentries
          obtain ⟨hutc, hutcs⟩ := forall_mem_cons.mp hclocks.utc
          obtain ⟨hstarted, hstarteds⟩ := forall_mem_cons.mp hclocks.started
          obtain ⟨hmonotonic, hmonotonics⟩ := pairwise_cons.mp hclocks.monotonic
          obtain ⟨_, hrest, hbefore⟩ := pairwise_append.mp hordered
          have hsecurity : ∀ e₀ ∈ last, e₀.epochs.security ≤ e.epochs.security := fun e₀ he₀ =>
            (hbefore e₀ (mem_toList.mpr he₀) e mem_cons_self).2.le
          rw [isChain_last]
          by_cases hnext : ∀ e₀ ∈ last, e₀.Next e
          · have hcall := (call_receipt (t := t) hzero he hutc hstarted).trans
              (h.observe_next he (helapsed r mem_cons_self)
                (fun e₀ he₀ => ⟨hnext e₀ he₀, hsecurity e₀ he₀⟩) _)
            have hfed := h.applied (r := r) he hsecurity ⟨wrapInt64 r.wall.nanos, true⟩
            have hih := ih hfed (Nat.succ.inj hreadings) ⟨hutcs, hstarteds, hmonotonics⟩ hmonotonic
              hentries hrest hreceipts
            rw [and_iff_right hnext]
            unfold Clean
            rw [hcall]
            refine Iff.trans ⟨fun hclean => hclean.2.2, fun hclean => ⟨fun _ => ?_, hfed.gap, hclean⟩⟩ hih
            exact ⟨fun hgap => (nomatch hgap), fun hregression => (nomatch hregression)⟩
          · refine iff_of_false (fun hclean => ?_) fun hchain => hnext hchain.1
            push Not at hnext
            obtain ⟨e₀, rfl, hskips⟩ := hnext
            have hcall := (call_receipt (t := t) hzero he hutc hstarted).trans
              (h.observe_skips he (helapsed r mem_cons_self)
                (hbefore e₀ mem_cons_self e mem_cons_self).1 (hsecurity e₀ rfl) hskips _)
            exact (hclean.1 hc).1 (congrArg Prod.fst hcall)
    · rw [filter_cons_of_neg (by simpa using hc)] at hcalls
      have hfed := h.of_get (call_other hc)
      exact Iff.trans ⟨fun hclean => hclean.2.2, fun hclean => ⟨fun heq => absurd heq hc, hfed.gap, hclean⟩⟩
        (ih hfed hreadings hclocks helapsed hentries hordered hcalls)

end RevocationFreshnessTracker

/-! ### The log of a tenant -/

theorem RevocationReachable.stream_ordered (h : RevocationReachable a) (tenantID : ID) :
    (a.1.committed.stream tenantID).Pairwise fun e e' =>
      e.sequence < e'.sequence ∧ e.epochs.security < e'.epochs.security := by
  unfold RevocationStore.stream
  rw [h.visible_eq, pairwise_filterMap]
  refine ((h.orderedLog.sequence.and h.orderedLog.security).filter _).imp fun ⟨hsequence, hsecurity⟩ e he e' he' => ?_
  obtain ⟨hnumber, hvector, _⟩ := readEntry_spec he
  obtain ⟨hnumber', hvector', _⟩ := readEntry_spec he'
  rw [hnumber, hnumber', hvector, hvector']
  exact ⟨hsequence, hsecurity⟩

theorem RevocationReachable.receivable (h : RevocationReachable a)
    (hbigint : ∀ l ∈ a.1.committed.entries.rows, l.sequence ≤ maxInt64) :
    ∀ e ∈ a.1.committed.stream tenantID, RevocationFreshnessTracker.Receivable e := by
  intro e he
  obtain ⟨l, hl, hread⟩ := mem_filterMap.mp he
  rw [h.visible_eq] at hl
  have hmem := (mem_filter.mp hl).1
  have hscoped := h.scoped l hmem
  obtain ⟨hsequence, hepochs, _⟩ := readEntry_spec hread
  refine ⟨?_, ?_⟩
  · rw [hsequence]
    exact ⟨hscoped.sequence.le, hbigint l hmem⟩
  · rw [hepochs]
    simp [validEpochVector, hscoped.security.le, hscoped.nonneg, hscoped.agent]

/-- A tracker that is told every entry that a tenant may see, in order, finds no gap and no regression just when
their numbers are consecutive, whatever it is told of other tenants meanwhile. The column of the numbers is a
`bigint`. -/
theorem complete_stream_clean_iff (h : RevocationReachable a) (hzero : tenantID.isZero = false)
    (hbigint : ∀ l ∈ a.1.committed.entries.rows, l.sequence ≤ maxInt64) {readings : List ClockReading}
    (hreadings : readings.length = (a.1.committed.stream tenantID).length) (hclocks : HealthyClocks readings)
    {calls : List FreshnessCall} (hcalls : calls.filter (·.tenant = tenantID) =
      streamReceipts tenantID (a.1.committed.stream tenantID) readings) :
    RevocationFreshnessTracker.new.Clean tenantID calls ↔
      (a.1.committed.stream tenantID).IsChain RevocationLogEntry.Next := by
  have hfed : RevocationFreshnessTracker.new.Fed tenantID 0 none := rfl
  exact hfed.clean_iff hzero hreadings hclocks hclocks.started (h.receivable hbigint)
    (h.stream_ordered tenantID) hcalls

namespace RevocationSample

/-- Two changes of the tenant, with or without one of another tenant in between. -/
def consecutive : List RevocationRequest :=
  [create 1 .principalID "principal-1" 10 1, create 2 .principalID "principal-2" 20 2]

def interleaved : List RevocationRequest :=
  [create 1 .principalID "principal-1" 10 1,
    .create (.ofNat 9) (revocation 2 (some (.ofNat 9)) .principalID "principal-9" 20 20) (evidence 2) 2 (.ofNat 9),
    create 3 .principalID "principal-2" 30 3]

def readings : List ClockReading := [⟨⟨1000000000, true⟩, 1⟩, ⟨⟨2000000000, true⟩, 2⟩]

theorem readings_healthy : HealthyClocks readings :=
  ⟨by decide, by decide, by simp [readings]⟩

/-- How the calls fail. -/
def errors : RevocationFreshnessTracker → List FreshnessCall → List (Option FreshnessError)
  | _, [] => []
  | t, c :: rest =>
    (match (t.call c).1 with
      | .error error => some error
      | .ok _ => none) :: errors (t.call c).2 rest

theorem sequence_consecutive :
    ((after consecutive).1.committed.stream tenant).map RevocationLogEntry.sequence = [1, 2] ∧
      (after consecutive).1.committed.entries.rows.map RevocationEntry.sequence = [1, 2] ∧
      (streamReceipts tenant ((after consecutive).1.committed.stream tenant) readings).filter
        (·.tenant = tenant) = streamReceipts tenant ((after consecutive).1.committed.stream tenant) readings := by
  decide +kernel

theorem errors_interleaved :
    ((after interleaved).1.committed.stream tenant).length = 2 ∧
      errors .new (streamReceipts tenant ((after interleaved).1.committed.stream tenant) readings) =
        [none, some .gap] := by
  decide +kernel

end RevocationSample

theorem complete_stream_clean_consecutive :
    RevocationFreshnessTracker.new.Clean tenant
      (streamReceipts tenant
        ((after consecutive).1.committed.stream tenant)
        readings) := by
  obtain ⟨hstream, hrows, hreceipts⟩ := sequence_consecutive
  refine (complete_stream_clean_iff (reachable consecutive) rfl
    (fun l hl => ?_) ?_ readings_healthy hreceipts).mpr ?_
  · have hsequence : l.sequence ∈ [1, 2] := hrows ▸ List.mem_map_of_mem hl
    have hle : ∀ n ∈ ([1, 2] : List Int), n ≤ maxInt64 := by decide
    exact hle _ hsequence
  · have hlength := congrArg List.length hstream
    rw [length_map] at hlength
    rw [hlength]
    rfl
  · have hchain : [1, 2].IsChain fun n n' : Int => n' = n + 1 := by simp
    rw [← hstream, isChain_map] at hchain
    exact hchain

/-- Another tenant's change takes the number between two of the tenant: the tracker is told of both and finds a
gap. -/
theorem complete_stream_gap :
    RevocationReachable (after interleaved) ∧
      HealthyClocks readings ∧
      ((after interleaved).1.committed.stream
        tenant).length = readings.length ∧
      errors .new (streamReceipts tenant
        ((after interleaved).1.committed.stream tenant)
        readings) = [none, some .gap] :=
  ⟨reachable _, readings_healthy, errors_interleaved.1,
    errors_interleaved.2⟩

end AgentGovernor
