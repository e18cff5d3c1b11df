import AgentGovernor.RevocationSnapshots

/-! Reconciliation of gateways. A gateway that takes a snapshot goes on from it with the entries numbered
after the snapshot's head; one that has read the log from its beginning applies them all. The two views are
compared at all instants from the snapshot on. A snapshot leaves out what is created but not yet effective,
and no later entry brings it back. -/

namespace AgentGovernor

open Ledger Transaction Engine RevocationSample List Option

variable {a b c : RevocationSystem × Int} {s t u : RevocationStore}

/-! ### Reconciliation -/

def maxRevocationDelta : Nat := 10000

inductive ReconciliationMode where
  | delta (changes : List RevocationLogEntry)
  | snapshot (active : List Revocation)
  deriving DecidableEq

structure RevocationReconciliation where
  mode : ReconciliationMode
  authoritativeSequence : Int
  epochs : EpochVector
  deriving DecidableEq

def EpochVector.ahead (e authority : EpochVector) : Bool :=
  authority.security < e.security || authority.tenantPolicy < e.tenantPolicy ||
    authority.tenantRevocation < e.tenantRevocation

/-- `Reconcile` once it has read a snapshot and asked for the changes after the gateway's cursor. -/
def reconcile (lastSequence : Int) (epochs : EpochVector) (snapshot : RevocationSnapshot)
    (changes : Except Failure (List RevocationLogEntry)) : Except Failure RevocationReconciliation :=
  if lastSequence < 0 then .error (.domain .invalidArgument "reconciliation cursor is invalid")
  else if snapshot.sequence < lastSequence ∨ epochs.ahead snapshot.epochs = true then
    .error (.domain .conflict "gateway state is ahead of authority")
  else match changes with
    | .ok entries =>
      if maxRevocationDelta < entries.length then
        .ok ⟨.snapshot snapshot.active, snapshot.sequence, snapshot.epochs⟩
      else .ok ⟨.delta entries, snapshot.sequence, snapshot.epochs⟩
    | .error error =>
      if error = revocationCursorGone then
        .ok ⟨.snapshot snapshot.active, snapshot.sequence, snapshot.epochs⟩
      else .error error

variable {snapshot : RevocationSnapshot}

theorem reconcile_snapshot {lastSequence sequence : Int} {epochs epochs' : EpochVector}
    {changes : Except Failure (List RevocationLogEntry)}
    {active : List Revocation}
    (h : reconcile lastSequence epochs snapshot changes = .ok ⟨.snapshot active, sequence, epochs'⟩) :
    active = snapshot.active ∧ sequence = snapshot.sequence := by
  unfold reconcile at h
  obtain ⟨_, h⟩ := ite_error_eq_ok.mp h
  obtain ⟨_, h⟩ := ite_error_eq_ok.mp h
  split at h
  · split_ifs at h
    · cases h
      exact ⟨rfl, rfl⟩
    · cases h
  · split_ifs at h
    cases h
    exact ⟨rfl, rfl⟩

variable {tenantID : ID}

/-- The head and the active revocations of a snapshot are of two databases. -/
theorem observe_revocationSnapshot {now : Time}
    (h : (revocationSnapshot tenantID now).observe [s, t] = some (.ok snapshot)) :
    snapshot = ⟨(s.snapshotHead tenantID).1, (s.snapshotHead tenantID).2, t.active tenantID now.stored⟩ := by
  unfold revocationSnapshot Tx.require at h
  by_cases hvalid : !tenantID.isZero ∧ !now.isZero
  · rw [if_pos hvalid] at h
    cases h
    rfl
  · rw [if_neg hvalid] at h
    cases h

/-! ### Views -/

/-- A gateway applies an entry to its local view. -/
def applyEntry (view : List Revocation) (e : RevocationLogEntry) : List Revocation :=
  let others := view.filter (·.id ≠ e.revocation.id)
  match e.change with
  | .created => others ++ [e.revocation]
  | .lifted => others

def applyEntries (view : List Revocation) (entries : List RevocationLogEntry) : List Revocation :=
  entries.foldl applyEntry view

/-- In force as a view tells: effective and not expired. -/
def Revocation.inForceAt (now : Time) (v : Revocation) : Bool :=
  !v.effectiveAt.after now && v.expiresAt.all (·.after now)

variable {v : Revocation} {view : List Revocation}

theorem mem_applyEntry {e : RevocationLogEntry} :
    v ∈ applyEntry view e ↔
      if e.revocation.id = v.id then e.change = .created ∧ e.revocation = v else v ∈ view := by
  unfold applyEntry
  by_cases hid : e.revocation.id = v.id
  · rw [if_pos hid]
    cases e.change <;> simp [hid, eq_comm]
  · rw [if_neg hid]
    have hne : e.revocation ≠ v := fun heq => hid (congrArg Revocation.id heq)
    cases e.change <;> simp [Ne.symm hid, Ne.symm hne]

/-- What is in a view is told by the last entry about it. -/
theorem mem_applyEntries {entries : List RevocationLogEntry} :
    v ∈ applyEntries view entries ↔
      match lastOf (·.revocation.id) entries v.id with
      | none => v ∈ view
      | some e => e.change = .created ∧ e.revocation = v := by
  induction entries using List.reverseRecOn with
  | nil => exact Iff.rfl
  | append_singleton entries e ih =>
    unfold applyEntries at ih ⊢
    rw [foldl_append, foldl_cons, foldl_nil, mem_applyEntry, lastOf_concat]
    split_ifs with hid
    · rfl
    · exact ih

theorem inForceAt_revocation (r : RevocationRow) (now : Time) :
    r.revocation.inForceAt now = r.effective now.stored := by
  have hafter : ∀ e : Int, (Time.ofStored e).after now = decide (now.stored < e) := fun e =>
    decide_eq_decide.mpr (by
      show now.nanos < 1000 * e ↔ now.nanos / 1000 < e
      omega)
  have heffective : (!(Time.ofStored r.effectiveAt).after now) = decide (r.effectiveAt ≤ now.stored) := by
    rw [hafter, ← decide_not, decide_eq_decide, Int.not_lt]
  show (!(Time.ofStored r.effectiveAt).after now &&
    (r.expiresAt.map Time.ofStored).all fun e => e.after now) = r.effective now.stored
  rw [heffective, RevocationRow.effective]
  cases r.expiresAt with
  | none => rfl
  | some e => simp [hafter e]

/-! ### What later databases add -/

/-- The log grows at its end, and only what it grows by is about revocations that have changed. -/
structure RecordGrows (s t : RevocationStore) : Prop where
  log : ∃ new, t.entries.rows = s.entries.rows ++ new ∧ ∀ id, (∀ l ∈ new, l.revocationID ≠ id) →
    ∀ c, c ∈ t.changesOf id ↔ c ∈ s.changesOf id
  rows : ∀ id r, s.revocations.get id = some r → t.revocations.get id = some r

theorem RecordGrows.refl (s : RevocationStore) : RecordGrows s s :=
  ⟨⟨[], (append_nil _).symm, fun _ _ _ => Iff.rfl⟩, fun _ _ => id⟩

theorem RecordGrows.trans (h : RecordGrows s t) (h' : RecordGrows t u) : RecordGrows s u := by
  obtain ⟨new, hrows, hchanges⟩ := h.log
  obtain ⟨new', hrows', hchanges'⟩ := h'.log
  refine ⟨⟨new ++ new', by rw [hrows', hrows, append_assoc], fun id hid c => ?_⟩,
    fun id r hr => h'.rows id r (h.rows id r hr)⟩
  rw [hchanges' id fun l hl => hid l (mem_append_right _ hl),
    hchanges id fun l hl => hid l (mem_append_left _ hl)]

variable {request : RevocationRequest} {response : RevocationResponse}

theorem Revokes.recordGrows
    {held : List RevocationLock} (h : Revokes request response held s t) : RecordGrows s t := by
  cases h with
  | change call v epochs _ _ _ _ h =>
    refine ⟨⟨[call.entry v epochs], ?_, fun id hid c => ?_⟩, fun id r hr => h.keeps hr⟩
    · rw [h.entries, Table.rows_put_of_none _ h.freshEntry]
    · have hne : v.id ≠ id := hid _ mem_cons_self
      rw [h.mem_changesOf, or_iff_left fun hnew => hne hnew.2]
  | other _ _ hrevocations hchanges hentries =>
    refine ⟨⟨[], by rw [hentries, append_nil], fun id _ c => ?_⟩, fun id r hr => hrevocations ▸ hr⟩
    rw [RevocationStore.mem_changesOf, RevocationStore.mem_changesOf, hchanges]

theorem RevocationReachable.recordGrows (h : RevocationReachable a) (hlater : RevocationLater a b) :
    RecordGrows a.1.committed b.1.committed :=
  Sequence.Reaches.relates disciplined_revocationProgram RecordGrows.refl (fun _ _ _ => RecordGrows.trans)
    (fun _ _ _ _ _ hexec => (exec_revocationProgram hexec).recordGrows) h hlater

theorem RevocationReachable.trans (h : RevocationReachable a) (hlater : RevocationLater a b) :
    RevocationReachable b :=
  Relation.ReflTransGen.trans h hlater

/-- What stands by the log is not lifted by the dates either: its creation is its only change. -/
def StandingUnlifted (s : RevocationStore) : Prop := ∀ id, s.standing id = true → s.unlifted id = true

theorem StandingUnlifted.step
    (hcommit : revocationEngine.Commits revocationProgram request response s t) (href : References s)
    (hs : StandingUnlifted s) : StandingUnlifted t := by
  obtain ⟨held, hrevokes⟩ := revokes_of_commits hcommit
  intro id hstanding
  cases hrevokes with
  | change call v epochs _ _ _ _ h =>
    by_cases hid : v.id = id
    · subst hid
      by_cases hdated : call.DatedLater s
      · rw [h.standing] at hstanding
        unfold RevocationStore.unlifted
        rw [h.lastChange_of_datedLater hdated]
        exact hstanding
      · rw [(h.unlifted_of_not_datedLater href hdated).2] at hstanding
        cases hstanding
    · unfold RevocationStore.standing RevocationStore.unlifted at *
      rw [h.lastEntry, if_neg hid] at hstanding
      rw [h.lastChange_of_ne hid]
      exact hs id hstanding
  | other _ _ _ hchanges hentries =>
    have hold := hs id
    simp only [RevocationStore.unlifted, RevocationStore.lastChange, RevocationStore.changesOf,
      RevocationStore.standing, RevocationStore.lastEntry, hchanges, hentries] at hold hstanding ⊢
    exact hold hstanding

theorem RevocationReachable.standingUnlifted (h : RevocationReachable a) :
    StandingUnlifted a.1.committed :=
  (h.history.invariant (P := fun s => References s ∧ StandingUnlifted s)
    ⟨references_initial, fun _ hstanding => absurd hstanding Bool.false_ne_true⟩
    fun _ _ _ _ hcommit hs => ⟨hs.1.step hcommit, hs.2.step hcommit hs.1⟩).1.2

/-! ### The two views -/

/-- The whole log as a tenant reads it. -/
def RevocationStore.logOf (s : RevocationStore) (tenantID : ID) : List RevocationLogEntry :=
  (s.seen tenantID).filterMap s.readEntry

/-- The view of a gateway that goes on from a snapshot. -/
def recoveredView (s : RevocationStore) (tenantID : ID) (active : List Revocation) (sequence : Int) :
    List Revocation :=
  applyEntries active ((s.logOf tenantID).filter fun e => sequence < e.sequence)

/-- The view of a gateway that has applied every entry. -/
def replayedView (s : RevocationStore) (tenantID : ID) : List Revocation :=
  applyEntries [] (s.logOf tenantID)

theorem lt_of_foldl_max {numbers : List Int} {k n : Int} (hk : k < n) (h : ∀ m ∈ numbers, m < n) :
    numbers.foldl max k < n := by
  induction numbers generalizing k with
  | nil => exact hk
  | cons m numbers ih =>
    refine ih ?_ fun m' hm' => h m' (mem_cons_of_mem _ hm')
    have hm := h m mem_cons_self
    omega

theorem readEntry_of_references (href : References s) {l : RevocationEntry} (hl : l ∈ s.entries.rows) :
    ∃ r, s.revocations.get l.revocationID = some r ∧ r.tenantID = l.tenantID ∧
      ∃ e, s.readEntry l = some e ∧ e.sequence = l.sequence ∧ e.change = l.changeType ∧
        e.revocation = r.revocation := by
  obtain ⟨r, hr, htenant, hscope, htarget⟩ := href.entries l hl
  refine ⟨r, hr, htenant, _, congrArg (Option.map _) hr, rfl, rfl, ?_⟩
  rw [← htenant, ← hscope, ← htarget]
  rfl

/-- Entries of a log, read in a database that has them all. -/
theorem mem_applyEntries_read (href : References s) {entries : List RevocationEntry}
    (hentries : ∀ l ∈ entries, l ∈ s.entries.rows) :
    v ∈ applyEntries view (entries.filterMap s.readEntry) ↔
      match lastOf RevocationEntry.revocationID entries v.id with
      | none => v ∈ view
      | some l => l.changeType = .created ∧
          ∃ r, s.revocations.get l.revocationID = some r ∧ r.revocation = v := by
  have hread : ∀ l ∈ entries, ∃ e, s.readEntry l = some e ∧ e.revocation.id = l.revocationID := by
    intro l hl
    obtain ⟨r, hr, _, e, he, _, _, hrevocation⟩ := readEntry_of_references href (hentries l hl)
    have hid : r.id = l.revocationID := Table.key_of_get hr
    exact ⟨e, he, by rw [hrevocation]; exact hid⟩
  rw [mem_applyEntries, lastOf_filterMap hread]
  cases hlast : lastOf RevocationEntry.revocationID entries v.id with
  | none => rfl
  | some l =>
    obtain ⟨r, hr, _, e, he, _, hchange, hrevocation⟩ :=
      readEntry_of_references href (hentries l (mem_of_lastOf hlast).1)
    simp only [bind_some, he, hchange, hrevocation, hr, Option.some.injEq, exists_eq_left']

theorem mem_active {now : Int} :
    v ∈ s.active tenantID now ↔ ∃ r ∈ s.revocations.rows, visibleTo tenantID r.tenantID = true ∧
      r.effective now = true ∧ s.unlifted r.id = true ∧ r.revocation = v := by
  rw [(active_perm s tenantID now).mem_iff, List.mem_map]
  simp only [mem_filter, Bool.and_eq_true, and_assoc]

/-- No entry numbered after the head is about the revocation. -/
def LeftAlone (s : RevocationStore) (tenantID : ID) (sequence : Int) (id : ID) : Prop :=
  ∀ l ∈ s.seen tenantID, l.revocationID = id → l.sequence ≤ sequence

instance (s : RevocationStore) (tenantID : ID) (sequence : Int) (id : ID) :
    Decidable (LeftAlone s tenantID sequence id) := inferInstanceAs (Decidable (∀ _ ∈ _, _))

/-- Of the revocations that later entries leave alone, those that stand are effective by the instant of the
snapshot, and none that was lifted passes for active then. -/
def SnapshotSuffices (t u : RevocationStore) (tenantID : ID) (sequence now : Int) : Prop :=
  ∀ r ∈ t.revocations.rows, visibleTo tenantID r.tenantID = true → LeftAlone u tenantID sequence r.id →
    if t.standing r.id = true then r.effectiveAt ≤ now
    else ¬(t.unlifted r.id = true ∧ r.effective now = true)

instance (t u : RevocationStore) (tenantID : ID) (sequence now : Int) :
    Decidable (SnapshotSuffices t u tenantID sequence now) :=
  inferInstanceAs (Decidable (∀ _ ∈ _, _))

section Views

variable {tenantID : ID} {sequence : Int} {new : List RevocationEntry}

theorem seen_append (hrows : t.entries.rows = s.entries.rows ++ new) :
    t.seen tenantID = s.seen tenantID ++ new.filter fun l => visibleTo tenantID l.tenantID := by
  unfold RevocationStore.seen
  rw [hrows, filter_append]

/-- The head of a snapshot separates what its database had from what came later. -/
theorem RevocationReachable.head_separates (h : RevocationReachable a) (hlater : RevocationLater a b) :
    (∀ l ∈ a.1.committed.seen tenantID, l.sequence ≤ (a.1.committed.snapshotHead tenantID).1) ∧
      ∀ l ∈ b.1.committed.entries.rows, l ∉ a.1.committed.entries.rows →
        (a.1.committed.snapshotHead tenantID).1 < l.sequence := by
  have hhead : (a.1.committed.snapshotHead tenantID).1 =
      ((a.1.committed.seen tenantID).map RevocationEntry.sequence).foldl max 0 := by
    rw [← h.visible_eq]
    rfl
  rw [hhead]
  refine ⟨fun l hl => Sequence.mem_le_foldl_max 0 (List.mem_map_of_mem hl), fun l hl hnew => ?_⟩
  have hfresh : ¬a.1.committed.Logged l.sequence := fun ⟨old, hold, hsequence⟩ => hnew (by
    rw [← b.1.committed.entries.eq_of_key_eq ((h.grows hlater).entries old hold) hl hsequence]
    exact hold)
  refine lt_of_foldl_max ((h.trans hlater).ordered.bounded _ ⟨l, hl, rfl⟩).1 fun m hm => ?_
  obtain ⟨old, hold, rfl⟩ := List.mem_map.mp hm
  exact h.above hlater ⟨old, (mem_filter.mp hold).1, rfl⟩ ⟨l, hl, rfl⟩ hfresh

/-- A revocation that is left alone has no entry at all among the later ones. -/
theorem lastOf_new_of_leftAlone (href : References t) (hrows : t.entries.rows = s.entries.rows ++ new)
    (hnew : ∀ l ∈ new, sequence < l.sequence) {r : RevocationRow} (hr : t.revocations.get r.id = some r)
    (hvisible : visibleTo tenantID r.tenantID = true) (halone : LeftAlone t tenantID sequence r.id) :
    ∀ l ∈ new, l.revocationID ≠ r.id := by
  intro l hl hid
  have hmem : l ∈ t.entries.rows := hrows ▸ mem_append_right _ hl
  obtain ⟨r', hr', htenant, _⟩ := href.entries l hmem
  rw [hid, hr] at hr'
  cases hr'
  have hseen : l ∈ t.seen tenantID := mem_filter.mpr ⟨hmem, htenant ▸ hvisible⟩
  have hlate := hnew l hl
  have hearly := halone l hseen hid
  omega

/-- A snapshot whose head was read in `s` and whose revocations in `t`, and a later database `u` whose log
is that of `s` and more, numbered after the head. -/
structure SnapshotTaken (s t u : RevocationStore) (tenantID : ID) (sequence : Int)
    (new : List RevocationEntry) : Prop where
  before : RecordGrows s t
  after : RecordGrows t u
  rows : u.entries.rows = s.entries.rows ++ new
  early : ∀ l ∈ s.seen tenantID, l.sequence ≤ sequence
  late : ∀ l ∈ new, sequence < l.sequence
  referencesBefore : References s
  references : References t
  referencesAfter : References u
  standing : StandingUnlifted t

theorem RevocationReachable.snapshotTaken (h : RevocationReachable a) (hab : RevocationLater a b)
    (hbc : RevocationLater b c) : ∃ new, SnapshotTaken a.1.committed b.1.committed c.1.committed tenantID
      (a.1.committed.snapshotHead tenantID).1 new := by
  have hb := h.trans hab
  have hac : RevocationLater a c := Relation.ReflTransGen.trans hab hbc
  have hbefore := h.recordGrows hab
  have hafter := hb.recordGrows hbc
  obtain ⟨new, hrows, _⟩ := (hbefore.trans hafter).log
  obtain ⟨hearly, hlate⟩ := h.head_separates hac
  refine ⟨new, hbefore, hafter, hrows, hearly, fun l hl => hlate l (hrows ▸ mem_append_right _ hl) ?_,
    h.references, hb.references, (hb.trans hbc).references, hb.standingUnlifted⟩
  intro hold
  have hnodup := c.1.committed.entries.nodup
  rw [hrows, map_append, nodup_append] at hnodup
  exact hnodup.2.2 _ (List.mem_map_of_mem hold) _ (List.mem_map_of_mem hl) rfl

variable (h : SnapshotTaken s t u tenantID sequence new)

include h

theorem SnapshotTaken.seen :
    u.seen tenantID = s.seen tenantID ++ new.filter fun l => visibleTo tenantID l.tenantID :=
  seen_append h.rows

theorem SnapshotTaken.recovered (active : List Revocation) :
    recoveredView u tenantID active sequence =
      applyEntries active ((new.filter fun l => visibleTo tenantID l.tenantID).filterMap u.readEntry) := by
  have hread : ∀ {l e}, u.readEntry l = some e → e.sequence = l.sequence := sequence_of_readEntry
  unfold recoveredView RevocationStore.logOf
  rw [h.seen, filterMap_append, filter_append]
  have hearly : ((s.seen tenantID).filterMap u.readEntry).filter (fun e => sequence < e.sequence) = [] := by
    refine filter_eq_nil_iff.mpr fun e he => ?_
    obtain ⟨l, hl, hentry⟩ := mem_filterMap.mp he
    have := h.early l hl
    rw [hread hentry, decide_eq_true_eq]
    omega
  have hlate : ((new.filter fun l => visibleTo tenantID l.tenantID).filterMap u.readEntry).filter
      (fun e => sequence < e.sequence) =
        (new.filter fun l => visibleTo tenantID l.tenantID).filterMap u.readEntry := by
    refine filter_eq_self.mpr fun e he => ?_
    obtain ⟨l, hl, hentry⟩ := mem_filterMap.mp he
    rw [hread hentry, decide_eq_true_eq]
    exact h.late l (mem_filter.mp hl).1
  rw [hearly, hlate, nil_append]

theorem SnapshotTaken.leftAlone_iff {id : ID} : LeftAlone u tenantID sequence id ↔
    lastOf RevocationEntry.revocationID (new.filter fun l => visibleTo tenantID l.tenantID) id = none := by
  unfold LeftAlone
  rw [lastOf_eq_none_iff, h.seen]
  constructor
  · intro halone l hl hid
    have hearly := halone l (mem_append_right _ hl) hid
    have hlate := h.late l (mem_filter.mp hl).1
    omega
  · intro hnone l hl hid
    rcases mem_append.mp hl with hl | hl
    · exact h.early l hl
    · exact absurd hid (hnone l hl)

variable {v : Revocation}

/-- Where an entry came later, the snapshot does not matter. -/
theorem SnapshotTaken.mem_of_not_leftAlone {active : List Revocation}
    (hchanged : ¬LeftAlone u tenantID sequence v.id) :
    v ∈ recoveredView u tenantID active sequence ↔ v ∈ replayedView u tenantID := by
  have hmem : ∀ l ∈ u.seen tenantID, l ∈ u.entries.rows := fun l hl => (mem_filter.mp hl).1
  have hnew : ∀ l ∈ new.filter (fun l => visibleTo tenantID l.tenantID), l ∈ u.entries.rows := fun l hl =>
    hmem l (h.seen ▸ mem_append_right _ hl)
  rw [h.leftAlone_iff] at hchanged
  obtain ⟨l, hl⟩ := ne_none_iff_exists'.mp hchanged
  unfold replayedView RevocationStore.logOf
  rw [h.recovered, mem_applyEntries_read h.referencesAfter hnew, mem_applyEntries_read h.referencesAfter hmem,
    h.seen, lastOf_append, hl]
  rfl

/-- Where none did, the replayed view tells what stands. -/
theorem SnapshotTaken.mem_replayed (halone : LeftAlone u tenantID sequence v.id) :
    v ∈ replayedView u tenantID ↔ ∃ r ∈ t.revocations.rows, visibleTo tenantID r.tenantID = true ∧
      t.standing r.id = true ∧ r.revocation = v := by
  have hmem : ∀ l ∈ u.seen tenantID, l ∈ u.entries.rows := fun l hl => (mem_filter.mp hl).1
  have hseen : lastOf RevocationEntry.revocationID (u.seen tenantID) v.id =
      lastOf RevocationEntry.revocationID (s.seen tenantID) v.id := by
    rw [h.seen, lastOf_append, h.leftAlone_iff.mp halone, none_or]
  -- The last entry about a visible revocation is the same in `s`, among what is visible, and in `t`.
  have hstanding : ∀ r ∈ t.revocations.rows, visibleTo tenantID r.tenantID = true → r.id = v.id →
      t.lastEntry r.id = lastOf RevocationEntry.revocationID (s.seen tenantID) v.id := by
    intro r hr hvisible hid
    obtain ⟨early, hrows, _⟩ := h.before.log
    obtain ⟨later, hrows', _⟩ := h.after.log
    have hsplit : new = early ++ later := by
      have htotal := h.rows
      rw [hrows', hrows, append_assoc] at htotal
      exact (append_cancel_left htotal).symm
    have hget : u.revocations.get r.id = some r := h.after.rows _ _ (Table.get_of_mem hr)
    have hnone := lastOf_new_of_leftAlone h.referencesAfter h.rows h.late hget hvisible (hid ▸ halone)
    unfold RevocationStore.lastEntry
    rw [hrows, lastOf_append, lastOf_eq_none_iff.mpr fun l hl =>
      hnone l (hsplit ▸ mem_append_left _ hl), none_or, ← hid]
    refine (lastOf_filter fun l hl hl' => ?_).symm
    obtain ⟨r', hr', htenant, _⟩ := h.referencesBefore.entries l hl
    have hkept := h.before.rows _ _ hr'
    rw [hl', Table.get_of_mem hr] at hkept
    cases hkept
    exact htenant ▸ hvisible
  unfold replayedView RevocationStore.logOf
  rw [mem_applyEntries_read h.referencesAfter hmem, hseen]
  constructor
  · intro hview
    cases hlast : lastOf RevocationEntry.revocationID (s.seen tenantID) v.id with
    | none =>
      rw [hlast] at hview
      cases hview
    | some l =>
      rw [hlast] at hview
      obtain ⟨hcreated, r, hr, hv⟩ := hview
      obtain ⟨hl, hid⟩ := mem_of_lastOf hlast
      obtain ⟨hmem, hvisible⟩ := mem_filter.mp hl
      obtain ⟨r', hr', htenant, _⟩ := h.referencesBefore.entries l hmem
      have hkept := h.before.rows _ _ hr'
      rw [h.after.rows _ _ hkept] at hr
      cases hr
      have hrow : r.id = v.id := congrArg Revocation.id hv
      refine ⟨r, Table.mem_of_get hkept, htenant ▸ hvisible, ?_, hv⟩
      unfold RevocationStore.standing
      rw [hstanding r (Table.mem_of_get hkept) (htenant ▸ hvisible) hrow, hlast]
      exact decide_eq_true hcreated
  · rintro ⟨r, hr, hvisible, hstands, hv⟩
    have hid : r.id = v.id := congrArg Revocation.id hv
    unfold RevocationStore.standing at hstands
    rw [hstanding r hr hvisible hid] at hstands
    cases hlast : lastOf RevocationEntry.revocationID (s.seen tenantID) v.id with
    | none =>
      rw [hlast] at hstands
      cases hstands
    | some l =>
      rw [hlast] at hstands
      have hkey : r.id = l.revocationID := hid.trans (mem_of_lastOf hlast).2.symm
      have hget := h.after.rows _ _ (Table.get_of_mem hr)
      exact ⟨of_decide_eq_true hstands, r, hkey ▸ hget, hv⟩

/-- The two views agree at all instants from that of the snapshot on just when the snapshot suffices. -/
theorem SnapshotTaken.agree_iff (now : Time) :
    (∀ at' : Time, now.nanos ≤ at'.nanos → ∀ v : Revocation,
      (v ∈ recoveredView u tenantID (t.active tenantID now.stored) sequence ∧ v.inForceAt at' = true) ↔
        (v ∈ replayedView u tenantID ∧ v.inForceAt at' = true)) ↔
      SnapshotSuffices t u tenantID sequence now.stored := by
  have hrecovered : ∀ {v : Revocation}, LeftAlone u tenantID sequence v.id →
      (v ∈ recoveredView u tenantID (t.active tenantID now.stored) sequence ↔
        v ∈ t.active tenantID now.stored) := by
    intro v halone
    have hnew : ∀ l ∈ new.filter (fun l => visibleTo tenantID l.tenantID), l ∈ u.entries.rows := fun l hl =>
      h.rows ▸ mem_append_right _ (mem_filter.mp hl).1
    rw [h.recovered, mem_applyEntries_read h.referencesAfter hnew, h.leftAlone_iff.mp halone]
  have hsame : ∀ {r r' : RevocationRow}, r'.revocation = r.revocation → r' ∈ t.revocations.rows →
      r ∈ t.revocations.rows → r' = r := fun heq hr' hr =>
    t.revocations.eq_of_key_eq hr' hr (congrArg Revocation.id heq)
  constructor
  · intro hagree r hr hvisible halone
    split_ifs with hstanding
    · -- What stands is in force when it takes effect, so it has to be in the snapshot.
      by_contra hfuture
      have hcheck := h.references.checked r hr
      have heffective : r.effective r.effectiveAt = true := by
        simp only [RevocationRow.check, Bool.and_eq_true] at hcheck
        simp [RevocationRow.effective, hcheck.2]
      have hstored : (Time.ofStored r.effectiveAt).stored = r.effectiveAt := by
        simp only [Time.ofStored, Time.stored]
        omega
      have hlater : now.nanos ≤ (Time.ofStored r.effectiveAt).nanos := by
        simp only [Time.ofStored, Time.stored] at hfuture ⊢
        omega
      have hforce : r.revocation.inForceAt (Time.ofStored r.effectiveAt) = true := by
        rw [inForceAt_revocation, hstored]
        exact heffective
      have hreplayed : r.revocation ∈ replayedView u tenantID :=
        (h.mem_replayed halone).mpr ⟨r, hr, hvisible, hstanding, rfl⟩
      obtain ⟨hview, _⟩ := (hagree _ hlater r.revocation).mpr ⟨hreplayed, hforce⟩
      obtain ⟨r', hr', _, hnow, _, heq⟩ := mem_active.mp ((hrecovered halone).mp hview)
      cases hsame heq hr' hr
      simp only [RevocationRow.effective, Bool.and_eq_true, decide_eq_true_eq] at hnow
      exact hfuture hnow.1
    · rintro ⟨hunlifted, heffective⟩
      have hview : r.revocation ∈ recoveredView u tenantID (t.active tenantID now.stored) sequence :=
        (hrecovered halone).mpr (mem_active.mpr ⟨r, hr, hvisible, heffective, hunlifted, rfl⟩)
      have hforce : r.revocation.inForceAt now = true := by
        rw [inForceAt_revocation]
        exact heffective
      obtain ⟨hreplayed, _⟩ := (hagree now (Int.le_refl _) r.revocation).mp ⟨hview, hforce⟩
      obtain ⟨r', hr', _, hstands, heq⟩ := (h.mem_replayed halone).mp hreplayed
      cases hsame heq hr' hr
      exact hstanding hstands
  · intro hsuffices at' hlater v
    refine and_congr_left fun hforce => ?_
    by_cases halone : LeftAlone u tenantID sequence v.id
    · rw [hrecovered halone, h.mem_replayed halone, mem_active]
      constructor
      · rintro ⟨r, hr, hvisible, heffective, hunlifted, rfl⟩
        refine ⟨r, hr, hvisible, ?_, rfl⟩
        by_contra hstanding
        have hcase := hsuffices r hr hvisible halone
        rw [if_neg hstanding] at hcase
        exact hcase ⟨hunlifted, heffective⟩
      · rintro ⟨r, hr, hvisible, hstanding, rfl⟩
        refine ⟨r, hr, hvisible, ?_, h.standing r.id hstanding, rfl⟩
        have hcase := hsuffices r hr hvisible halone
        rw [if_pos hstanding] at hcase
        rw [inForceAt_revocation] at hforce
        simp only [RevocationRow.effective, Bool.and_eq_true, decide_eq_true_eq] at hforce ⊢
        refine ⟨hcase, ?_⟩
        cases hexpires : r.expiresAt with
        | none => rfl
        | some e =>
          have hbefore : at'.stored < e := by simpa [hexpires] using hforce.2
          have hmono : now.stored ≤ at'.stored := by
            simp only [Time.stored]
            omega
          simp only [all_some, decide_eq_true_eq]
          omega
    · exact h.mem_of_not_leftAlone halone

end Views

/-- A gateway that reconciles by a snapshot and goes on with the later entries, and one that has applied the
log from its beginning, have the same revocations in force at all instants from that of the snapshot on just
when, of the revocations left alone by the later entries, those that stand were effective when the snapshot
was taken and none that was lifted was active in it. -/
theorem reconciliation_agrees (h : RevocationReachable a) (hab : RevocationLater a b)
    (hbc : RevocationLater b c) {tenantID : ID} {now : Time} {snapshot : RevocationSnapshot}
    (hsnapshot : (revocationSnapshot tenantID now).observe [a.1.committed, b.1.committed] =
      some (.ok snapshot))
    {lastSequence sequence : Int} {epochs epochs' : EpochVector}
    {changes : Except Failure (List RevocationLogEntry)} {active : List Revocation}
    (hmode : reconcile lastSequence epochs snapshot changes = .ok ⟨.snapshot active, sequence, epochs'⟩) :
    (∀ at' : Time, now.nanos ≤ at'.nanos → ∀ v : Revocation,
      (v ∈ recoveredView c.1.committed tenantID active sequence ∧ v.inForceAt at' = true) ↔
        (v ∈ replayedView c.1.committed tenantID ∧ v.inForceAt at' = true)) ↔
      SnapshotSuffices b.1.committed c.1.committed tenantID sequence now.stored := by
  obtain ⟨rfl, rfl⟩ := reconcile_snapshot hmode
  rw [observe_revocationSnapshot hsnapshot]
  obtain ⟨new, htaken⟩ := h.snapshotTaken hab hbc
  exact htaken.agree_iff now

namespace RevocationSample

/-- A principal is revoked from second `effective` on, by a change of second 10. -/
def revokedFrom (effective : Int) : List RevocationRequest :=
  [.create tenant (revocation 1 (some tenant) .principalID "principal-1" effective 10) (evidence 1) 1 tenant]

/-- What `Reconcile` reads at second 50 when ten seconds are retained. -/
def snapshotAt (requests : List RevocationRequest) : RevocationSnapshot :=
  ⟨((after requests).1.committed.snapshotHead tenant).1, ((after requests).1.committed.snapshotHead tenant).2,
    (after requests).1.committed.active tenant (instant 50).stored⟩

def changesAt (requests : List RevocationRequest) : Except Failure (List RevocationLogEntry) :=
  (revocationEngine.run (revocationChanges tenant 0 10001 (instant 40)) (after requests).1.committed).map
    Prod.fst

theorem observed (requests : List RevocationRequest) :
    (revocationSnapshot tenant (instant 50)).observe
      [(after requests).1.committed, (after requests).1.committed] = some (.ok (snapshotAt requests)) := by
  rfl

theorem revokedFrom_reconciled :
    reconcile 0 ⟨0, 0, 0, 0⟩ (snapshotAt (revokedFrom 20)) (changesAt (revokedFrom 20)) =
        .ok ⟨.snapshot (snapshotAt (revokedFrom 20)).active, 1, (snapshotAt (revokedFrom 20)).epochs⟩ ∧
      SnapshotSuffices (after (revokedFrom 20)).1.committed (after (revokedFrom 20)).1.committed tenant 1
        (instant 50).stored := by
  decide +kernel

theorem revokedFrom_replayed :
    revocation 1 (some tenant) .principalID "principal-1" 20 10 ∈
        replayedView (after (revokedFrom 20)).1.committed tenant ∧
      (revocation 1 (some tenant) .principalID "principal-1" 20 10).inForceAt (instant 150) = true := by
  decide +kernel

theorem revokedFrom_future :
    reconcile 0 ⟨0, 0, 0, 0⟩ (snapshotAt (revokedFrom 100)) (changesAt (revokedFrom 100)) =
        .ok ⟨.snapshot [], 1, (snapshotAt (revokedFrom 100)).epochs⟩ ∧
      recoveredView (after (revokedFrom 100)).1.committed tenant [] 1 = [] ∧
      (replayedView (after (revokedFrom 100)).1.committed tenant).filter (Revocation.inForceAt (instant 150)) =
        [revocation 1 (some tenant) .principalID "principal-1" 100 10] := by
  decide +kernel

end RevocationSample

theorem reconciliation_agrees_effective :
    revocation 1 (some tenant) .principalID "principal-1" 20 10 ∈
        recoveredView (after (revokedFrom 20)).1.committed
          tenant (snapshotAt (revokedFrom 20)).active 1 ∧
      (revocation 1 (some tenant) .principalID "principal-1" 20 10).inForceAt
        (instant 150) = true := by
  obtain ⟨hmode, hsuffices⟩ := revokedFrom_reconciled
  have hagree := (reconciliation_agrees (reachable (revokedFrom 20))
    Relation.ReflTransGen.refl Relation.ReflTransGen.refl
    (observed (revokedFrom 20)) hmode).mpr hsuffices
  exact (hagree (instant 150) (by decide) _).mpr revokedFrom_replayed

/-- A revocation that takes effect after the snapshot is in force for the gateway that has replayed the log,
and is not known to the one that has reconciled. -/
theorem reconciliation_loses_future :
    reconcile 0 ⟨0, 0, 0, 0⟩ (snapshotAt (revokedFrom 100))
        (changesAt (revokedFrom 100)) =
      .ok ⟨.snapshot [], 1, (snapshotAt (revokedFrom 100)).epochs⟩ ∧
    ¬∀ at' : Time, (instant 50).nanos ≤ at'.nanos → ∀ v : Revocation,
      (v ∈ recoveredView (after (revokedFrom 100)).1.committed
          tenant [] 1 ∧ v.inForceAt at' = true) ↔
        (v ∈ replayedView (after (revokedFrom 100)).1.committed
          tenant ∧ v.inForceAt at' = true) := by
  obtain ⟨hmode, hrecovered, hreplayed⟩ := revokedFrom_future
  refine ⟨hmode, fun hagree => ?_⟩
  have hmem := (mem_filter.mp (hreplayed ▸ mem_cons_self))
  have hview := ((hagree (instant 150) (by decide) _).mpr hmem).1
  rw [hrecovered] at hview
  cases hview

end AgentGovernor
