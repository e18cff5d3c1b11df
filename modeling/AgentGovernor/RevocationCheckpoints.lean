import AgentGovernor.PolicyRevocation
import AgentGovernor.RevocationDelta
import Mathlib.Data.List.Destutter

/-! The checkpoints of gateways. A stream sends the entries of the log that a tenant may see, in the order of
their numbers, and saves a checkpoint after each. A checkpoint must not regress in the number or in one of three
epochs; but an entry carries the epochs of its own scope only, and those of the tenant are read as zero from a
global one. -/

namespace AgentGovernor

open Ledger RevocationSample List Option

variable {a : RevocationSystem × Int}

/-! ### Checkpoints -/

structure GatewayCheckpoint where
  tenantID : ID
  gatewayPrincipalID : ID
  lastSequence : Int
  epochs : EpochVector
  lastStreamReceivedAt : Option Time
  lastReconciledAt : Option Time
  updatedAt : Time

/-- A row of `gateway_checkpoints`. -/
structure CheckpointRow where
  tenantID : ID
  gatewayPrincipalID : ID
  lastSequence : Int
  securityEpoch : Int
  tenantPolicyEpoch : Int
  tenantRevocationEpoch : Int
  lastStreamReceivedAt : Option Int
  lastReconciledAt : Option Int
  updatedAt : Int
  deriving DecidableEq

def CheckpointRow.key (r : CheckpointRow) : ID × ID := (r.tenantID, r.gatewayPrincipalID)

abbrev Checkpoints : Type := Table CheckpointRow.key

def GatewayCheckpoint.row (c : GatewayCheckpoint) : CheckpointRow where
  tenantID := c.tenantID
  gatewayPrincipalID := c.gatewayPrincipalID
  lastSequence := c.lastSequence
  securityEpoch := c.epochs.security
  tenantPolicyEpoch := c.epochs.tenantPolicy
  tenantRevocationEpoch := c.epochs.tenantRevocation
  lastStreamReceivedAt := c.lastStreamReceivedAt.map Time.stored
  lastReconciledAt := c.lastReconciledAt.map Time.stored
  updatedAt := c.updatedAt.stored

/-- The row has come no further than this number and these epochs. -/
def CheckpointRow.reaches (r : CheckpointRow) (sequence : Int) (epochs : EpochVector) : Bool :=
  r.lastSequence ≤ sequence && r.securityEpoch ≤ epochs.security &&
    r.tenantPolicyEpoch ≤ epochs.tenantPolicy && r.tenantRevocationEpoch ≤ epochs.tenantRevocation

theorem CheckpointRow.reaches_iff {r : CheckpointRow} {sequence : Int} {epochs : EpochVector} :
    r.reaches sequence epochs = true ↔ r.lastSequence ≤ sequence ∧ r.securityEpoch ≤ epochs.security ∧
      r.tenantPolicyEpoch ≤ epochs.tenantPolicy ∧ r.tenantRevocationEpoch ≤ epochs.tenantRevocation := by
  simp [CheckpointRow.reaches, and_assoc]

def checkpointRegresses : Failure := .domain .conflict "gateway checkpoint cannot regress"

def GatewayCheckpoint.valid (c : GatewayCheckpoint) : Bool :=
  !c.tenantID.isZero && !c.gatewayPrincipalID.isZero && 0 ≤ c.lastSequence && 0 ≤ c.epochs.security &&
    0 ≤ c.epochs.tenantPolicy && 0 ≤ c.epochs.tenantRevocation && !c.updatedAt.isZero

/-- `INSERT … ON CONFLICT … DO UPDATE … WHERE`; a new row refers to a principal, which may not be registered,
and instants that the update leaves out stay. -/
def saveGatewayCheckpoint (registered : Bool) (saved : Checkpoints) (c : GatewayCheckpoint) :
    Except Failure Checkpoints :=
  if !c.valid then .error (.plain "gateway checkpoint is invalid")
  else match saved.get (c.tenantID, c.gatewayPrincipalID) with
    | none => if registered then .ok (saved.put c.row) else .error (.database "save gateway checkpoint")
    | some old =>
      if old.reaches c.lastSequence c.epochs then
        .ok (saved.put { c.row with
          lastStreamReceivedAt := c.row.lastStreamReceivedAt.or old.lastStreamReceivedAt
          lastReconciledAt := c.row.lastReconciledAt.or old.lastReconciledAt })
      else .error checkpointRegresses

/-! ### Streams -/

/-- `NormalizeStrings`: sorted, and neither blank ones nor repetitions of the one before. -/
def Policy.normalizeStrings (values : List String) : List String :=
  ((values.insertionSort (· ≤ ·)).filter fun x => trimSpace x ≠ []).destutter (· ≠ ·)

structure Gateway where
  tenantID : ID
  principalID : ID
  roles : List String
  /-- The principal has a row in `principals`. -/
  registered : Bool

namespace Gateway

variable (gateway : Gateway) (evaluate : Policy.Evaluator)

def key : ID × ID := (gateway.tenantID, gateway.principalID)

/-- The identities come from a verified token, and zero ones are refused. -/
def verified : Bool := !gateway.tenantID.isZero && !gateway.principalID.isZero

/-- What `authorizeGateway` asks the policy. -/
def input (decisionID : ID) (now : Time) : Policy.Input :=
  { contractVersion := Policy.contractVersion, decisionID := decisionID.string, requestTime := now
    subject :=
      { principalID := gateway.principalID.string, tenantID := gateway.tenantID.string
        principalType := "gateway", roles := Policy.normalizeStrings gateway.roles
        authenticationMethods := [], issuer := "" }
    action := "revocations.reconcile"
    resource :=
      { type := "revocation", id := gateway.tenantID.string, tenantID := gateway.tenantID.string
        attributes := some [] }
    agent := none, requestedConstraints := some [], authorityConstraints := some []
    securityState := ⟨0, 0, 0, 0, 0, 0, false, true⟩
    context := { requestID := decisionID.string, sourceWorkload := "" } }

def authorize (decisionID : ID) (clock : Time) : Except Failure Unit :=
  if !gateway.verified then .error (.domain .unauthenticated "verified gateway identity is invalid")
  else do
    let now ← (requireUTC clock).mapError fun _ =>
      .domain .internal "revocation distribution clock is invalid"
    let result ← (evaluate (gateway.input decisionID now)).mapError fun _ =>
      .domain .unavailable "gateway authorization policy is unavailable"
    if result.decision.decisionID ≠ decisionID.string then
      .error (.domain .unavailable "gateway authorization policy returned invalid evidence")
    else if !result.decision.allow then
      .error (.domain .forbidden "gateway revocation access is not authorized")
    else .ok ()

/-- What one `CheckpointStream` reads: a new identifier and the clock, twice. -/
structure Tick where
  decisionID : ID
  authorizedAt : Time
  savedAt : Time

def checkpointStream (saved : Checkpoints) (sequence : Int) (epochs : EpochVector) (tick : Tick) :
    Except Failure Checkpoints := do
  gateway.authorize evaluate tick.decisionID tick.authorizedAt
  let now ← requireUTC tick.savedAt
  saveGatewayCheckpoint gateway.registered saved
    { tenantID := gateway.tenantID, gatewayPrincipalID := gateway.principalID, lastSequence := sequence
      epochs := epochs, lastStreamReceivedAt := some now, lastReconciledAt := none, updatedAt := now }

/-- The loop of the handler over the entries that it sends; the first error ends the stream. -/
def deliver (saved : Checkpoints) : List (RevocationLogEntry × Tick) → Except Failure Checkpoints
  | [] => .ok saved
  | (e, tick) :: rest => do
    let saved ← gateway.checkpointStream evaluate saved e.sequence e.epochs tick
    deliver saved rest

end Gateway

/-- The first `n` entries after a cursor that a tenant may see, as they are read. -/
def RevocationStore.streamed (s : RevocationStore) (tenantID : ID) (after : Int) (n : Nat) :
    List RevocationLogEntry :=
  (((s.visible tenantID).filter fun l => after < l.sequence).filterMap s.readEntry).take n

/-! ### What a save does -/

section Saves

variable {registered : Bool} {saved saved' : Checkpoints} {c : GatewayCheckpoint}

/-- A save fails with a conflict just when there is a row that it would take back. -/
theorem save_conflict_iff (hvalid : c.valid = true) :
    saveGatewayCheckpoint registered saved c = .error checkpointRegresses ↔
      ∃ old, saved.get (c.tenantID, c.gatewayPrincipalID) = some old ∧
        old.reaches c.lastSequence c.epochs = false := by
  unfold saveGatewayCheckpoint
  rw [if_neg (by simp [hvalid])]
  cases hold : saved.get (c.tenantID, c.gatewayPrincipalID) with
  | none => cases registered <;> simp [checkpointRegresses]
  | some old =>
    dsimp only
    by_cases hreaches : old.reaches c.lastSequence c.epochs = true
    · simp [hreaches]
    · simp [hreaches]

theorem save_error {e : Failure} (h : saveGatewayCheckpoint registered saved c = .error e) :
    c.valid = false ∨ registered = false ∨ e = checkpointRegresses := by
  unfold saveGatewayCheckpoint at h
  split at h
  · rename_i hinvalid
    exact Or.inl (by simpa using hinvalid)
  · split at h
    · split_ifs at h with hregistered
      exact Or.inr (Or.inl (by simpa using hregistered))
    · split_ifs at h
      cases h
      exact Or.inr (Or.inr rfl)

/-- The saved row has the number and the epochs of the checkpoint. -/
theorem get_of_save (h : saveGatewayCheckpoint registered saved c = .ok saved') :
    ∃ r, saved'.get (c.tenantID, c.gatewayPrincipalID) = some r ∧ ∀ sequence epochs,
      r.reaches sequence epochs = c.row.reaches sequence epochs := by
  unfold saveGatewayCheckpoint at h
  split at h
  · cases h
  · split at h <;> split_ifs at h <;> cases h <;> exact ⟨_, Table.get_put_self _ _, fun _ _ => rfl⟩

end Saves

/-! ### What a stream does -/

/-- The number and the epochs of the second entry are not behind those of the first. -/
def RevocationLogEntry.Precedes (e e' : RevocationLogEntry) : Prop :=
  e.sequence ≤ e'.sequence ∧ e.epochs.security ≤ e'.epochs.security ∧
    e.epochs.tenantPolicy ≤ e'.epochs.tenantPolicy ∧ e.epochs.tenantRevocation ≤ e'.epochs.tenantRevocation

/-- No entry regresses: not the first one behind the saved checkpoint, and none behind the one before it. -/
def Follows (gateway : Gateway) (saved : Checkpoints) (entries : List RevocationLogEntry) : Prop :=
  (∀ old, saved.get gateway.key = some old → ∀ first ∈ entries.head?,
      old.reaches first.sequence first.epochs = true) ∧
    entries.IsChain RevocationLogEntry.Precedes

namespace Gateway

variable {gateway : Gateway} {evaluate : Policy.Evaluator} {saved saved' : Checkpoints}
  {e : RevocationLogEntry} {rest : List RevocationLogEntry} {tick : Tick}

/-- The checkpoint that is saved after an entry. -/
def checkpoint (gateway : Gateway) (e : RevocationLogEntry) (now : Time) : GatewayCheckpoint :=
  { tenantID := gateway.tenantID, gatewayPrincipalID := gateway.principalID, lastSequence := e.sequence
    epochs := e.epochs, lastStreamReceivedAt := some now, lastReconciledAt := none, updatedAt := now }

theorem checkpointStream_ok (h : gateway.checkpointStream evaluate saved e.sequence e.epochs tick = .ok saved') :
    ∃ now, saveGatewayCheckpoint gateway.registered saved (gateway.checkpoint e now) = .ok saved' := by
  obtain ⟨_, _, h⟩ := bind_eq_ok.mp h
  obtain ⟨now, _, h⟩ := bind_eq_ok.mp h
  exact ⟨now, h⟩

/-- A policy that refuses, or a bad clock, is not a conflict. -/
theorem authorize_ne_conflict (decisionID : ID) (clock : Time) :
    gateway.authorize evaluate decisionID clock ≠ .error checkpointRegresses := by
  unfold authorize
  split_ifs
  · intro h
    cases h
  · cases hclock : requireUTC clock with
    | error _ =>
      intro h
      cases h
    | ok now =>
      cases hresult : evaluate (gateway.input decisionID now) with
      | error _ =>
        intro h
        simp only [Except.mapError, hresult, bind, Except.bind] at h
        cases h
      | ok result =>
        simp only [Except.mapError, hresult, bind, Except.bind]
        split_ifs <;> exact fun h => by cases h

theorem checkpointStream_conflict
    (h : gateway.checkpointStream evaluate saved e.sequence e.epochs tick = .error checkpointRegresses) :
    ∃ old, saved.get gateway.key = some old ∧ old.reaches e.sequence e.epochs = false := by
  unfold checkpointStream at h
  cases hauthorized : gateway.authorize evaluate tick.decisionID tick.authorizedAt with
  | error failure =>
    rw [hauthorized] at h
    cases h
    exact absurd hauthorized (authorize_ne_conflict _ _)
  | ok u =>
    rw [hauthorized] at h
    cases hnow : requireUTC tick.savedAt with
    | error failure =>
      rw [hnow] at h
      unfold requireUTC at hnow
      split_ifs at hnow
      cases hnow
      cases h
    | ok now =>
      rw [hnow] at h
      have hsave : saveGatewayCheckpoint gateway.registered saved (gateway.checkpoint e now) =
          .error checkpointRegresses := h
      by_cases hvalid : (gateway.checkpoint e now).valid = true
      · exact (save_conflict_iff hvalid).mp hsave
      · unfold saveGatewayCheckpoint at hsave
        rw [if_pos (by simpa using hvalid)] at hsave
        cases hsave

variable {now : Time}

/-- After a save the rest of the stream goes on from the entry. -/
theorem follows_of_save
    (h : saveGatewayCheckpoint gateway.registered saved (gateway.checkpoint e now) = .ok saved') :
    Follows gateway saved' rest ↔ (e :: rest).IsChain RevocationLogEntry.Precedes := by
  obtain ⟨r, hr, hreaches⟩ := get_of_save h
  have hprecedes : ∀ e' : RevocationLogEntry, r.reaches e'.sequence e'.epochs = true ↔ e.Precedes e' := by
    intro e'
    rw [hreaches, CheckpointRow.reaches_iff]
    rfl
  unfold Follows
  rw [isChain_cons]
  refine and_congr_left fun _ => ?_
  constructor
  · intro hall e' he'
    exact (hprecedes e').mp (hall r hr e' he')
  · intro hall old hold e' he'
    have hold' : r = old := Option.some.inj (hr.symm.trans hold)
    subst hold'
    exact (hprecedes e').mpr (hall e' he')

variable {entries : List RevocationLogEntry}

/-- A stream whose entries do not regress does not end with a conflict. -/
theorem deliver_ne_conflict (h : Follows gateway saved entries)
    (ticks : List Tick) : gateway.deliver evaluate saved (entries.zip ticks) ≠ .error checkpointRegresses := by
  induction entries generalizing saved ticks with
  | nil =>
    rw [zip_nil_left]
    exact fun h => nomatch h
  | cons e rest ih =>
    cases ticks with
    | nil =>
      rw [zip_nil_right]
      exact fun h => nomatch h
    | cons tick ticks =>
      intro hconflict
      rw [zip_cons_cons] at hconflict
      unfold deliver at hconflict
      cases hstep : gateway.checkpointStream evaluate saved e.sequence e.epochs tick with
      | error failure =>
        rw [hstep] at hconflict
        cases hconflict
        obtain ⟨old, hold, hbehind⟩ := checkpointStream_conflict hstep
        rw [h.1 old hold e rfl] at hbehind
        cases hbehind
      | ok saved' =>
        rw [hstep] at hconflict
        obtain ⟨now, hsave⟩ := checkpointStream_ok hstep
        exact ih ((follows_of_save hsave).mpr h.2) ticks hconflict

/-- A policy that allows everything. -/
def allowAll : Policy.Evaluator := fun input =>
  .ok
    { decision :=
        { contractVersion := Policy.contractVersion, decisionID := input.decisionID, allow := true
          reasonCodes := [], resolvedConstraints := none, obligations := none, decisionTTLSeconds := 0 }
      metadata := ⟨"", 0, "", ""⟩ }

def instantTick : Tick := ⟨.ofNat 1, ⟨1000000000, true⟩, ⟨1000000000, true⟩⟩

theorem checkpointStream_allowAll (hgateway : gateway.verified = true) :
    ∃ now : Time, now.isZero = false ∧
      gateway.checkpointStream allowAll saved e.sequence e.epochs instantTick =
        saveGatewayCheckpoint gateway.registered saved (gateway.checkpoint e now) := by
  refine ⟨⟨1000000000, true⟩, by decide, ?_⟩
  unfold checkpointStream authorize
  rw [if_neg (by simp [hgateway])]
  rfl

theorem checkpoint_valid (hgateway : gateway.verified = true) (hsequence : 0 ≤ e.sequence)
    (hepochs : 0 ≤ e.epochs.security ∧ 0 ≤ e.epochs.tenantPolicy ∧ 0 ≤ e.epochs.tenantRevocation)
    (hnow : now.isZero = false) : (gateway.checkpoint e now).valid = true := by
  unfold verified at hgateway
  simp only [Bool.and_eq_true] at hgateway
  simp [GatewayCheckpoint.valid, checkpoint, hgateway, hsequence, hepochs, hnow]

/-- A stream that regresses somewhere ends with a conflict, if nothing else ends it before. -/
theorem deliver_conflict (hgateway : gateway.verified = true) (hregistered : gateway.registered = true)
    (hvalid : ∀ e ∈ entries, 0 ≤ e.sequence ∧ 0 ≤ e.epochs.security ∧ 0 ≤ e.epochs.tenantPolicy ∧
      0 ≤ e.epochs.tenantRevocation) (h : ¬Follows gateway saved entries) :
    gateway.deliver allowAll saved (entries.zip (List.replicate entries.length instantTick)) =
      .error checkpointRegresses := by
  induction entries generalizing saved with
  | nil => exact absurd ⟨fun _ _ _ hfirst => (nomatch hfirst), isChain_nil⟩ h
  | cons e rest ih =>
    obtain ⟨hsequence, hepochs⟩ := hvalid e mem_cons_self
    obtain ⟨now, hnow, hstep⟩ := @checkpointStream_allowAll gateway saved e hgateway
    have hcheckpoint := checkpoint_valid hgateway hsequence hepochs hnow
    rw [length_cons, replicate_succ, zip_cons_cons]
    unfold deliver
    rw [hstep]
    cases hsave : saveGatewayCheckpoint gateway.registered saved (gateway.checkpoint e now) with
    | error failure =>
      rcases save_error hsave with hinvalid | hmissing | rfl
      · rw [hcheckpoint] at hinvalid
        cases hinvalid
      · rw [hregistered] at hmissing
        cases hmissing
      · rfl
    | ok saved' =>
      refine ih (fun e' he' => hvalid e' (mem_cons_of_mem _ he')) fun hfollows => h ⟨?_, ?_⟩
      · intro old hold first hfirst
        cases hfirst
        by_contra hbehind
        have hconflict := hsave.symm.trans
          ((save_conflict_iff hcheckpoint).mpr ⟨old, hold, (Bool.not_eq_true _).mp hbehind⟩)
        cases hconflict
      · exact (follows_of_save hsave).mp hfollows

end Gateway

/-! ### The entries of a log -/

/-- The epochs of an entry as they are read. -/
def RevocationEntry.epochs (l : RevocationEntry) : EpochVector :=
  ⟨l.securityEpoch, l.tenantPolicyEpoch.getD 0, l.tenantRevocationEpoch.getD 0, l.agentRevocationEpoch.getD 0⟩

variable {e : RevocationLogEntry} {l : RevocationEntry}

theorem readEntry_spec {s : RevocationStore}
    (h : s.readEntry l = some e) :
    e.sequence = l.sequence ∧ e.epochs = l.epochs ∧ e.revocation.tenantID = l.tenantID := by
  obtain ⟨r, _, rfl⟩ := map_eq_some_iff.mp h
  exact ⟨rfl, rfl, rfl⟩

/-- An entry has a number, and the epochs of its own scope: those of the tenant only if it has one. -/
structure RevocationEntry.Scoped (l : RevocationEntry) : Prop where
  sequence : 0 < l.sequence
  security : 0 < l.epochs.security
  global : l.tenantID = none → l.epochs.tenantPolicy = 0 ∧ l.epochs.tenantRevocation = 0
  tenant : l.tenantID ≠ none → 0 ≤ l.epochs.tenantPolicy ∧ 0 < l.epochs.tenantRevocation
  agent : 0 ≤ l.epochs.agentRevocation

theorem RevocationEntry.Scoped.nonneg (h : l.Scoped) :
    0 ≤ l.epochs.tenantPolicy ∧ 0 ≤ l.epochs.tenantRevocation := by
  by_cases htenant : l.tenantID = none
  · obtain ⟨hpolicy, hrevocation⟩ := h.global htenant
    omega
  · obtain ⟨hpolicy, hrevocation⟩ := h.tenant htenant
    omega

theorem Appends.tenantEpochs {c : RevocationCommit} (h : Appends c l) {owner : ID}
    (howner : l.tenantID = some owner) : l.epochs.tenantPolicy = c.after.policyEpoch owner ∧
      l.epochs.tenantRevocation = c.after.tenantEpoch owner := by
  unfold RevocationEntry.epochs
  dsimp only
  rw [h.policy owner howner, (h.tenant owner howner).2]
  exact ⟨rfl, rfl⟩

theorem RevocationReachable.scoped (h : RevocationReachable a) :
    ∀ l ∈ a.1.committed.entries.rows, l.Scoped := by
  intro l hl
  have hsequence := (h.ordered.bounded l.sequence ⟨l, hl, rfl⟩).1
  refine h.entries_all (P := fun l => 0 < l.sequence → l.Scoped) ?_ l hl hsequence
  intro c hc hgrows l happends hsequence
  have hcommit : LogGrows c.before c.after := by
    obtain ⟨_, hrevokes⟩ := revokes_of_commits (h.history.commits hc)
    exact hrevokes.grows
  refine ⟨hsequence, ?_, fun hglobal => ?_, fun htenant => ?_, happends.agentNonneg⟩
  · exact Int.lt_of_le_of_lt hgrows.security happends.security.1
  · obtain ⟨hrevocation, hpolicy⟩ := happends.global hglobal
    exact ⟨congrArg (Option.getD · 0) hpolicy, congrArg (Option.getD · 0) hrevocation⟩
  · obtain ⟨owner, howner⟩ := ne_none_iff_exists'.mp htenant
    obtain ⟨hpolicy, hrevocation⟩ := happends.tenantEpochs howner
    rw [hpolicy, hrevocation]
    exact ⟨Int.le_trans (hgrows.policy owner) (hcommit.policy owner),
      Int.lt_of_le_of_lt (hgrows.tenant owner) (happends.tenant owner howner).1⟩

/-- The epochs of one tenant do not go back from entry to entry. -/
theorem RevocationReachable.tenantEpochs_le (h : RevocationReachable a) :
    a.1.committed.entries.rows.Pairwise fun l l' => ∀ owner, l.tenantID = some owner →
      l'.tenantID = some owner → l.epochs.tenantPolicy ≤ l'.epochs.tenantPolicy ∧
        l.epochs.tenantRevocation ≤ l'.epochs.tenantRevocation := by
  refine h.entries_pairwise fun c hc c' hc' hbetween l l' happends happends' owner howner howner' => ?_
  obtain ⟨_, hrevokes⟩ := revokes_of_commits (h.history.commits hc')
  have hgrows := hbetween.trans hrevokes.grows
  obtain ⟨hpolicy, hrevocation⟩ := happends.tenantEpochs howner
  obtain ⟨hpolicy', hrevocation'⟩ := happends'.tenantEpochs howner'
  rw [hpolicy, hpolicy', hrevocation, hrevocation']
  exact ⟨hgrows.policy owner, hgrows.tenant owner⟩

/-- Of two entries that a tenant may see, the second regresses just when it is for all tenants and the first
is not. -/
theorem RevocationReachable.precedes_iff (h : RevocationReachable a) (tenantID : ID) :
    (a.1.committed.seen tenantID).Pairwise fun l l' => ∀ e e', a.1.committed.readEntry l = some e →
      a.1.committed.readEntry l' = some e' →
      (e.Precedes e' ↔ (e'.revocation.tenantID = none → e.revocation.tenantID = none)) := by
  have hpairs := ((h.orderedLog.sequence.and h.orderedLog.security).and h.tenantEpochs_le).filter
    fun l => visibleTo tenantID l.tenantID
  refine hpairs.imp_of_mem fun {l l'} hl hl' ⟨⟨hsequence, hsecurity⟩, hepochs⟩ e e' he he' => ?_
  obtain ⟨hmem, hvisible⟩ := mem_filter.mp hl
  obtain ⟨hmem', hvisible'⟩ := mem_filter.mp hl'
  obtain ⟨hnumber, hvector, howner⟩ := readEntry_spec he
  obtain ⟨hnumber', hvector', howner'⟩ := readEntry_spec he'
  have hscoped := h.scoped l hmem
  have hscoped' := h.scoped l' hmem'
  have hfirst : l.epochs.security < l'.epochs.security := hsecurity
  unfold RevocationLogEntry.Precedes
  rw [hnumber, hnumber', hvector, hvector', howner, howner']
  cases htenant' : l'.tenantID with
  | none =>
    obtain ⟨hpolicy', hrevocation'⟩ := hscoped'.global htenant'
    rw [hpolicy', hrevocation']
    constructor
    · rintro ⟨_, _, _, hbehind⟩ _
      by_contra htenant
      have hpositive := (hscoped.tenant htenant).2
      omega
    · intro hglobal
      obtain ⟨hpolicy, hrevocation⟩ := hscoped.global (hglobal rfl)
      omega
  | some owner =>
    refine iff_of_true ⟨hsequence.le, hfirst.le, ?_⟩ fun hnone => nomatch hnone
    have hpositive := hscoped'.tenant (by rw [htenant']; exact some_ne_none owner)
    cases htenant : l.tenantID with
    | none =>
      obtain ⟨hpolicy, hrevocation⟩ := hscoped.global htenant
      omega
    | some owner' =>
      rw [htenant] at hvisible
      rw [htenant'] at hvisible'
      have howners : owner' = owner :=
        (of_decide_eq_true hvisible).trans (of_decide_eq_true hvisible').symm
      exact hepochs owner (htenant.trans (congrArg some howners)) htenant'

/-! ### Streams of a log -/

theorem mem_streamed (h : RevocationReachable a) {tenantID : ID} {after : Int} {n : Nat}
    (he : e ∈ a.1.committed.streamed tenantID after n) :
    ∃ l ∈ a.1.committed.entries.rows, a.1.committed.readEntry l = some e := by
  obtain ⟨l, hl, hread⟩ := mem_filterMap.mp (mem_of_mem_take he)
  have hvisible := (mem_filter.mp hl).1
  rw [h.visible_eq] at hvisible
  exact ⟨l, (mem_filter.mp hvisible).1, hread⟩

theorem streamed_pairwise (h : RevocationReachable a) (tenantID : ID) (after : Int) (n : Nat) :
    (a.1.committed.streamed tenantID after n).Pairwise fun e e' =>
      (e.Precedes e' ↔ (e'.revocation.tenantID = none → e.revocation.tenantID = none)) := by
  unfold RevocationStore.streamed
  rw [h.visible_eq]
  refine List.Pairwise.sublist (take_sublist _ _) (pairwise_filterMap.mpr ?_)
  exact ((h.precedes_iff tenantID).filter _).imp fun hprecedes e he e' he' => hprecedes e e' he he'

instance : IsTrans RevocationLogEntry RevocationLogEntry.Precedes where
  trans _ _ _ h h' := ⟨h.1.trans h'.1, h.2.1.trans h'.2.1, h.2.2.1.trans h'.2.2.1, h.2.2.2.trans h'.2.2.2⟩

theorem streamed_isChain_iff (h : RevocationReachable a) (tenantID : ID) (after : Int) (n : Nat) :
    (a.1.committed.streamed tenantID after n).IsChain RevocationLogEntry.Precedes ↔
      (a.1.committed.streamed tenantID after n).Pairwise fun e e' =>
        e'.revocation.tenantID = none → e.revocation.tenantID = none := by
  have hpairs := streamed_pairwise h tenantID after n
  rw [isChain_iff_pairwise]
  constructor
  · intro hall
    exact (hall.and hpairs).imp fun ⟨hprecedes, hiff⟩ => hiff.mp hprecedes
  · intro hall
    exact (hall.and hpairs).imp fun ⟨hscope, hiff⟩ => hiff.mpr hscope

/-- Delivering what a tenant may see to a registered gateway, whatever the policy answers and the clock shows,
never conflicts with a checkpoint just when the saved one is not ahead of the first entry and no entry for all
tenants comes after one of the tenant. -/
theorem stream_checkpoints_iff (h : RevocationReachable a) {gateway : Gateway}
    (hgateway : gateway.verified = true) (hregistered : gateway.registered = true) (saved : Checkpoints)
    (after : Int) (n : Nat) :
    (∀ evaluate ticks, gateway.deliver evaluate saved
        ((a.1.committed.streamed gateway.tenantID after n).zip ticks) ≠ .error checkpointRegresses) ↔
      (∀ old, saved.get gateway.key = some old →
        ∀ first ∈ (a.1.committed.streamed gateway.tenantID after n).head?,
          old.reaches first.sequence first.epochs = true) ∧
      (a.1.committed.streamed gateway.tenantID after n).Pairwise fun e e' =>
        e'.revocation.tenantID = none → e.revocation.tenantID = none := by
  rw [← streamed_isChain_iff h]
  show _ ↔ Follows gateway saved _
  constructor
  · intro hnever
    by_contra hregresses
    refine hnever _ _ (Gateway.deliver_conflict hgateway hregistered (fun e he => ?_) hregresses)
    obtain ⟨l, hl, hread⟩ := mem_streamed h he
    obtain ⟨hsequence, hepochs, _⟩ := readEntry_spec hread
    have hscoped := h.scoped l hl
    rw [hsequence, hepochs]
    exact ⟨hscoped.sequence.le, hscoped.security.le, hscoped.nonneg⟩
  · intro hholds evaluate ticks
    exact Gateway.deliver_ne_conflict hholds ticks

namespace RevocationSample

/-- Change `n` revokes for all tenants. -/
def createGlobal (n : Nat) (created sequence : Int) : RevocationRequest :=
  .create tenant (revocation n none .global "all" created created) (evidence n) sequence tenant

def gateway : Gateway := ⟨tenant, .ofNat 2, ["gateway"], true⟩

/-- A change for all tenants, and one of the tenant after it. -/
def globalFirst : List RevocationRequest := [createGlobal 1 10 1, create 2 .principalID "principal-1" 20 2]

def globalLast : List RevocationRequest := [create 1 .principalID "principal-1" 10 1, createGlobal 2 20 2]

theorem streamed_globalFirst :
    ((after globalFirst).1.committed.streamed tenant 0 2).map (fun e => e.revocation.tenantID) =
      [none, some tenant] := by
  decide +kernel

theorem deliver_globalLast :
    (match gateway.deliver Gateway.allowAll .empty (((after globalLast).1.committed.streamed tenant 0 2).zip
        [Gateway.instantTick, Gateway.instantTick]) with
      | .error failure => decide (failure = checkpointRegresses)
      | .ok _ => false) = true := by
  decide +kernel

end RevocationSample

theorem stream_checkpoints_globalFirst :
    RevocationSample.gateway.deliver Gateway.allowAll .empty
      (((after globalFirst).1.committed.streamed tenant
        0 2).zip [Gateway.instantTick, Gateway.instantTick]) ≠ .error checkpointRegresses := by
  refine (@stream_checkpoints_iff _ (reachable _) RevocationSample.gateway rfl rfl .empty 0 2).mpr
    ⟨fun _ hold => (nomatch hold), ?_⟩ _ _
  have hscopes : [none, some tenant].Pairwise
    fun owner owner' : Option ID => owner' = none → owner = none := by decide
  rw [← streamed_globalFirst, pairwise_map] at hscopes
  exact hscopes

/-- A gateway without a checkpoint follows a log of two entries, one of its tenant and one for all tenants:
the second checkpoint is refused, and the stream ends. -/
theorem stream_ends_by_own_checkpoint :
    RevocationReachable (after globalLast) ∧
      RevocationSample.gateway.verified = true ∧
      RevocationSample.gateway.deliver Gateway.allowAll .empty
        (((after globalLast).1.committed.streamed tenant
          0 2).zip [Gateway.instantTick, Gateway.instantTick]) = .error checkpointRegresses := by
  refine ⟨reachable _, rfl, ?_⟩
  have hends := deliver_globalLast
  split at hends
  · rename_i failure hfailure
    rw [hfailure, of_decide_eq_true hends]
  · cases hends

end AgentGovernor
