import AgentGovernor.StoreReservation

/-! What moves runs besides the resource operations: worker claims, heartbeats and operations, and
cancellation by the caller. Which runs a claim passes over, locked by somebody else or revoked, is part
of the request. -/

namespace AgentGovernor

open Ledger Transaction

variable (dep : Deployment)

structure RunLease where
  runID : ID
  tenantID : ID
  leaseID : ID
  workerID : ID
  fencingToken : Int
  expiresAt : Time
  deriving DecidableEq

def RunLease.validate (lease : RunLease) : Bool :=
  !lease.runID.isZero && !lease.tenantID.isZero && !lease.leaseID.isZero && !lease.workerID.isZero
    && 0 < lease.fencingToken
    && match requireUTC lease.expiresAt with
      | .ok expires => !expires.isZero
      | .error _ => false

def nextFencingToken (current : Int) : Option Int :=
  if current < 0 ∨ current = maxInt64 then none else some (current + 1)

def staleLease : Failure := conflict "run lease is stale"

def noRunAvailable : Failure := .domain .notFound "no run is available"

/-- `UPDATE runs` of a row that the transaction has locked. -/
def updateRun (runID : ID) (change : Run → Run) (error : Failure) : Op Unit :=
  runRows.update [.run runID] runID
    (fun r => if (change r).check then .ok ((), change r) else .error error) error

/-- The run event with its outbox message, which shares its identifier. -/
def appendWorkerEvent (runID workerID eventID : ID) (eventType : String) (actor : RunActor)
    (state : RunState) (stateVersion occurredAt : Int) : Op Unit := do
  let error := Failure.database "append worker event"
  let sequence ← nextSequence runID
  insertEvent
    { id := eventID, runID := runID, sequence := sequence, eventType := eventType, actorType := actor
      actorID := some workerID, state := state, stateVersion := stateVersion
      occurredAt := occurredAt } error
  insertOutbox ⟨eventID, runID.string, eventType, occurredAt⟩ error

/-! ### Claims and heartbeats -/

structure RunClaim where
  tenantID : ID
  workerID : ID
  leaseID : ID
  now : Time
  expiresAt : Time
  eventID : ID
  skipped : List ID
  deriving DecidableEq

def claimable (now : Int) (r : Run) : Bool :=
  (r.state = .admitted || r.state = .running) && r.leaseExpiresAt.all (· ≤ now)

/-- `ORDER BY r.created_at, r.id … LIMIT 1` over the runs that are not passed over. -/
def nextClaim (claim : RunClaim) (s : Store) : Option Run :=
  if claim.tenantID = dep.tenantID then
    ((s.runs.rows.filter fun r => claimable claim.now.stored r && !claim.skipped.contains r.id
      ).insertionSort fun a b => a.createdAt < b.createdAt ∨
        (a.createdAt = b.createdAt ∧ ID.le a.id b.id)).head?
  else none

def claimRun (claim : RunClaim) : Op RunLease := do
  Tx.require (claim.tenantID.isZero = false ∧ claim.workerID.isZero = false ∧
      claim.leaseID.isZero = false ∧ claim.expiresAt.after claim.now = true)
    (.plain "run claim is invalid")
  let found ← Tx.snapshot (nextClaim dep claim)
  let candidate ← Tx.orThrow found noRunAvailable
  let run ← runRows.lock [.run candidate.id] candidate.id
    (fun r => if claimable claim.now.stored r then .ok r else .error noRunAvailable) noRunAvailable
  let fence ← Tx.orThrow (nextFencingToken run.fencingToken)
    (conflict "run fencing token is exhausted")
  updateRun run.id
    (fun r => { r with leaseID := some claim.leaseID, leaseExpiresAt := some claim.expiresAt.stored,
                       fencingToken := fence })
    (.database "claim run")
  appendWorkerEvent run.id claim.workerID claim.eventID "run.claimed" .worker run.state
    run.stateVersion claim.now.stored
  return ⟨run.id, claim.tenantID, claim.leaseID, claim.workerID, fence, claim.expiresAt⟩

/-- `WHERE … AND lease_id=$3 AND fencing_token=$4 AND lease_expires_at>$5 FOR UPDATE`. -/
def lockLeasedRun (lease : RunLease) (now : Int) : Op Run := do
  Tx.require (lease.tenantID = dep.tenantID) staleLease
  runRows.lock [.run lease.runID] lease.runID
    (fun r => if r.leaseID = some lease.leaseID ∧ r.fencingToken = lease.fencingToken ∧
        r.leaseExpiresAt.any (now < ·) then .ok r else .error staleLease)
    staleLease

def heartbeatRun (lease : RunLease) (now expiresAt : Time) (eventID : ID) : Op RunLease := do
  Tx.require (lease.validate = true ∧ expiresAt.after now = true ∧
      expiresAt.after lease.expiresAt = true)
    (.plain "run heartbeat is invalid")
  let run ← lockLeasedRun dep lease now.stored
  Tx.require (run.state.terminal = false) staleLease
  updateRun lease.runID (fun r => { r with leaseExpiresAt := some expiresAt.stored })
    (.database "heartbeat run")
  appendWorkerEvent lease.runID lease.workerID eventID "run.heartbeat" .worker run.state
    run.stateVersion now.stored
  return { lease with expiresAt := expiresAt }

/-! ### Worker operations -/

inductive WorkerRunOperation where
  | start | complete | fail | timeout
  deriving DecidableEq

def WorkerRunOperation.target : WorkerRunOperation → RunState × RunActor
  | .start => (.running, .worker)
  | .complete => (.completed, .worker)
  | .fail => (.failed, .worker)
  | .timeout => (.timedOut, .system)

def workerEventSuffix : WorkerRunOperation → String
  | .start => "started"
  | .complete => "completed"
  | .fail => "failed"
  | .timeout => "timed_out"

def persistWorkerOperation (lease : RunLease) (target : RunState) (next : RunLifecycle) (now : Int) :
    Op Unit :=
  updateRun lease.runID
    (fun r => { r with
      state := target
      stateVersion := next.version
      updatedAt := now
      terminalAt := next.terminalAt.map Time.stored
      leaseID := if target.terminal then none else r.leaseID
      leaseExpiresAt := if target.terminal then none else r.leaseExpiresAt })
    (.database "mutate worker run")

def mutateWorkerRun (lease : RunLease) (operation : WorkerRunOperation) (eventID : ID) (now : Time) :
    Op Unit := do
  Tx.require (lease.validate = true ∧ eventID.isZero = false)
    (.plain "worker run mutation is invalid")
  let run ← lockLeasedRun dep lease now.stored
  let current : RunLifecycle :=
    ⟨run.state, run.stateVersion, .ofStored run.updatedAt, run.terminalAt.map .ofStored⟩
  let moved ← Tx.ofExcept ((current.transition
      ⟨operation.target.1, operation.target.2, run.stateVersion, now⟩).mapError fun _ =>
    conflict "worker operation conflicts with run state")
  if moved.2 = false then return ()
  else do
    persistWorkerOperation lease operation.target.1 moved.1 now.stored
    appendWorkerEvent lease.runID lease.workerID eventID ("run." ++ workerEventSuffix operation)
      operation.target.2 moved.1.state moved.1.version now.stored

/-! ### Cancellation -/

structure RunCancellation where
  tenantID : ID
  runID : ID
  actorPrincipalID : ID
  idempotencyKey : String
  reasonCode : String
  expectedStateVersion : Option Int
  createdAt : Time
  deriving DecidableEq

structure RunCancellationEvidence where
  signalID : ID
  eventID : ID
  auditID : ID
  outboxID : ID
  requestID : ID
  policyDecisionID : ID
  reasonCodes : List String
  deriving DecidableEq

/-- A letter, then up to 127 letters, digits, dots, underscores, colons and hyphens. -/
def signalNamePattern : String → Bool :=
  matchesPattern (fun c => isUpperLetter c || isLowerLetter c)
    (fun c => isUpperLetter c || isLowerLetter c || isDigit c || ['.', '_', ':', '-'].contains c) 127

def RunCancellation.validate (cancellation : RunCancellation) : Except Failure Unit :=
  if cancellation.tenantID.isZero ∨ cancellation.runID.isZero ∨ cancellation.actorPrincipalID.isZero ∨
      byteLength cancellation.idempotencyKey < 1 ∨ 256 < byteLength cancellation.idempotencyKey then
    .error (.plain "run cancellation identity is invalid")
  else if cancellation.reasonCode ≠ "" ∧ !signalNamePattern cancellation.reasonCode then
    .error (.plain "run cancellation reason code is invalid")
  else if cancellation.expectedStateVersion.any (· < 1) then
    .error (.plain "run state version conflict")
  else if !cancellation.createdAt.utc ∨ cancellation.createdAt.isZero then
    .error (.plain "run cancellation time must be non-zero UTC")
  else .ok ()

def RunCancellationEvidence.valid (evidence : RunCancellationEvidence) : Bool :=
  !evidence.signalID.isZero && !evidence.eventID.isZero && !evidence.auditID.isZero
    && !evidence.outboxID.isZero && !evidence.requestID.isZero && !evidence.policyDecisionID.isZero
    && evidence.reasonCodes ≠ []

/-- The transition to `CANCELLED`, with the errors that `CancelRun` gives it. -/
def cancelTransition (cancellation : RunCancellation) (run : Run) : Except Failure RunLifecycle :=
  let current : RunLifecycle := ⟨run.state, run.stateVersion, .ofStored run.updatedAt, none⟩
  match current.transition ⟨.cancelled, .caller,
      cancellation.expectedStateVersion.getD run.stateVersion, cancellation.createdAt⟩ with
  | .error (.plain "run state version conflict") => .error (conflict "run state version conflict")
  | .error _ => .error (conflict "run cannot be cancelled from its current state")
  | .ok (next, _) => .ok next

def RunCancellation.audit (cancellation : RunCancellation) (evidence : RunCancellationEvidence) : AuditEvent :=
  ⟨evidence.auditID, cancellation.actorPrincipalID, "runs.cancel", cancellation.runID.string,
    cancellation.createdAt.stored⟩

/-- The row, the signal, the event, the audit and the outbox message of one statement. The signal and the
audit refer to the principal. -/
def persistCancellation (cancellation : RunCancellation) (evidence : RunCancellationEvidence)
    (run : Run) (next : RunLifecycle) (sequence : Int) : Op Unit := do
  let error := Failure.database "cancel run with evidence"
  let createdAt := cancellation.createdAt.stored
  let actor ← Tx.snapshot fun v => (v.principals.get cancellation.actorPrincipalID).isSome
  Tx.require (actor = true) error
  updateRun cancellation.runID
    (fun r => { r with
      state := .cancelled
      stateVersion := next.version
      updatedAt := createdAt
      terminalAt := some createdAt
      leaseID := none
      leaseExpiresAt := none
      fencingToken := run.fencingToken + 1 })
    error
  signalRows.insert [.signal evidence.signalID]
    ⟨evidence.signalID, cancellation.runID, .cancel,
      .object [("reason_code", .string cancellation.reasonCode)], cancellation.idempotencyKey,
      cancellation.actorPrincipalID, createdAt⟩
    (fun x => x.id = evidence.signalID ||
      (x.runID = cancellation.runID && x.idempotencyKey = cancellation.idempotencyKey)) error
  insertEvent
    { id := evidence.eventID, runID := cancellation.runID, sequence := sequence
      eventType := "run.cancelled", actorType := .caller
      actorID := some cancellation.actorPrincipalID, state := .cancelled
      stateVersion := next.version, occurredAt := createdAt } error
  insertAudit (cancellation.audit evidence) error
  insertOutbox ⟨evidence.outboxID, cancellation.runID.string, "run.cancelled", createdAt⟩ error

def cancelRun (cancellation : RunCancellation) (evidence : RunCancellationEvidence) : Op Unit := do
  Tx.require (cancellation.tenantID = dep.tenantID)
    (.plain "run cancellation does not match repository scope")
  Tx.ofExcept cancellation.validate
  Tx.require (evidence.valid = true) (.plain "run cancellation evidence is invalid")
  let run ← runRows.lock [.run cancellation.runID] cancellation.runID (fun r => .ok r)
    (.domain .notFound "run not found")
  if run.state.terminal then return ()
  else do
    let next ← Tx.ofExcept (cancelTransition cancellation run)
    Tx.require (run.fencingToken ≠ maxInt64) (conflict "run fencing token is exhausted")
    let sequence ← nextSequence cancellation.runID
    persistCancellation cancellation evidence run next sequence

/-! ### Signals -/

/-- The well-formed payloads of a signal, by its type. -/
inductive RunSignalContent where
  | pause (reasonCode : Option String)
  | resume
  | custom (name : String) (data : List (String × Json))
  deriving DecidableEq

def RunSignalContent.signalType : RunSignalContent → RunSignalType
  | .pause _ => .pause
  | .resume => .resume
  | .custom _ _ => .custom

/-- The object that is stored, with its members in the order of `jsonb`. -/
def RunSignalContent.payload : RunSignalContent → Json
  | .pause none => .object []
  | .pause (some reasonCode) => .object [("reason_code", .string reasonCode)]
  | .resume => .object []
  | .custom name data => .object [("data", .object data), ("name", .string name)]

structure RunSignalSubmission where
  id : ID
  tenantID : ID
  runID : ID
  actorPrincipalID : ID
  content : RunSignalContent
  idempotencyKey : String
  expectedStateVersion : Option Int
  createdAt : Time
  deriving DecidableEq

def RunSignalSubmission.validate (signal : RunSignalSubmission) : Except Failure Unit :=
  if signal.id.isZero ∨ signal.tenantID.isZero ∨ signal.runID.isZero ∨
      signal.actorPrincipalID.isZero ∨ byteLength signal.idempotencyKey < 1 ∨
      256 < byteLength signal.idempotencyKey then
    .error (.plain "run signal identity is invalid")
  else if signal.expectedStateVersion.any (· < 1) then
    .error (.plain "expected state version is invalid")
  else if !signal.createdAt.utc ∨ signal.createdAt.isZero then
    .error (.plain "run signal payload or time is invalid")
  else match signal.content with
    | .pause reasonCode =>
      if reasonCode.all signalNamePattern then .ok ()
      else .error (.plain "pause signal payload is invalid")
    | .resume => .ok ()
    | .custom name data =>
      if !signalNamePattern name then .error (.plain "custom signal payload is invalid")
      else if 100 < data.length then .error (.plain "custom signal data must be a bounded object")
      else .ok ()

structure RunSignalEvidence where
  eventID : ID
  auditID : ID
  outboxID : ID
  requestID : ID
  policyDecisionID : ID
  reasonCodes : List String
  deriving DecidableEq

def RunSignalEvidence.valid (evidence : RunSignalEvidence) : Bool :=
  !evidence.eventID.isZero && !evidence.auditID.isZero && !evidence.outboxID.isZero
    && !evidence.requestID.isZero && !evidence.policyDecisionID.isZero && evidence.reasonCodes ≠ []

def signalEvent (signal : RunSignalSubmission) (evidence : RunSignalEvidence) (run : Run)
    (sequence : Int) : RunEvent :=
  { id := evidence.eventID, runID := signal.runID, sequence := sequence
    eventType := "run.signal.accepted", actorType := .caller
    actorID := some signal.actorPrincipalID, state := run.state, stateVersion := run.stateVersion
    occurredAt := signal.createdAt.stored, signalID := some signal.id }

def RunSignalSubmission.audit (signal : RunSignalSubmission) (evidence : RunSignalEvidence) : AuditEvent :=
  ⟨evidence.auditID, signal.actorPrincipalID, "runs.signal", signal.runID.string, signal.createdAt.stored⟩

/-- The signal, the event, the audit and the outbox message of one statement. -/
def persistSignal (signal : RunSignalSubmission) (evidence : RunSignalEvidence) (event : RunEvent) :
    Op Unit := do
  let error := Failure.database "append run signal evidence"
  let createdAt := signal.createdAt.stored
  let actor ← Tx.snapshot fun v => (v.principals.get signal.actorPrincipalID).isSome
  Tx.require (actor = true) error
  signalRows.insert [.signal signal.id]
    ⟨signal.id, signal.runID, signal.content.signalType, signal.content.payload,
      signal.idempotencyKey, signal.actorPrincipalID, createdAt⟩
    (fun x => x.id = signal.id ||
      (x.runID = signal.runID && x.idempotencyKey = signal.idempotencyKey)) error
  insertEvent event error
  insertAudit (signal.audit evidence) error
  insertOutbox ⟨evidence.outboxID, signal.runID.string, "run.signal.accepted", createdAt⟩ error

def appendRunSignal (signal : RunSignalSubmission) (evidence : RunSignalEvidence) : Op RunEvent := do
  Tx.require (signal.tenantID = dep.tenantID)
    (.plain "run signal does not match repository scope")
  Tx.ofExcept signal.validate
  Tx.require (evidence.valid = true) (.plain "run signal evidence is invalid")
  let run ← runRows.lock [.run signal.runID] signal.runID (fun r => .ok r)
    (.domain .notFound "run not found")
  Tx.require (run.state.terminal = false) (conflict "terminal run cannot accept signals")
  Tx.require (signal.expectedStateVersion.all (· = run.stateVersion))
    (conflict "run state version conflict")
  let existing ← Tx.snapshot fun v => v.signals.rows.find? fun x =>
    x.runID = signal.runID && x.idempotencyKey = signal.idempotencyKey
  match existing with
  | some x => do
    let stored ← Tx.snapshot fun v => v.events.rows.find? fun e =>
      e.runID = signal.runID && e.signalID = some x.id
    Tx.orThrow stored (.database "load idempotent signal event")
  | none => do
    let sequence ← nextSequence signal.runID
    persistSignal signal evidence (signalEvent signal evidence run sequence)
    return signalEvent signal evidence run sequence

end AgentGovernor
