import AgentGovernor.StoreReservation

/-! Trusted metering: replay by source event, throughput windows, the debit and budget exhaustion. -/

namespace AgentGovernor

open Ledger Transaction

variable (dep : Deployment)

/-- The identifiers that `applyBudgetExhaustion` draws. -/
structure ExhaustionIDs where
  first : ID
  second : ID
  audit : ID
  deriving DecidableEq

structure MeteringTarget where
  envelopeID : ID
  dimension : ResourceDimension
  grant : Grant
  deriving DecidableEq

/-- An active principal. -/
def activePrincipal (s : Store) (id : ID) : Bool := (s.principals.get id).any (!·.disabled)

def envelopeOfRun (s : Store) (runID : ID) : Option Envelope :=
  s.envelopes.rows.find? (·.runID = runID)

/-- The join behind metering: the envelope of the run, the named dimension and its grant, for an active
producer. -/
def meteringTarget (usage : TrustedUsage) (s : Store) : Option MeteringTarget := do
  let envelope ← envelopeOfRun s usage.runID
  let dimension ← dep.byName usage.resourceName
  let grant ← s.grants.get (envelope.id, dimension.id)
  if activePrincipal s usage.producerID then some ⟨envelope.id, dimension, grant⟩ else none

/-- The structural companion of the resource, if the envelope grants one. -/
def throughputGrant (envelopeID : ID) (rateDimension : String) (s : Store) :
    Option (ResourceDimension × Int) := do
  let d ← dep.byName rateDimension
  let grant ← s.grants.get (envelopeID, d.id)
  if d.resourceClass = .structural ∧ d.aggregation = .maximum ∧ d.scale = 0 then
    some (d, grant.grantedValue)
  else none

/-- The conditional upsert of the window row: the guard of the insert, then that of the update. -/
def applyWindow (envelopeID rateDimensionID : ID) (rateDimension : String) (usage : TrustedUsage)
    (rateLimit : Int) : Op Unit :=
  let quantity := usage.quantity.amount.coefficient
  let windowStart := usage.recordedAt.truncateToWindow
  let exceeded : Failure :=
    .throughputLimitExceeded rateDimension (windowStart.nanos + throughputWindow)
  windowRows.upsert [.window envelopeID rateDimensionID windowStart.stored]
    (envelopeID, rateDimensionID, windowStart.stored)
    fun
      | none =>
        if quantity ≤ rateLimit then
          .ok ((), ⟨envelopeID, rateDimensionID, windowStart.stored, quantity,
            usage.recordedAt.stored⟩)
        else .error exceeded
      | some w =>
        if quantity ≤ rateLimit ∧ w.usedValue ≤ rateLimit - quantity then
          .ok ((), { w with usedValue := w.usedValue + quantity, updatedAt := usage.recordedAt.stored })
        else .error exceeded

def enforceThroughput (envelopeID : ID) (usage : TrustedUsage) (hint : ThroughputHint) : Op Unit :=
  match throughputDimensionName usage.resourceName with
  | none => .pure ()
  | some rateDimension => do
    let found ← Tx.snapshot (throughputGrant dep envelopeID rateDimension)
    match found with
    | none => .pure ()
    | some (d, rateLimit) => do
      Tx.require (throughputUnitName usage.quantity.unit = some d.unit)
        (.domain .invalidArgument "structural throughput unit is invalid")
      Tx.require (¬(hint.blocked = true ∧ hint.dimensionName = rateDimension))
        (.throughputLimitExceeded rateDimension
          (usage.recordedAt.truncateToWindow.nanos + throughputWindow))
      applyWindow envelopeID d.id rateDimension usage rateLimit

/-- Debit availability and return what is left of it. -/
def debitUsage (envelopeID dimensionID : ID) (usage : TrustedUsage) : Op Int :=
  let quantity := usage.quantity.amount.coefficient
  let exceeds := conflict "trusted usage exceeds available resource"
  balanceRows.update [.balance envelopeID dimensionID] (envelopeID, dimensionID)
    (fun b =>
      if quantity ≤ b.availableValue ∧ b.directConsumedValue ≤ maxInt64 - quantity ∧
          b.stateVersion < maxInt64 then
        (b.change (-quantity) quantity 0 usage.recordedAt.stored
          (.database "apply trusted usage")).map fun b' => (b'.availableValue, b')
      else .error exceeds)
    exceeds

def usageEntry (target : MeteringTarget) (usage : TrustedUsage) : UsageEntry :=
  { id := usage.id
    runID := usage.runID
    envelopeID := target.envelopeID
    dimensionID := target.dimension.id
    producerID := usage.producerID
    sourceEventID := usage.sourceEventID
    quantityValue := usage.quantity.amount.coefficient
    unit := usage.quantity.unit
    scale := usage.quantity.amount.scale
    contentDigest := usage.contentDigest
    observedAt := usage.observedAt.stored
    recordedAt := usage.recordedAt.stored }

def insertUsage (entry : UsageEntry) : Op Unit :=
  usageRows.insert [.usage entry.id] entry
    (fun u => u.id = entry.id ||
      (u.producerID = entry.producerID && u.sourceEventID = entry.sourceEventID))
    (.database "insert trusted usage")

/-! ### Budget exhaustion -/

/-- The two transitions of an exhausted run. -/
def exhaustionTransitions (usage : TrustedUsage) (run : Run) (disposition : ExhaustionDisposition) :
    Except Failure (RunLifecycle × RunLifecycle) :=
  let current : RunLifecycle := ⟨.running, run.stateVersion, .ofStored run.updatedAt, none⟩
  let (target, actor) : RunState × RunActor :=
    if disposition = .pause then (.pausedForBudget, .governor) else (.failedBudget, .system)
  match current.transition ⟨.budgetExhausted, .governor, run.stateVersion, usage.recordedAt⟩ with
  | .error _ => .error (.database "transition exhausted run")
  | .ok (exhausted, _) =>
    match exhausted.transition ⟨target, actor, exhausted.version, usage.recordedAt⟩ with
    | .error _ => .error (conflict "run cannot enter budget exhaustion")
    | .ok (final, _) =>
      if run.fencingToken = maxInt64 then .error (conflict "run cannot enter budget exhaustion")
      else .ok (exhausted, final)

def persistExhaustion (usage : TrustedUsage) (run : Run) (final : RunLifecycle) : Op Unit :=
  let error := Failure.database "persist budget exhaustion"
  runRows.update [.run usage.runID] usage.runID
    (fun r =>
      let r' : Run := { r with
        state := final.state
        stateVersion := final.version
        updatedAt := usage.recordedAt.stored
        terminalAt := final.terminalAt.map Time.stored
        leaseID := none
        leaseExpiresAt := none
        fencingToken := run.fencingToken + 1 }
      if r.state = .running ∧ r.stateVersion = run.stateVersion ∧ r'.check then .ok ((), r')
      else .error error)
    error

def budgetDispositionEvent (disposition : ExhaustionDisposition) : String :=
  if disposition = .pause then "run.paused_for_budget" else "run.failed_budget"

def appendExhaustionEvent (usage : TrustedUsage) (id : ID) (sequence : Int) (eventType : String)
    (actor : RunActor) (lifecycle : RunLifecycle) : Op Unit := do
  let error := Failure.database "append budget exhaustion event"
  insertEvent
    { id := id, runID := usage.runID, sequence := sequence, eventType := eventType, actorType := actor
      actorID := none, state := lifecycle.state, stateVersion := lifecycle.version
      occurredAt := usage.recordedAt.stored } error
  insertOutbox ⟨id, usage.runID.string, eventType, usage.recordedAt.stored⟩ error

def TrustedUsage.exhaustionAudit (usage : TrustedUsage) (auditID : ID) : AuditEvent :=
  ⟨auditID, usage.producerID, "resources.exhaust", usage.runID.string, usage.recordedAt.stored⟩

def applyBudgetExhaustion (usage : TrustedUsage) (run : Run) (disposition : ExhaustionDisposition)
    (ids : ExhaustionIDs) : Op Unit := do
  let lifecycles ← Tx.ofExcept (exhaustionTransitions usage run disposition)
  persistExhaustion usage run lifecycles.2
  let sequence ← nextSequence usage.runID
  appendExhaustionEvent usage ids.first sequence "run.budget_exhausted" .governor lifecycles.1
  appendExhaustionEvent usage ids.second (sequence + 1) (budgetDispositionEvent disposition)
    (if disposition = .pause then .governor else .system) lifecycles.2
  insertAudit (usage.exhaustionAudit ids.audit) (.database "append budget exhaustion audit")

/-- Exhaustion follows a debit that leaves nothing. -/
def exhaustWhenSpent (availableAfter : Int) (usage : TrustedUsage) (run : Run)
    (disposition : ExhaustionDisposition) (ids : ExhaustionIDs) : Op Unit :=
  if availableAfter = 0 then applyBudgetExhaustion usage run disposition ids else .pure ()

/-! ### Metering -/

def reservationClosed (s : Store) (envelopeID : ID) : Bool :=
  s.reservations.rows.any fun r => r.childEnvelopeID = envelopeID && r.state ≠ .opened

/-- A first delivery. -/
def meterUsage (usage : TrustedUsage) (hint : ThroughputHint) (disposition : ExhaustionDisposition)
    (ids : ExhaustionIDs) : Op UsageReceipt := do
  let missing : Failure := .domain .notFound "metering target not found"
  let found ← Tx.snapshot (meteringTarget dep usage)
  let target ← Tx.orThrow found missing
  let run ← runRows.lock [.run usage.runID] usage.runID (fun r => .ok r) missing
  envelopeRows.lock [.envelope target.envelopeID] target.envelopeID
    (fun e => if e.runID = usage.runID then .ok () else .error missing) missing
  Tx.require (target.dimension.resourceClass = .consumable ∧
      target.grant.unit = usage.quantity.unit ∧ target.grant.scale = usage.quantity.amount.scale)
    (.domain .invalidArgument "trusted usage resource or unit is invalid")
  Tx.require (run.state = .running) (conflict "trusted usage requires a running run")
  let closed ← Tx.snapshot fun v => reservationClosed v target.envelopeID
  Tx.require (closed = false) (conflict "late usage is not accepted after settlement")
  enforceThroughput dep target.envelopeID usage hint
  let availableAfter ← debitUsage target.envelopeID target.dimension.id usage
  insertUsage (usageEntry target usage)
  exhaustWhenSpent availableAfter usage run disposition ids
  return ⟨usage.id, false, usage.recordedAt⟩

def recordTrustedUsage (candidate : TrustedUsage) (hint : ThroughputHint)
    (disposition : ExhaustionDisposition) (ids : ExhaustionIDs) : Op UsageReceipt := do
  Tx.require (candidate.tenantID = dep.tenantID)
    (.plain "trusted usage does not match repository scope")
  Tx.require (disposition.valid = true)
    (.domain .invalidArgument "exhaustion disposition is invalid")
  let usage ← Tx.ofExcept ((validateTrustedUsage dep candidate).mapError fun _ =>
    Failure.domain .invalidArgument "trusted usage is invalid")
  Tx.acquire [.advisory usage.producerID usage.sourceEventID]
  let existing ← Tx.snapshot fun v => v.usage.rows.find? fun u =>
    u.producerID = usage.producerID && u.sourceEventID = usage.sourceEventID
  match existing with
  | some u => do
    Tx.require (u.contentDigest = usage.contentDigest)
      (conflict "source event identifier was reused with different content")
    return ⟨u.id, true, .ofStored u.recordedAt⟩
  | none => meterUsage dep usage hint disposition ids

end AgentGovernor
