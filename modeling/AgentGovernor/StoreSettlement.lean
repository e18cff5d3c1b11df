import AgentGovernor.StoreUsage

/-! Settlement of child reservations, by an actor or by reconciliation. -/

namespace AgentGovernor

open Ledger Transaction

variable (dep : Deployment)

structure ResourceSettlementEvidence where
  auditID : ID
  outboxID : ID
  requestID : ID
  reasonCodes : List String
  deriving DecidableEq

def ResourceSettlementEvidence.valid (evidence : ResourceSettlementEvidence) : Bool :=
  !evidence.auditID.isZero && !evidence.outboxID.isZero && !evidence.requestID.isZero
    && evidence.reasonCodes ≠ []

/-- The text under the content digest of a settlement. -/
def settlementMaterial (reservationID : ID) (terminalRunState : RunState)
    (finalUsageEventIDs : List ID) : String :=
  reservationID.string ++ "\x00" ++ terminalRunState.text ++ "\x00"
    ++ ",".intercalate ((finalUsageEventIDs.insertionSort ID.le).map ID.string)

def resourceSettlementDigest (reservationID : ID) (terminalRunState : RunState)
    (finalUsageEventIDs : List ID) : String :=
  dep.digest (settlementMaterial reservationID terminalRunState finalUsageEventIDs)

/-! ### Results -/

/-- The items of a settlement joined with their dimensions, `ORDER BY d.name`. -/
def namedItems (x : Settlement) : List (String × SettlementItem) :=
  (x.items.filterMap fun i => (dep.byID i.dimensionID).map fun d => (d.name, i)).insertionSort
    fun a b => a.1 ≤ b.1

def settlementResult (x : Settlement) (settledAt : Time) (duplicate : Bool) :
    ResourceSettlementResult :=
  { id := x.id
    reservationID := x.reservationID
    consumed := (namedItems dep x).map fun (name, i) => ⟨name, i.unit, i.scale, i.consumedValue⟩
    returned := (namedItems dep x).map fun (name, i) => ⟨name, i.unit, i.scale, i.returnedValue⟩
    settledAt := settledAt
    duplicate := duplicate }

/-- The caller has found or inserted the settlement, and no settlement ever changes. -/
def loadSettlementResult (settlementID : ID) (settledAt : Time) (duplicate : Bool) :
    Op ResourceSettlementResult :=
  settlementRows.lock [] settlementID (fun x => .ok (settlementResult dep x settledAt duplicate))
    (.database "load settlement result")

/-! ### Closing a reservation -/

/-- A reservation item with the child's balance of its dimension. -/
structure LockedItem where
  dimensionID : ID
  unit : String
  scale : Nat
  reserved : Int
  available : Int
  allocated : Int
  deriving DecidableEq

/-- An item joined with both balances, which it locks; no row without the dimension or a balance. -/
def lockItem (parent child : ID) (item : ReservationItem) : Op (Option LockedItem) := do
  let c ← balanceRows.read [.balance child item.dimensionID] (child, item.dimensionID)
    fun row => .ok row
  let p ← balanceRows.read [.balance parent item.dimensionID] (parent, item.dimensionID)
    fun row => .ok row
  return match dep.byID item.dimensionID, c, p with
    | some _, some c, some _ => some ⟨item.dimensionID, item.unit, item.scale, item.reservedValue,
        c.availableValue, c.allocatedOpenValue⟩
    | _, _, _ => none

/-- The items of the reservation in the order of their dimensions, locked and checked. -/
def lockItems (r : Reservation) (empty invalid : Failure) : Op (List LockedItem) := do
  let rows ← Tx.traverse
    (r.items.insertionSort fun a b => ID.le a.dimensionID b.dimensionID)
    (lockItem dep r.parentEnvelopeID r.childEnvelopeID)
  let items := rows.filterMap id
  Tx.require (items ≠ []) empty
  Tx.require (∀ x ∈ items, x.allocated = 0 ∧ x.available ≤ x.reserved) invalid
  return items

def insertSettlement (row : Settlement) (error : Failure) : Op Unit := do
  Tx.require (row.check = true) error
  settlementRows.insert [.settlement row.id, .settlementKey row.actorPrincipalID row.idempotencyKey] row
    (fun x => x.id = row.id || x.reservationID = row.reservationID ||
      (x.actorPrincipalID = row.actorPrincipalID && x.idempotencyKey = row.idempotencyKey)) error

/-- The settlement item of a locked item, unless it violates a `CHECK`. -/
def LockedItem.settle (x : LockedItem) : Option SettlementItem :=
  if h : 0 ≤ x.available ∧ x.available ≤ x.reserved then
    some ⟨x.dimensionID, x.reserved, x.reserved - x.available, x.available, x.unit, x.scale,
      by omega, h.1, by omega⟩
  else none

def insertSettlementItem (settlementID : ID) (x : LockedItem) (error : Failure) : Op Unit :=
  settlementRows.update [] settlementID
    (fun s =>
      match x.settle with
      | none => .error error
      | some item =>
        if s.items.any (·.dimensionID = item.dimensionID) then .error error
        else .ok ((), { s with items := s.items ++ [item] }))
    error

/-- Move the item out of the parent's open allocation: what is left to availability, the rest to
consumption. -/
def creditParent (parent : ID) (x : LockedItem) (settledAt : Int) (changed : Failure) : Op Unit :=
  balanceRows.update [.balance parent x.dimensionID] (parent, x.dimensionID)
    (fun b =>
      if b.availableValue ≤ maxInt64 - x.available ∧
          b.directConsumedValue ≤ maxInt64 - (x.reserved - x.available) ∧
          x.reserved ≤ b.allocatedOpenValue ∧ b.stateVersion < maxInt64 then
        (b.change x.available (x.reserved - x.available) (-x.reserved) settledAt changed).map ((), ·)
      else .error changed)
    changed

def settleItem (settlementID parent : ID) (settledAt : Int) (itemError changed : Failure)
    (x : LockedItem) : Op Unit := do
  insertSettlementItem settlementID x itemError
  creditParent parent x settledAt changed

/-- `UPDATE resource_reservations SET state=… WHERE … AND state='OPEN'`. -/
def closeReservation (reservationID : ID) (state : ReservationState) (settledAt : Int)
    (error : Failure) : Op Unit :=
  reservationRows.update [.reservation reservationID] reservationID
    (fun r =>
      let r' : Reservation := { r with state := state, settledAt := some settledAt }
      if r.state = .opened ∧ r'.check then .ok ((), r') else .error error)
    error

/-- What settlement and reconciliation share once the reservation, the run and the items are locked:
the settlement with its items, the parent's credits and the close. -/
structure Closing where
  settlement : Settlement
  parentEnvelopeID : ID
  state : ReservationState
  insertError : Failure
  itemError : Failure
  changed : Failure
  closeError : Failure

def close (c : Closing) (items : List LockedItem) : Op Unit := do
  insertSettlement c.settlement c.insertError
  Tx.forEach items
    (settleItem c.settlement.id c.parentEnvelopeID c.settlement.settledAt c.itemError c.changed)
  closeReservation c.settlement.reservationID c.state c.settlement.settledAt c.closeError

/-! ### Settlement by an actor -/

def finalUsageCount (s : Store) (runID : ID) (ids : List ID) : Nat :=
  (s.usage.rows.filter fun u => u.runID = runID && ids.contains u.id).length

def settlementClosing (settlement : ResourceSettlement) (parent : ID) : Closing where
  settlement :=
    { id := settlement.id
      reservationID := settlement.reservationID
      actorPrincipalID := settlement.actorPrincipalID
      idempotencyKey := settlement.idempotencyKey
      terminalRunState := settlement.terminalRunState
      contentDigest := resourceSettlementDigest dep settlement.reservationID
        settlement.terminalRunState settlement.finalUsageEventIDs
      reason := .terminal
      settledAt := settlement.settledAt.stored
      items := [] }
  parentEnvelopeID := parent
  state := .settled
  insertError := .database "insert settlement"
  itemError := .database "insert settlement item"
  changed := conflict "parent settlement balance changed or overflowed"
  closeError := .database "close reservation"

/-- The reservation was closed before: return what was established. -/
def replayClosed (settlement : ResourceSettlement) : Op ResourceSettlementResult := do
  let found ← Tx.snapshot fun v =>
    v.settlements.rows.find? (·.reservationID = settlement.reservationID)
  let x ← Tx.orThrow found (conflict "reservation is already closed")
  Tx.require (x.contentDigest = resourceSettlementDigest dep settlement.reservationID
      settlement.terminalRunState settlement.finalUsageEventIDs)
    (conflict "reservation was settled with different content")
  loadSettlementResult dep x.id (.ofStored x.settledAt) true

def ResourceSettlement.audit (settlement : ResourceSettlement) (evidence : ResourceSettlementEvidence) :
    AuditEvent :=
  ⟨evidence.auditID, settlement.actorPrincipalID, "resources.settle", settlement.reservationID.string,
    settlement.settledAt.stored⟩

/-- Close an open reservation that this transaction has locked. -/
def settleOpen (settlement : ResourceSettlement) (evidence : ResourceSettlementEvidence)
    (r : Reservation) : Op ResourceSettlementResult := do
  let forbidden : Failure := .domain .forbidden "settlement actor or run is unavailable"
  let active ← Tx.snapshot fun v => activePrincipal v settlement.actorPrincipalID
  Tx.require (active = true) forbidden
  let run ← runRows.lock [.run r.childRunID] r.childRunID (fun x => .ok x) forbidden
  Tx.require (run.state = settlement.terminalRunState ∧ run.state.terminal = true)
    (conflict "reservation child is not in the declared terminal state")
  let count ← Tx.snapshot fun v => finalUsageCount v r.childRunID settlement.finalUsageEventIDs
  Tx.require (count = settlement.finalUsageEventIDs.length)
    (conflict "final usage event set contains an unknown event")
  let items ← lockItems dep r (conflict "reservation has no consumable items")
    (conflict "child has open allocations or an invalid balance")
  close (settlementClosing dep settlement r.parentEnvelopeID) items
  insertAudit (settlement.audit evidence) (.database "append settlement audit")
  insertOutbox ⟨evidence.outboxID, settlement.reservationID.string, "resource.reservation.settled",
    settlement.settledAt.stored⟩ (.database "append settlement outbox")
  loadSettlementResult dep settlement.id settlement.settledAt false

/-- No settlement under the actor's key yet. -/
def settleFresh (settlement : ResourceSettlement) (evidence : ResourceSettlementEvidence) :
    Op ResourceSettlementResult := do
  let r ← reservationRows.lock [.reservation settlement.reservationID] settlement.reservationID
    (fun r => .ok r) (.domain .notFound "reservation not found")
  if r.state ≠ .opened then replayClosed dep settlement else settleOpen dep settlement evidence r

def settleReservation (candidate : ResourceSettlement) (evidence : ResourceSettlementEvidence) :
    Op ResourceSettlementResult := do
  let settlement ← Tx.ofExcept (validateResourceSettlement candidate)
  Tx.require (settlement.tenantID = dep.tenantID ∧ evidence.valid = true)
    (.plain "resource settlement scope or evidence is invalid")
  Tx.acquire [.advisory settlement.actorPrincipalID settlement.idempotencyKey]
  let existing ← Tx.snapshot fun v => v.settlements.rows.find? fun x =>
    x.actorPrincipalID = settlement.actorPrincipalID && x.idempotencyKey = settlement.idempotencyKey
  match existing with
  | some x => do
    Tx.require (x.contentDigest = resourceSettlementDigest dep settlement.reservationID
        settlement.terminalRunState settlement.finalUsageEventIDs)
      (conflict "settlement idempotency key was reused with different content")
    loadSettlementResult dep x.id (.ofStored x.settledAt) true
  | none => settleFresh dep settlement evidence

end AgentGovernor
