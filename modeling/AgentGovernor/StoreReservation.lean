import AgentGovernor.StoreSchema

/-! Child reservations, and the evidence rows that every operation appends. -/

namespace AgentGovernor

open Ledger Transaction

/-- A repository call inside its transaction. -/
abbrev Op := Tx Store Lock Write Failure

def conflict (message : String) : Failure := .domain .conflict message

/-! ### Evidence rows -/

def insertEvent (event : RunEvent) (error : Failure) : Op Unit :=
  eventRows.insert [.event event.id] event
    (fun e => e.id = event.id || (e.runID = event.runID && e.sequence = event.sequence)) error

def insertAudit (audit : AuditEvent) (error : Failure) : Op Unit :=
  auditRows.insert [.audit audit.id] audit (fun a => a.id = audit.id) error

def insertOutbox (message : OutboxMessage) (error : Failure) : Op Unit :=
  outboxRows.insert [.outbox message.id] message (fun m => m.id = message.id) error

/-- `SELECT COALESCE(max(sequence),0)+1 FROM run_events`. -/
def nextSequence (runID : ID) : Op Int :=
  .snapshot fun v => (v.events.rows.filter (·.runID = runID)).foldl (fun m e => max m e.sequence) 0 + 1

/-! ### Balance rows -/

/-- The `SET` list of an update of `resource_balances`; a violated `CHECK` is a database error. -/
def Balance.change (b : Balance) (available direct allocated updatedAt : Int) (violation : Failure) :
    Except Failure Balance :=
  match Balance.check b.envelopeID b.dimensionID (b.availableValue + available)
      (b.directConsumedValue + direct) (b.allocatedOpenValue + allocated) (b.stateVersion + 1)
      updatedAt with
  | some b' => .ok b'
  | none => .error violation

theorem Balance.change_spec {b b' : Balance} {available direct allocated updatedAt : Int}
    {violation : Failure} (h : b.change available direct allocated updatedAt violation = .ok b') :
    b'.envelopeID = b.envelopeID ∧ b'.dimensionID = b.dimensionID ∧
      b'.availableValue = b.availableValue + available ∧
      b'.directConsumedValue = b.directConsumedValue + direct ∧
      b'.allocatedOpenValue = b.allocatedOpenValue + allocated := by
  unfold Balance.change at h
  split at h
  · rename_i row hrow
    cases h
    unfold Balance.check at hrow
    split_ifs at hrow
    cases hrow
    exact ⟨rfl, rfl, rfl, rfl, rfl⟩
  · cases h

theorem Balance.check_spec {b : Balance} {envelopeID dimensionID : ID}
    {available direct allocated version updatedAt : Int}
    (h : Balance.check envelopeID dimensionID available direct allocated version updatedAt = some b) :
    b.envelopeID = envelopeID ∧ b.dimensionID = dimensionID ∧ b.availableValue = available ∧
      b.directConsumedValue = direct ∧ b.allocatedOpenValue = allocated := by
  unfold Balance.check at h
  split_ifs at h
  cases h
  exact ⟨rfl, rfl, rfl, rfl, rfl⟩

/-- `INSERT INTO resource_balances` of a fresh balance with full availability. -/
def insertBalance (envelopeID dimensionID : ID) (value updatedAt : Int) (error : Failure) : Op Unit := do
  let balance ← Tx.orThrow (Balance.check envelopeID dimensionID value 0 0 1 updatedAt) error
  balanceRows.insert [.balance envelopeID dimensionID] balance
    (fun b => b.envelopeID = envelopeID && b.dimensionID = dimensionID) error

/-- `INSERT INTO resource_envelope_grants`. -/
def insertGrant (grant : Grant) (error : Failure) : Op Unit :=
  grantRows.insert [] grant
    (fun g => g.envelopeID = grant.envelopeID && g.dimensionID = grant.dimensionID) error

/-! ### Topology -/

variable (dep : Deployment)

/-- `max(granted_value) FILTER (WHERE d.name = …)`: names are unique, so at most one row passes. -/
def structuralLimit (s : Store) (envelopeID : ID) (name : String) : Option Int :=
  (dep.byName name).bind fun d => (s.grants.get (envelopeID, d.id)).map (·.grantedValue)

/-- The number of rows of the recursive ancestry query from an envelope up to its root. The fuel is
more than any path has; foreign keys keep every parent row. -/
def ancestryDepth (s : Store) : Nat → ID → Option Int
  | 0, _ => none
  | fuel + 1, id => (s.envelopes.get id).bind fun e =>
    match e.parentEnvelopeID with
    | none => some 1
    | some parent => (ancestryDepth s fuel parent).map (· + 1)

def totalChildren (s : Store) (parent : ID) : Int :=
  s.reservations.total fun r => if r.parentEnvelopeID = parent then 1 else 0

def activeChildren (s : Store) (parent : ID) : Int :=
  s.reservations.total fun r => if r.parentEnvelopeID = parent ∧ r.state = .opened then 1 else 0

structure StructuralLimits where
  active : Int
  total : Int
  depth : Int
  deriving DecidableEq

def structuralLimits (s : Store) (envelopeID : ID) : Option StructuralLimits := do
  let active ← structuralLimit dep s envelopeID "active_children"
  let total ← structuralLimit dep s envelopeID "total_children"
  let depth ← structuralLimit dep s envelopeID "delegation_depth"
  return ⟨active, total, depth⟩

structure Topology where
  maximum : StructuralLimits
  child : StructuralLimits
  active : Int
  total : Int
  childDepth : Int
  deriving DecidableEq

/-- The topology query; no row when one of the six limits is missing. -/
def topology (s : Store) (parent child : ID) : Option Topology := do
  let maximum ← structuralLimits dep s parent
  let limits ← structuralLimits dep s child
  let depth ← ancestryDepth s (s.envelopes.rows.length + 1) parent
  return ⟨maximum, limits, activeChildren s parent, totalChildren s parent, depth⟩

def lockParentResourceEnvelope (parent : ID) : Op Unit :=
  envelopeRows.lock [.envelope parent] parent (fun _ => .ok ())
    (conflict "parent resource envelope is unavailable")

def enforceChildTopology (parent child : ID) : Op Unit := do
  lockParentResourceEnvelope parent
  let found ← Tx.snapshot fun v => topology dep v parent child
  let t ← Tx.orThrow found (conflict "parent structural limits are unavailable")
  Tx.require (t.child.active ≤ t.maximum.active ∧ t.child.total ≤ t.maximum.total ∧
      t.child.depth ≤ t.maximum.depth)
    (conflict "child structural limits expand parent authority")
  Tx.require (t.active < t.maximum.active) (conflict "maximum active children reached")
  Tx.require (t.total < t.maximum.total) (conflict "maximum total children reached")
  Tx.require (t.childDepth ≤ t.maximum.depth) (conflict "maximum delegation depth reached")

/-! ### Reservation -/

/-- One amount with the unit and the scale of the parent's grant. -/
structure LockedAmount where
  dimensionID : ID
  coefficient : Int
  unit : String
  scale : Nat
  deriving DecidableEq

/-- The child envelope and its run, joined and locked. -/
def lockChildEnvelope (reservation : ResourceReservation) : Op Unit := do
  envelopeRows.lock [.envelope reservation.childEnvelopeID] reservation.childEnvelopeID
    (fun e => if e.runID = reservation.childRunID ∧
        e.parentEnvelopeID = some reservation.parentEnvelopeID then .ok ()
      else .error (conflict "child envelope is unavailable for reservation"))
    (conflict "child envelope is unavailable for reservation")
  runRows.lock [.run reservation.childRunID] reservation.childRunID (fun _ => .ok ())
    (conflict "child envelope is unavailable for reservation")

def lockParentBalance (parent : ID) (amount : ResourceReservationAmount) : Op LockedAmount := do
  let unavailable := conflict "parent consumable balance is unavailable"
  let found ← Tx.snapshot fun v => v.grants.get (parent, amount.dimensionID)
  let grant ← Tx.orThrow found unavailable
  let balance ← balanceRows.lock [.balance parent amount.dimensionID] (parent, amount.dimensionID)
    (fun b => .ok b) unavailable
  Tx.require ((dep.byID amount.dimensionID).any (·.resourceClass = .consumable)) unavailable
  Tx.require (amount.coefficient ≤ balance.availableValue)
    (conflict "parent resource availability is insufficient")
  return ⟨amount.dimensionID, amount.coefficient, grant.unit, grant.scale⟩

def insertReservation (reservation : ResourceReservation) : Op Unit := do
  let row : Reservation :=
    { id := reservation.id
      parentEnvelopeID := reservation.parentEnvelopeID
      childEnvelopeID := reservation.childEnvelopeID
      childRunID := reservation.childRunID
      state := .opened
      expiresAt := reservation.expiresAt.map Time.stored
      createdAt := reservation.createdAt.stored
      settledAt := none
      items := [] }
  Tx.require row.check (.database "insert resource reservation")
  reservationRows.insert [.reservation reservation.id] row
    (fun r => r.id = reservation.id || r.childEnvelopeID = reservation.childEnvelopeID
      || r.childRunID = reservation.childRunID)
    (conflict "resource reservation already exists")

def debitParentBalance (reservation : ResourceReservation) (amount : LockedAmount) : Op Unit :=
  let exhausted := conflict "parent resource balance changed or is exhausted"
  balanceRows.update [.balance reservation.parentEnvelopeID amount.dimensionID]
    (reservation.parentEnvelopeID, amount.dimensionID)
    (fun b =>
      if amount.coefficient ≤ b.availableValue ∧
          b.allocatedOpenValue ≤ maxInt64 - amount.coefficient ∧ b.stateVersion < maxInt64 then
        (b.change (-amount.coefficient) 0 amount.coefficient reservation.createdAt.stored
          (.database "debit parent resource balance")).map ((), ·)
      else .error exhausted)
    exhausted

def insertReservationItem (reservationID : ID) (amount : LockedAmount) : Op Unit :=
  let error := Failure.database "insert resource reservation item"
  reservationRows.update [] reservationID
    (fun r =>
      if r.items.any (·.dimensionID = amount.dimensionID) then .error error
      else .ok ((), { r with items :=
        r.items ++ [⟨amount.dimensionID, amount.coefficient, amount.unit, amount.scale⟩] }))
    error

/-- One round of the second loop: move the amount out of the parent's availability, record the item and
issue the child's grant and balance. -/
def reserveAmount (reservation : ResourceReservation) (amount : LockedAmount) : Op Unit := do
  debitParentBalance reservation amount
  insertReservationItem reservation.id amount
  insertGrant ⟨reservation.childEnvelopeID, amount.dimensionID, amount.coefficient, amount.unit,
    amount.scale⟩ (.database "issue child resource grant")
  insertBalance reservation.childEnvelopeID amount.dimensionID amount.coefficient
    reservation.createdAt.stored (.database "initialize child resource balance")

/-- The transaction of `ReserveChildResources`, for a validated and sorted command. -/
def reserveSorted (reservation : ResourceReservation) : Op ResourceReservation := do
  enforceChildTopology dep reservation.parentEnvelopeID reservation.childEnvelopeID
  lockChildEnvelope reservation
  let locked ← Tx.traverse reservation.amounts (lockParentBalance dep reservation.parentEnvelopeID)
  insertReservation reservation
  Tx.forEach locked (reserveAmount reservation)
  return reservation

def reserveChildResources (requested : ResourceReservation) : Op ResourceReservation := do
  Tx.require (requested.tenantID = dep.tenantID)
    (.plain "resource reservation does not match repository scope")
  let reservation ← Tx.ofExcept (validateAndSortResourceReservation requested)
  reserveSorted dep reservation

end AgentGovernor
