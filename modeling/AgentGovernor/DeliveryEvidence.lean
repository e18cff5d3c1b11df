import AgentGovernor.DeliveryOutbox

/-! The evidence exporter's store: claim the next event of a sink, complete it with the sink's receipt, or
release it. Each sink has one chain of hashes, which its checkpoint continues. -/

namespace AgentGovernor

open Ledger Transaction

/-- What hashing a delivery rests on: the canonical text of the bound fields, its digest, and which texts
are JSON objects. -/
structure EvidenceFormat where
  canonical : (sinkID : String) → (sequence : Int) → (eventID : ID) → (previousHash event : String) → String
  sha256 : String → String
  validJSONObject : String → Bool

def deliveryVersion : String := "thinkpixelag.evidence-delivery/v1"

structure Delivery where
  version : String
  sinkID : String
  sequence : Int
  eventID : ID
  previousHash : String
  eventHash : String
  event : String
  deriving DecidableEq

structure SinkReceipt where
  version : String
  sinkID : String
  sequence : Int
  eventID : ID
  eventHash : String
  receiptID : String
  checkpoint : String
  acceptedAt : Time
  deriving DecidableEq

structure ClaimedDelivery where
  delivery : Delivery
  claimToken : ID
  deriving DecidableEq

def validReference (value : String) (bound : Nat) : Bool :=
  0 < byteLength value && byteLength value ≤ bound

variable (format : EvidenceFormat)

/-- The identifier of an event is a UUID, whose text has 36 bytes. -/
def newDelivery (sinkID : String) (sequence : Int) (previousHash : String) (eventID : ID)
    (event : String) : Except Failure Delivery :=
  if !validReference sinkID 256 ∨ sequence = 0 ∨ (sequence = 1) ≠ (previousHash = "") ∨
      (previousHash ≠ "" ∧ !validDigest previousHash) ∨ !format.validJSONObject event then
    .error (.plain "invalid evidence delivery binding")
  else .ok
    { version := deliveryVersion
      sinkID := sinkID
      sequence := sequence
      eventID := eventID
      previousHash := previousHash
      eventHash := "sha256:" ++ format.sha256 (format.canonical sinkID sequence eventID previousHash event)
      event := event }

def Delivery.validate (d : Delivery) : Except Failure Unit :=
  match newDelivery format d.sinkID d.sequence d.previousHash d.eventID d.event with
  | .ok rebuilt =>
    if rebuilt.version ≠ d.version ∨ rebuilt.eventHash ≠ d.eventHash then
      .error (.plain "invalid evidence delivery integrity metadata")
    else .ok ()
  | .error _ => .error (.plain "invalid evidence delivery integrity metadata")

def SinkReceipt.validateFor (r : SinkReceipt) (d : Delivery) : Except Failure Unit := do
  d.validate format
  if r.version ≠ deliveryVersion ∨ r.sinkID ≠ d.sinkID ∨ r.sequence ≠ d.sequence ∨ r.eventID ≠ d.eventID ∨
      r.eventHash ≠ d.eventHash ∨ !validReference r.receiptID 512 ∨ !validDigest r.checkpoint ∨
      r.acceptedAt.isZero ∨ !r.acceptedAt.utc then
    .error (.plain "sink receipt does not bind the delivered evidence")
  else .ok ()

/-! ### Claiming -/

/-- `INSERT INTO evidence_sink_checkpoints … ON CONFLICT DO NOTHING`. -/
def ensureCheckpoint (sinkID : String) (now : Time) : DeliveryOp Unit :=
  checkpointRows.upsertWhere [.sink sinkID] sinkID fun
    | some _ => .ok ((), none)
    | none =>
      if 1 ≤ sinkID.length ∧ sinkID.length ≤ 256 then
        .ok ((), some ⟨sinkID, 0, none, none, now.stored⟩)
      else .error (.database "initialize evidence checkpoint")

def occurredBefore (r r' : OutboxRow) : Prop :=
  r.occurredAt < r'.occurredAt ∨ (r.occurredAt = r'.occurredAt ∧ ID.le r.id r'.id)

instance : DecidableRel occurredBefore := fun r r' =>
  inferInstanceAs (Decidable (r.occurredAt < r'.occurredAt ∨ (r.occurredAt = r'.occurredAt ∧ ID.le r.id r'.id)))

def received (s : DeliveryStore) (sinkID : String) (eventID : ID) : Bool :=
  s.receipts.rows.any fun r => r.sinkID = sinkID && r.eventID = eventID

/-- The hints: the events without a receipt, the oldest first. -/
def pendingEvidence (sinkID : String) : DeliveryOp (List ID) :=
  .snapshot fun v => (((v.messages.rows.filter fun r => !received v sinkID r.id).insertionSort
    occurredBefore).take 64).map OutboxRow.id

/-- The candidate of a claim: the event that the checkpoint has claimed already, otherwise one of the
hints; no lease may run, and the event may have no receipt. -/
def evidenceCandidate (sinkID : String) (now : Int) (hints : List ID) (s : DeliveryStore) :
    Option (OutboxRow × SinkCheckpoint) := do
  let c ← s.checkpoints.get sinkID
  let choice := c.claim.elim hints fun claim => [claim.eventID]
  if c.claim.all fun claim => claim.claimedUntil.notAfter now then
    let found := (s.messages.rows.filter fun r => choice.contains r.id && !received s sinkID r.id)
    (found.insertionSort occurredBefore).head?.map (·, c)
  else none

/-- The `WHERE` of the claim's update: the checkpoint is as the candidate saw it. -/
def SinkCheckpoint.unmoved (seen c : SinkCheckpoint) : Bool :=
  c.lastSequence = seen.lastSequence && c.claim = seen.claim

/-- `claimCandidate`: the update takes the checkpoint only if it is still as the snapshot had it. What it
returns is bound to a delivery after it committed. -/
def claimCandidate (sinkID : String) (now : Time) (token : ID) (lease : Int) (hints : List ID) :
    DeliveryOp (Except Failure (Option ClaimedDelivery)) := do
  let candidate ← Tx.snapshot (evidenceCandidate sinkID now.stored hints)
  match candidate with
  | none => return .ok none
  | some (event, seen) =>
    let row ← checkpointRows.upsertWhere [.sink sinkID] sinkID fun
      | none => .ok (none, none)
      | some c =>
        if c.unmoved seen then
          if c.lastSequence < maxInt64 then
            .ok (some c, some { c with
              claim := some ⟨token, event.id, .at (now.stored + lease)⟩
              updatedAt := now.stored })
          else .error (.database "claim evidence delivery")
        else .ok (none, none)
    match row with
    | none => return .ok none
    | some c =>
      return (newDelivery format sinkID (c.lastSequence + 1) (c.lastEventHash.getD "") event.id
        event.content.payload).map fun delivery => some ⟨delivery, token⟩

/-! ### Completion and release -/

/-- The condition of the receipt's insert, on the checkpoint that the snapshot has. -/
def ClaimedDelivery.current (claim : ClaimedDelivery) (s : DeliveryStore) : Bool :=
  (s.checkpoints.get claim.delivery.sinkID).any fun c =>
    c.claim.any (fun k => k.claimToken = claim.claimToken && k.eventID = claim.delivery.eventID) &&
      c.lastSequence + 1 = claim.delivery.sequence

def receiptRow (d : Delivery) (receipt : SinkReceipt) : ReceiptRow :=
  { sinkID := d.sinkID
    eventID := d.eventID
    sequence := d.sequence
    previousEventHash := if d.previousHash = "" then none else some d.previousHash
    eventHash := d.eventHash
    receiptID := receipt.receiptID
    sinkCheckpoint := receipt.checkpoint
    acceptedAt := receipt.acceptedAt.stored }

def insertReceipt (row : ReceiptRow) : DeliveryOp Unit := do
  let known ← Tx.snapshot fun v => (v.messages.get row.eventID).isSome
  Tx.require (known = true ∧ row.check = true) (.database "commit evidence receipt")
  receiptRows.insert [.receipt row.sinkID row.sequence, .receiptOf row.sinkID row.eventID] row
    (fun r => r.sinkID = row.sinkID && (r.sequence = row.sequence || r.eventID = row.eventID))
    (.database "commit evidence receipt")

/-- The update of the checkpoint does not look at the claim again. -/
def advanceCheckpoint (row : ReceiptRow) : DeliveryOp Unit :=
  checkpointRows.update [.sink row.sinkID] row.sinkID
    (fun c => .ok ((), { c with
      lastSequence := row.sequence
      lastEventHash := some row.eventHash
      claim := none
      updatedAt := row.acceptedAt }))
    outboxClaimLost

/-- A message that is not yet published is published with its first receipt. -/
def publishReceived (row : ReceiptRow) : DeliveryOp Unit :=
  messageRows.upsertWhere [.message row.eventID] row.eventID fun
    | none => .ok ((), none)
    | some r =>
      if r.publishedAt.isSome then .ok ((), none)
      else if ({ r with publishedAt := some row.acceptedAt } : OutboxRow).check then
        .ok ((), some { r with publishedAt := some row.acceptedAt })
      else .error (.database "commit evidence receipt")

/-- After the receipt is encoded, `Complete` is one statement: it inserts the receipt if the snapshot has the
claim, advances the checkpoint and publishes the message. -/
def completeDelivery (claim : ClaimedDelivery) (receipt : SinkReceipt) : DeliveryOp Unit := do
  Tx.ofExcept (receipt.validateFor format claim.delivery)
  Tx.require (receipt.acceptedAt.encodable = true) yearOutOfRange
  let current ← Tx.snapshot claim.current
  Tx.require (current = true) outboxClaimLost
  let row := receiptRow claim.delivery receipt
  insertReceipt row
  advanceCheckpoint row
  publishReceived row

/-- `Release` ends the lease under a token of nobody; the event stays claimed. -/
def releaseDelivery (claim : ClaimedDelivery) (token : ID) : DeliveryOp Unit :=
  checkpointRows.update [.sink claim.delivery.sinkID] claim.delivery.sinkID
    (fun c => match c.claim with
      | some k =>
        if k.claimToken = claim.claimToken ∧ k.eventID = claim.delivery.eventID then
          .ok ((), { c with claim := some { k with claimToken := token, claimedUntil := .infinitelyPast } })
        else .error outboxClaimLost
      | none => .error outboxClaimLost)
    outboxClaimLost

end AgentGovernor
