import AgentGovernor.DomainPrimitives
import AgentGovernor.LedgerSchema

/-! The tables behind the delivery of evidence: the outbox, one checkpoint for each sink, and the receipts
of what sinks accepted. Columns that are null together are one field. -/

namespace AgentGovernor

open Ledger Transaction

/-! ### Rows -/

/-- The columns of an outbox message that are written once and handed to sinks. -/
structure OutboxContent where
  tenantID : Option ID
  aggregateType : String
  aggregateID : String
  eventType : String
  schemaVersion : Int
  payload : String
  headers : String
  deriving DecidableEq

/-- `claimed_by`, `claim_token` and `claimed_until` of `outbox_messages`. -/
structure MessageClaim where
  claimedBy : String
  claimToken : ID
  claimedUntil : Int
  deriving DecidableEq

structure OutboxRow where
  id : ID
  content : OutboxContent
  occurredAt : Int
  availableAt : Int
  claim : Option MessageClaim
  attemptCount : Int
  lastAttemptAt : Option Int
  lastErrorCode : Option String
  publishedAt : Option Int
  deadLetteredAt : Option Int
  deriving DecidableEq

/-- The largest `integer` of the database. -/
def maxInteger : Int := 2147483647

/-- The `CHECK`s of `outbox_messages` on what deliveries write. -/
def OutboxRow.check (r : OutboxRow) : Bool :=
  r.publishedAt.all (r.occurredAt ≤ ·) && r.deadLetteredAt.all (r.occurredAt ≤ ·) &&
    !(r.publishedAt.isSome && r.deadLetteredAt.isSome)

/-- Neither published nor given up. -/
def OutboxRow.unmarked (r : OutboxRow) : Bool := r.publishedAt.isNone && r.deadLetteredAt.isNone

/-- The end of a lease; a released one has ended before every instant. -/
inductive LeaseEnd where
  | infinitelyPast
  | at (instant : Int)
  deriving DecidableEq

def LeaseEnd.notAfter (now : Int) : LeaseEnd → Bool
  | .infinitelyPast => true
  | .at instant => instant ≤ now

/-- `claim_token`, `claimed_event_id` and `claimed_until` of `evidence_sink_checkpoints`. -/
structure SinkClaim where
  claimToken : ID
  eventID : ID
  claimedUntil : LeaseEnd
  deriving DecidableEq

structure SinkCheckpoint where
  sinkID : String
  lastSequence : Int
  lastEventHash : Option String
  claim : Option SinkClaim
  updatedAt : Int
  deriving DecidableEq

structure ReceiptRow where
  sinkID : String
  eventID : ID
  sequence : Int
  previousEventHash : Option String
  eventHash : String
  receiptID : String
  sinkCheckpoint : String
  acceptedAt : Int
  deriving DecidableEq

/-- A `text` of the database has no NUL. -/
def storableText (value : String) : Bool := !value.toList.contains (Char.ofNat 0)

/-- The `CHECK`s of `evidence_delivery_receipts`. Of its texts only the identifier of the receipt is the
sink's own. -/
def ReceiptRow.check (r : ReceiptRow) : Bool :=
  0 < r.sequence && r.previousEventHash.all validDigest && validDigest r.eventHash &&
    1 ≤ r.receiptID.length && r.receiptID.length ≤ 512 && storableText r.receiptID &&
    validDigest r.sinkCheckpoint &&
    decide (r.sequence = 1) = r.previousEventHash.isNone

/-! ### Locks -/

/-- Row locks, and the two unique indexes of the receipts. -/
inductive DeliveryLock where
  | message (id : ID)
  | sink (sinkID : String)
  | receipt (sinkID : String) (sequence : Int)
  | receiptOf (sinkID : String) (eventID : ID)
  deriving DecidableEq

instance : Guarded OutboxRow DeliveryLock where
  insertLocks r := [.message r.id]

instance : Guarded SinkCheckpoint DeliveryLock where
  insertLocks c := [.sink c.sinkID]

instance : Guarded ReceiptRow DeliveryLock where
  insertLocks r := [.receipt r.sinkID r.sequence, .receiptOf r.sinkID r.eventID]

/-! ### The database -/

inductive DeliveryTable where
  | messages | checkpoints | receipts
  deriving DecidableEq

abbrev DeliveryTable.Row : DeliveryTable → Type
  | .messages => OutboxRow
  | .checkpoints => SinkCheckpoint
  | .receipts => ReceiptRow

abbrev DeliveryTable.Key : DeliveryTable → Type
  | .messages => ID
  | .checkpoints => String
  | .receipts => String × Int

/-- Of the two unique indexes of the receipts the key is the one by sequence. -/
def ReceiptRow.key (r : ReceiptRow) : String × Int := (r.sinkID, r.sequence)

abbrev deliverySchema : Schema DeliveryLock where
  Name := DeliveryTable
  Row := DeliveryTable.Row
  Key := DeliveryTable.Key
  key
    | .messages => OutboxRow.id
    | .checkpoints => SinkCheckpoint.sinkID
    | .receipts => ReceiptRow.key
  decName := inferInstance
  decKey
    | .messages => inferInstanceAs (DecidableEq ID)
    | .checkpoints => inferInstanceAs (DecidableEq String)
    | .receipts => inferInstanceAs (DecidableEq (String × Int))
  guarded
    | .messages => inferInstanceAs (Guarded OutboxRow DeliveryLock)
    | .checkpoints => inferInstanceAs (Guarded SinkCheckpoint DeliveryLock)
    | .receipts => inferInstanceAs (Guarded ReceiptRow DeliveryLock)

abbrev DeliveryStore : Type := deliverySchema.Database

def DeliveryStore.messages (s : DeliveryStore) : Table OutboxRow.id := s .messages

def DeliveryStore.checkpoints (s : DeliveryStore) : Table SinkCheckpoint.sinkID := s .checkpoints

def DeliveryStore.receipts (s : DeliveryStore) : Table ReceiptRow.key := s .receipts

def DeliveryStore.putMessage (s : DeliveryStore) (row : OutboxRow) : DeliveryStore :=
  Schema.Database.put s .messages row

def DeliveryStore.putCheckpoint (s : DeliveryStore) (row : SinkCheckpoint) : DeliveryStore :=
  Schema.Database.put s .checkpoints row

def DeliveryStore.putReceipt (s : DeliveryStore) (row : ReceiptRow) : DeliveryStore :=
  Schema.Database.put s .receipts row

@[simp] theorem DeliveryStore.messages_putMessage (s : DeliveryStore) (row : OutboxRow) :
    (s.putMessage row).messages = s.messages.put row := rfl

@[simp] theorem DeliveryStore.checkpoints_putCheckpoint (s : DeliveryStore) (row : SinkCheckpoint) :
    (s.putCheckpoint row).checkpoints = s.checkpoints.put row := rfl

def DeliveryStore.empty : DeliveryStore := Schema.Database.empty deliverySchema

/-! ### What every commit keeps -/

/-- What was written once stays, and so does a mark. -/
structure OutboxRow.Keep (r r' : OutboxRow) : Prop where
  content : r'.content = r.content
  occurredAt : r'.occurredAt = r.occurredAt
  publishedAt : r.publishedAt.isSome = true → r'.publishedAt = r.publishedAt
  deadLetteredAt : r.deadLetteredAt.isSome = true → r'.deadLetteredAt = r.deadLetteredAt

theorem OutboxRow.Keep.refl (r : OutboxRow) : r.Keep r := ⟨rfl, rfl, fun _ => rfl, fun _ => rfl⟩

theorem OutboxRow.Keep.trans {a b c : OutboxRow} (h : a.Keep b) (h' : b.Keep c) : a.Keep c where
  content := h'.content.trans h.content
  occurredAt := h'.occurredAt.trans h.occurredAt
  publishedAt ha := by
    have hb := h.publishedAt ha
    exact (h'.publishedAt (hb ▸ ha)).trans hb
  deadLetteredAt ha := by
    have hb := h.deadLetteredAt ha
    exact (h'.deadLetteredAt (hb ▸ ha)).trans hb

/-- A checkpoint only advances, and until it does its hash and its claimed event stay. -/
structure SinkCheckpoint.Keep (c c' : SinkCheckpoint) : Prop where
  lastSequence : c.lastSequence ≤ c'.lastSequence
  lastEventHash : c'.lastSequence = c.lastSequence → c'.lastEventHash = c.lastEventHash
  claim : c'.lastSequence = c.lastSequence → ∀ e, c.claim.map SinkClaim.eventID = some e →
    c'.claim.map SinkClaim.eventID = some e

theorem SinkCheckpoint.Keep.refl (c : SinkCheckpoint) : c.Keep c :=
  ⟨le_refl _, fun _ => rfl, fun _ _ => id⟩

theorem SinkCheckpoint.Keep.trans {a b c : SinkCheckpoint} (h : a.Keep b) (h' : b.Keep c) : a.Keep c := by
  -- If the ends agree, so does the middle.
  have hmiddle : c.lastSequence = a.lastSequence →
      b.lastSequence = a.lastSequence ∧ c.lastSequence = b.lastSequence := by
    intro hsame
    have hab := h.lastSequence
    have hbc := h'.lastSequence
    omega
  refine ⟨h.lastSequence.trans h'.lastSequence, fun hsame => ?_, fun hsame e ha => ?_⟩
  · obtain ⟨hb, hc⟩ := hmiddle hsame
    exact (h'.lastEventHash hc).trans (h.lastEventHash hb)
  · obtain ⟨hb, hc⟩ := hmiddle hsame
    exact h'.claim hc e (h.claim hb e ha)

/-- A checkpoint that advanced has left the receipt of its next sequence. -/
structure DeliveryStore.Keeps (s t : DeliveryStore) : Prop where
  messages : s.messages.Keeps OutboxRow.Keep t.messages
  checkpoints : s.checkpoints.Keeps SinkCheckpoint.Keep t.checkpoints
  receipts : s.receipts.Keeps Eq t.receipts
  advanced : ∀ sink c c', s.checkpoints.get sink = some c → t.checkpoints.get sink = some c' →
    c.lastSequence < c'.lastSequence → (t.receipts.get (sink, c.lastSequence + 1)).isSome = true

theorem DeliveryStore.Keeps.refl (s : DeliveryStore) : s.Keeps s where
  messages := .refl OutboxRow.Keep.refl _
  checkpoints := .refl SinkCheckpoint.Keep.refl _
  receipts := .refl Eq.refl _
  advanced sink c c' hc hc' hlt := by
    rw [hc] at hc'
    cases hc'
    exact absurd hlt (lt_irrefl _)

theorem DeliveryStore.Keeps.trans {s t u : DeliveryStore} (h : s.Keeps t) (h' : t.Keeps u) :
    s.Keeps u where
  messages := h.messages.trans OutboxRow.Keep.trans h'.messages
  checkpoints := h.checkpoints.trans SinkCheckpoint.Keep.trans h'.checkpoints
  receipts := h.receipts.trans Eq.trans h'.receipts
  advanced sink a c ha hc hlt := by
    obtain ⟨b, hb, hkeep⟩ := h.checkpoints sink a ha
    by_cases hab : a.lastSequence < b.lastSequence
    · obtain ⟨r, hr⟩ := Option.isSome_iff_exists.mp (h.advanced sink a b ha hb hab)
      obtain ⟨r', hr', _⟩ := h'.receipts _ r hr
      exact hr' ▸ rfl
    · have hsame : b.lastSequence = a.lastSequence := by
        have hle := hkeep.lastSequence
        omega
      rw [← hsame]
      exact h'.advanced sink b c hb hc (by omega)

theorem DeliveryStore.Keeps.putMessage {s t : DeliveryStore} (row : OutboxRow) (h : s.Keeps t) :
    (s.putMessage row).Keeps (t.putMessage row) :=
  { h with messages := h.messages.put OutboxRow.Keep.refl row }

theorem DeliveryStore.Keeps.putCheckpoint {s t : DeliveryStore} (row : SinkCheckpoint) (h : s.Keeps t) :
    (s.putCheckpoint row).Keeps (t.putCheckpoint row) := by
  refine { h with
    checkpoints := h.checkpoints.put SinkCheckpoint.Keep.refl row
    advanced := fun sink c c' hc hc' hlt => ?_ }
  have hs : (s.checkpoints.put row).get sink = some c := hc
  have ht : (t.checkpoints.put row).get sink = some c' := hc'
  rw [Table.get_put] at hs ht
  split_ifs at hs ht with hsink
  · cases hs
    cases ht
    exact absurd hlt (lt_irrefl _)
  · exact h.advanced sink c c' hs ht hlt

theorem DeliveryStore.Keeps.putReceipt {s t : DeliveryStore} (row : ReceiptRow) (h : s.Keeps t) :
    (s.putReceipt row).Keeps (t.putReceipt row) := by
  refine { h with
    receipts := h.receipts.put Eq.refl row
    advanced := fun sink c c' hc hc' hlt => ?_ }
  show ((t.receipts.put row).get _).isSome = true
  rw [Table.get_put]
  split_ifs
  · rfl
  · exact h.advanced sink c c' hc hc' hlt

theorem DeliveryStore.Keeps.put {s t : DeliveryStore} (n : DeliveryTable) (r : n.Row) (h : s.Keeps t) :
    DeliveryStore.Keeps (Schema.Database.put s n r) (Schema.Database.put t n r) := by
  cases n with
  | messages => exact h.putMessage r
  | checkpoints => exact h.putCheckpoint r
  | receipts => exact h.putReceipt r

def deliveryEngine : Engine DeliveryStore DeliveryLock deliverySchema.Write :=
  deliverySchema.engine (· = ·) Eq.symm ⟨DeliveryStore.Keeps, DeliveryStore.Keeps.put⟩

def messageRows : Handle deliveryEngine OutboxRow.id := deliverySchema.rows .messages

def checkpointRows : Handle deliveryEngine SinkCheckpoint.sinkID := deliverySchema.rows .checkpoints

def receiptRows : Handle deliveryEngine ReceiptRow.key := deliverySchema.rows .receipts

end AgentGovernor
