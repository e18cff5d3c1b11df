import AgentGovernor.DeliverySchema

/-! The outbox publisher: claim a batch, send each message, and mark it by what the sink answered. The
three steps are not one transaction; what a step knows of the earlier ones is what they returned. -/

namespace AgentGovernor

open Ledger Transaction

abbrev DeliveryOp (α : Type) : Type := Tx DeliveryStore DeliveryLock deliverySchema.Write Failure α

/-- What `NewOutboxPublisher` accepts. The lease is what the database reads from its text, in
microseconds; the retries are nanoseconds. -/
@[ext] structure OutboxConfig where
  workerID : String
  batchSize : Nat
  maxAttempts : Int
  lease : Int
  baseRetry : Int
  maxRetry : Int
  workerID_bounded : 1 ≤ byteLength workerID ∧ byteLength workerID ≤ 256
  batchSize_bounded : 1 ≤ batchSize ∧ batchSize ≤ 1000
  maxAttempts_pos : 1 ≤ maxAttempts
  lease_nonneg : 0 ≤ lease
  baseRetry_pos : 0 < baseRetry
  retries_ordered : baseRetry ≤ maxRetry

instance : DecidableEq OutboxConfig := fun _ _ => decidable_of_iff _ OutboxConfig.ext_iff.symm

structure ClaimedMessage where
  id : ID
  content : OutboxContent
  occurredAt : Int
  availableAt : Int
  claimToken : ID
  attempt : Int
  deriving DecidableEq

structure PublishError where
  code : String
  permanent : Bool
  deriving DecidableEq

/-- What the sink answered. An error that is not a `PublishError` carries no classification. -/
inductive SendResult where
  | accepted
  | failed (classified : Option PublishError)
  deriving DecidableEq

def outboxClaimLost : Failure := .plain "outbox claim lost"

/-! ### Claiming -/

/-- The `WHERE` of the candidates. -/
def OutboxRow.ready (now : Int) (r : OutboxRow) : Bool :=
  r.unmarked && r.availableAt ≤ now && r.claim.all fun claim => claim.claimedUntil ≤ now

/-- `ORDER BY available_at, occurred_at, id`. -/
def readyBefore (availableAt occurredAt : Int) (id : ID) (availableAt' occurredAt' : Int) (id' : ID) :
    Prop :=
  availableAt < availableAt' ∨ (availableAt = availableAt' ∧
    (occurredAt < occurredAt' ∨ (occurredAt = occurredAt' ∧ ID.le id id')))

instance (a o : Int) (i : ID) (a' o' : Int) (i' : ID) : Decidable (readyBefore a o i a' o' i') :=
  inferInstanceAs (Decidable (_ ∨ _))

/-- The candidates of a claim: the first ready messages that no other session has locked. Which ones are
locked is not up to the caller. -/
def claimCandidates (config : OutboxConfig) (now : Int) (skipped : List ID) (s : DeliveryStore) :
    List ID :=
  (((s.messages.rows.filter fun r => r.ready now && !skipped.contains r.id).insertionSort fun r r' =>
    readyBefore r.availableAt r.occurredAt r.id r'.availableAt r'.occurredAt r'.id).take
      config.batchSize).map OutboxRow.id

/-- What a claim writes. -/
def OutboxRow.claimed (config : OutboxConfig) (now : Int) (token : ID) (r : OutboxRow) : OutboxRow :=
  { r with
    claim := some ⟨config.workerID, token, now + config.lease⟩
    attemptCount := r.attemptCount + 1
    lastAttemptAt := some now }

/-- The columns that a claim returns. -/
def OutboxRow.message (token : ID) (r : OutboxRow) : ClaimedMessage :=
  ⟨r.id, r.content, r.occurredAt, r.availableAt, token, r.attemptCount⟩

/-- Lock a candidate, look again and claim it. A row that is not ready any more would have been skipped;
an attempt count that is not an `integer` any more fails the statement. -/
def claimMessage (config : OutboxConfig) (now : Int) (token : ID) (id : ID) : DeliveryOp ClaimedMessage :=
  messageRows.update [.message id] id
    (fun r =>
      if r.ready now then
        if r.attemptCount < maxInteger then
          .ok ((r.claimed config now token).message token, r.claimed config now token)
        else .error (.database "claim outbox messages")
      else .error (.database "claim outbox messages"))
    (.database "claim outbox messages")

def claimBatch (config : OutboxConfig) (now : Time) (token : ID) (skipped : List ID) :
    DeliveryOp (List ClaimedMessage) := do
  Tx.require (now.utc = true) (.plain "timestamp must use UTC")
  let candidates ← Tx.snapshot (claimCandidates config now.stored skipped)
  let claimed ← Tx.traverse candidates (claimMessage config now.stored token)
  return claimed.insertionSort fun m m' =>
    readyBefore m.availableAt m.occurredAt m.id m'.availableAt m'.occurredAt m'.id

/-! ### Marks -/

/-- `WHERE id=$ AND claim_token=$ AND published_at IS NULL AND dead_lettered_at IS NULL`. -/
def ClaimedMessage.holds (m : ClaimedMessage) (r : OutboxRow) : Bool :=
  r.claim.any (·.claimToken = m.claimToken) && r.unmarked

/-- Write what the holder of the claim has to say about its message. -/
def markMessage (m : ClaimedMessage) (change : OutboxRow → OutboxRow) (error : Failure) :
    DeliveryOp Unit :=
  messageRows.update [.message m.id] m.id
    (fun r =>
      if m.holds r then
        if (change r).check then .ok ((), change r) else .error error
      else .error outboxClaimLost)
    outboxClaimLost

def OutboxRow.published (now : Int) (r : OutboxRow) : OutboxRow :=
  { r with publishedAt := some now, claim := none, lastErrorCode := none }

def markPublished (m : ClaimedMessage) (now : Time) : DeliveryOp Unit :=
  markMessage m (OutboxRow.published now.stored) (.database "mark outbox published")

/-- The delay before the next attempt, with the jitter that was drawn. The source scales in `float64`,
which is exact for retries below `2 ^ 53` nanoseconds. -/
def retryDelay (config : OutboxConfig) (jitter : Int) (attempt : Int) : Int :=
  let bounded := min (config.baseRetry * 2 ^ (min (attempt - 1) 62).toNat) config.maxRetry
  let jitterBound := bounded / 2
  jitterBound + min (max jitter 0) jitterBound

/-- The code and the permanence of a failure. -/
def classify (classified : Option PublishError) : String × Bool :=
  let code := classified.elim "sink_error" PublishError.code
  let permanent := classified.elim false PublishError.permanent
  if byteLength code < 1 ∨ 128 < byteLength code then ("invalid_error_code", true) else (code, permanent)

/-- The failure is the last one of the message. -/
def gaveUp (config : OutboxConfig) (m : ClaimedMessage) (classified : Option PublishError) : Bool :=
  (classify classified).2 || config.maxAttempts ≤ m.attempt

def OutboxRow.failed (code : String) (dead : Bool) (retryAt now : Int) (r : OutboxRow) : OutboxRow :=
  { r with
    claim := none
    lastErrorCode := some code
    availableAt := if dead then r.availableAt else retryAt
    deadLetteredAt := if dead then some now else none }

def markFailed (config : OutboxConfig) (m : ClaimedMessage) (classified : Option PublishError)
    (jitter : Int) (now : Time) : DeliveryOp Unit :=
  markMessage m
    (OutboxRow.failed (classify classified).1 (gaveUp config m classified)
      (⟨now.nanos + retryDelay config jitter m.attempt, now.utc⟩ : Time).stored now.stored)
    (.database "record outbox failure")

/-- One round of `PublishBatch` after the sink answered. -/
def recordSend (config : OutboxConfig) (m : ClaimedMessage) (result : SendResult) (jitter : Int)
    (now : Time) : DeliveryOp Unit :=
  match result with
  | .accepted => markPublished m now
  | .failed classified => markFailed config m classified jitter now

end AgentGovernor
