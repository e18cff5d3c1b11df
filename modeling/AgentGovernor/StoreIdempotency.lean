import AgentGovernor.StoreAdmission

/-! Idempotent requests: acquisition of a key, completion and failure by its owner, and the admission
that completes the key in its own transaction. `AcquireIdempotency` runs outside a transaction: its
conditional upsert is one, and when that leaves the record as it is, the read that follows is another. -/

namespace AgentGovernor

open Ledger Transaction

variable (dep : Deployment)

structure IdempotencyRequest where
  principalID : ID
  route : String
  key : String
  requestHash : String
  lease : Int
  ttl : Int
  deriving DecidableEq

inductive IdempotencyOutcome where
  | acquired | replay
  deriving DecidableEq

structure IdempotencyAcquisition where
  outcome : IdempotencyOutcome
  recordID : ID
  ownerToken : ID
  response : Option StoredResponse
  deriving DecidableEq

def idempotencyConflict : Failure := .plain "idempotency key reused with a different request"

def idempotencyInFlight : Failure := .plain "idempotent request is already in progress"

def idempotencyOwnership : Failure := .plain "idempotency ownership lost"

def IdempotencyRequest.scope (request : IdempotencyRequest) : ID × String × String :=
  (request.principalID, request.route, request.key)

def validateIdempotencyRequest (request : IdempotencyRequest) (now : Time) : Except Failure Unit :=
  if request.principalID.isZero then
    .error (.plain "idempotency request requires tenant and principal")
  else if byteLength request.route < 1 ∨ 256 < byteLength request.route ∨
      byteLength request.key < 1 ∨ 256 < byteLength request.key then
    .error (.plain "idempotency route and key must contain 1 to 256 bytes")
  else if !validDigest request.requestHash then
    .error (.plain "idempotency request hash must be canonical SHA-256")
  else if request.lease ≤ 0 ∨ request.ttl ≤ 0 ∨ request.ttl < request.lease then
    .error (.plain "idempotency lease and TTL must be positive and lease must not exceed TTL")
  else if !now.utc then .error (.plain "timestamp must use UTC")
  else .ok ()

/-! ### Acquisition -/

/-- The row that the upsert inserts, or writes over the one that is there. -/
def freshRecord (request : IdempotencyRequest) (recordID ownerToken : ID) (now : Time) :
    IdempotencyRecord :=
  { id := recordID
    principalID := request.principalID
    route := request.route
    idempotencyKey := request.key
    requestHash := request.requestHash
    state := .inProgress
    response := none
    ownerToken := ownerToken
    lockedUntil := (⟨now.nanos + request.lease, true⟩ : Time).stored
    createdAt := now.stored
    completedAt := none
    expiresAt := (⟨now.nanos + request.ttl, true⟩ : Time).stored }

/-- The `WHERE` of `ON CONFLICT DO UPDATE`. -/
def IdempotencyRecord.reacquirable (r : IdempotencyRecord) (requestHash : String) (now : Int) : Bool :=
  r.expiresAt ≤ now || (r.requestHash = requestHash && (r.state = .failed ||
    (r.state = .inProgress && r.lockedUntil ≤ now)))

/-- What a row that was returned means to the caller. -/
def scanIdempotency (expectedHash : String) (ownsRecord : Bool) (r : IdempotencyRecord) :
    Except Failure IdempotencyAcquisition :=
  if r.requestHash ≠ expectedHash then .error idempotencyConflict
  else match r.state with
    | .inProgress =>
      if ownsRecord then .ok ⟨.acquired, r.id, r.ownerToken, none⟩ else .error idempotencyInFlight
    | .completed =>
      match r.response with
      | none => .error (.plain "invalid completed idempotency record")
      | some response =>
        if dep.validJSONObject response.headers then
          .ok ⟨.replay, r.id, r.ownerToken, some response⟩
        else .error (.plain "invalid completed idempotency record")
    | .failed => .error idempotencyInFlight

/-- The conditional upsert: the acquisition, or nothing when the record stays as it is. The caller has
drawn both identifiers. -/
def acquireIdempotency (request : IdempotencyRequest) (recordID ownerToken : ID) (now : Time) :
    Op (Option IdempotencyAcquisition) := do
  let refused := Failure.database "acquire idempotency record"
  let fresh := freshRecord request recordID ownerToken now
  Tx.ofExcept (validateIdempotencyRequest request now)
  Tx.require (fresh.check = true) refused
  let taken ← Tx.snapshot fun v => v.idempotency.rows.any fun r =>
    r.id = recordID && r.scope ≠ request.scope
  let known ← Tx.snapshot fun v => (v.principals.get request.principalID).isSome
  idempotencyRows.upsertWhere [.idempotency request.principalID request.route request.key]
    request.scope fun old =>
      if old.all fun r => r.reacquirable request.requestHash now.stored then
        -- Only a row that is written has to have a new identifier and a principal.
        if taken || !known then .error refused
        else (scanIdempotency dep request.requestHash true fresh).map fun acquisition =>
          (some acquisition, some fresh)
      else .ok (none, none)

/-- The read that follows a contended upsert. -/
def readContended (request : IdempotencyRequest) : Op (Except Failure IdempotencyAcquisition) :=
  .snapshot fun v => match v.idempotency.get request.scope with
    | none => .error (.database "read contended idempotency record")
    | some r => scanIdempotency dep request.requestHash false r

/-! ### Completion and failure -/

/-- `WHERE … AND id=$2 AND owner_token=$3 AND state='IN_PROGRESS'`. -/
def IdempotencyAcquisition.owns (acquisition : IdempotencyAcquisition) (r : IdempotencyRecord) : Bool :=
  r.id = acquisition.recordID && r.ownerToken = acquisition.ownerToken && r.state = .inProgress

/-- Lock a record and look whether it still passes. -/
def lockRecord (candidate : IdempotencyRecord) (passes : IdempotencyRecord → Bool) (lost : Failure) :
    Op IdempotencyRecord :=
  idempotencyRows.lock [.idempotency candidate.principalID candidate.route candidate.idempotencyKey]
    candidate.scope (fun r => if passes r then .ok r else .error lost) lost

/-- Find the record that passes, lock it and look again. -/
def lockOwned (passes : IdempotencyRecord → Bool) (lost : Failure) : Op IdempotencyRecord := do
  let found ← Tx.snapshot fun v => v.idempotency.rows.find? passes
  let candidate ← Tx.orThrow found lost
  lockRecord candidate passes lost

/-- `UPDATE idempotency_records` of a record that the transaction has locked. -/
def updateRecord (r : IdempotencyRecord) (change : IdempotencyRecord → IdempotencyRecord)
    (error : Failure) : Op Unit :=
  idempotencyRows.update [.idempotency r.principalID r.route r.idempotencyKey] r.scope
    (fun old => if (change old).check then .ok ((), change old) else .error error) error

/-- Complete the record that `locate` finds under the acquisition's identifier; the errors pass through
`wrap`. -/
def completeRecord (wrap : Failure → Failure) (acquisition : IdempotencyAcquisition)
    (response : StoredResponse) (now : Time) (locate : Op IdempotencyRecord) : Op Unit := do
  Tx.require (acquisition.recordID.isZero = false ∧ acquisition.ownerToken.isZero = false)
    (wrap (.plain "invalid idempotency completion ownership"))
  Tx.require (now.utc = true) (wrap (.plain "timestamp must use UTC"))
  Tx.require (100 ≤ response.status ∧ response.status ≤ 599 ∧
      dep.validJSONObject response.headers = true) (wrap (.plain "invalid idempotency response"))
  let r ← locate
  let headers ← Tx.orThrow (dep.jsonb response.headers)
    (wrap (.database "complete idempotency record"))
  updateRecord r
    (fun old => { old with
      state := .completed
      response := some { response with headers := headers }
      completedAt := some now.stored
      lockedUntil := now.stored })
    (wrap (.database "complete idempotency record"))

def completeIdempotency (acquisition : IdempotencyAcquisition) (response : StoredResponse)
    (now : Time) : Op Unit :=
  completeRecord dep id acquisition response now (lockOwned acquisition.owns idempotencyOwnership)

def failIdempotency (acquisition : IdempotencyAcquisition) (now : Time) : Op Unit := do
  Tx.require (acquisition.recordID.isZero = false ∧ acquisition.ownerToken.isZero = false)
    (.plain "invalid idempotency failure ownership")
  Tx.require (now.utc = true) (.plain "timestamp must use UTC")
  let r ← lockOwned acquisition.owns idempotencyOwnership
  updateRecord r (fun old => { old with state := .failed, lockedUntil := now.stored })
    (.database "fail idempotency record")

/-! ### Idempotent admission -/

def runAdmissionRoute : String := "/v1/agents/\x7bagent_id\x7d/runs"

/-- Ownership of the record is held through the whole admission. -/
def admitRunIdempotently (admission : RunAdmission) (resolution : RunVersionResolution)
    (evidence : RunAdmissionEvidence) (acquisition : IdempotencyAcquisition)
    (response : StoredResponse) (now : Time) : Op Unit := do
  Tx.require (acquisition.outcome = .acquired ∧ acquisition.recordID.isZero = false ∧
      acquisition.ownerToken.isZero = false ∧ admission.tenantID = dep.tenantID)
    (conflict "admission idempotency ownership is invalid")
  let r ← lockOwned (fun r => acquisition.owns r && r.principalID = admission.requestedBy
    && r.route = runAdmissionRoute) (conflict "admission idempotency ownership lost")
  admitRun dep admission resolution evidence
  -- The identifier is the primary key: the completion finds the record that is locked.
  let failed : Failure := .domain .unavailable "could not establish idempotent response"
  completeRecord dep (fun _ => failed) acquisition response now
    (lockRecord r acquisition.owns failed)

end AgentGovernor
