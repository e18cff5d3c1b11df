import AgentGovernor.AdministrationDomain
import AgentGovernor.DomainClock
import AgentGovernor.PolicyRevocation
import AgentGovernor.RevocationRepository
import AgentGovernor.StoreCancellation
import Mathlib.Data.Nat.Digits.Defs

/-! The rows of `audit_events` in full: what each of the ten writers hashes, what it inserts, and the hash that
a reader of the stored row computes. The database keeps microseconds of an instant, JSON columns keep the value,
and columns that an `INSERT` leaves out are null. -/

namespace AgentGovernor

open List
open Option hiding sequence

namespace Audit

/-! ### Evidence and its hash -/

/-- The Go struct `AuditEvent`; the defaults are the zero values of fields that a literal leaves out. -/
structure Event where
  id : ID
  tenantID : Option ID
  principalID : Option ID
  action : String
  resourceType : String
  resourceID : String
  outcome : String
  reasonCodes : Json
  policyDecisionID : Option ID := none
  requestID : Option ID := none
  traceID : String := ""
  metadata : Json
  previousHash : String := ""
  occurredAt : Time
  deriving DecidableEq

/-- The Go struct `OutboxMessage`. -/
structure Message where
  id : ID
  tenantID : Option ID
  aggregateType : String
  aggregateID : String
  eventType : String
  schemaVersion : Int
  payload : Json
  headers : Json
  occurredAt : Time
  availableAt : Time
  deriving DecidableEq

/-- A row of `audit_events`, but for its sequence number; instants are microseconds. -/
structure Row where
  id : ID
  tenantID : Option ID
  principalID : Option ID
  action : String
  resourceType : String
  resourceID : Option String
  outcome : String
  reasonCodes : Json
  policyDecisionID : Option ID := none
  requestID : Option ID := none
  traceID : Option String := none
  metadata : Json
  previousEventHash : Option String := none
  eventHash : String
  occurredAt : Int
  deriving DecidableEq

def optionalID (id : Option ID) : String := (id.map ID.string).getD ""

def strings (values : List String) : Json := .array (values.map .string)

/-- What `hashAuditEvent` encodes. -/
def canonical (a : Event) : Json :=
  .object [("ID", .string a.id.string), ("TenantID", .string (optionalID a.tenantID)),
    ("PrincipalID", .string (optionalID a.principalID)), ("Action", .string a.action),
    ("ResourceType", .string a.resourceType), ("ResourceID", .string a.resourceID),
    ("Outcome", .string a.outcome), ("ReasonCodes", a.reasonCodes),
    ("PolicyDecisionID", .string (optionalID a.policyDecisionID)),
    ("RequestID", .string (optionalID a.requestID)), ("TraceID", .string a.traceID),
    ("Metadata", a.metadata), ("PreviousHash", .string a.previousHash),
    ("OccurredAt", .string a.occurredAt.formatRFC3339Nano)]

def hashAuditEvent (dep : Deployment) (a : Event) : String := dep.digest (canonical a).encode

/-- The event that a stored row tells of. -/
def Row.event (row : Row) : Event where
  id := row.id
  tenantID := row.tenantID
  principalID := row.principalID
  action := row.action
  resourceType := row.resourceType
  resourceID := row.resourceID.getD ""
  outcome := row.outcome
  reasonCodes := row.reasonCodes
  policyDecisionID := row.policyDecisionID
  requestID := row.requestID
  traceID := row.traceID.getD ""
  metadata := row.metadata
  previousHash := row.previousEventHash.getD ""
  occurredAt := .ofStored row.occurredAt

/-- The row that a writer inserts for an event: no writer sets a trace or a previous hash. -/
def Event.row (a : Event) (tenantID : ID) (eventHash : String) : Row where
  id := a.id
  tenantID := some tenantID
  principalID := a.principalID
  action := a.action
  resourceType := a.resourceType
  resourceID := some a.resourceID
  outcome := a.outcome
  reasonCodes := a.reasonCodes
  policyDecisionID := a.policyDecisionID
  requestID := a.requestID
  metadata := a.metadata
  eventHash := eventHash
  occurredAt := a.occurredAt.stored

/-- What the ledgers of the store have of a row. -/
def Row.kept (row : Row) : Option AuditEvent := do
  let principalID ← row.principalID
  let resourceID ← row.resourceID
  return ⟨row.id, principalID, row.action, resourceID, row.occurredAt⟩

/-- The stored hash is that of the stored row. -/
def Row.Verifies (dep : Deployment) (row : Row) : Prop := row.eventHash = hashAuditEvent dep row.event

instance (dep : Deployment) (row : Row) : Decidable (row.Verifies dep) :=
  inferInstanceAs (Decidable (row.eventHash = hashAuditEvent dep row.event))

/-! ### The check of the evidence -/

def protectedNames : List String :=
  ["authorization", "cookie", "password", "secret", "credential", "token", "objective", "prompt", "input",
    "payload", "database_url", "valkey_url", "dsn", "idempotency_key", "reconciliation_key"]

def restrictedKey (key : String) : Bool :=
  let normalized := (Policy.trimSpace key).map fun c =>
    if c = '-' ∨ c = '.' then '_' else c.toLower
  protectedNames.any fun name =>
    normalized = name.toList || ('_' :: name.toList).isSuffixOf normalized

mutual

def containsRestrictedJSONKey : Json → Bool
  | .object members => restrictedMember members
  | .array items => restrictedItem items
  | _ => false

def restrictedItem : List Json → Bool
  | [] => false
  | item :: items => containsRestrictedJSONKey item || restrictedItem items

def restrictedMember : List (String × Json) → Bool
  | [] => false
  | (key, child) :: members =>
    restrictedKey key || containsRestrictedJSONKey child || restrictedMember members

end

def isArray : Json → Bool
  | .array _ => true
  | _ => false

def isObject : Json → Bool
  | .object _ => true
  | _ => false

/-- `^[0-9a-f]{32}$`. -/
def tracePattern (s : String) : Bool :=
  s.toList.length = 32 && s.toList.all fun c => isDigit c || ('a' ≤ c && c ≤ 'f')

def validateEvidence (a : Event) (m : Message) : Except Failure Unit := do
  if a.id.isZero ∨ m.id.isZero then .error (.plain "audit and outbox IDs are required")
  if a.tenantID ≠ m.tenantID then .error (.plain "audit and outbox tenant scope must match")
  if a.principalID ≠ none ∧ a.tenantID = none then .error (.plain "audit principal requires tenant scope")
  if byteLength a.action < 1 ∨ 128 < byteLength a.action ∨ byteLength a.resourceType < 1 ∨
      128 < byteLength a.resourceType ∨ 512 < byteLength a.resourceID then
    .error (.plain "audit action or resource is outside schema bounds")
  if a.outcome ≠ "SUCCEEDED" ∧ a.outcome ≠ "DENIED" ∧ a.outcome ≠ "FAILED" then
    .error (.plain "invalid audit outcome")
  if a.traceID ≠ "" ∧ !tracePattern a.traceID then .error (.plain "invalid audit trace ID")
  if a.previousHash ≠ "" ∧ !validDigest a.previousHash then .error (.plain "invalid previous audit hash")
  if !isArray a.reasonCodes ∨ !isObject a.metadata ∨ !isObject m.payload ∨ !isObject m.headers then
    .error (.plain "evidence JSON has an invalid shape")
  if containsRestrictedJSONKey a.metadata ∨ containsRestrictedJSONKey m.headers then
    .error (.plain "audit metadata or outbox headers contain a restricted field")
  if byteLength m.aggregateType < 1 ∨ 128 < byteLength m.aggregateType ∨ byteLength m.aggregateID < 1 ∨
      512 < byteLength m.aggregateID ∨ byteLength m.eventType < 1 ∨ 256 < byteLength m.eventType ∨
      m.schemaVersion < 1 then
    .error (.plain "outbox envelope is outside schema bounds")
  let _ ← requireUTC a.occurredAt
  let _ ← requireUTC m.occurredAt
  let _ ← requireUTC m.availableAt
  if m.availableAt.nanos < m.occurredAt.nanos then
    .error (.plain "outbox availability precedes occurrence")

section Writers

variable (dep : Deployment)

/-- A check of a writer. -/
def refuse (condition : Prop) [Decidable condition] (error : Failure) : Except Failure Unit :=
  if condition then .error error else .ok ()

/-- A writer that checks its evidence, hashes the event and inserts a row with that hash. -/
def recorded (tenantID : ID) (a : Event) (m : Message) : Except Failure Row := do
  validateEvidence a m
  return a.row tenantID (hashAuditEvent dep a)

/-- The outbox message of a change, available at once. -/
def messageOf (id tenantID : ID) (aggregateType aggregateID eventType : String) (payload : Json) (at' : Time) :
    Message :=
  { id := id, tenantID := some tenantID, aggregateType := aggregateType, aggregateID := aggregateID
    eventType := eventType, schemaVersion := 1, payload := payload, headers := .object []
    occurredAt := at', availableAt := at' }

/-! ### Runs -/

def admitRun (admission : RunAdmission) (resolution : RunVersionResolution)
    (evidence : RunAdmissionEvidence) : Except Failure Row := do
  refuse (admission.tenantID ≠ dep.tenantID ∨ resolution.tenantID ≠ dep.tenantID ∨
      resolution.runID ≠ admission.runID ∨ resolution.agentID ≠ admission.agentID ∨
      resolution.agentVersionID ≠ admission.agentVersionID ∨
      resolution.invocationDecisionID ≠ admission.policyDecisionID)
    (.plain "run admission does not match repository scope or resolution")
  admission.validate
  resolution.validate
  refuse (!evidence.valid)
    (.plain "run admission evidence is invalid")
  let reasons := strings evidence.reasonCodes
  let outboxPayload : Json := .object [("agent_id", .string admission.agentID.string),
    ("agent_version_id", .string admission.agentVersionID.string),
    ("envelope_id", .string admission.envelopeID.string), ("run_id", .string admission.runID.string),
    ("state", .string admission.state.text), ("state_version", .ofInt admission.stateVersion)]
  let metadata : Json := .object [("agent_id", .string admission.agentID.string),
    ("agent_version_id", .string admission.agentVersionID.string),
    ("envelope_id", .string admission.envelopeID.string),
    ("policy_activation_version", .ofInt resolution.policyActivationVersion),
    ("policy_bundle_digest", .string resolution.policyBundleDigest)]
  recorded dep dep.tenantID
    { id := evidence.auditID, tenantID := some admission.tenantID, principalID := some admission.requestedBy
      action := "runs.create", resourceType := "run", resourceID := admission.runID.string
      outcome := "SUCCEEDED", reasonCodes := reasons, policyDecisionID := some admission.policyDecisionID
      requestID := some evidence.requestID, metadata := metadata, occurredAt := admission.createdAt }
    (messageOf evidence.outboxID admission.tenantID "run" admission.runID.string "run.admitted" outboxPayload
      admission.createdAt)

def signalTypeText : RunSignalType → String
  | .cancel => "CANCEL"
  | .pause => "PAUSE"
  | .resume => "RESUME"
  | .custom => "CUSTOM"

/-- The event's sequence number is read in the transaction. -/
def appendRunSignal (signal : RunSignalSubmission) (evidence : RunSignalEvidence) (sequence : Int) :
    Except Failure Row := do
  refuse (signal.tenantID ≠ dep.tenantID)
    (.plain "run signal does not match repository scope")
  signal.validate
  refuse (!evidence.valid)
    (.plain "run signal evidence is invalid")
  let type := signalTypeText signal.content.signalType
  let reasons := strings evidence.reasonCodes
  let metadata : Json := .object [("event_sequence", .ofInt sequence), ("signal_id", .string signal.id.string),
    ("signal_type", .string type)]
  let outboxPayload : Json := .object [("event_id", .string evidence.eventID.string),
    ("payload", signal.content.payload), ("run_id", .string signal.runID.string), ("sequence", .ofInt sequence),
    ("signal_id", .string signal.id.string), ("signal_type", .string type)]
  recorded dep dep.tenantID
    { id := evidence.auditID, tenantID := some signal.tenantID, principalID := some signal.actorPrincipalID
      action := "runs.signal", resourceType := "run", resourceID := signal.runID.string
      outcome := "SUCCEEDED", reasonCodes := reasons, policyDecisionID := some evidence.policyDecisionID
      requestID := some evidence.requestID, metadata := metadata, occurredAt := signal.createdAt }
    (messageOf evidence.outboxID signal.tenantID "run" signal.runID.string "run.signal.accepted" outboxPayload
      signal.createdAt)

/-- The run's state, its next one and the event's sequence number are read in the transaction. -/
def cancelRun (cancellation : RunCancellation) (evidence : RunCancellationEvidence) (state : RunState)
    (next : RunLifecycle) (sequence : Int) : Except Failure Row := do
  refuse (cancellation.tenantID ≠ dep.tenantID)
    (.plain "run cancellation does not match repository scope")
  cancellation.validate
  refuse (!evidence.valid)
    (.plain "run cancellation evidence is invalid")
  let reasons := strings evidence.reasonCodes
  let metadata : Json := .object [("event_sequence", .ofInt sequence), ("previous_state", .string state.text),
    ("reason_code", .string cancellation.reasonCode), ("state", .string next.state.text),
    ("state_version", .ofInt next.version)]
  let outboxPayload : Json := .object [("event_id", .string evidence.eventID.string),
    ("previous_state", .string state.text), ("reason_code", .string cancellation.reasonCode),
    ("run_id", .string cancellation.runID.string), ("sequence", .ofInt sequence),
    ("state", .string next.state.text), ("state_version", .ofInt next.version)]
  recorded dep dep.tenantID
    { id := evidence.auditID, tenantID := some cancellation.tenantID
      principalID := some cancellation.actorPrincipalID, action := "runs.cancel", resourceType := "run"
      resourceID := cancellation.runID.string, outcome := "SUCCEEDED", reasonCodes := reasons
      policyDecisionID := some evidence.policyDecisionID, requestID := some evidence.requestID
      metadata := metadata, occurredAt := cancellation.createdAt }
    (messageOf evidence.outboxID cancellation.tenantID "run" cancellation.runID.string "run.cancelled"
      outboxPayload cancellation.createdAt)

/-! ### Resources -/

def dispositionText : ExhaustionDisposition → String
  | .fail => "FAIL"
  | .pause => "PAUSE"
  | .other text => text

/-- The audit row of a usage that exhausts a budget; there is no outbox message and no second check. -/
def exhaustBudget (candidate : TrustedUsage) (auditID : ID) (disposition : ExhaustionDisposition)
    (final : RunLifecycle) : Except Failure Row := do
  refuse (candidate.tenantID ≠ dep.tenantID)
    (.plain "trusted usage does not match repository scope")
  refuse (!disposition.valid)
    (.domain .invalidArgument "exhaustion disposition is invalid")
  let usage ← validateTrustedUsage dep candidate
  let a : Event :=
    { id := auditID, tenantID := some usage.tenantID, principalID := some usage.producerID
      action := "resources.exhaust", resourceType := "run", resourceID := usage.runID.string
      outcome := "SUCCEEDED", reasonCodes := strings ["resource.budget.exhausted"]
      metadata := .object [("disposition", .string (dispositionText disposition)),
        ("resource_name", .string usage.resourceName), ("state", .string final.state.text),
        ("state_version", .ofInt final.version), ("usage_id", .string usage.id.string)]
      occurredAt := usage.recordedAt }
  return a.row usage.tenantID (hashAuditEvent dep a)

/-- The envelope, its new version and whether the run resumed are found in the transaction. -/
def extendResources (candidate : ResourceExtension) (evidence : ResourceExtensionEvidence) (envelopeID : ID)
    (newVersion : Int) (resumed : Bool) : Except Failure Row := do
  let extension ← validateResourceExtension candidate
  refuse (extension.tenantID ≠ dep.tenantID)
    (.plain "resource extension does not match repository scope")
  refuse (!evidence.valid)
    (.plain "resource extension evidence is invalid")
  let payload : Json := .object [("envelope_version", .ofInt newVersion),
    ("extension_id", .string extension.id.string), ("reason_code", .string extension.reasonCode),
    ("resumed", .bool resumed)]
  let reasons := strings evidence.reasonCodes
  let metadata : Json := .object [("approval_reference", .string extension.approvalReference),
    ("envelope_version", .ofInt newVersion), ("extension_id", .string extension.id.string),
    ("reason_code", .string extension.reasonCode), ("resumed", .bool resumed)]
  recorded dep dep.tenantID
    { id := evidence.auditID, tenantID := some extension.tenantID
      principalID := some extension.actorPrincipalID, action := "resources.extend", resourceType := "envelope"
      resourceID := envelopeID.string, outcome := "SUCCEEDED", reasonCodes := reasons
      policyDecisionID := some extension.policyDecisionID, requestID := some evidence.requestID
      metadata := metadata, occurredAt := extension.createdAt }
    (messageOf evidence.outboxID extension.tenantID "run" extension.runID.string "run.resources_extended"
      payload extension.createdAt)

def settleReservation (candidate : ResourceSettlement) (evidence : ResourceSettlementEvidence) :
    Except Failure Row := do
  let settlement ← validateResourceSettlement candidate
  refuse (settlement.tenantID ≠ dep.tenantID ∨ !evidence.valid)
    (.plain "resource settlement scope or evidence is invalid")
  let payload : Json := .object [("reservation_id", .string settlement.reservationID.string),
    ("settlement_id", .string settlement.id.string),
    ("terminal_run_state", .string settlement.terminalRunState.text)]
  let reasons := strings evidence.reasonCodes
  let metadata : Json := .object [("request_id", .string evidence.requestID.string)]
  recorded dep dep.tenantID
    { id := evidence.auditID, tenantID := some settlement.tenantID
      principalID := some settlement.actorPrincipalID, action := "resources.settle"
      resourceType := "resource_reservation", resourceID := settlement.reservationID.string
      outcome := "SUCCEEDED", reasonCodes := reasons, policyDecisionID := some settlement.policyDecisionID
      requestID := some evidence.requestID, metadata := metadata, occurredAt := settlement.settledAt }
    (messageOf evidence.outboxID settlement.tenantID "resource_reservation" settlement.reservationID.string
      "resource.reservation.settled" payload settlement.settledAt)

/-- The reservation, its run's state and whether it has expired are found in the transaction. -/
def reconcileNextReservation (request : ResourceReconciliation) (reservationID : ID) (runState : RunState)
    (expired : Bool) : Except Failure Row := do
  let now ← validateReconciliation request
  let evidence := request.evidence
  let reason := if expired then "EXPIRED" else "RECONCILED"
  let payload : Json := .object [("reason", .string reason), ("reservation_id", .string reservationID.string),
    ("settlement_id", .string evidence.settlementID.string), ("terminal_run_state", .string runState.text)]
  let reasons := strings ["resource.reservation.reconciled"]
  let metadata : Json := .object [("expired", .bool expired)]
  recorded dep request.tenantID
    { id := evidence.auditID, tenantID := some request.tenantID, principalID := some request.systemPrincipalID
      action := "resources.reconcile", resourceType := "resource_reservation"
      resourceID := reservationID.string, outcome := "SUCCEEDED", reasonCodes := reasons
      policyDecisionID := some evidence.policyDecisionID, metadata := metadata, occurredAt := now }
    (messageOf evidence.outboxID request.tenantID "resource_reservation" reservationID.string
      "resource.reservation.reconciled" payload now)

/-! ### Revocations -/

def changeText : RevocationChangeType → String
  | .created => "CREATED"
  | .lifted => "LIFTED"

/-- The columns that both ledgers have. -/
def revocationEvent (row : RevocationAudit) : AuditEvent :=
  ⟨row.id, row.principalID, "revocations." ++ lowerText (changeText row.changeType), row.resourceID.string,
    row.occurredAt⟩

/-- `ValidateRevocation` or `ValidateRevocationLift`. -/
def validateAction : RevocationAction → Except Failure RevocationAction
  | .create v => (validateRevocation v).map .create
  | .lift l => (validateRevocationLift l).map .lift

/-- The scope and target of a lift are those of the stored revocation; there is no second check. -/
def changeRevocation (tenantID : ID) (candidate : RevocationAction) (scope : RevocationScope) (target : String)
    (e : RevocationEvidence) : Except Failure Row := do
  let action ← validateAction candidate
  let change := changeText action.change
  let name := "revocations." ++ lowerText change
  let reasons := strings e.reasonCodes
  let metadata : Json := .object [("approval_reference", .string action.approvalReference),
    ("change", .string change), ("reason_code", .string action.reasonCode), ("scope", .string scope.text),
    ("target", .string target)]
  let a : Event :=
    { id := e.auditID, tenantID := some tenantID, principalID := some action.actor, action := name
      resourceType := "revocation", resourceID := action.revocationID.string, outcome := "SUCCEEDED"
      reasonCodes := reasons, policyDecisionID := some e.policyDecisionID, requestID := some e.requestID
      metadata := metadata, occurredAt := action.changedAt }
  return a.row tenantID (hashAuditEvent dep a)

/-! ### Decisions about versions -/

def decisionText : ApprovalDecision → String
  | .approved => "APPROVED"
  | .rejected => "REJECTED"
  | .deprecated => "DEPRECATED"
  | .revoked => "REVOKED"

/-- An instant without a JSON text makes the encoding fail; the error is dropped and nothing is hashed. -/
def decisionHashInput (approval : AgentVersionApproval) : String :=
  match approval.createdAt.json with
  | .ok createdAt =>
    Json.encode (.array [.string approval.id.string, .string approval.tenantID.string,
      .string approval.actorPrincipalID.string, .string (decisionText approval.decision),
      .string approval.reasonCode, createdAt])
  | .error _ => ""

/-- The version is found in the transaction, and the stored decision is checked at its end. -/
def recordAgentVersionDecision (approval : AgentVersionApproval) (digest : String) (auditID outboxID : ID)
    (requestID : Option ID) (versionID : ID) : Except Failure Row := do
  refuse (approval.tenantID ≠ dep.tenantID ∨ auditID.isZero ∨ outboxID.isZero ∨ byteLength digest ≠ 71)
    (.plain "agent version decision does not match repository scope")
  { approval with agentVersionID := versionID }.validate
  return { id := auditID, tenantID := some dep.tenantID, principalID := some approval.actorPrincipalID
           action := "agent_versions." ++ lowerText (decisionText approval.decision)
           resourceType := "agent_version", resourceID := some digest, outcome := "SUCCEEDED"
           reasonCodes := strings [approval.reasonCode], policyDecisionID := some approval.policyDecisionID
           requestID := requestID
           metadata := .object [("approval_reference", .string approval.approvalReference),
             ("version_digest", .string digest)]
           eventHash := dep.digest (decisionHashInput approval), occurredAt := approval.createdAt.stored }

/-! ### Administration -/

/-- What an administrator asks for; the request hash is that of its JSON. Values of byte slices are their base64
texts, and a manifest or a bootstrap specification is the JSON value that it encodes to. -/
inductive Request where
  | upload (digest contractVersion : String) (revision : Nat)
      (source signature keyID keyVersion algorithm : String)
  | activate (digest channel reason approval : String)
  | saveDraft (id : String) (expectedRevision : Int) (source : String)
  | requestRollback (digest : String) (expectedPolicyEpoch lifetimeSeconds : Int) (reason : String)
  | decide (id : ID) (approved : Bool)
  | createAgent (id tenantID ownerPrincipalID sponsorPrincipalID : ID) (name description riskClass : String)
  | registerVersion (agentID digest : String) (manifest : Json)
  | updateIntegration (expectedRevision : Int) (endpoint tokenReference : String)
  | updateRoleMappings (expectedRevision : Int) (mappings : StringMap) (approvalReference : String)
  | approveRecovery (id : ID)
  | bootstrap (spec : Json) (policy keyID keyVersion : String)

def Request.json : Request → Except Failure Json
  | .upload digest contractVersion revision source signature keyID keyVersion algorithm =>
    .ok (.object [("digest", .string digest), ("contract_version", .string contractVersion),
      ("artifact_revision", .ofInt revision), ("artifact", .string source), ("signature", .string signature),
      ("signing_key_id", .string keyID), ("signing_key_version", .string keyVersion),
      ("signature_algorithm", .string algorithm)])
  | .activate digest channel reason approval =>
    .ok (.object [("Digest", .string digest), ("Body", .object [("channel", .string channel),
      ("reason_code", .string reason), ("approval_reference", .string approval)])])
  | .saveDraft id expectedRevision source =>
    .ok (.object [("ID", .string id), ("Body", .object [("expected_revision", .ofInt expectedRevision),
      ("source", .string source)])])
  | .requestRollback digest expectedPolicyEpoch lifetimeSeconds reason =>
    .ok (.object [("Digest", .string digest), ("Body", .object [
      ("expected_policy_epoch", .ofInt expectedPolicyEpoch), ("lifetime_seconds", .ofInt lifetimeSeconds),
      ("reason_code", .string reason)])])
  | .decide id approved => do
    let id ← id.json
    return .object [("ID", id), ("Approved", .bool approved)]
  | .createAgent id tenantID ownerPrincipalID sponsorPrincipalID name description riskClass => do
    let id ← id.json
    let tenantID ← tenantID.json
    let ownerPrincipalID ← ownerPrincipalID.json
    let sponsorPrincipalID ← sponsorPrincipalID.json
    return .object [("ID", id), ("TenantID", tenantID), ("OwnerPrincipalID", ownerPrincipalID),
      ("SponsorPrincipalID", sponsorPrincipalID), ("Name", .string name),
      ("Description", .string description), ("RiskClass", .string riskClass)]
  | .registerVersion agentID digest manifest =>
    .ok (.object [("AgentID", .string agentID), ("Digest", .string digest), ("Manifest", manifest)])
  | .updateIntegration expectedRevision endpoint tokenReference =>
    .ok (.object [("expected_revision", .ofInt expectedRevision),
      ("connection", .object [("endpoint", .string endpoint), ("token_reference", .string tokenReference)])])
  | .updateRoleMappings expectedRevision mappings approvalReference =>
    .ok (.object [("expected_revision", .ofInt expectedRevision), ("mappings", mappings.json),
      ("approval_reference", .string approvalReference)])
  | .approveRecovery id => id.json
  | .bootstrap spec policy keyID keyVersion =>
    .ok (.object [("Spec", spec), ("Policy", .string policy), ("KeyID", .string keyID),
      ("KeyVersion", .string keyVersion)])

/-- The operation with the hash of the request that it is for. -/
def Request.operation (request : Request) (op : AdministrationOperation) :
    Except Failure AdministrationOperation := do
  let raw ← request.json
  return { op with requestHash := dep.digest raw.encode }

def administrationEvidence (op : AdministrationOperation) (auditID : ID) : Row :=
  let operator := "operator.".toList.isPrefixOf op.action.toList
  { id := auditID, tenantID := some op.tenantID, principalID := some op.actorID, action := op.action
    resourceType := "governance_configuration", resourceID := some op.resource, outcome := "SUCCEEDED"
    reasonCodes := strings ["governance.operation.allowed"]
    policyDecisionID := if operator then none else some op.decisionID, requestID := some op.requestID
    metadata := .object [
      ("authorization_source", .string (if operator then "deployment-operator" else "active-policy")),
      ("policy_digest", .string op.policyDigest), ("policy_epoch", .ofInt op.policyVersion),
      ("resource_reference", .string op.resource)]
    eventHash := op.requestHash, occurredAt := op.at'.stored }

end Writers

/-! ### The ten writers -/

/-- A call of a writer, with what it finds in its transaction. -/
inductive Write where
  | admission (admission : RunAdmission) (resolution : RunVersionResolution) (evidence : RunAdmissionEvidence)
  | signal (signal : RunSignalSubmission) (evidence : RunSignalEvidence) (sequence : Int)
  | cancellation (cancellation : RunCancellation) (evidence : RunCancellationEvidence) (state : RunState)
      (next : RunLifecycle) (sequence : Int)
  | metering (usage : TrustedUsage) (auditID : ID) (disposition : ExhaustionDisposition) (final : RunLifecycle)
  | extension (extension : ResourceExtension) (evidence : ResourceExtensionEvidence) (envelopeID : ID)
      (newVersion : Int) (resumed : Bool)
  | settlement (settlement : ResourceSettlement) (evidence : ResourceSettlementEvidence)
  | reconciliation (request : ResourceReconciliation) (reservationID : ID) (runState : RunState)
      (expired : Bool)
  | revocation (tenantID : ID) (action : RevocationAction) (scope : RevocationScope) (target : String)
      (evidence : RevocationEvidence)
  | versionDecision (approval : AgentVersionApproval) (digest : String) (auditID outboxID : ID)
      (requestID : Option ID) (versionID : ID)
  | administration (request : Request) (op : AdministrationOperation) (auditID : ID)

namespace Write

/-- The row that a call inserts. -/
def row (dep : Deployment) : Write → Except Failure Row
  | .admission x resolution evidence => admitRun dep x resolution evidence
  | .signal x evidence sequence => appendRunSignal dep x evidence sequence
  | .cancellation x evidence state next sequence => cancelRun dep x evidence state next sequence
  | .metering usage auditID disposition final => exhaustBudget dep usage auditID disposition final
  | .extension x evidence envelopeID newVersion resumed =>
    extendResources dep x evidence envelopeID newVersion resumed
  | .settlement x evidence => settleReservation dep x evidence
  | .reconciliation request reservationID runState expired =>
    reconcileNextReservation dep request reservationID runState expired
  | .revocation tenantID action scope target evidence =>
    changeRevocation dep tenantID action scope target evidence
  | .versionDecision approval digest auditID outboxID requestID versionID =>
    recordAgentVersionDecision dep approval digest auditID outboxID requestID versionID
  | .administration request op auditID => do
    let op ← request.operation dep op
    return administrationEvidence op auditID

/-- The instant that a caller gives, in nanoseconds; five writers normalize it through `UnixNano`. -/
def nanos : Write → Int
  | .admission x _ _ => x.createdAt.nanos
  | .signal x _ _ => x.createdAt.nanos
  | .cancellation x _ _ _ _ => x.createdAt.nanos
  | .metering usage _ _ _ => wrapInt64 usage.recordedAt.nanos
  | .extension x _ _ _ _ => wrapInt64 x.createdAt.nanos
  | .settlement x _ => wrapInt64 x.settledAt.nanos
  | .reconciliation request _ _ _ => wrapInt64 request.now.nanos
  | .revocation _ action _ _ _ => wrapInt64 action.changedAt.nanos
  | .versionDecision approval _ _ _ _ _ => approval.createdAt.nanos
  | .administration _ op _ => op.at'.nanos

/-- The audit row of the same call in the ledgers of the store; those do not have the administration. -/
def inserted (dep : Deployment) : Write → Option AuditEvent
  | .admission x _ evidence => some (x.audit evidence)
  | .signal x evidence _ => some (x.audit evidence)
  | .cancellation x evidence _ _ _ => some (x.audit evidence)
  | .metering usage auditID _ _ => (validateTrustedUsage dep usage).toOption.map (·.exhaustionAudit auditID)
  | .extension x evidence envelopeID _ _ =>
    (validateResourceExtension x).toOption.map (·.audit evidence envelopeID)
  | .settlement x evidence => (validateResourceSettlement x).toOption.map (·.audit evidence)
  | .reconciliation request reservationID _ _ =>
    (validateReconciliation request).toOption.map (request.audit reservationID)
  | .revocation tenantID action _ _ evidence => (validateAction action).toOption.map fun action =>
    revocationEvent (action.audit tenantID action.revocationID evidence)
  | .versionDecision approval digest auditID _ _ _ => some (approval.audit digest auditID)
  | .administration .. => none

/-- Decisions about versions and administration store the hash of something else. -/
def hashesEvent : Write → Bool
  | .versionDecision .. | .administration .. => false
  | _ => true

end Write

/-! ### The text of an instant -/

/-- Leading zeros do not change the value of a numeral. -/
theorem ofDigitChars_replicate (count : Nat) (cs : List Char) :
    Nat.ofDigitChars 10 (List.replicate count '0' ++ cs) 0 = Nat.ofDigitChars 10 cs 0 := by
  induction count with
  | zero => rfl
  | succ count ih =>
    rw [replicate_succ, cons_append, Nat.ofDigitChars_cons]
    exact ih

theorem padded_toList (width n : Nat) :
    (padded width n).toList =
      List.replicate (width - (Nat.toDigits 10 n).length) '0' ++ Nat.toDigits 10 n := by
  rw [padded, String.toList_append, String.toList_ofList, Text.toList_toString_nat]

theorem padded_injective {width m n : Nat} (h : (padded width m).toList = (padded width n).toList) :
    m = n := by
  have hvalue := congrArg (fun cs => Nat.ofDigitChars 10 cs 0) h
  simpa only [padded_toList, ofDigitChars_replicate, Nat.ofDigitChars_ten_toDigits] using hvalue

theorem padded_length {n : Nat} (h : n < 10 ^ 9) : (padded 9 n).toList.length = 9 := by
  have hdigits := Nat.toDigits_length 10 n 9 (by decide) h
  rw [padded_toList, length_append, length_replicate]
  omega

/-- A text is what remains without its trailing zeros, and those zeros. -/
theorem trimmed_append (cs : List Char) :
    cs = (cs.reverse.dropWhile (· = '0')).reverse ++
      List.replicate (cs.length - (cs.reverse.dropWhile (· = '0')).length) '0' := by
  have hsplit := takeWhile_append_dropWhile (p := fun c : Char => decide (c = '0')) (l := cs.reverse)
  have hzeros : cs.reverse.takeWhile (· = '0') =
      List.replicate (cs.reverse.takeWhile (· = '0')).length '0' :=
    eq_replicate_iff.mpr ⟨rfl, fun c hc => by simpa using mem_takeWhile_imp hc⟩
  have hlength := congrArg List.length hsplit
  rw [length_append, length_reverse] at hlength
  have hcount : cs.length - (cs.reverse.dropWhile (· = '0')).length =
      (cs.reverse.takeWhile (· = '0')).length := by omega
  rw [hcount, ← reverse_replicate, ← hzeros, ← reverse_append, hsplit, reverse_reverse]

/-- The fraction of a second tells its nanoseconds. -/
theorem fraction_injective {m n : Nat} (hm : m < 10 ^ 9) (hn : n < 10 ^ 9) (h : fraction m = fraction n) :
    m = n := by
  unfold fraction at h
  split_ifs at h with hm' hn' hn'
  · rw [hm', hn']
  · simp at h
  · simp at h
  · have htrimmed := (String.append_right_inj _).mp h
    have hlists : ((padded 9 m).toList.reverse.dropWhile (· = '0')).reverse =
        ((padded 9 n).toList.reverse.dropWhile (· = '0')).reverse := by
      simpa only [String.toList_ofList] using congrArg String.toList htrimmed
    apply @padded_injective 9 m n
    rw [trimmed_append (padded 9 m).toList, trimmed_append (padded 9 n).toList, padded_length hm,
      padded_length hn, hlists, reverse_injective hlists]

theorem formatRFC3339Nano_eq_iff {t u : Time} (hseconds : t.nanos / 1000000000 = u.nanos / 1000000000) :
    t.formatRFC3339Nano = u.formatRFC3339Nano ↔ t.nanos = u.nanos := by
  constructor
  · intro h
    unfold Time.formatRFC3339Nano at h
    rw [hseconds] at h
    have hfraction := (String.append_right_inj _).mp ((String.append_left_inj _).mp h)
    have hnanos := fraction_injective (by omega) (by omega) hfraction
    omega
  · intro h
    unfold Time.formatRFC3339Nano
    rw [h]

/-- An instant and what the database keeps of it have one text when nothing is lost. -/
theorem format_ofStored_iff (t : Time) :
    t.formatRFC3339Nano = (Time.ofStored t.stored).formatRFC3339Nano ↔ t.nanos % 1000 = 0 := by
  have hsame : t.nanos / 1000000000 = (Time.ofStored t.stored).nanos / 1000000000 := by
    unfold Time.ofStored Time.stored
    dsimp only
    omega
  rw [formatRFC3339Nano_eq_iff hsame]
  unfold Time.ofStored Time.stored
  dsimp only
  omega

/-! ### Rows with the hash of their event -/

/-- The event as the database gives it back. -/
def Event.stored (a : Event) : Event := { a with occurredAt := .ofStored a.occurredAt.stored }

section Hashes

variable {dep : Deployment}

/-- The row stores the event, and its hash is that of the event before it was stored. -/
def Row.Hashes (dep : Deployment) (row : Row) (a : Event) : Prop :=
  row.eventHash = hashAuditEvent dep a ∧ row.event = a.stored

theorem canonical_stored_iff (a : Event) : canonical a = canonical a.stored ↔ a.occurredAt.nanos % 1000 = 0 := by
  rw [← format_ofStored_iff]
  simp [canonical, Event.stored]

theorem hashAuditEvent_inj (hsha : Function.Injective dep.sha256) {a b : Event} :
    hashAuditEvent dep a = hashAuditEvent dep b ↔ canonical a = canonical b :=
  ⟨fun h => Json.encode_injective (Deployment.digest_injective hsha h), fun h => by
    rw [hashAuditEvent, hashAuditEvent, h]⟩

theorem Row.Hashes.verifies {row : Row} {a : Event} (h : row.Hashes dep a)
    (hwhole : a.occurredAt.nanos % 1000 = 0) : row.Verifies dep := by
  rw [Row.Verifies, h.1, h.2, hashAuditEvent, (canonical_stored_iff a).mpr hwhole, hashAuditEvent]

theorem Row.Hashes.verifies_iff {row : Row} {a : Event} (h : row.Hashes dep a)
    (hsha : Function.Injective dep.sha256) : row.Verifies dep ↔ a.occurredAt.nanos % 1000 = 0 := by
  rw [Row.Verifies, h.1, h.2, hashAuditEvent_inj hsha, canonical_stored_iff]

theorem recorded_eq_ok {tenantID : ID} {a : Event} {m : Message} {r : Row}
    (h : recorded dep tenantID a m = .ok r) : r = a.row tenantID (hashAuditEvent dep a) := by
  obtain ⟨_, _, h⟩ := bind_eq_ok.mp h
  exact (Except.ok.inj h).symm

theorem refuse_eq_ok {condition : Prop} [Decidable condition] {error : Failure} {u : Unit}
    (h : refuse condition error = .ok u) : ¬condition := by
  unfold refuse at h
  split_ifs at h with hcondition
  exact hcondition

theorem nanos_eq_of_requireUTC {t normalized : Time} (h : requireUTC t = .ok normalized) :
    normalized.nanos = wrapInt64 t.nanos := by
  unfold requireUTC at h
  split_ifs at h
  cases h
  rfl

theorem validateAction_changedAt {candidate action : RevocationAction}
    (h : validateAction candidate = .ok action) :
    action.changedAt.nanos = wrapInt64 candidate.changedAt.nanos := by
  cases candidate with
  | create v =>
    obtain ⟨v', hv, rfl⟩ := map_eq_ok.mp h
    exact nanos_eq_of_requireUTC (requireUTC_of_revocation hv).2.1
  | lift l =>
    obtain ⟨l', hl, rfl⟩ := map_eq_ok.mp h
    exact nanos_eq_of_requireUTC (requireUTC_of_revocationLift hl)

/-- The row stores the event as its writer knows it, and its hash. -/
def Row.Stores (dep : Deployment) (row : Row) (a : Event) : Prop :=
  ∃ tenantID, row = a.row tenantID (hashAuditEvent dep a) ∧ a.tenantID = some tenantID ∧ a.traceID = "" ∧
    a.previousHash = ""

theorem Row.Stores.hashes {row : Row} {a : Event} (h : row.Stores dep a) : row.Hashes dep a := by
  obtain ⟨tenantID, rfl, htenant, htrace, hprevious⟩ := h
  refine ⟨rfl, ?_⟩
  cases a
  cases htenant
  cases htrace
  cases hprevious
  rfl

/-- A writer with its event's hash inserts that event, with the instant of the call, and the ledgers of the
store keep the same row. -/
theorem Write.row_stores {w : Write} {r : Row} (h : w.row dep = .ok r) (hhashes : w.hashesEvent = true) :
    ∃ a, r.Stores dep a ∧ a.occurredAt.nanos = w.nanos ∧ r.kept = w.inserted dep := by
  cases w with
  | admission admission =>
    obtain ⟨_, hscope, h⟩ := bind_eq_ok.mp h
    obtain ⟨_, _, h⟩ := bind_eq_ok.mp h
    obtain ⟨_, _, h⟩ := bind_eq_ok.mp h
    obtain ⟨_, _, h⟩ := bind_eq_ok.mp h
    have htenant : admission.tenantID = dep.tenantID :=
      not_not.mp fun hne => refuse_eq_ok hscope (Or.inl hne)
    cases recorded_eq_ok h
    exact ⟨_, ⟨_, rfl, congrArg some htenant, rfl, rfl⟩, rfl, rfl⟩
  | signal | cancellation =>
    obtain ⟨_, hscope, h⟩ := bind_eq_ok.mp h
    obtain ⟨_, _, h⟩ := bind_eq_ok.mp h
    obtain ⟨_, _, h⟩ := bind_eq_ok.mp h
    cases recorded_eq_ok h
    exact ⟨_, ⟨_, rfl, congrArg some (not_not.mp (refuse_eq_ok hscope)), rfl, rfl⟩, rfl, rfl⟩
  | metering =>
    obtain ⟨_, _, h⟩ := bind_eq_ok.mp h
    obtain ⟨_, _, h⟩ := bind_eq_ok.mp h
    obtain ⟨usage, husage, h⟩ := bind_eq_ok.mp h
    obtain ⟨_, _, _, _, _, _, _, _, hrecorded, _⟩ := validateTrustedUsage_spec husage
    cases h
    refine ⟨_, ⟨_, rfl, rfl, rfl, rfl⟩, nanos_eq_of_requireUTC hrecorded, ?_⟩
    rw [Write.inserted, husage]
    rfl
  | extension =>
    obtain ⟨extension, hvalid, h⟩ := bind_eq_ok.mp h
    obtain ⟨_, hscope, h⟩ := bind_eq_ok.mp h
    obtain ⟨_, _, h⟩ := bind_eq_ok.mp h
    cases recorded_eq_ok h
    refine ⟨_, ⟨_, rfl, congrArg some (not_not.mp (refuse_eq_ok hscope)), rfl, rfl⟩,
      nanos_eq_of_requireUTC (validateResourceExtension_createdAt hvalid), ?_⟩
    rw [Write.inserted, hvalid]
    rfl
  | settlement =>
    obtain ⟨settlement, hvalid, h⟩ := bind_eq_ok.mp h
    obtain ⟨_, hscope, h⟩ := bind_eq_ok.mp h
    have htenant : settlement.tenantID = dep.tenantID :=
      not_not.mp fun hne => refuse_eq_ok hscope (Or.inl hne)
    cases recorded_eq_ok h
    refine ⟨_, ⟨_, rfl, congrArg some htenant, rfl, rfl⟩,
      nanos_eq_of_requireUTC (requireUTC_of_settlement hvalid), ?_⟩
    rw [Write.inserted, hvalid]
    rfl
  | reconciliation =>
    obtain ⟨now, hnow, h⟩ := bind_eq_ok.mp h
    cases recorded_eq_ok h
    refine ⟨_, ⟨_, rfl, rfl, rfl, rfl⟩,
      nanos_eq_of_requireUTC (requireUTC_of_validateReconciliation hnow), ?_⟩
    rw [Write.inserted, hnow]
    rfl
  | revocation =>
    obtain ⟨action, haction, h⟩ := bind_eq_ok.mp h
    cases h
    refine ⟨_, ⟨_, rfl, rfl, rfl, rfl⟩, validateAction_changedAt haction, ?_⟩
    rw [Write.inserted, haction]
    rfl
  | versionDecision | administration => cases hhashes

theorem lowerText_decisionText (decision : ApprovalDecision) :
    lowerText (decisionText decision) = decisionName decision := by
  cases decision <;> decide

/-- What the ledgers of the store keep of a row is the row that the transaction of the call inserts there. -/
theorem Write.row_kept {w : Write} {r : Row} (h : w.row dep = .ok r) {e : AuditEvent}
    (he : w.inserted dep = some e) : r.kept = some e := by
  cases hhashes : w.hashesEvent with
  | true =>
    obtain ⟨_, _, _, hkept⟩ := w.row_stores h hhashes
    exact hkept.trans he
  | false =>
    cases w with
    | versionDecision =>
      obtain ⟨_, _, h⟩ := bind_eq_ok.mp h
      obtain ⟨_, _, h⟩ := bind_eq_ok.mp h
      cases h
      cases he
      simp only [Row.kept, lowerText_decisionText]
      rfl
    | administration => cases he
    | _ => cases hhashes

/-! ### Rows with another hash -/

/-- An array is not the text of an event. -/
theorem decisionHashInput_ne (approval : AgentVersionApproval) (a : Event) :
    decisionHashInput approval ≠ (canonical a).encode := by
  unfold decisionHashInput
  split
  · intro h
    exact Json.noConfusion (Json.encode_injective h)
  · intro h
    have hchars := congrArg String.toList h
    simp [Json.encode, canonical, Json.chars] at hchars

/-- No request is an object with the members of an event. -/
theorem Request.json_ne {request : Request} {raw : Json} (h : request.json = .ok raw) (a : Event) :
    raw ≠ canonical a := by
  rintro rfl
  cases request with
  | decide id approved =>
    obtain ⟨_, _, h⟩ := bind_eq_ok.mp h
    simp [canonical, pure, Except.pure] at h
  | createAgent id tenantID ownerPrincipalID sponsorPrincipalID name description riskClass =>
    obtain ⟨_, _, h⟩ := bind_eq_ok.mp h
    obtain ⟨_, _, h⟩ := bind_eq_ok.mp h
    obtain ⟨_, _, h⟩ := bind_eq_ok.mp h
    obtain ⟨_, _, h⟩ := bind_eq_ok.mp h
    simp [canonical, pure, Except.pure] at h
  | approveRecovery id =>
    change ID.json id = .ok (canonical a) at h
    unfold ID.json at h
    split_ifs at h
    cases h
  | _ => simp [Request.json, canonical] at h

end Hashes

/-! ### The trail -/

namespace AuditSample

open Sample (deployment cancelCommand cancelEvidence instant)

/-- A running run is cancelled some nanoseconds after a full second. -/
def cancelled (nanos : Int) : Write :=
  .cancellation (cancelCommand.cancellation ⟨(instant 200).nanos + nanos, true⟩) cancelEvidence .running
    ⟨.cancelled, 3, instant 200, some (instant 200)⟩ 4

theorem cancelled_row (nanos : Int)
    (h : (match (cancelled nanos).row deployment with
      | .ok _ => true
      | .error _ => false) = true) : ∃ r, (cancelled nanos).row deployment = .ok r := by
  cases hrow : (cancelled nanos).row deployment with
  | error e => rw [hrow] at h; cases h
  | ok r => exact ⟨r, rfl⟩

theorem sha256_injective : Function.Injective deployment.sha256 := Function.injective_id

end AuditSample

end Audit

end AgentGovernor
