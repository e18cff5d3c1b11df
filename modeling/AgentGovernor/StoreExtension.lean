import AgentGovernor.StoreUsage

/-! Governed extensions: additive credits and deadline extensions, replayed by actor and key. -/

namespace AgentGovernor

open Ledger Transaction

variable (dep : Deployment)

structure ResourceExtensionEvidence where
  auditID : ID
  outboxID : ID
  eventID : ID
  requestID : ID
  reasonCodes : List String
  deriving DecidableEq

def ResourceExtensionEvidence.valid (evidence : ResourceExtensionEvidence) : Bool :=
  !evidence.auditID.isZero && !evidence.outboxID.isZero && !evidence.eventID.isZero
    && !evidence.requestID.isZero && evidence.reasonCodes ≠ []

def quoted (text : String) : String := "\"" ++ text ++ "\""

/-- The JSON text of an extension's content; validated texts need no escapes. -/
def extensionMaterial (extension : ResourceExtension) : String :=
  "\x7b\"Run\":" ++ quoted extension.runID.string ++ ",\"Reason\":" ++ quoted extension.reasonCode
    ++ ",\"Approval\":" ++ quoted extension.approvalReference ++ ",\"Additions\":["
    ++ ",".intercalate (extension.additions.map fun a =>
      "\x7b\"Name\":" ++ quoted a.name ++ ",\"Unit\":" ++ quoted a.quantity.unit ++ ",\"Coefficient\":"
        ++ toString a.quantity.amount.coefficient ++ ",\"Scale\":" ++ toString a.quantity.amount.scale
        ++ "\x7d")
    ++ "],\"Deadline\":" ++ toString extension.deadlineExtensionSeconds ++ "\x7d"

def resourceExtensionDigest (extension : ResourceExtension) : String :=
  dep.digest (extensionMaterial extension)

/-- The envelope of the run, for an active actor. -/
def extensionTarget (extension : ResourceExtension) (s : Store) : Option ID := do
  let envelope ← envelopeOfRun s extension.runID
  if activePrincipal s extension.actorPrincipalID then some envelope.id else none

/-- The run's deadline after the extension, in stored microseconds. -/
def extendedDeadline (deadline : Option Int) (seconds : Int) : Except Failure (Option Int) :=
  if 0 < seconds then
    match deadline with
    | none => .error (conflict "run has no deadline to extend")
    | some d =>
      if maxInt64 / 1000000000 < seconds then
        .error (.domain .invalidArgument "deadline extension overflows")
      else if d + seconds * 1000000 ≤ d then .error (conflict "deadline extension overflows")
      else .ok (some (d + seconds * 1000000))
  else .ok deadline

def insertExtension (row : Extension) : Op Unit :=
  extensionRows.insert [.extension row.id] row
    (fun x => x.id = row.id ||
      (x.actorPrincipalID = row.actorPrincipalID && x.idempotencyKey = row.idempotencyKey))
    (.database "append resource extension")

/-- What extensions have added to a dimension of an envelope so far. -/
def extendedValue (s : Store) (envelopeID dimensionID : ID) : Int :=
  s.extensions.total fun x => if x.envelopeID = envelopeID then x.added dimensionID else 0

/-- The dimension of an addition, the envelope's grant of it and its previous extensions. -/
def extensionGrant (envelopeID : ID) (name : String) (s : Store) :
    Option (ResourceDimension × Grant × Int) := do
  let d ← dep.byName name
  let grant ← s.grants.get (envelopeID, d.id)
  return (d, grant, extendedValue s envelopeID d.id)

def insertExtensionItem (extensionID : ID) (item : ExtensionItem) : Op Unit :=
  let error := Failure.database "append resource extension item"
  extensionRows.update [] extensionID
    (fun x =>
      if x.items.any (·.dimensionID = item.dimensionID) then .error error
      else .ok ((), { x with items := x.items ++ [item] }))
    error

def creditExtension (envelopeID dimensionID : ID) (added createdAt : Int) : Op Unit :=
  let overflows := conflict "resource balance extension overflows"
  balanceRows.update [.balance envelopeID dimensionID] (envelopeID, dimensionID)
    (fun b =>
      if b.availableValue ≤ maxInt64 - added ∧ b.stateVersion < maxInt64 then
        (b.change added 0 0 createdAt (.database "credit resource extension")).map ((), ·)
      else .error overflows)
    overflows

/-- One round of the loop over the additions. -/
def extendDimension (extension : ResourceExtension) (envelopeID : ID)
    (addition : ResourceExtensionAmount) : Op Unit := do
  let added := addition.quantity.amount.coefficient
  let found ← Tx.snapshot (extensionGrant dep envelopeID addition.name)
  let target ← Tx.orThrow found
    (.domain .invalidArgument "extension resource is not in the envelope")
  Tx.require (target.1.resourceClass = .consumable ∧ target.2.1.unit = addition.quantity.unit ∧
      target.2.1.scale = addition.quantity.amount.scale)
    (.domain .invalidArgument "only matching consumable grants can be extended")
  Tx.require (target.2.1.grantedValue ≤ maxInt64 - target.2.2 ∧
      target.2.1.grantedValue + target.2.2 ≤ maxInt64 - added)
    (conflict "resource grant extension overflows")
  insertExtensionItem extension.id
    ⟨target.1.id, added, target.2.1.grantedValue + target.2.2,
      target.2.1.grantedValue + target.2.2 + added, target.2.1.unit, target.2.1.scale⟩
  creditExtension envelopeID target.1.id added extension.createdAt.stored

/-- The state and version of the run after the extension: a paused run resumes. -/
def extendedState (extension : ResourceExtension) (run : Run) : Except Failure (RunState × Int) :=
  if run.state = .pausedForBudget then
    let lifecycle : RunLifecycle :=
      ⟨.pausedForBudget, run.stateVersion, .ofStored run.updatedAt, none⟩
    match lifecycle.transition ⟨.running, .governor, run.stateVersion, extension.createdAt⟩ with
    | .ok (next, _) => .ok (next.state, next.version)
    | .error _ => .error (conflict "paused run cannot resume after extension")
  else .ok (run.state, run.stateVersion)

def updateExtendedEnvelope (envelopeID : ID) (version : Int) : Op Unit :=
  envelopeRows.update [.envelope envelopeID] envelopeID
    (fun e => .ok ((), { e with version := version })) (.database "version extended envelope")

def updateExtendedRun (extension : ResourceExtension) (deadlineAt : Option Int) (state : RunState)
    (stateVersion : Int) : Op Unit :=
  let error := Failure.database "update extended run"
  runRows.update [.run extension.runID] extension.runID
    (fun r =>
      let r' : Run := { r with
        deadlineAt := deadlineAt
        state := state
        stateVersion := stateVersion
        updatedAt := extension.createdAt.stored }
      if r'.check then .ok ((), r') else .error error)
    error

def ResourceExtension.audit (extension : ResourceExtension) (evidence : ResourceExtensionEvidence)
    (envelopeID : ID) : AuditEvent :=
  ⟨evidence.auditID, extension.actorPrincipalID, "resources.extend", envelopeID.string,
    extension.createdAt.stored⟩

def appendExtensionEvidence (extension : ResourceExtension) (evidence : ResourceExtensionEvidence)
    (envelopeID : ID) (state : RunState) (stateVersion : Int) : Op Unit := do
  let sequence ← nextSequence extension.runID
  insertEvent
    { id := evidence.eventID, runID := extension.runID, sequence := sequence
      eventType := "run.resources_extended", actorType := .operator
      actorID := some extension.actorPrincipalID, state := state, stateVersion := stateVersion
      occurredAt := extension.createdAt.stored } (.database "append extension event")
  insertAudit (extension.audit evidence envelopeID) (.database "append extension evidence")
  insertOutbox ⟨evidence.outboxID, extension.runID.string, "run.resources_extended",
    extension.createdAt.stored⟩ (.database "append extension evidence")

/-- The extension row as it is inserted, before its items. -/
def extensionRow (extension : ResourceExtension) (digest : String) (envelope : Envelope) (run : Run)
    (newDeadline : Option Int) : Extension :=
  { id := extension.id
    runID := extension.runID
    envelopeID := envelope.id
    actorPrincipalID := extension.actorPrincipalID
    idempotencyKey := extension.idempotencyKey
    contentDigest := digest
    priorDeadlineAt := run.deadlineAt
    newDeadlineAt := newDeadline
    priorEnvelopeVersion := envelope.version
    newEnvelopeVersion := envelope.version + 1
    resumedRun := run.state = .pausedForBudget
    createdAt := extension.createdAt.stored
    items := [] }

/-- A first call under its key. -/
def applyExtension (extension : ResourceExtension) (evidence : ResourceExtensionEvidence) :
    Op ResourceExtensionResult := do
  let missing : Failure := .domain .notFound "run not found"
  let found ← Tx.snapshot (extensionTarget extension)
  let envelopeID ← Tx.orThrow found missing
  let envelope ← envelopeRows.lock [.envelope envelopeID] envelopeID
    (fun e => if e.runID = extension.runID then .ok e else .error missing) missing
  let run ← runRows.lock [.run extension.runID] extension.runID (fun r => .ok r) missing
  Tx.require (run.requestedBy ≠ extension.actorPrincipalID)
    (.domain .forbidden "a run requester cannot extend its own resources")
  Tx.require (run.state.terminal = false) (conflict "terminal run resources cannot be extended")
  Tx.require (envelope.version ≠ maxInt64) (conflict "resource envelope version is exhausted")
  let newDeadline ← Tx.ofExcept
    (extendedDeadline run.deadlineAt extension.deadlineExtensionSeconds)
  insertExtension
    (extensionRow extension (resourceExtensionDigest dep extension) envelope run newDeadline)
  Tx.forEach extension.additions (extendDimension dep extension envelopeID)
  let state ← Tx.ofExcept (extendedState extension run)
  updateExtendedEnvelope envelopeID (envelope.version + 1)
  updateExtendedRun extension newDeadline state.1 state.2
  appendExtensionEvidence extension evidence envelopeID state.1 state.2
  return ⟨extension.id, envelope.version + 1, newDeadline.map Time.ofStored,
    run.state = .pausedForBudget⟩

def extendResources (candidate : ResourceExtension) (evidence : ResourceExtensionEvidence) :
    Op ResourceExtensionResult := do
  let extension ← Tx.ofExcept (validateResourceExtension candidate)
  Tx.require (extension.tenantID = dep.tenantID)
    (.plain "resource extension does not match repository scope")
  Tx.require (evidence.valid = true) (.plain "resource extension evidence is invalid")
  Tx.acquire [.advisory extension.actorPrincipalID extension.idempotencyKey]
  let existing ← Tx.snapshot fun v => v.extensions.rows.find? fun x =>
    x.actorPrincipalID = extension.actorPrincipalID && x.idempotencyKey = extension.idempotencyKey
  match existing with
  | some x => do
    Tx.require (x.contentDigest = resourceExtensionDigest dep extension)
      (conflict "resource extension idempotency key was reused with different content")
    return ⟨x.id, x.newEnvelopeVersion, x.newDeadlineAt.map Time.ofStored, x.resumedRun⟩
  | none => applyExtension dep extension evidence

end AgentGovernor
