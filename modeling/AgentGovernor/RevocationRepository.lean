import AgentGovernor.RevocationSchema

/-! The repository of revocations: creating and lifting them, reading the log and taking snapshots, and the
approvals of privileged changes. A change takes the singleton of the security epoch before it draws its
number in the log; which number that is, is not up to the caller, and neither is which of several versions
with one digest is found first. -/

namespace AgentGovernor

open Ledger Transaction

abbrev RevocationOp (α : Type) : Type :=
  Tx RevocationStore RevocationLock revocationSchema.Write Failure α

structure RevocationEvidence where
  changeID : ID
  eventID : ID
  auditID : ID
  outboxID : ID
  requestID : ID
  policyDecisionID : ID
  reasonCodes : List String
  deriving DecidableEq

def RevocationEvidence.valid (e : RevocationEvidence) : Bool :=
  !e.changeID.isZero && !e.eventID.isZero && !e.auditID.isZero && !e.outboxID.isZero &&
    !e.requestID.isZero && !e.policyDecisionID.isZero && !e.reasonCodes.isEmpty

/-- What `changeRevocation` is called with. -/
inductive RevocationAction where
  | create (v : Revocation)
  | lift (l : RevocationLift)
  deriving DecidableEq

namespace RevocationAction

def change : RevocationAction → RevocationChangeType
  | .create _ => .created
  | .lift _ => .lifted

def revocationID : RevocationAction → ID
  | .create v => v.id
  | .lift l => l.revocationID

/-- The instant that the change and its log entry carry, given by the caller. -/
def changedAt : RevocationAction → Time
  | .create v => v.createdAt
  | .lift l => l.changedAt

def reasonCode : RevocationAction → String
  | .create v => v.reasonCode
  | .lift l => l.reasonCode

def actor : RevocationAction → ID
  | .create v => v.actorPrincipalID
  | .lift l => l.actorPrincipalID

def approvalReference : RevocationAction → String
  | .create v => v.approvalReference
  | .lift l => l.approvalReference

end RevocationAction

/-! ### The revocation that is changed -/

def insertRevocation (v : Revocation) : RevocationOp Unit := do
  Tx.require (v.row.check = true) (.database "insert revocation")
  RevocationTables.revocations.insert [.revocation v.id] v.row (fun r => r.id = v.id)
    (.database "insert revocation")

def revocationNotFound : Failure := .domain .notFound "revocation not found"

/-- `SELECT … FROM revocations WHERE id=$1 FOR UPDATE`; those of other tenants are not found. -/
def lockRevocation (tenantID id : ID) : RevocationOp RevocationRow :=
  RevocationTables.revocations.lock [.revocation id] id
    (fun r => if r.tenantID.any (· ≠ tenantID) then .error revocationNotFound else .ok r)
    revocationNotFound

/-- `ORDER BY changed_at DESC,id DESC`. -/
def laterChange (c c' : RevocationChange) : Prop :=
  c'.changedAt < c.changedAt ∨ (c'.changedAt = c.changedAt ∧ ID.le c'.id c.id)

instance : DecidableRel laterChange := fun c c' =>
  inferInstanceAs (Decidable (c'.changedAt < c.changedAt ∨ (c'.changedAt = c.changedAt ∧ ID.le c'.id c.id)))

def RevocationStore.changesOf (s : RevocationStore) (id : ID) : List RevocationChange :=
  s.changes.rows.filter (·.revocationID = id)

/-- The latest change of a revocation by the instants that the changes carry. -/
def RevocationStore.lastChange (s : RevocationStore) (id : ID) : Option RevocationChange :=
  ((s.changesOf id).insertionSort laterChange).head?

def requireActive (id : ID) : RevocationOp Unit := do
  let last ← Tx.snapshot fun s => s.lastChange id
  let change ← Tx.orThrow last (.database "read revocation state")
  Tx.require (change.changeType = .created) (.domain .conflict "revocation is not active")

/-- Insert the revocation that is created, or lock the one that is lifted. -/
def changedRevocation (tenantID : ID) : RevocationAction → RevocationOp Revocation
  | .create v => do
    insertRevocation v
    return v
  | .lift l => do
    let r ← lockRevocation tenantID l.revocationID
    requireActive l.revocationID
    return { r.revocation with actorPrincipalID := l.actorPrincipalID }

def changeRow (action : RevocationAction) (v : Revocation) (e : RevocationEvidence) : RevocationChange :=
  { id := e.changeID, revocationID := v.id, tenantID := v.tenantID, changeType := action.change
    actorPrincipalID := action.actor, reasonCode := action.reasonCode
    changedAt := action.changedAt.stored }

def insertChange (row : RevocationChange) : RevocationOp Unit :=
  RevocationTables.changes.insert [.change row.id] row (fun r => r.id = row.id)
    (.database "append revocation change")

/-! ### Epochs -/

def securityEpochExhausted : Failure := .domain .conflict "security epoch is exhausted"

def tenantEpochExhausted : Failure := .domain .conflict "tenant epoch is exhausted"

def agentEpochExhausted : Failure := .domain .conflict "agent epoch is exhausted"

/-- `UPDATE security_epochs SET security_epoch=security_epoch+1 WHERE singleton AND security_epoch<$1`. -/
def advanceSecurityEpoch : RevocationOp Int :=
  RevocationTables.securityEpochs.update [.epoch] ()
    (fun r => if r.securityEpoch < maxInt64 then .ok (r.securityEpoch + 1, ⟨r.securityEpoch + 1⟩)
      else .error securityEpochExhausted)
    securityEpochExhausted

/-- Changes of the tenant itself and of policy versions advance the policy epoch too. -/
def RevocationScope.advancesPolicy (scope : RevocationScope) : Bool :=
  scope = .tenantID || scope = .policyVersion

/-- The epochs of the tenant after a change. -/
def advancedTenant (tenantID : ID) (policy : Bool) : Option TenantEpoch → Except Failure TenantEpoch
  | none => .ok ⟨tenantID, if policy then 1 else 0, 1⟩
  | some r =>
    if r.revocationEpoch < maxInt64 ∧ (policy = true → r.policyEpoch < maxInt64) then
      .ok { r with
        policyEpoch := if policy then r.policyEpoch + 1 else r.policyEpoch
        revocationEpoch := r.revocationEpoch + 1 }
    else .error tenantEpochExhausted

def advanceTenantEpochs (tenantID : ID) (policy : Bool) : RevocationOp TenantEpoch :=
  RevocationTables.tenantEpochs.upsert [.tenantEpoch tenantID] tenantID fun old =>
    (advancedTenant tenantID policy old).map fun r => (r, r)

/-- `SELECT agent_id FROM agent_versions WHERE tenant_id=$1 AND content_digest=$2`. Several agents of a
tenant may have a version with the digest; `found` is the one that comes first. -/
def RevocationStore.agentOfVersion (s : RevocationStore) (tenantID : ID) (digest : String) (found : ID) :
    Option ID :=
  let owners := (s.versions.rows.filter fun r => r.tenantID = tenantID && r.contentDigest = digest).map
    KnownVersion.agentID
  if owners.contains found then some found else owners.head?

/-- The agent whose epoch a revocation advances. -/
def revokedAgent (v : Revocation) (tenantID found : ID) : RevocationOp (Option ID) :=
  match v.scope with
  | .agentID =>
    if v.target = "" then .pure none
    else (Tx.orThrow (parseID v.target)
      (.domain .invalidArgument "agent revocation target is invalid")).bind fun agent => .pure (some agent)
  | .agentVersion =>
    (Tx.snapshot fun s => s.agentOfVersion tenantID v.target found).bind fun agent =>
      (Tx.orThrow agent (.domain .invalidArgument "agent-version revocation target is invalid")).bind
        fun agent => .pure (some agent)
  | _ => .pure none

/-- The epoch of an agent after a change. -/
def advancedAgent (tenantID agentID : ID) : Option AgentEpoch → Except Failure AgentEpoch
  | none => .ok ⟨tenantID, agentID, 1⟩
  | some r =>
    if r.revocationEpoch < maxInt64 then .ok { r with revocationEpoch := r.revocationEpoch + 1 }
    else .error agentEpochExhausted

/-- The agent has to be there for the reference of its epoch. -/
def advanceAgentEpoch (tenantID agentID : ID) : RevocationOp Int := do
  let known ← Tx.snapshot fun s => (s.agents.get (tenantID, agentID)).isSome
  Tx.require (known = true) agentEpochExhausted
  RevocationTables.agentEpochs.upsert [.agentEpoch tenantID agentID] (tenantID, agentID) fun old =>
    (advancedAgent tenantID agentID old).map fun r => (r.revocationEpoch, r)

def incrementTenantEpochs (v : Revocation) (tenantID found : ID) (security : Int) :
    RevocationOp EpochVector := do
  let tenant ← advanceTenantEpochs tenantID v.scope.advancesPolicy
  let agent ← revokedAgent v tenantID found
  match agent with
  | none => return ⟨security, tenant.policyEpoch, tenant.revocationEpoch, 0⟩
  | some agentID =>
    let epoch ← advanceAgentEpoch tenantID agentID
    return ⟨security, tenant.policyEpoch, tenant.revocationEpoch, epoch⟩

def incrementRevocationEpochs (v : Revocation) (found : ID) : RevocationOp EpochVector := do
  let security ← advanceSecurityEpoch
  match v.tenantID with
  | none => return ⟨security, 0, 0, 0⟩
  | some tenantID => incrementTenantEpochs v tenantID found security

/-! ### Log and evidence -/

def logEntry (action : RevocationAction) (v : Revocation) (e : RevocationEvidence) (epochs : EpochVector)
    (sequence : Int) : RevocationEntry :=
  { sequence := sequence, eventID := e.eventID, revocationID := v.id, changeID := e.changeID
    tenantID := v.tenantID, scope := v.scope, target := v.target, changeType := action.change
    securityEpoch := epochs.security, tenantPolicyEpoch := v.tenantID.map fun _ => epochs.tenantPolicy
    tenantRevocationEpoch := v.tenantID.map fun _ => epochs.tenantRevocation
    agentRevocationEpoch := if epochs.agentRevocation = 0 then none else some epochs.agentRevocation
    committedAt := action.changedAt.stored }

/-- The row draws its number as it is inserted. -/
def insertEntry (row : RevocationEntry) : RevocationOp Unit :=
  RevocationTables.entries.insert [.sequence row.sequence, .event row.eventID] row
    (fun r => r.sequence = row.sequence || r.eventID = row.eventID) (.database "append revocation log")

def RevocationAction.audit (action : RevocationAction) (tenantID revocationID : ID) (e : RevocationEvidence) :
    RevocationAudit :=
  ⟨e.auditID, tenantID, action.actor, action.change, revocationID, e.reasonCodes, e.policyDecisionID,
    e.requestID, action.approvalReference, action.changedAt.stored⟩

def insertEvidence (tenantID : ID) (action : RevocationAction) (v : Revocation) (e : RevocationEvidence)
    (epochs : EpochVector) (sequence : Int) : RevocationOp Unit := do
  RevocationTables.audits.insert [.audit e.auditID]
    (action.audit tenantID v.id e) (fun r => r.id = e.auditID) (.database "append revocation evidence")
  RevocationTables.messages.insert [.message e.outboxID]
    ⟨e.outboxID, v.tenantID, v.id, action.change, sequence, epochs, action.changedAt.stored⟩
    (fun r => r.id = e.outboxID) (.database "append revocation evidence")

def changeRevocation (tenantID : ID) (action : RevocationAction) (e : RevocationEvidence)
    (sequence : Int) (found : ID) : RevocationOp RevocationResult := do
  Tx.require (!tenantID.isZero) (.plain "postgres tenant repository is not initialized")
  Tx.require (e.valid = true) (.plain "revocation evidence is invalid")
  let v ← changedRevocation tenantID action
  insertChange (changeRow action v e)
  let epochs ← incrementRevocationEpochs v found
  insertEntry (logEntry action v e epochs sequence)
  insertEvidence tenantID action v e epochs sequence
  return ⟨v, action.change, sequence, epochs⟩

def createRevocation (tenantID : ID) (v : Revocation) (e : RevocationEvidence) (sequence : Int)
    (found : ID) : RevocationOp RevocationResult := do
  let v ← Tx.ofExcept (validateRevocation v)
  Tx.require (v.scope = .global ∨ v.tenantID = some tenantID)
    (.plain "revocation does not match repository scope")
  changeRevocation tenantID (.create v) e sequence found

def liftRevocation (tenantID : ID) (l : RevocationLift) (e : RevocationEvidence) (sequence : Int)
    (found : ID) : RevocationOp RevocationResult := do
  let l ← Tx.ofExcept (validateRevocationLift l)
  Tx.require (l.tenantID.all (· = tenantID)) (.plain "revocation lift does not match repository scope")
  changeRevocation tenantID (.lift l) e sequence found

/-! ### Reads -/

structure RevocationLogEntry where
  eventID : ID
  sequence : Int
  revocation : Revocation
  change : RevocationChangeType
  epochs : EpochVector
  occurredAt : Time
  deriving DecidableEq

/-- `tenant_id=$1 OR tenant_id IS NULL`. -/
def visibleTo (tenantID : ID) (owner : Option ID) : Bool := owner.all (· = tenantID)

/-- The entries that a tenant may see, in the order of their numbers. -/
def RevocationStore.visible (s : RevocationStore) (tenantID : ID) : List RevocationEntry :=
  (s.entries.rows.filter fun l => visibleTo tenantID l.tenantID).insertionSort (·.sequence ≤ ·.sequence)

/-- An entry joined with its revocation. -/
def RevocationStore.readEntry (s : RevocationStore) (l : RevocationEntry) : Option RevocationLogEntry :=
  (s.revocations.get l.revocationID).map fun r =>
    ⟨l.eventID, l.sequence, { r.revocation with tenantID := l.tenantID, scope := l.scope, target := l.target },
      l.changeType,
      ⟨l.securityEpoch, l.tenantPolicyEpoch.getD 0, l.tenantRevocationEpoch.getD 0,
        l.agentRevocationEpoch.getD 0⟩,
      .ofStored l.committedAt⟩

def revocationCursorGone : Failure := .plain "revocation cursor is outside retention"

/-- The first number within retention, and whether anything has expired. -/
def retentionBoundary (tenantID : ID) (retainedAfter : Int) (s : RevocationStore) : Option Int × Bool :=
  ((((s.visible tenantID).filter fun l => retainedAfter ≤ l.committedAt).map
    RevocationEntry.sequence).min?, (s.visible tenantID).any fun l => l.committedAt < retainedAfter)

def revocationChanges (tenantID : ID) (after limit : Int) (retainedAfter : Time) :
    RevocationOp (List RevocationLogEntry) := do
  Tx.require (!tenantID.isZero ∧ 0 ≤ after ∧ 1 ≤ limit ∧ limit ≤ 10001 ∧ !retainedAfter.isZero)
    (.plain "revocation change query is invalid")
  let boundary ← Tx.snapshot (retentionBoundary tenantID retainedAfter.stored)
  Tx.require (¬(boundary.2 = true ∧ boundary.1.all (after < · - 1))) revocationCursorGone
  Tx.snapshot fun s => (((s.visible tenantID).filter fun l =>
    after < l.sequence && retainedAfter.stored ≤ l.committedAt).filterMap s.readEntry).take limit.toNat

structure RevocationSnapshot where
  sequence : Int
  epochs : EpochVector
  active : List Revocation
  deriving DecidableEq

def RevocationStore.snapshotHead (s : RevocationStore) (tenantID : ID) : Int × EpochVector :=
  (((s.visible tenantID).map RevocationEntry.sequence).foldl max 0,
    ⟨(s.securityEpochs.get ()).elim 0 SecurityEpoch.securityEpoch,
      (s.tenantEpochs.get tenantID).elim 0 TenantEpoch.policyEpoch,
      (s.tenantEpochs.get tenantID).elim 0 TenantEpoch.revocationEpoch,
      ((s.agentEpochs.rows.filter (·.tenantID = tenantID)).map AgentEpoch.revocationEpoch).foldl max 0⟩)

/-- In force at an instant, as far as the row of the revocation tells. -/
def RevocationRow.effective (now : Int) (r : RevocationRow) : Bool :=
  r.effectiveAt ≤ now && r.expiresAt.all (now < ·)

/-- `ORDER BY r.scope,r.target,r.id`. -/
def activeBefore (r r' : RevocationRow) : Prop :=
  r.scope.text < r'.scope.text ∨ (r.scope.text = r'.scope.text ∧
    (r.target < r'.target ∨ (r.target = r'.target ∧ ID.le r.id r'.id)))

instance : DecidableRel activeBefore := fun _ _ => inferInstanceAs (Decidable (_ ∨ _))

def RevocationStore.active (s : RevocationStore) (tenantID : ID) (now : Int) : List Revocation :=
  ((s.revocations.rows.filter fun r => visibleTo tenantID r.tenantID && r.effective now &&
    (s.lastChange r.id).any (·.changeType = .created)).insertionSort activeBefore).map
      RevocationRow.revocation

/-- The head and the active revocations are read by two statements. -/
def revocationSnapshot (tenantID : ID) (now : Time) : RevocationOp RevocationSnapshot := do
  Tx.require (!tenantID.isZero ∧ !now.isZero) (.plain "revocation snapshot query is invalid")
  let head ← Tx.snapshot fun s => s.snapshotHead tenantID
  let active ← Tx.snapshot fun s => s.active tenantID now.stored
  return ⟨head.1, head.2, active⟩

def authoritativeRevocations (tenantID agentID : ID) (now : Time) :
    RevocationOp (EpochVector × List Revocation) := do
  let snapshot ← revocationSnapshot tenantID now
  if agentID.isZero then return (snapshot.epochs, snapshot.active)
  else
    let epoch ← Tx.snapshot fun s =>
      (s.agentEpochs.get (tenantID, agentID)).elim 0 AgentEpoch.revocationEpoch
    return ({ snapshot.epochs with agentRevocation := epoch }, snapshot.active)

/-! ### Approvals -/

def GovernanceApproval.row (a : GovernanceApproval) : ApprovalRequest :=
  ⟨a.id, a.tenantID, a.requesterPrincipalID, a.action, a.resourceType, a.resourceID, a.requestDigest,
    a.reasonCode, a.provider, a.providerReference, a.requestedAt.stored, a.expiresAt.stored⟩

def approvalClash : Failure := .domain .conflict "governance approval already has an established result"

def approvalReferencesInvalid : Failure :=
  .domain .invalidArgument "governance approval references are invalid"

def createGovernanceApproval (tenantID : ID) (a : GovernanceApproval) : RevocationOp Unit := do
  Tx.require (!tenantID.isZero) (.plain "postgres tenant repository is not initialized")
  Tx.require (a.tenantID = tenantID ∧ a.state = .pending)
    (.plain "governance approval does not match repository scope")
  Tx.ofExcept a.validate
  Tx.require (validDigest a.requestDigest = true ∧ a.requestedAt.stored < a.expiresAt.stored)
    approvalReferencesInvalid
  RevocationTables.approvals.insert
    [.approval a.id, .providerReference a.tenantID a.provider a.providerReference] a.row
    (fun r => r.id = a.id || (r.tenantID = a.tenantID && r.provider = a.provider &&
      r.providerReference = a.providerReference)) approvalClash

/-- A request with its decision and its consumption, if there are any. -/
def storedApproval (r : ApprovalRequest) (outcome : Option ApprovalOutcome)
    (consumption : Option ApprovalConsumption) : GovernanceApproval :=
  { id := r.id, tenantID := r.tenantID, requesterPrincipalID := r.requesterPrincipalID, action := r.action
    resourceType := r.resourceType, resourceID := r.resourceID, requestDigest := r.requestDigest
    reasonCode := r.reasonCode, provider := r.provider, providerReference := r.providerReference
    state := if consumption.isSome then .consumed
      else outcome.elim .pending fun o => if o.approved then .approved else .rejected
    approverPrincipalID := outcome.elim (.ofNat 0) ApprovalOutcome.approverPrincipalID
    decisionReference := outcome.elim "" ApprovalOutcome.decisionReference
    requestedAt := .ofStored r.requestedAt, expiresAt := .ofStored r.expiresAt
    decidedAt := outcome.map fun o => .ofStored o.decidedAt
    consumedAt := consumption.map fun c => .ofStored c.consumedAt }

def approvalNotFound : Failure := .domain .notFound "governance approval not found"

/-- The request of the repository's tenant. -/
def ownApproval (tenantID : ID) (r : ApprovalRequest) : Except Failure ApprovalRequest :=
  if r.tenantID = tenantID then .ok r else .error approvalNotFound

/-- `readGovernanceApproval` with its lock. -/
def lockGovernanceApproval (tenantID id : ID) : RevocationOp GovernanceApproval := do
  let request ← RevocationTables.approvals.lock [.approval id] id (ownApproval tenantID) approvalNotFound
  let outcome ← Tx.snapshot fun s => s.outcomes.get id
  let consumption ← Tx.snapshot fun s => s.consumptions.get id
  let approval := storedApproval request outcome consumption
  Tx.ofExcept (approval.validate.mapError fun _ => .database "validate stored governance approval")
  return approval

def recordGovernanceApprovalDecision (tenantID : ID) (a : GovernanceApproval) : RevocationOp Unit := do
  Tx.require (!tenantID.isZero) (.plain "postgres tenant repository is not initialized")
  Tx.require (a.tenantID = tenantID ∧ (a.state = .approved ∨ a.state = .rejected))
    (.plain "governance approval decision does not match repository scope")
  Tx.ofExcept a.validate
  let decidedAt := (a.decidedAt.getD a.requestedAt).stored
  let request ← Tx.snapshot fun s => s.approvals.get a.id
  Tx.require (request.any fun r => r.tenantID = tenantID && r.requesterPrincipalID ≠ a.approverPrincipalID &&
    decidedAt < r.expiresAt) (.domain .conflict "governance approval is expired or cannot be decided")
  RevocationTables.outcomes.insert [.decision a.id, .decisionReference tenantID a.decisionReference]
    ⟨a.id, tenantID, a.approverPrincipalID, a.state = .approved, a.decisionReference, decidedAt⟩
    (fun r => r.approvalID = a.id || (r.tenantID = tenantID && r.decisionReference = a.decisionReference))
    approvalClash

def consumeGovernanceApproval (tenantID id : ID) (digest : String) (consumedAt : Time) :
    RevocationOp GovernanceApproval := do
  Tx.require (!tenantID.isZero) (.plain "postgres tenant repository is not initialized")
  let approval ← lockGovernanceApproval tenantID id
  let consumed ← Tx.ofExcept (approval.consume digest consumedAt)
  RevocationTables.consumptions.insert [.consumption id] ⟨id, tenantID, digest, consumedAt.stored⟩
    (fun r => r.approvalID = id) approvalClash
  return consumed

end AgentGovernor
