import AgentGovernor.LedgerSchema
import AgentGovernor.RevocationDomain

/-! The tables of revocations of all tenants: the revocations, their changes, the ordered log, the epochs,
the evidence of changes, what the epochs of agents refer to, and governance approvals. -/

namespace AgentGovernor

open Ledger Transaction

/-! ### Rows -/

structure RevocationRow where
  id : ID
  tenantID : Option ID
  scope : RevocationScope
  target : String
  reasonCode : String
  detailReference : Option String
  actorPrincipalID : ID
  approvalReference : Option String
  effectiveAt : Int
  expiresAt : Option Int
  createdAt : Int
  deriving DecidableEq

/-- `NULLIF(…, '')`. -/
def nullIfEmpty (s : String) : Option String := if s = "" then none else some s

def Revocation.row (v : Revocation) : RevocationRow :=
  { id := v.id, tenantID := v.tenantID, scope := v.scope, target := v.target, reasonCode := v.reasonCode
    detailReference := nullIfEmpty v.detailReference, actorPrincipalID := v.actorPrincipalID
    approvalReference := nullIfEmpty v.approvalReference, effectiveAt := v.effectiveAt.stored
    expiresAt := v.expiresAt.map Time.stored, createdAt := v.createdAt.stored }

/-- A row as it is read back. -/
def RevocationRow.revocation (r : RevocationRow) : Revocation :=
  { id := r.id, actorPrincipalID := r.actorPrincipalID, tenantID := r.tenantID, scope := r.scope
    target := r.target, reasonCode := r.reasonCode, detailReference := r.detailReference.getD ""
    approvalReference := r.approvalReference.getD "", effectiveAt := .ofStored r.effectiveAt
    expiresAt := r.expiresAt.map Time.ofStored, createdAt := .ofStored r.createdAt }

/-- The `CHECK`s of `revocations` that validation does not imply. -/
def RevocationRow.check (r : RevocationRow) : Bool :=
  (decide (r.scope = .global) = r.tenantID.isNone) && r.expiresAt.all (r.effectiveAt < ·)

structure RevocationChange where
  id : ID
  revocationID : ID
  tenantID : Option ID
  changeType : RevocationChangeType
  actorPrincipalID : ID
  reasonCode : String
  changedAt : Int
  deriving DecidableEq

/-- A row of `revocation_log`. -/
structure RevocationEntry where
  sequence : Int
  eventID : ID
  revocationID : ID
  changeID : ID
  tenantID : Option ID
  scope : RevocationScope
  target : String
  changeType : RevocationChangeType
  securityEpoch : Int
  tenantPolicyEpoch : Option Int
  tenantRevocationEpoch : Option Int
  agentRevocationEpoch : Option Int
  committedAt : Int
  deriving DecidableEq

/-- The one row of `security_epochs`. -/
structure SecurityEpoch where
  securityEpoch : Int
  deriving DecidableEq

structure TenantEpoch where
  tenantID : ID
  policyEpoch : Int
  revocationEpoch : Int
  deriving DecidableEq

structure AgentEpoch where
  tenantID : ID
  agentID : ID
  revocationEpoch : Int
  deriving DecidableEq

/-- What the epochs of agents refer to. -/
structure KnownAgent where
  tenantID : ID
  id : ID
  deriving DecidableEq

/-- The columns of `agent_versions` that tell whose version has a digest. -/
structure KnownVersion where
  id : ID
  tenantID : ID
  agentID : ID
  contentDigest : String
  deriving DecidableEq

structure RevocationAudit where
  id : ID
  tenantID : ID
  principalID : ID
  changeType : RevocationChangeType
  resourceID : ID
  reasonCodes : List String
  policyDecisionID : ID
  requestID : ID
  approvalReference : String
  occurredAt : Int
  deriving DecidableEq

structure RevocationMessage where
  id : ID
  tenantID : Option ID
  aggregateID : ID
  changeType : RevocationChangeType
  sequence : Int
  epochs : EpochVector
  occurredAt : Int
  deriving DecidableEq

structure ApprovalRequest where
  id : ID
  tenantID : ID
  requesterPrincipalID : ID
  action : GovernanceApprovalAction
  resourceType : String
  resourceID : String
  requestDigest : String
  reasonCode : String
  provider : String
  providerReference : String
  requestedAt : Int
  expiresAt : Int
  deriving DecidableEq

structure ApprovalOutcome where
  approvalID : ID
  tenantID : ID
  approverPrincipalID : ID
  approved : Bool
  decisionReference : String
  decidedAt : Int
  deriving DecidableEq

structure ApprovalConsumption where
  approvalID : ID
  tenantID : ID
  requestDigest : String
  consumedAt : Int
  deriving DecidableEq

/-! ### Locks -/

/-- Row locks and unique indexes. `sequence` is a number that was drawn for the log. -/
inductive RevocationLock where
  | revocation (id : ID)
  | change (id : ID)
  | sequence (n : Int)
  | event (id : ID)
  | epoch
  | tenantEpoch (tenantID : ID)
  | agentEpoch (tenantID agentID : ID)
  | agent (tenantID id : ID)
  | version (id : ID)
  | audit (id : ID)
  | message (id : ID)
  | approval (id : ID)
  | providerReference (tenantID : ID) (provider reference : String)
  | decision (approvalID : ID)
  | decisionReference (tenantID : ID) (reference : String)
  | consumption (approvalID : ID)
  deriving DecidableEq

instance : Guarded RevocationRow RevocationLock where
  insertLocks r := [.revocation r.id]

/-- Whoever appends a change has its revocation, as a row it locked or as one it inserts. -/
instance : Guarded RevocationChange RevocationLock where
  insertLocks c := [.change c.id, .revocation c.revocationID]

instance : Guarded RevocationEntry RevocationLock where
  insertLocks l := [.sequence l.sequence, .event l.eventID]

instance : Guarded SecurityEpoch RevocationLock where
  insertLocks _ := [.epoch]

instance : Guarded TenantEpoch RevocationLock where
  insertLocks r := [.tenantEpoch r.tenantID]

instance : Guarded AgentEpoch RevocationLock where
  insertLocks r := [.agentEpoch r.tenantID r.agentID]

instance : Guarded KnownAgent RevocationLock where
  insertLocks r := [.agent r.tenantID r.id]

instance : Guarded KnownVersion RevocationLock where
  insertLocks r := [.version r.id]

instance : Guarded RevocationAudit RevocationLock where
  insertLocks r := [.audit r.id]

instance : Guarded RevocationMessage RevocationLock where
  insertLocks r := [.message r.id]

instance : Guarded ApprovalRequest RevocationLock where
  insertLocks r := [.approval r.id, .providerReference r.tenantID r.provider r.providerReference]

instance : Guarded ApprovalOutcome RevocationLock where
  insertLocks r := [.decision r.approvalID, .decisionReference r.tenantID r.decisionReference]

instance : Guarded ApprovalConsumption RevocationLock where
  insertLocks r := [.consumption r.approvalID]

/-! ### The database -/

inductive RevocationTable where
  | revocations | changes | entries | securityEpochs | tenantEpochs | agentEpochs | agents | versions
  | audits | messages | approvals | outcomes | consumptions
  deriving DecidableEq

abbrev RevocationTable.Row : RevocationTable → Type
  | .revocations => RevocationRow
  | .changes => RevocationChange
  | .entries => RevocationEntry
  | .securityEpochs => SecurityEpoch
  | .tenantEpochs => TenantEpoch
  | .agentEpochs => AgentEpoch
  | .agents => KnownAgent
  | .versions => KnownVersion
  | .audits => RevocationAudit
  | .messages => RevocationMessage
  | .approvals => ApprovalRequest
  | .outcomes => ApprovalOutcome
  | .consumptions => ApprovalConsumption

abbrev RevocationTable.Key : RevocationTable → Type
  | .revocations | .changes | .tenantEpochs | .versions | .audits | .messages | .approvals | .outcomes
  | .consumptions => ID
  | .entries => Int
  | .securityEpochs => Unit
  | .agentEpochs | .agents => ID × ID

def SecurityEpoch.key (_ : SecurityEpoch) : Unit := ()

def AgentEpoch.key (r : AgentEpoch) : ID × ID := (r.tenantID, r.agentID)

def KnownAgent.key (r : KnownAgent) : ID × ID := (r.tenantID, r.id)

abbrev revocationSchema : Schema RevocationLock where
  Name := RevocationTable
  Row := RevocationTable.Row
  Key := RevocationTable.Key
  key
    | .revocations => RevocationRow.id
    | .changes => RevocationChange.id
    | .entries => RevocationEntry.sequence
    | .securityEpochs => SecurityEpoch.key
    | .tenantEpochs => TenantEpoch.tenantID
    | .agentEpochs => AgentEpoch.key
    | .agents => KnownAgent.key
    | .versions => KnownVersion.id
    | .audits => RevocationAudit.id
    | .messages => RevocationMessage.id
    | .approvals => ApprovalRequest.id
    | .outcomes => ApprovalOutcome.approvalID
    | .consumptions => ApprovalConsumption.approvalID
  decName := inferInstance
  decKey
    | .revocations | .changes | .tenantEpochs | .versions | .audits | .messages | .approvals | .outcomes
    | .consumptions => inferInstanceAs (DecidableEq ID)
    | .entries => inferInstanceAs (DecidableEq Int)
    | .securityEpochs => inferInstanceAs (DecidableEq Unit)
    | .agentEpochs | .agents => inferInstanceAs (DecidableEq (ID × ID))
  guarded
    | .revocations => inferInstanceAs (Guarded RevocationRow RevocationLock)
    | .changes => inferInstanceAs (Guarded RevocationChange RevocationLock)
    | .entries => inferInstanceAs (Guarded RevocationEntry RevocationLock)
    | .securityEpochs => inferInstanceAs (Guarded SecurityEpoch RevocationLock)
    | .tenantEpochs => inferInstanceAs (Guarded TenantEpoch RevocationLock)
    | .agentEpochs => inferInstanceAs (Guarded AgentEpoch RevocationLock)
    | .agents => inferInstanceAs (Guarded KnownAgent RevocationLock)
    | .versions => inferInstanceAs (Guarded KnownVersion RevocationLock)
    | .audits => inferInstanceAs (Guarded RevocationAudit RevocationLock)
    | .messages => inferInstanceAs (Guarded RevocationMessage RevocationLock)
    | .approvals => inferInstanceAs (Guarded ApprovalRequest RevocationLock)
    | .outcomes => inferInstanceAs (Guarded ApprovalOutcome RevocationLock)
    | .consumptions => inferInstanceAs (Guarded ApprovalConsumption RevocationLock)

abbrev RevocationStore : Type := revocationSchema.Database

namespace RevocationStore

def revocations (s : RevocationStore) : Table RevocationRow.id := s .revocations

def changes (s : RevocationStore) : Table RevocationChange.id := s .changes

def entries (s : RevocationStore) : Table RevocationEntry.sequence := s .entries

def securityEpochs (s : RevocationStore) : Table SecurityEpoch.key := s .securityEpochs

def tenantEpochs (s : RevocationStore) : Table TenantEpoch.tenantID := s .tenantEpochs

def agentEpochs (s : RevocationStore) : Table AgentEpoch.key := s .agentEpochs

def agents (s : RevocationStore) : Table KnownAgent.key := s .agents

def versions (s : RevocationStore) : Table KnownVersion.id := s .versions

def approvals (s : RevocationStore) : Table ApprovalRequest.id := s .approvals

def outcomes (s : RevocationStore) : Table ApprovalOutcome.approvalID := s .outcomes

def consumptions (s : RevocationStore) : Table ApprovalConsumption.approvalID := s .consumptions

/-- The migrations leave one row: the security epoch 0. -/
def initial : RevocationStore :=
  Schema.Database.put (Schema.Database.empty revocationSchema) .securityEpochs (⟨0⟩ : SecurityEpoch)

end RevocationStore

/-- Nothing is read here without a lock that others could take back: commits promise nothing more. -/
def revocationEngine : Engine RevocationStore RevocationLock revocationSchema.Write :=
  revocationSchema.engine (· = ·) Eq.symm ⟨fun _ _ => True, fun _ _ _ => trivial⟩

namespace RevocationTables

def revocations : Handle revocationEngine RevocationRow.id := revocationSchema.rows .revocations

def changes : Handle revocationEngine RevocationChange.id := revocationSchema.rows .changes

def entries : Handle revocationEngine RevocationEntry.sequence := revocationSchema.rows .entries

def securityEpochs : Handle revocationEngine SecurityEpoch.key := revocationSchema.rows .securityEpochs

def tenantEpochs : Handle revocationEngine TenantEpoch.tenantID := revocationSchema.rows .tenantEpochs

def agentEpochs : Handle revocationEngine AgentEpoch.key := revocationSchema.rows .agentEpochs

def agents : Handle revocationEngine KnownAgent.key := revocationSchema.rows .agents

def versions : Handle revocationEngine KnownVersion.id := revocationSchema.rows .versions

def audits : Handle revocationEngine RevocationAudit.id := revocationSchema.rows .audits

def messages : Handle revocationEngine RevocationMessage.id := revocationSchema.rows .messages

def approvals : Handle revocationEngine ApprovalRequest.id := revocationSchema.rows .approvals

def outcomes : Handle revocationEngine ApprovalOutcome.approvalID := revocationSchema.rows .outcomes

def consumptions : Handle revocationEngine ApprovalConsumption.approvalID :=
  revocationSchema.rows .consumptions

end RevocationTables

end AgentGovernor
