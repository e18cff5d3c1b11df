import AgentGovernor.StoreAdmission

/-! The agent registry: agents and their status, versions, and the decisions about them. The effective
state of a version is the decision with the latest caller-supplied instant. Names of agents, digests of
an agent's versions and identifiers of decisions are looked up in the snapshot of the statement that
inserts them: two sessions at once may pass here where the unique index would refuse one of them. -/

namespace AgentGovernor

open Ledger Transaction

variable (dep : Deployment)

/-! ### Agents -/

def Agent.row (agent : Agent) : AgentRow :=
  { id := agent.id
    name := agent.name
    description := agent.description
    ownerPrincipalID := agent.ownerPrincipalID
    sponsorPrincipalID := agent.sponsorPrincipalID
    riskClass := agent.riskClass
    status := agent.status
    createdAt := agent.createdAt.stored
    updatedAt := agent.updatedAt.stored }

def validAgent (agent : Agent) : Except Failure Unit :=
  if agent.tenantID ≠ dep.tenantID then
    .error (.plain "agent tenant does not match repository scope")
  else agent.validate

def invalidAgent : Failure := .domain .invalidArgument "agent details are invalid"

/-- The foreign keys of an agent. -/
def agentReferences (agent : Agent) (s : Store) : Bool :=
  (s.principals.get agent.ownerPrincipalID).isSome
    && (s.principals.get agent.sponsorPrincipalID).isSome

def createAgent (agent : Agent) : Op Unit := do
  let duplicate := conflict "agent identifier or name already exists"
  Tx.ofExcept (validAgent dep agent)
  let taken ← Tx.snapshot fun v => v.agents.rows.any (·.name = agent.name)
  Tx.require (taken = false) duplicate
  let known ← Tx.snapshot (agentReferences agent)
  Tx.require (known = true ∧ agent.row.createdAt ≤ agent.row.updatedAt) invalidAgent
  agentRows.insert [.agent agent.id] agent.row (fun a => a.id = agent.id) duplicate

/-- `UPDATE agents SET … WHERE … AND updated_at=$10`. -/
def updateAgent (agent : Agent) (expectedUpdatedAt : Time) : Op Unit := do
  let modified := conflict "agent was modified or does not exist"
  Tx.ofExcept (validAgent dep agent)
  Tx.require (expectedUpdatedAt.isZero = false)
    (.plain "agent update requires an expected update time")
  let old ← agentRows.lock [.agent agent.id] agent.id
    (fun a => if a.updatedAt = expectedUpdatedAt.stored then .ok a else .error modified) modified
  let taken ← Tx.snapshot fun v => v.agents.rows.any fun a => a.id ≠ agent.id && a.name = agent.name
  Tx.require (taken = false) (conflict "agent name already exists")
  let known ← Tx.snapshot (agentReferences agent)
  Tx.require (known = true ∧ old.createdAt ≤ agent.row.updatedAt) invalidAgent
  agentRows.update [.agent agent.id] agent.id
    (fun a => .ok ((), { agent.row with id := a.id, createdAt := a.createdAt })) modified

/-! ### Versions -/

/-- A version to register. Its manifest and capabilities are bound by the digest. -/
structure AgentVersionRegistration where
  id : ID
  tenantID : ID
  agentID : ID
  createdBy : ID
  contentDigest : String
  createdAt : Time
  deriving DecidableEq

def AgentVersionRegistration.validate (version : AgentVersionRegistration) : Except Failure Unit :=
  if version.id.isZero ∨ version.tenantID.isZero ∨ version.agentID.isZero ∨
      version.createdBy.isZero then
    .error (.plain "agent version identifiers must be set")
  else if !version.createdAt.utc ∨ version.createdAt.isZero then
    .error (.plain "agent version creation time must be a non-zero UTC timestamp")
  else if !validDigest version.contentDigest then
    .error (.plain "agent version content digest does not match its canonical manifest")
  else .ok ()

/-- A version that nobody has decided about. -/
def AgentVersionRegistration.row (version : AgentVersionRegistration) : AgentVersion :=
  ⟨version.id, version.agentID, version.contentDigest, version.createdAt.stored, []⟩

def registerAgentVersion (version : AgentVersionRegistration) : Op Unit := do
  let duplicate := conflict "agent version digest or identifier already exists"
  Tx.require (version.tenantID = dep.tenantID)
    (.plain "agent version tenant does not match repository scope")
  Tx.ofExcept version.validate
  let current ← Tx.snapshot fun v => (v.agents.get version.agentID).any (·.status ≠ .retired)
  Tx.require (current = true) (.domain .notFound "active agent not found")
  let taken ← Tx.snapshot fun v => v.versions.rows.any fun x =>
    x.agentID = version.agentID && x.contentDigest = version.contentDigest
  Tx.require (taken = false) duplicate
  let known ← Tx.snapshot fun v => (v.principals.get version.createdBy).isSome
  Tx.require (known = true) (.domain .invalidArgument "agent version references are invalid")
  versionRows.insert [.version version.id false] version.row (fun x => x.id = version.id) duplicate

/-! ### Decisions -/

/-- `COALESCE((SELECT decision … ORDER BY created_at DESC,id DESC LIMIT 1),'REGISTERED')`. -/
def AgentVersion.state (version : AgentVersion) : AgentVersionState :=
  match latestApproval version.approvals with
  | none => .registered
  | some approval => .decided approval.decision

def AgentVersionApproval.row (approval : AgentVersionApproval) : Approval :=
  ⟨approval.id, approval.decision, approval.createdAt.stored⟩

def versionMissing : Failure := .domain .notFound "agent version not found"

def decisionName : ApprovalDecision → String
  | .approved => "approved"
  | .rejected => "rejected"
  | .deprecated => "deprecated"
  | .revoked => "revoked"

def AgentVersionApproval.audit (approval : AgentVersionApproval) (digest : String) (auditID : ID) : AuditEvent :=
  ⟨auditID, approval.actorPrincipalID, "agent_versions." ++ decisionName approval.decision, digest,
    approval.createdAt.stored⟩

/-- The version of an agent with this digest. -/
def versionByDigest (agentID : ID) (digest : String) (s : Store) : Option AgentVersion :=
  s.versions.rows.find? fun x => x.agentID = agentID && x.contentDigest = digest

/-- The version row is locked by one statement, and the next one reads its decisions and appends. -/
def recordAgentVersionDecision (approval : AgentVersionApproval) (digest : String)
    (auditID outboxID : ID) : Op AgentVersionApproval := do
  Tx.require (approval.tenantID = dep.tenantID ∧ auditID.isZero = false ∧ outboxID.isZero = false ∧
      byteLength digest = 71)
    (.plain "agent version decision does not match repository scope")
  let found ← Tx.snapshot (versionByDigest approval.agentID digest)
  let candidate ← Tx.orThrow found versionMissing
  versionRows.lock [.version candidate.id false] candidate.id
    (fun x => if x.agentID = approval.agentID ∧ x.contentDigest = digest then .ok ()
      else .error versionMissing) versionMissing
  let taken ← Tx.snapshot fun v => v.versions.rows.any fun x => x.approvals.any (·.id = approval.id)
  Tx.require (taken = false) (conflict "agent version decision identifier already exists")
  let known ← Tx.snapshot fun v => (v.principals.get approval.actorPrincipalID).isSome
  Tx.require (known = true)
    (.domain .invalidArgument "agent version decision references are invalid")
  versionRows.update [.version candidate.id false] candidate.id
    (fun x =>
      if x.state.canApply approval.decision then
        .ok ((), { x with approvals := x.approvals ++ [approval.row] })
      else .error (conflict "agent version decision is not allowed from its current state"))
    versionMissing
  insertAudit (approval.audit digest auditID) (.database "record agent version decision")
  insertOutbox ⟨outboxID, digest, "agent.version." ++ decisionName approval.decision,
    approval.createdAt.stored⟩ (.database "record agent version decision")
  let stored := { approval with agentVersionID := candidate.id }
  Tx.ofExcept (stored.validate.mapError fun _ =>
    Failure.database "validate stored agent version decision")
  return stored

/-! ### Resolution candidates -/

structure VersionCandidate where
  version : AgentVersion
  approval : Approval
  state : ApprovalDecision
  deriving DecidableEq

/-- The versions of an active agent that an invocation may resolve to, the latest first. -/
def listAgentVersionCandidates (agentID : ID) (requestedDigest : String) (s : Store) :
    List VersionCandidate :=
  if (s.agents.get agentID).any (·.status = .active) then
    ((s.versions.rows.filter (·.agentID = agentID)).insertionSort fun a b =>
      b.createdAt < a.createdAt ∨ (b.createdAt = a.createdAt ∧ ID.le b.id a.id)).filterMap fun v => do
        let current ← latestApproval v.approvals
        let approved ← latestApproval (v.approvals.filter (·.decision = .approved))
        if (requestedDigest = "" ∧ current.decision = .approved) ∨
            (requestedDigest ≠ "" ∧ v.contentDigest = requestedDigest ∧
              (current.decision = .approved ∨ current.decision = .deprecated)) then
          some ⟨v, approved, current.decision⟩
        else none
  else []

end AgentGovernor
