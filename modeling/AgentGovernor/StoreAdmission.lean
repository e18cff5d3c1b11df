import AgentGovernor.StoreReservation

/-! Admission of root runs and of delegated child runs. The statement that inserts a run with its
envelope and evidence is written row by row: the rows become visible together, at the commit. -/

namespace AgentGovernor

open Ledger Transaction

structure RunAdmissionEvidence where
  eventID : ID
  auditID : ID
  outboxID : ID
  requestID : ID
  reasonCodes : List String
  deriving DecidableEq

/-- `ORDER BY created_at DESC, id DESC LIMIT 1`. -/
def latestApproval (approvals : List Approval) : Option Approval :=
  approvals.foldl (fun best a =>
    match best with
    | none => some a
    | some b =>
      if b.createdAt < a.createdAt ∨ (b.createdAt = a.createdAt ∧ ID.le b.id a.id) then some a
      else some b) none

/-- The version is eligible in the resolution's mode, and the resolution's approval belongs to it. -/
def AgentVersion.eligible (version : AgentVersion) (resolution : RunVersionResolution) : Bool :=
  ((latestApproval version.approvals).any fun a => a.decision = .approved ||
      (resolution.mode = .rollback && a.decision = .deprecated))
    && version.approvals.any fun a => a.id = resolution.approvalID && a.decision = .approved

def ineligible : Failure := conflict "agent version is no longer eligible for admission"

def duplicateAdmission : Failure := conflict "run admission identifier already exists"

/-- The version row, locked against approval changes; other admissions may share it. -/
def lockAgentVersion (admission : RunAdmission) (resolution : RunVersionResolution) : Op Unit :=
  versionRows.lock [.version admission.agentVersionID true] admission.agentVersionID
    (fun v => if v.agentID = admission.agentID ∧ v.contentDigest = resolution.agentContentDigest
      then .ok () else .error ineligible)
    ineligible

def admittedRun (admission : RunAdmission) : Run :=
  { id := admission.runID
    agentID := admission.agentID
    agentVersionID := admission.agentVersionID
    requestedBy := admission.requestedBy
    state := .admitted
    stateVersion := 1
    deadlineAt := admission.deadlineAt.map Time.stored
    leaseID := none
    leaseExpiresAt := none
    fencingToken := 0
    createdAt := admission.createdAt.stored
    updatedAt := admission.createdAt.stored
    terminalAt := none }

def insertRun (admission : RunAdmission) : Op Unit :=
  runRows.insert [.run admission.runID] (admittedRun admission) (fun r => r.id = admission.runID)
    duplicateAdmission

def insertEnvelope (admission : RunAdmission) : Op Unit :=
  envelopeRows.insert [.envelope admission.envelopeID] ⟨admission.envelopeID, admission.runID, none, 1⟩
    (fun e => e.id = admission.envelopeID || e.runID = admission.runID) duplicateAdmission

def RunAdmission.audit (admission : RunAdmission) (evidence : RunAdmissionEvidence) : AuditEvent :=
  ⟨evidence.auditID, admission.requestedBy, "runs.create", admission.runID.string, admission.createdAt.stored⟩

def insertAdmissionEvidence (admission : RunAdmission) (evidence : RunAdmissionEvidence) :
    Op Unit := do
  insertEvent
    { id := evidence.eventID, runID := admission.runID, sequence := 1, eventType := "run.admitted"
      actorType := .system, actorID := none, state := .admitted, stateVersion := 1
      occurredAt := admission.createdAt.stored } duplicateAdmission
  insertAudit (admission.audit evidence) duplicateAdmission
  insertOutbox ⟨evidence.outboxID, admission.runID.string, "run.admitted", admission.createdAt.stored⟩
    duplicateAdmission

/-- The run, its envelope and the admission evidence, if the version is eligible in the snapshot of
the statement. -/
def insertAdmission (admission : RunAdmission) (resolution : RunVersionResolution)
    (evidence : RunAdmissionEvidence) : Op Unit := do
  let eligible ← Tx.snapshot fun v =>
    (v.versions.get admission.agentVersionID).any (·.eligible resolution)
  Tx.require (eligible = true) ineligible
  let requester ← Tx.snapshot fun v => (v.principals.get admission.requestedBy).isSome
  Tx.require (requester = true)
    (.domain .invalidArgument "run admission references are invalid")
  insertRun admission
  insertEnvelope admission
  insertAdmissionEvidence admission evidence

variable (dep : Deployment)

/-- One root grant with its balance, of a tenant dimension whose bounds allow the value. -/
def issueRootGrant (admission : RunAdmission) (grant : RootResourceGrant) : Op Unit := do
  let d ← Tx.orThrow
    ((dep.byName grant.dimensionName).filter fun d =>
      d.minimum ≤ grant.coefficient ∧ grant.coefficient ≤ d.maximum)
    (.domain .unavailable "policy resource dimension is unavailable or outside configured bounds")
  insertGrant ⟨admission.envelopeID, d.id, grant.coefficient, d.unit, d.scale⟩
    (.database "issue root resource grants")
  insertBalance admission.envelopeID d.id grant.coefficient admission.createdAt.stored
    (.database "issue root resource grants")

def RunAdmissionEvidence.valid (evidence : RunAdmissionEvidence) : Bool :=
  !evidence.eventID.isZero && !evidence.auditID.isZero && !evidence.outboxID.isZero
    && !evidence.requestID.isZero && evidence.reasonCodes ≠ []

/-- The checks of `AdmitRun` before its transaction; the result is the vector of root grants. -/
def admissionGrants (admission : RunAdmission) (resolution : RunVersionResolution)
    (evidence : RunAdmissionEvidence) : Except Failure (List RootResourceGrant) := do
  if admission.tenantID ≠ dep.tenantID ∨ resolution.tenantID ≠ dep.tenantID ∨
      resolution.runID ≠ admission.runID ∨ resolution.agentID ≠ admission.agentID ∨
      resolution.agentVersionID ≠ admission.agentVersionID ∨
      resolution.invocationDecisionID ≠ admission.policyDecisionID then
    throw (.plain "run admission does not match repository scope or resolution")
  admission.validate
  resolution.validate
  let grants ← (rootResourceGrants (resolution.resolvedConstraints.getD [])).mapError fun _ =>
    Failure.domain .invalidArgument "resolved resource grants are invalid"
  if !evidence.valid then throw (.plain "run admission evidence is invalid")
  return grants

theorem admissionGrants_checks {dep : Deployment} {admission : RunAdmission}
    {resolution : RunVersionResolution} {evidence : RunAdmissionEvidence}
    {grants : List RootResourceGrant}
    (h : admissionGrants dep admission resolution evidence = .ok grants) :
    resolution.validate = .ok () ∧
      rootResourceGrants (resolution.resolvedConstraints.getD []) = .ok grants := by
  simp only [admissionGrants] at h
  by_cases hscope : admission.tenantID ≠ dep.tenantID ∨ resolution.tenantID ≠ dep.tenantID ∨
      resolution.runID ≠ admission.runID ∨ resolution.agentID ≠ admission.agentID ∨
      resolution.agentVersionID ≠ admission.agentVersionID ∨
      resolution.invocationDecisionID ≠ admission.policyDecisionID
  · rw [if_pos hscope] at h
    cases h
  · rw [if_neg hscope] at h
    obtain ⟨_, _, h₁⟩ := bind_eq_ok.mp h
    obtain ⟨_, hresolution, h₂⟩ := bind_eq_ok.mp h₁
    obtain ⟨result, hgrants, h₃⟩ := bind_eq_ok.mp h₂
    split_ifs at h₃
    · cases h₃
    · cases h₃
      exact ⟨hresolution, mapError_eq_ok.mp hgrants⟩

theorem admissionGrants_spec {dep : Deployment} {admission : RunAdmission}
    {resolution : RunVersionResolution} {evidence : RunAdmissionEvidence}
    {grants : List RootResourceGrant}
    (h : admissionGrants dep admission resolution evidence = .ok grants) :
    rootResourceGrants (resolution.resolvedConstraints.getD []) = .ok grants :=
  (admissionGrants_checks h).2

def admitRun (admission : RunAdmission) (resolution : RunVersionResolution)
    (evidence : RunAdmissionEvidence) : Op Unit := do
  let grants ← Tx.ofExcept (admissionGrants dep admission resolution evidence)
  lockAgentVersion admission resolution
  insertAdmission admission resolution evidence
  Tx.forEach grants (issueRootGrant dep admission)

/-- `UPDATE resource_envelopes SET parent_envelope_id=$3 … AND parent_envelope_id IS NULL`. -/
def linkChildEnvelope (child parent : ID) : Op Unit :=
  let unlinked := conflict "child resource envelope could not be linked"
  envelopeRows.update [.envelope child] child
    (fun e =>
      if e.parentEnvelopeID ≠ none then .error unlinked
      else if parent = e.id then .error (.database "link child resource envelope")
      else .ok ((), { e with parentEnvelopeID := some parent }))
    unlinked

def admitChildRun (admission : RunAdmission) (resolution : RunVersionResolution)
    (evidence : RunAdmissionEvidence) (reservation : ResourceReservation) :
    Op ResourceReservation := do
  Tx.require (reservation.tenantID = admission.tenantID ∧ reservation.childRunID = admission.runID ∧
      reservation.childEnvelopeID = admission.envelopeID ∧
      reservation.parentEnvelopeID.isZero = false)
    (.domain .invalidArgument "child admission reservation does not match the run")
  admitRun dep admission resolution evidence
  lockParentResourceEnvelope reservation.parentEnvelopeID
  linkChildEnvelope admission.envelopeID reservation.parentEnvelopeID
  reserveChildResources dep reservation

end AgentGovernor
