import AgentGovernor.StoreBalance

/-! Which versions admissions accept. An admission holds the version against decisions and looks at the
latest of them, by the instants their callers supply; it never looks at the agent. So suspension stops
admissions exactly as long as callers resolve again, and decisions take effect in the order of their
commits exactly as long as their instants follow that order. -/

namespace AgentGovernor

open Ledger Transaction Engine Sample List Bool

variable {held held' : List Lock} {s t : Store} {dep : Deployment} {request : Request}
  {response : Response} {admission : RunAdmission} {resolution : RunVersionResolution}
  {evidence : RunAdmissionEvidence} {parent : Option ID}

/-! ### The latest decision -/

/-- `ORDER BY created_at, id` puts the decision no later than the other. -/
def Approval.notAfter (b a : Approval) : Bool :=
  b.createdAt < a.createdAt || (b.createdAt = a.createdAt && ID.le b.id a.id)

theorem latestApproval_concat (approvals : List Approval) (a : Approval) :
    latestApproval (approvals ++ [a]) =
      if (latestApproval approvals).all (·.notAfter a) then some a else latestApproval approvals := by
  have hstep : latestApproval (approvals ++ [a]) = foldl _ (latestApproval approvals) [a] := foldl_append
  rw [hstep, foldl_cons, foldl_nil]
  cases latestApproval approvals with
  | none => rfl
  | some b => simp [Approval.notAfter]

theorem latestApproval_isSome {approvals : List Approval} {a : Approval} (h : a ∈ approvals) :
    ∃ b, latestApproval approvals = some b := by
  rcases eq_nil_or_concat approvals with rfl | ⟨rest, last, rfl⟩
  · cases h
  · rw [concat_eq_append, latestApproval_concat]
    split_ifs with hall
    · exact ⟨last, rfl⟩
    · cases hrest : latestApproval rest with
      | none => simp [hrest] at hall
      | some b => exact ⟨b, rfl⟩

theorem AgentVersion.state_append (x : AgentVersion) (a : Approval) :
    ({ x with approvals := x.approvals ++ [a] } : AgentVersion).state =
      if (latestApproval x.approvals).all (·.notAfter a) then .decided a.decision else x.state := by
  simp only [AgentVersion.state, latestApproval_concat]
  split_ifs <;> rfl

theorem AgentVersion.not_final_of_eligible {x : AgentVersion} (h : x.eligible resolution = true) :
    x.state.final = false := by
  simp only [AgentVersion.eligible, and_eq_true, Option.any_eq_true] at h
  obtain ⟨⟨a, ha, hdecision⟩, _⟩ := h
  simp only [AgentVersion.state, ha]
  cases hd : a.decision with
  | approved => rfl
  | deprecated => rfl
  | rejected => simp [hd] at hdecision
  | revoked => simp [hd] at hdecision

/-! ### What an admission checks -/

theorem exec_admitRun_eligible {u : Unit}
    (h : storeEngine.Exec (admitRun dep admission resolution evidence) held s u held' t) :
    resolution.validate = .ok () ∧ ∃ x, s.versions.get admission.agentVersionID = some x ∧
      x.agentID = admission.agentID ∧ x.contentDigest = resolution.agentContentDigest ∧
      x.eligible resolution = true := by
  obtain ⟨_, hchecks, h₁⟩ := exec_bind_ofExcept.mp h
  obtain ⟨_, _, _, hversion, h₂⟩ := exec_bind.mp h₁
  obtain ⟨x, hx, hmatch, rfl, rfl⟩ := Handle.exec_lock.mp hversion
  split_ifs at hmatch with hsame
  obtain ⟨_, _, _, hadmission, _⟩ := exec_bind.mp h₂
  obtain ⟨_, ⟨seen, hseen, rfl⟩, h₃⟩ := exec_bind_snapshot.mp hadmission
  obtain ⟨_, _, _, hchecked, _⟩ := exec_bind.mp h₃
  obtain ⟨hok, rfl, rfl⟩ := exec_require.mp hchecked
  -- The snapshot is as old as it may be, but the version has been locked before it.
  have hxseen : seen.versions.get admission.agentVersionID = some x :=
    (Handle.get_of_interference (H := versionRows) (protected_version_shared (by simp)) hseen).symm.trans
      hx
  rw [hxseen] at hok
  exact ⟨(admissionGrants_checks hchecks).1, x, hx, hsame.1, hsame.2, hok⟩

/-- Every committed admission has checked its version in the state that it commits from. -/
theorem commits_eligible (hadmits : request.Admits admission resolution evidence parent)
    (h : Serves dep request response s t) :
    resolution.validate = .ok () ∧ ∃ x, s.versions.get admission.agentVersionID = some x ∧
      x.agentID = admission.agentID ∧ x.contentDigest = resolution.agentContentDigest ∧
      x.eligible resolution = true := by
  obtain ⟨held, hexec⟩ := h
  rcases hadmits with ⟨rfl, _⟩ | ⟨acquisition, stored, now, rfl, _⟩ | ⟨requested, rfl, _⟩
  · obtain ⟨_, hadmit, _⟩ := exec_respond hexec
    exact exec_admitRun_eligible hadmit
  · obtain ⟨_, hrun, _⟩ := exec_respond hexec
    obtain ⟨_, _, _, _, _, _, _, _, hadmit, _⟩ := exec_admitRunIdempotently hrun
    exact exec_admitRun_eligible hadmit
  · obtain ⟨_, hchild, _⟩ := exec_respond hexec
    obtain ⟨_, _, _, hadmit, _⟩ := exec_bind.mp hchild.checked
    exact exec_admitRun_eligible hadmit

/-! ### Commits of the registry -/

/-- The requests that write agents or versions. -/
def Request.registry : Request → Bool
  | .createAgent _ | .updateAgent _ _ | .registerAgentVersion _ | .recordAgentVersionDecision _ _ _ _ => true
  | _ => false

theorem registry_of_commits (h : Serves dep request response s t)
    (hregistry : request.registry = false) :
    t.agents = s.agents ∧ t.versions = s.versions ∧ ∀ a, response ≠ .decided a := by
  by_cases hdesk : request.desk = false
  · obtain ⟨hagents, hversions, _⟩ := Store.desk_eq.mp (desk_of_commits h hdesk)
    refine ⟨hagents, hversions, ?_⟩
    obtain ⟨_, hexec⟩ := h
    cases request <;> cases hdesk <;> obtain ⟨_, _, rfl⟩ := exec_respond hexec <;> rintro a ⟨⟩
  · obtain ⟨_, hexec⟩ := h
    cases request with
    | acquireIdempotency request recordID ownerToken now =>
      obtain ⟨_, hacquire, rfl⟩ := exec_respond hexec
      obtain ⟨_, _, rfl⟩ | ⟨_, rfl, _⟩ := exec_acquireIdempotency hacquire <;>
        exact ⟨rfl, rfl, by rintro a ⟨⟩⟩
    | completeIdempotency acquisition stored now =>
      obtain ⟨_, hcomplete, rfl⟩ := exec_respond hexec
      obtain ⟨_, _, _, _, _, rfl⟩ := exec_completeIdempotency hcomplete
      exact ⟨rfl, rfl, by rintro a ⟨⟩⟩
    | failIdempotency acquisition now =>
      obtain ⟨_, hfail, rfl⟩ := exec_respond hexec
      obtain ⟨_, _, _, rfl⟩ := exec_failIdempotency hfail
      exact ⟨rfl, rfl, by rintro a ⟨⟩⟩
    | admitRunIdempotently admission resolution evidence acquisition stored now =>
      obtain ⟨_, hrun, rfl⟩ := exec_respond hexec
      obtain ⟨_, mid, _, _, _, _, _, _, hadmit, _, _, _, rfl⟩ := exec_admitRunIdempotently hrun
      obtain ⟨hagents, hversions, _⟩ := Store.desk_eq.mp (exec_admitRun hadmit).2.1
      exact ⟨hagents, hversions, by rintro a ⟨⟩⟩
    | createAgent | updateAgent | registerAgentVersion | recordAgentVersionDecision => cases hregistry
    | _ => exact absurd rfl hdesk

/-- The agent that `Create` or `Update` returns. -/
def Request.Returns (request : Request) (a : Agent) : Prop :=
  request = .createAgent a ∨ ∃ expected, request = .updateAgent a expected

/-- What a commit does to an agent. -/
inductive AgentMove (request : Request) (id : ID) : Option AgentRow → Option AgentRow → Prop where
  | keep (row : Option AgentRow) (hother : ∀ a, request.Returns a → a.id ≠ id) : AgentMove request id row row
  | create (a : Agent) (hrequest : request = .createAgent a) (hid : a.id = id) :
      AgentMove request id none (some a.row)
  | update (a : Agent) (expected : Time) (old : AgentRow) (hrequest : request = .updateAgent a expected)
      (hid : a.id = id) (hexpected : old.updatedAt = expected.stored) :
      AgentMove request id (some old) (some { a.row with createdAt := old.createdAt })

theorem commits_agentMove (h : Serves dep request response s t) (id : ID) :
    AgentMove request id (s.agents.get id) (t.agents.get id) := by
  by_cases hregistry : request.registry = false
  · rw [(registry_of_commits h hregistry).1]
    exact .keep _ (by rintro a (rfl | ⟨_, rfl⟩) <;> cases hregistry)
  · obtain ⟨_, hexec⟩ := h
    cases request with
    | createAgent a =>
      obtain ⟨_, hcreate, _⟩ := exec_respond hexec
      obtain ⟨hfresh, rfl⟩ := exec_createAgent hcreate
      rw [Table.get_put]
      split_ifs with hid
      · subst hid
        rw [show s.agents.get a.row.id = none from hfresh]
        exact .create a rfl rfl
      · refine .keep _ fun a' hreturns => ?_
        rcases hreturns with h | ⟨_, h⟩ <;> cases h
        exact fun h => hid h.symm
    | updateAgent a expected =>
      obtain ⟨_, hupdate, _⟩ := exec_respond hexec
      obtain ⟨old, hold, hexpected, rfl⟩ := exec_updateAgent hupdate
      have hkey : old.id = a.id := Table.key_of_get hold
      rw [Table.get_put]
      split_ifs with hid
      · rw [hid, hkey, hold]
        exact .update a expected old rfl rfl hexpected
      · refine .keep _ fun a' hreturns => ?_
        rcases hreturns with h | ⟨_, h⟩ <;> cases h
        exact fun h => hid (hkey.trans h).symm
    | registerAgentVersion version =>
      obtain ⟨_, hregister, _⟩ := exec_respond hexec
      obtain ⟨_, rfl⟩ := exec_registerAgentVersion hregister
      exact .keep _ (by rintro a' (h | ⟨_, h⟩) <;> cases h)
    | recordAgentVersionDecision approval digest auditID outboxID =>
      obtain ⟨_, hdecision, _⟩ := exec_respond hexec
      obtain ⟨x, hdecides, _⟩ := exec_recordAgentVersionDecision hdecision
      obtain ⟨_, _, _, _, rfl⟩ := hdecides.store_eq
      exact .keep _ (by rintro a' (h | ⟨_, h⟩) <;> cases h)
    | _ => exact absurd rfl hregistry

/-! ### Suspension -/

theorem digest_set_of_validate (h : resolution.validate = .ok ()) :
    resolution.agentContentDigest ≠ "" := by
  unfold RunVersionResolution.validate at h
  simp only [ite_error_eq_ok] at h
  obtain ⟨_, hdigest, _⟩ := h
  rintro hempty
  refine hdigest (Or.inl ?_)
  rw [hempty]
  decide

/-- The candidates of an agent include every version of it that is eligible, by its digest. -/
theorem listed_of_eligible {agentID : ID} {x : AgentVersion} (hx : x ∈ s.versions.rows)
    (hactive : (s.agents.get agentID).any (·.status = .active) = true) (hagent : x.agentID = agentID)
    (hdigest : x.contentDigest ≠ "") (heligible : x.eligible resolution = true) :
    ∃ candidate ∈ listAgentVersionCandidates agentID x.contentDigest s, candidate.version = x := by
  simp only [AgentVersion.eligible, and_eq_true, Option.any_eq_true, List.any_eq_true,
    decide_eq_true_eq, or_eq_true] at heligible
  obtain ⟨⟨current, hcurrent, hdecision⟩, a, ha, _, happroved⟩ := heligible
  obtain ⟨approved, hlatest⟩ := latestApproval_isSome
    (mem_filter.mpr ⟨ha, decide_eq_true happroved⟩ :
      a ∈ x.approvals.filter (·.decision = .approved))
  have hstate : current.decision = .approved ∨ current.decision = .deprecated :=
    hdecision.imp id And.right
  rw [listAgentVersionCandidates, if_pos hactive]
  refine ⟨⟨x, approved, current.decision⟩, mem_filterMap.mpr ⟨x, ?_, ?_⟩, rfl⟩
  · rw [mem_insertionSort]
    exact mem_filter.mpr ⟨hx, decide_eq_true hagent⟩
  · simp [hcurrent, hlatest, hdigest, hstate]

theorem active_of_listed {agentID : ID} {digest : String} {candidate : VersionCandidate}
    (h : candidate ∈ listAgentVersionCandidates agentID digest s) :
    (s.agents.get agentID).any (·.status = .active) = true := by
  unfold listAgentVersionCandidates at h
  split_ifs at h with hactive
  · exact hactive
  · cases h

theorem AgentMove.active {id : ID} {old new : Option AgentRow} (h : AgentMove request id old new)
    (hactive : old.any (·.status = .active) = true)
    (hupdates : ∀ a expected, request = .updateAgent a expected → a.id = id → a.status = .active) :
    new.any (·.status = .active) = true := by
  cases h with
  | keep => exact hactive
  | create => cases hactive
  | update a expected _ hrequest hid => exact decide_eq_true (hupdates a expected hrequest hid)

def KeepsActive (id : ID) (s t : Store) : Prop :=
  (s.agents.get id).any (·.status = .active) = true → (t.agents.get id).any (·.status = .active) = true

/-- An agent stays active as long as no update sets another status. -/
theorem Reachable.active_later {governor : Governor} (h : Reachable dep governor)
    {log₁ log₂ log₃ : List StoreCommit} {x c : StoreCommit}
    (hlog : governor.log = log₁ ++ x :: (log₂ ++ c :: log₃)) {id : ID}
    (hactive : (x.after.agents.get id).any (·.status = .active) = true)
    (hupdates : ∀ y ∈ log₂, ∀ a expected, y.request = .updateAgent a expected → a.id = id → a.status = .active) :
    (c.before.agents.get id).any (·.status = .active) = true := by
  refine (hlog ▸ h.history).between (R := KeepsActive id) (fun _ h => h) (fun _ _ _ h h' hs => h' (h hs))
    (fun y hy hs => ?_) hactive
  have hy' : y ∈ governor.log := by
    rw [hlog]
    exact mem_append_right _ (mem_cons_of_mem _ (mem_append_left _ hy))
  exact (commits_agentMove (h.commits hy') id).active hs (hupdates y hy)

/-- Over every interleaving, a committed admission found its agent active exactly if its version could
still be resolved in the state that it committed from. So it did if its version was listed after some commit
and no update set another status of the agent since. -/
theorem admitted_active_iff_listed {governor : Governor} (h : Reachable dep governor)
    {c : Commit Store Response Request} (hc : c ∈ governor.log)
    (hadmits : c.request.Admits admission resolution evidence parent) :
    ((c.before.agents.get admission.agentID).any (·.status = .active) = true ↔
      ∃ candidate ∈ listAgentVersionCandidates admission.agentID resolution.agentContentDigest
        c.before, candidate.version.id = admission.agentVersionID) ∧
    ∀ log₁ x log₂ log₃, governor.log = log₁ ++ x :: (log₂ ++ c :: log₃) →
      (∃ candidate ∈ listAgentVersionCandidates admission.agentID resolution.agentContentDigest
        x.after, candidate.version.id = admission.agentVersionID) →
      (∀ y ∈ log₂, ∀ a expected, y.request = .updateAgent a expected → a.id = admission.agentID →
        a.status = .active) →
      (c.before.agents.get admission.agentID).any (·.status = .active) = true := by
  refine ⟨⟨fun hactive => ?_, ?_⟩, ?_⟩
  · obtain ⟨hvalid, x, hx, hagent, hdigest, heligible⟩ := commits_eligible hadmits (h.commits hc)
    have hset := hdigest ▸ digest_set_of_validate hvalid
    obtain ⟨candidate, hmem, hversion⟩ :=
      listed_of_eligible (Table.mem_of_get hx) hactive hagent hset heligible
    rw [hdigest] at hmem
    exact ⟨candidate, hmem, hversion ▸ Table.key_of_get hx⟩
  · rintro ⟨candidate, hmem, _⟩
    exact active_of_listed hmem
  · rintro log₁ x log₂ log₃ hlog ⟨candidate, hmem, _⟩ hupdates
    exact h.active_later hlog (active_of_listed hmem) hupdates

/-- The first admission of the story, whose agent is active. -/
theorem Sample.story_admission : (after story).log.any (fun c => match c.request with
      | .admitRun admission _ _ =>
        (c.before.agents.get admission.agentID).any (·.status = .active)
      | _ => false) = true := by
  decide +kernel

theorem admitted_active_iff_listed_story : ∃ c ∈ (after story).log,
    ∃ admission resolution evidence, c.request = .admitRun admission resolution evidence ∧
      ∃ candidate ∈ listAgentVersionCandidates admission.agentID resolution.agentContentDigest
        c.before, candidate.version.id = admission.agentVersionID := by
  obtain ⟨c, hc, hactive⟩ := List.any_eq_true.mp story_admission
  split at hactive
  · rename_i admission resolution evidence hrequest
    exact ⟨c, hc, admission, resolution, evidence, hrequest, (admitted_active_iff_listed
      (reachable story) hc (Or.inl ⟨hrequest, rfl⟩)).1.mp hactive⟩
  · cases hactive

/-- The agent is suspended; then a run is admitted under the resolution made before. -/
def Sample.suspended : List Request :=
  provision ++ [.updateAgent ⟨.ofNat 2, .ofNat 1, "planner", "", .ofNat 4, .ofNat 7, .low, .suspended,
      instant 1, instant 50⟩ (instant 1),
    admitRoot 100 (("max_tool_calls", .int 10) :: limits)]

theorem Sample.suspended_evaluated : (after suspended).log.any (fun c =>
    match c.request with
      | .admitRun admission _ _ =>
        (c.before.agents.get admission.agentID).any (·.status = .suspended) &&
          (c.after.runs.get admission.runID).isSome
      | _ => false) = true := by
  decide +kernel

theorem suspended_agent_admits : ∃ c ∈ (after suspended).log,
    ∃ admission resolution evidence, c.request = .admitRun admission resolution evidence ∧
      (c.before.agents.get admission.agentID).any (·.status = .suspended) = true ∧
      (c.after.runs.get admission.runID).isSome = true := by
  obtain ⟨c, hc, hadmits⟩ := List.any_eq_true.mp suspended_evaluated
  split at hadmits
  · rename_i admission resolution evidence hrequest
    rw [and_eq_true] at hadmits
    exact ⟨c, hc, admission, resolution, evidence, hrequest, hadmits⟩
  · cases hadmits

/-! ### Decisions -/

/-- The state of a version; one that is not there has no decisions. -/
def Store.versionState (s : Store) (id : ID) : AgentVersionState :=
  (s.versions.get id).elim .registered AgentVersion.state

theorem Store.versionState_put {x : AgentVersion} (h : t.versions = s.versions.put x) (id : ID) :
    t.versionState id = if id = x.id then x.state else s.versionState id := by
  rw [Store.versionState, h, Table.get_put]
  split_ifs <;> rfl

/-- A new version has the state that it had when it was not there. -/
theorem Store.versionState_register {version : AgentVersionRegistration}
    (hfresh : s.versions.get version.id = none) (h : t.versions = s.versions.put version.row) (id : ID) :
    t.versionState id = s.versionState id := by
  rw [Store.versionState_put h]
  split_ifs with hid
  · rw [Store.versionState, hid, show version.row.id = version.id from rfl, hfresh]
    rfl
  · rfl

/-- What a commit does to the versions. -/
inductive DecisionStep (request : Request) (response : Response) (s t : Store) : Prop where
  | keep (hresponse : ∀ a, response ≠ .decided a) (h : t.versions = s.versions)
  | register (version : AgentVersionRegistration) (hresponse : response = .done)
      (hfresh : s.versions.get version.id = none) (h : t.versions = s.versions.put version.row)
  | decision (approval : AgentVersionApproval) (digest : String) (auditID outboxID : ID)
      (x : AgentVersion)
      (hrequest : request = .recordAgentVersionDecision approval digest auditID outboxID)
      (hresponse : response = .decided { approval with agentVersionID := x.id })
      (h : Decides approval digest x s t)

theorem commits_decisionStep (h : Serves dep request response s t) :
    DecisionStep request response s t := by
  by_cases hregistry : request.registry = false
  · obtain ⟨_, hversions, hresponse⟩ := registry_of_commits h hregistry
    exact .keep hresponse hversions
  · obtain ⟨_, hexec⟩ := h
    cases request with
    | createAgent agent =>
      obtain ⟨_, hcreate, rfl⟩ := exec_respond hexec
      obtain ⟨_, rfl⟩ := exec_createAgent hcreate
      exact .keep (by rintro a ⟨⟩) rfl
    | updateAgent agent expectedUpdatedAt =>
      obtain ⟨_, hupdate, rfl⟩ := exec_respond hexec
      obtain ⟨_, _, _, rfl⟩ := exec_updateAgent hupdate
      exact .keep (by rintro a ⟨⟩) rfl
    | registerAgentVersion version =>
      obtain ⟨_, hregister, rfl⟩ := exec_respond hexec
      obtain ⟨hfresh, rfl⟩ := exec_registerAgentVersion hregister
      exact .register version rfl hfresh rfl
    | recordAgentVersionDecision approval digest auditID outboxID =>
      obtain ⟨_, hdecision, rfl⟩ := exec_respond hexec
      obtain ⟨x, hdecides, rfl, _⟩ := exec_recordAgentVersionDecision hdecision
      exact .decision approval digest auditID outboxID x rfl rfl hdecides
    | _ => exact absurd rfl hregistry

/-- The decision is no earlier than the latest one about its version. -/
def Request.inOrder (s : Store) : Request → Bool
  | .recordAgentVersionDecision approval digest _ _ => s.versions.rows.all fun x =>
    !(x.agentID = approval.agentID && x.contentDigest = digest) ||
      (latestApproval x.approvals).all (·.notAfter approval.row)
  | _ => true

theorem Decides.versions_eq {approval : AgentVersionApproval} {digest : String} {x : AgentVersion}
    (h : Decides approval digest x s t) :
    t.versions = s.versions.put { x with approvals := x.approvals ++ [approval.row] } := by
  obtain ⟨_, _, _, _, rfl⟩ := h.store_eq
  rfl

/-- A decision in order takes effect. -/
theorem Decides.state {approval : AgentVersionApproval} {digest : String} {x : AgentVersion}
    {auditID outboxID : ID} (h : Decides approval digest x s t)
    (horder : (Request.recordAgentVersionDecision approval digest auditID outboxID).inOrder s = true) :
    t.versionState x.id = .decided approval.decision := by
  have hx := List.all_eq_true.mp horder x (Table.mem_of_get h.version)
  simp only [h.agent_eq, h.digest_eq, decide_true, Bool.and_self, Bool.not_true, Bool.false_or] at hx
  rw [Store.versionState_put h.versions_eq, if_pos rfl, AgentVersion.state_append, if_pos hx]
  rfl

/-- Final states are absorbing, whatever the instants of later decisions. -/
theorem DecisionStep.final (h : DecisionStep request response s t) {id : ID}
    (hfinal : (s.versionState id).final = true) : t.versionState id = s.versionState id := by
  cases h with
  | keep _ hversions => rw [Store.versionState, hversions, Store.versionState]
  | register version _ hfresh hversions => exact Store.versionState_register hfresh hversions id
  | decision approval digest _ _ x _ _ hdecides =>
    rw [Store.versionState_put hdecides.versions_eq]
    split_ifs with hid
    · subst hid
      rw [Store.versionState, hdecides.version, Option.elim_some] at hfinal
      have hallowed := hdecides.allowed
      rw [AgentVersionState.not_canApply_of_final hfinal] at hallowed
      cases hallowed
    · rfl

/-- A final state is kept over any number of commits. -/
def KeepsFinal (id : ID) (s t : Store) : Prop :=
  (s.versionState id).final = true → t.versionState id = s.versionState id

theorem KeepsFinal.trans {id : ID} {u : Store} (h : KeepsFinal id s t) (h' : KeepsFinal id t u) :
    KeepsFinal id s u := by
  intro hs
  have hst := h hs
  exact (h' (hst ▸ hs)).trans hst

/-- The decision about a version that was committed last. -/
def lastDecided (id : ID) (log : List (Commit Store Response Request)) : AgentVersionState :=
  log.foldl (fun state c => match c.response with
    | .decided a => if a.agentVersionID = id then .decided a.decision else state
    | _ => state) .registered

theorem lastDecided_concat (id : ID) (log : List StoreCommit)
    (c : StoreCommit) :
    lastDecided id (log ++ [c]) = match c.response with
      | .decided a => if a.agentVersionID = id then .decided a.decision else lastDecided id log
      | _ => lastDecided id log :=
  foldl_append

/-- After commits in order, the state of every version is the decision that was committed last. -/
theorem versionState_eq_lastDecided {log : List StoreCommit}
    (h : storeEngine.History (program dep) Store.empty log s)
    (horder : ∀ c ∈ log, c.request.inOrder c.before = true) (id : ID) :
    s.versionState id = lastDecided id log := by
  induction h with
  | nil => rfl
  | @snoc log s t request response _ hcommit ih =>
    have ih := ih fun c hc => horder c (mem_append_left _ hc)
    have hlast := horder _ (mem_append_right _ mem_cons_self)
    rw [lastDecided_concat]
    cases commits_decisionStep hcommit with
    | keep hresponse hversions =>
      dsimp only
      split
      · exact absurd rfl (hresponse _)
      · rw [← ih, Store.versionState, hversions, Store.versionState]
    | register version hresponse hfresh hversions =>
      simp only [hresponse]
      exact (Store.versionState_register hfresh hversions id).trans ih
    | decision approval digest _ _ x hrequest hresponse hdecides =>
      simp only [hresponse]
      split_ifs with hid
      · subst hid
        rw [hrequest] at hlast
        exact hdecides.state hlast
      · rw [← ih, Store.versionState_put hdecides.versions_eq]
        exact if_neg fun hsame => hid hsame.symm

/-- Over every interleaving whose decisions are recorded in the order of their instants: the state of a
version is always the decision that was committed last, each decision is allowed from the one committed
before it, and a final one is not followed by an admission of the version. -/
theorem decisions_take_effect {governor : Governor} (h : Reachable dep governor)
    (horder : ∀ c ∈ governor.log, c.request.inOrder c.before = true) :
    (∀ id, governor.committed.versionState id = lastDecided id governor.log) ∧
    ∀ log₁ c log₂ a, governor.log = log₁ ++ c :: log₂ → c.response = .decided a →
      c.after.versionState a.agentVersionID = .decided a.decision ∧
      (lastDecided a.agentVersionID log₁).canApply a.decision = true ∧
      ((AgentVersionState.decided a.decision).final = true → ∀ c' ∈ log₂,
        ∀ admission resolution evidence parent,
          c'.request.Admits admission resolution evidence parent →
          admission.agentVersionID ≠ a.agentVersionID) := by
  refine ⟨versionState_eq_lastDecided h.history horder, fun log₁ c log₂ a hlog hresponse => ?_⟩
  have hc : c ∈ governor.log := hlog ▸ mem_append_right _ mem_cons_self
  have hhistory := hlog ▸ h.history
  have hbefore := versionState_eq_lastDecided hhistory.before
    (fun c' hc' => horder c' (hlog ▸ mem_append_left _ hc')) a.agentVersionID
  cases commits_decisionStep (h.commits hc) with
  | keep hother => exact absurd hresponse (hother a)
  | register _ hdone =>
    rw [hresponse] at hdone
    cases hdone
  | decision approval digest _ _ x hrequest hdecided hdecides =>
    rw [hresponse] at hdecided
    cases hdecided
    have hafter := hdecides.state (hrequest ▸ horder c hc)
    refine ⟨hafter, ?_, fun hfinal c' hc' admission resolution evidence parent hadmits hsame => ?_⟩
    · rw [← hbefore, Store.versionState, hdecides.version]
      exact hdecides.allowed
    · -- From the decision to the admission the state stays final, and final versions are refused.
      obtain ⟨mid, rest, hrest⟩ := append_of_mem hc'
      rw [hrest, ← cons_append, ← append_assoc] at hlog
      have hmem : c' ∈ governor.log := hlog ▸ mem_append_right _ mem_cons_self
      have hprefix := (hlog ▸ h.history).before
      have hstays := hprefix.since (R := KeepsFinal x.id) (fun _ _ => rfl)
        (fun _ _ _ => KeepsFinal.trans) fun c'' hc'' =>
          (commits_decisionStep (h.commits (hlog ▸ mem_append_left _ hc''))).final
      have hstate := hstays c (mem_append_right _ mem_cons_self) (hafter ▸ hfinal)
      obtain ⟨_, y, hy, _, _, heligible⟩ := commits_eligible hadmits (h.commits hmem)
      rw [hsame] at hy
      simp only [Store.versionState, hy, Option.elim_some] at hstate
      have hopen := AgentVersion.not_final_of_eligible heligible
      rw [hstate] at hopen
      exact absurd (hopen.symm.trans (hafter ▸ hfinal)) (by decide)

/-- The version is revoked, at this instant by the caller's clock; then a run of it is admitted. -/
def Sample.revoked (decidedAt : Time) : List Request :=
  provision ++ [.recordAgentVersionDecision ⟨.ofNat 20, .ofNat 1, .ofNat 2, .ofNat 0, .ofNat 7, .ofNat 5,
      .revoked, "compromised", "", decidedAt⟩ digest (.ofNat 21) (.ofNat 22),
    admitRoot 100 (("max_tool_calls", .int 10) :: limits)]

theorem Sample.revoked_evaluated :
    ((after (revoked (instant 60))).log.all fun c => c.request.inOrder c.before) = true ∧
    lastDecided (.ofNat 3) (after (revoked (instant 60))).log = .decided .revoked := by
  decide +kernel

theorem decisions_take_effect_revoked :
    (after (revoked (instant 60))).committed.versionState (.ofNat 3) =
      .decided .revoked := by
  obtain ⟨horder, hlast⟩ := revoked_evaluated
  have heffect := decisions_take_effect (reachable (revoked (instant 60)))
    (List.all_eq_true.mp horder)
  exact (heffect.1 (.ofNat 3)).trans hlast

/-- Dated before the approval, the revocation leaves the version approved, and the run is admitted. -/
theorem Sample.revoked_early_evaluated :
    ((after (revoked (instant 1))).log.tails.any fun rest => match rest with
      | [] => false
      | c :: later => match c.response with
          | .decided a => a.decision = .revoked &&
              c.after.versionState a.agentVersionID = .decided .approved &&
              later.any fun c' => match c'.request with
                | .admitRun admission _ _ => admission.agentVersionID = a.agentVersionID
                | _ => false
          | _ => false) = true := by
  decide +kernel

theorem revoked_version_admits : ∃ log₁ c log₂ a,
    (after (revoked (instant 1))).log = log₁ ++ c :: log₂ ∧
    c.response = .decided a ∧ a.decision = .revoked ∧
    c.after.versionState a.agentVersionID = .decided .approved ∧
    ∃ c' ∈ log₂, ∃ admission resolution evidence,
      c'.request = .admitRun admission resolution evidence ∧
      admission.agentVersionID = a.agentVersionID := by
  obtain ⟨rest, hrest, hrevoked⟩ := List.any_eq_true.mp revoked_early_evaluated
  obtain ⟨log₁, hlog⟩ := (mem_tails _ _).mp hrest
  split at hrevoked
  · cases hrevoked
  · rename_i c later
    split at hrevoked
    · rename_i a hresponse
      simp only [and_eq_true, decide_eq_true_eq, List.any_eq_true] at hrevoked
      obtain ⟨⟨hdecision, hstate⟩, c', hc', hadmits⟩ := hrevoked
      refine ⟨log₁, c, later, a, hlog.symm, hresponse, hdecision, hstate, c', hc', ?_⟩
      split at hadmits
      · rename_i admission resolution evidence hrequest
        exact ⟨admission, resolution, evidence, hrequest, of_decide_eq_true hadmits⟩
      · cases hadmits
    · cases hrevoked

end AgentGovernor
