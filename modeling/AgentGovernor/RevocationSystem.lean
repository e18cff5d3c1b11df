import AgentGovernor.RevocationRepository
import AgentGovernor.TransactionSequence

/-! Those who change revocations, at once and for all tenants, and the others who write to the same tables:
what each commits, that they keep to their locks, and that a number of the log is only drawn under the
singleton of the security epoch. -/

namespace AgentGovernor

open Ledger Transaction Engine List Bool Sequence

inductive RevocationRequest where
  | registerAgent (tenantID id : ID)
  | registerVersion (id tenantID agentID : ID) (contentDigest : String)
  | activatePolicy (tenantID : ID)
  | create (tenantID : ID) (v : Revocation) (e : RevocationEvidence) (sequence : Int) (found : ID)
  | lift (tenantID : ID) (l : RevocationLift) (e : RevocationEvidence) (sequence : Int) (found : ID)
  | requestApproval (tenantID : ID) (a : GovernanceApproval)
  | decideApproval (tenantID : ID) (a : GovernanceApproval)
  | consumeApproval (tenantID id : ID) (digest : String) (consumedAt : Time)

inductive RevocationResponse where
  | done
  | changed (result : RevocationResult)
  | consumed (approval : GovernanceApproval)
  deriving DecidableEq

def registerAgent (tenantID id : ID) : RevocationOp Unit :=
  RevocationTables.agents.insert [.agent tenantID id] ⟨tenantID, id⟩ (fun r => r.key = (tenantID, id))
    (.database "insert agent")

def registerVersion (id tenantID agentID : ID) (contentDigest : String) : RevocationOp Unit := do
  let known ← Tx.snapshot fun s => (s.agents.get (tenantID, agentID)).isSome
  Tx.require (known = true) (.database "insert agent version")
  RevocationTables.versions.insert [.version id] ⟨id, tenantID, agentID, contentDigest⟩ (fun r => r.id = id)
    (.database "insert agent version")

/-- What the activation of a policy does to the epochs of its tenant. -/
def activatePolicy (tenantID : ID) : RevocationOp Unit :=
  RevocationTables.tenantEpochs.upsert [.tenantEpoch tenantID] tenantID fun
    | none => .ok ((), ⟨tenantID, 1, 0⟩)
    | some r =>
      if r.policyEpoch < maxInt64 then .ok ((), { r with policyEpoch := r.policyEpoch + 1 })
      else .error (.database "activate policy")

def revocationProgram : RevocationRequest → RevocationOp RevocationResponse
  | .registerAgent tenantID id => (registerAgent tenantID id).bind fun _ => .pure .done
  | .registerVersion id tenantID agentID digest =>
    (registerVersion id tenantID agentID digest).bind fun _ => .pure .done
  | .activatePolicy tenantID => (activatePolicy tenantID).bind fun _ => .pure .done
  | .create tenantID v e sequence found =>
    (createRevocation tenantID v e sequence found).bind fun result => .pure (.changed result)
  | .lift tenantID l e sequence found =>
    (liftRevocation tenantID l e sequence found).bind fun result => .pure (.changed result)
  | .requestApproval tenantID a => (createGovernanceApproval tenantID a).bind fun _ => .pure .done
  | .decideApproval tenantID a => (recordGovernanceApprovalDecision tenantID a).bind fun _ => .pure .done
  | .consumeApproval tenantID id digest consumedAt =>
    (consumeGovernanceApproval tenantID id digest consumedAt).bind fun a => .pure (.consumed a)

variable {held held' : List RevocationLock} {s t : RevocationStore}

/-! ### Lock discipline -/

theorem revocations_keyed : Handle.Keyed revocationEngine RevocationRow.id RevocationLock.revocation :=
  ⟨⟨fun _ => rfl, fun _ => rfl⟩, fun _ => rfl⟩

theorem securityEpochs_keyed :
    Handle.Keyed revocationEngine SecurityEpoch.key (fun _ => RevocationLock.epoch) :=
  ⟨⟨fun _ => rfl, fun _ => rfl⟩, fun _ => rfl⟩

theorem tenantEpochs_keyed : Handle.Keyed revocationEngine TenantEpoch.tenantID RevocationLock.tenantEpoch :=
  ⟨⟨fun _ => rfl, fun _ => rfl⟩, fun _ => rfl⟩

theorem agentEpochs_keyed :
    Handle.Keyed revocationEngine AgentEpoch.key (fun k => RevocationLock.agentEpoch k.1 k.2) :=
  ⟨⟨fun _ => rfl, fun _ => rfl⟩, fun _ => rfl⟩

theorem knownAgents_keyed :
    Handle.Keyed revocationEngine KnownAgent.key (fun k => RevocationLock.agent k.1 k.2) :=
  ⟨⟨fun _ => rfl, fun _ => rfl⟩, fun _ => rfl⟩

theorem knownVersions_keyed : Handle.Keyed revocationEngine KnownVersion.id RevocationLock.version :=
  ⟨⟨fun _ => rfl, fun _ => rfl⟩, fun _ => rfl⟩

theorem revocationAudits_keyed : Handle.Keyed revocationEngine RevocationAudit.id RevocationLock.audit :=
  ⟨⟨fun _ => rfl, fun _ => rfl⟩, fun _ => rfl⟩

theorem revocationMessages_keyed : Handle.Keyed revocationEngine RevocationMessage.id RevocationLock.message :=
  ⟨⟨fun _ => rfl, fun _ => rfl⟩, fun _ => rfl⟩

theorem approvalRequests_isProtected {id : ID} (h : RevocationLock.approval id ∈ held) :
    Handle.Protected revocationEngine ApprovalRequest.id held id :=
  fun _ hr => ⟨.approval id, by simp [updateLocks, hr], .approval id, h, rfl⟩

theorem consumptions_keyed :
    Handle.Keyed revocationEngine ApprovalConsumption.approvalID RevocationLock.consumption :=
  ⟨⟨fun _ => rfl, fun _ => rfl⟩, fun _ => rfl⟩

variable {action : RevocationAction} {tenantID : ID}

theorem wellLocked_changedRevocation :
    revocationEngine.WellLocked (changedRevocation tenantID action) held
      fun v held' => RevocationLock.revocation v.id ∈ held' := by
  cases action with
  | create v =>
    refine WellLocked.bind (WellLocked.bind (wellLocked_require fun _ => ?_))
    exact revocations_keyed.wellLocked_insert (by simp [Revocation.row]) (fun r => by simp [Revocation.row])
      mem_cons_self
  | lift l =>
    refine WellLocked.bind (revocations_keyed.wellLocked_lock (by simp) fun r a hr hcheck => ?_)
    split_ifs at hcheck
    cases hcheck
    refine WellLocked.bind (WellLocked.bind (wellLocked_snapshot fun last => ?_))
    refine .orThrow fun change _ => ?_
    exact wellLocked_require fun _ => by
      show RevocationLock.revocation r.id ∈ _
      simp [hr]

theorem wellLocked_insertChange {row : RevocationChange} (h : RevocationLock.revocation row.revocationID ∈ held) :
    revocationEngine.WellLocked (insertChange row) held fun _ _ => True := by
  refine Handle.wellLocked_insert ?_ (fun r hr => decide_eq_true hr) (fun r hr => Or.inl ?_) trivial
  · simp [insertLocks, h]
  · exact ⟨.change row.id, by simp [updateLocks, of_decide_eq_true hr], .change row.id, by simp, rfl⟩

theorem wellLocked_advanceSecurityEpoch :
    revocationEngine.WellLocked advanceSecurityEpoch held fun _ _ => True :=
  securityEpochs_keyed.wellLocked_update (by simp) fun _ _ _ _ _ => ⟨rfl, trivial⟩

theorem tenantID_of_advancedTenant {policy : Bool} {old : Option TenantEpoch}
    {r : TenantEpoch} (hold : ∀ r', old = some r' → r'.tenantID = tenantID)
    (h : advancedTenant tenantID policy old = .ok r) : r.tenantID = tenantID := by
  cases old with
  | none =>
    cases h
    rfl
  | some r' =>
    simp only [advancedTenant] at h
    split_ifs at h <;> cases h <;> exact hold r' rfl

theorem key_of_advancedAgent {agentID : ID} {old : Option AgentEpoch} {r : AgentEpoch}
    (hold : ∀ r', old = some r' → r'.key = (tenantID, agentID))
    (h : advancedAgent tenantID agentID old = .ok r) : r.key = (tenantID, agentID) := by
  cases old with
  | none =>
    cases h
    rfl
  | some r' =>
    simp only [advancedAgent] at h
    split_ifs at h
    cases h
    exact hold r' rfl

theorem wellLocked_advanceTenantEpochs {policy : Bool} :
    revocationEngine.WellLocked (advanceTenantEpochs tenantID policy) held fun _ _ => True := by
  refine tenantEpochs_keyed.wellLocked_upsert (by simp) fun old a r hold hr => ⟨?_, trivial⟩
  obtain ⟨row, hrow, hpair⟩ := map_eq_ok.mp hr
  cases hpair
  exact tenantID_of_advancedTenant hold hrow

variable {found : ID} {v : Revocation}

theorem wellLocked_revokedAgent :
    revocationEngine.WellLocked (revokedAgent v tenantID found) held fun _ _ => True := by
  unfold revokedAgent
  split
  · split_ifs
    · trivial
    · exact WellLocked.bind (wellLocked_orThrow fun _ _ => trivial)
  · exact WellLocked.bind (wellLocked_snapshot fun _ =>
      WellLocked.bind (wellLocked_orThrow fun _ _ => trivial))
  · trivial

theorem wellLocked_advanceAgentEpoch {agentID : ID} :
    revocationEngine.WellLocked (advanceAgentEpoch tenantID agentID) held fun _ _ => True := by
  refine .snapshot fun _ => ?_
  refine .require fun _ => ?_
  refine agentEpochs_keyed.wellLocked_upsert (by simp) fun old a r hold hr => ⟨?_, trivial⟩
  obtain ⟨row, hrow, hpair⟩ := map_eq_ok.mp hr
  cases hpair
  exact key_of_advancedAgent hold hrow

theorem wellLocked_incrementRevocationEpochs :
    revocationEngine.WellLocked (incrementRevocationEpochs v found) held fun _ _ => True := by
  refine wellLocked_advanceSecurityEpoch.andThen fun security held _ _ => ?_
  cases v.tenantID with
  | none => trivial
  | some tenantID =>
    refine wellLocked_advanceTenantEpochs.andThen fun tenant held _ _ => ?_
    refine wellLocked_revokedAgent.andThen fun agent held _ _ => ?_
    cases agent with
    | none => trivial
    | some agentID => exact wellLocked_advanceAgentEpoch.andThen fun _ _ _ _ => trivial

/-- Both unique indexes of the log are held. -/
theorem wellLocked_insertEntry {row : RevocationEntry} :
    revocationEngine.WellLocked (insertEntry row) held fun _ _ => True := by
  refine Handle.wellLocked_insert (subset_append_left _ _) (fun r hr => ?_) (fun r hr => ?_) trivial
  · have hsequence : r.sequence = row.sequence := hr
    simp [hsequence]
  · simp only [or_eq_true, decide_eq_true_eq] at hr
    rcases hr with hsequence | hevent
    · exact Or.inl ⟨.sequence r.sequence, by simp [updateLocks], _, by simp [hsequence], rfl⟩
    · exact Or.inl ⟨.event r.eventID, by simp [updateLocks], _, by simp [hevent], rfl⟩

theorem wellLocked_insertEvidence
    {e : RevocationEvidence} {epochs : EpochVector} {sequence : Int} :
    revocationEngine.WellLocked (insertEvidence tenantID action v e epochs sequence) held
      fun _ _ => True :=
  WellLocked.bind (revocationAudits_keyed.wellLocked_insert (by simp [RevocationAction.audit])
    (fun r => by simp [RevocationAction.audit])
    (revocationMessages_keyed.wellLocked_insert (by simp) (fun r => by simp) trivial))

theorem wellLocked_changeRevocation {e : RevocationEvidence}
    {sequence : Int} :
    revocationEngine.WellLocked (changeRevocation tenantID action e sequence found) held
      fun _ _ => True := by
  refine .require fun _ => ?_
  refine .require fun _ => ?_
  refine wellLocked_changedRevocation.andThen fun v held _ hheld => ?_
  refine WellLocked.andThen (wellLocked_insertChange (by exact hheld)) fun _ _ _ _ => ?_
  refine wellLocked_incrementRevocationEpochs.andThen fun epochs _ _ _ => ?_
  refine wellLocked_insertEntry.andThen fun _ _ _ _ => ?_
  exact wellLocked_insertEvidence.andThen fun _ _ _ _ => trivial

theorem wellLocked_createGovernanceApproval {a : GovernanceApproval} :
    revocationEngine.WellLocked (createGovernanceApproval tenantID a) held fun _ _ => True := by
  refine .require fun _ => ?_
  refine .require fun _ => ?_
  refine .ofExcept fun _ _ => ?_
  refine .require fun _ => ?_
  refine Handle.wellLocked_insert (subset_append_left _ _) (fun r hr => ?_) (fun r hr => ?_) trivial
  · have hid : r.id = a.id := hr
    simp [hid]
  · simp only [or_eq_true, and_eq_true, decide_eq_true_eq] at hr
    rcases hr with hid | ⟨⟨htenant, hprovider⟩, hreference⟩
    · exact Or.inl ⟨.approval r.id, by simp [updateLocks], _, by simp [hid], rfl⟩
    · exact Or.inl ⟨.providerReference r.tenantID r.provider r.providerReference, by simp [updateLocks], _,
        by simp [htenant, hprovider, hreference], rfl⟩

theorem wellLocked_recordGovernanceApprovalDecision {a : GovernanceApproval} :
    revocationEngine.WellLocked (recordGovernanceApprovalDecision tenantID a) held fun _ _ => True := by
  refine .require fun _ => ?_
  refine .require fun _ => ?_
  refine .ofExcept fun _ _ => ?_
  refine .snapshot fun _ => ?_
  refine .require fun _ => ?_
  refine Handle.wellLocked_insert (subset_append_left _ _) (fun r hr => ?_) (fun r hr => ?_) trivial
  · have hid : r.approvalID = a.id := hr
    simp [hid]
  · simp only [or_eq_true, and_eq_true, decide_eq_true_eq] at hr
    rcases hr with hid | ⟨htenant, hreference⟩
    · exact Or.inl ⟨.decision r.approvalID, by simp [updateLocks], _, by simp [hid], rfl⟩
    · exact Or.inl ⟨.decisionReference r.tenantID r.decisionReference, by simp [updateLocks], _,
        by simp [htenant, hreference], rfl⟩

theorem wellLocked_consumeGovernanceApproval {id : ID} {digest : String} {consumedAt : Time} :
    revocationEngine.WellLocked (consumeGovernanceApproval tenantID id digest consumedAt) held
      fun _ _ => True := by
  refine .require fun _ => ?_
  refine WellLocked.bind (WellLocked.bind
    (Handle.wellLocked_lock (approvalRequests_isProtected (by simp)) fun request _ _ _ => ?_))
  refine .snapshot fun _ => ?_
  refine .snapshot fun _ => ?_
  refine .ofExcept fun _ _ => ?_
  refine .ofExcept fun _ _ => ?_
  exact WellLocked.bind (consumptions_keyed.wellLocked_insert (by simp) (fun r => by simp) trivial)

theorem wellLocked_revocationProgram (request : RevocationRequest) :
    revocationEngine.WellLocked (revocationProgram request) [] fun _ _ => True := by
  cases request with
  | registerAgent tenantID id =>
    exact WellLocked.bind (knownAgents_keyed.wellLocked_insert (by simp [KnownAgent.key])
      (fun r => by simp [KnownAgent.key]) trivial)
  | registerVersion id tenantID agentID digest =>
    refine WellLocked.bind (WellLocked.bind (wellLocked_snapshot fun _ => ?_))
    refine .require fun _ => ?_
    exact knownVersions_keyed.wellLocked_insert (by simp) (fun r => by simp) trivial
  | activatePolicy tenantID =>
    refine WellLocked.bind (tenantEpochs_keyed.wellLocked_upsert (by simp)
      fun old a r hold hr => ⟨?_, trivial⟩)
    cases old with
    | none =>
      cases hr
      rfl
    | some r' =>
      dsimp only at hr
      split_ifs at hr
      cases hr
      exact hold r' rfl
  | create tenantID v e sequence found =>
    refine WellLocked.bind (WellLocked.bind (wellLocked_ofExcept fun v _ => ?_))
    exact WellLocked.bind (wellLocked_require fun _ =>
      wellLocked_changeRevocation.weaken fun _ _ _ => trivial)
  | lift tenantID l e sequence found =>
    refine WellLocked.bind (WellLocked.bind (wellLocked_ofExcept fun l _ => ?_))
    exact WellLocked.bind (wellLocked_require fun _ =>
      wellLocked_changeRevocation.weaken fun _ _ _ => trivial)
  | requestApproval => exact wellLocked_createGovernanceApproval.andThen fun _ _ _ _ => trivial
  | decideApproval => exact wellLocked_recordGovernanceApprovalDecision.andThen fun _ _ _ _ => trivial
  | consumeApproval => exact wellLocked_consumeGovernanceApproval.andThen fun _ _ _ _ => trivial

theorem disciplined_revocationProgram : revocationEngine.Disciplined revocationProgram where
  wellLocked := wellLocked_revocationProgram
  promise _ _ _ _ _ _ := trivial

/-! ### Numbers of the log -/

def logNumber : RevocationLock → Option Int
  | .sequence n => some n
  | _ => none

/-- Numbers of the log are drawn under the singleton of the security epoch. -/
def logSequence : Sequence revocationEngine := ⟨logNumber, .epoch, rfl⟩

theorem quiet_changedRevocation (tenantID : ID) (action : RevocationAction) :
    logSequence.Quiet (changedRevocation tenantID action) := by
  cases action with
  | create v =>
    exact Quiet.bind (quiet_require.bind fun _ => quiet_perform rfl) fun _ => trivial
  | lift l =>
    refine (quiet_perform rfl).bind fun _ => Quiet.bind ?_ fun _ => trivial
    exact quiet_snapshot.bind fun _ =>
      quiet_orThrow.bind fun _ => quiet_require

theorem quiet_incrementTenantEpochs (v : Revocation) (tenantID found : ID) (security : Int) :
    logSequence.Quiet (incrementTenantEpochs v tenantID found security) := by
  refine (quiet_perform rfl).bind fun tenant => Quiet.bind ?_ fun agent => ?_
  · unfold revokedAgent
    split
    · split_ifs
      · trivial
      · exact quiet_orThrow.bind fun _ => trivial
    · exact quiet_snapshot.bind fun _ =>
        quiet_orThrow.bind fun _ => trivial
    · trivial
  · cases agent with
    | none => trivial
    | some agentID =>
      refine Quiet.bind (quiet_snapshot.bind fun _ => ?_) fun _ => trivial
      exact quiet_require.bind fun _ => quiet_perform rfl

/-- The epoch is taken before the entry is inserted, on every path. -/
theorem drawsUnder_changeRevocation (tenantID : ID) (action : RevocationAction) (e : RevocationEvidence)
    (sequence : Int) (found : ID) :
    logSequence.DrawsUnder (changeRevocation tenantID action e sequence found) held fun _ => True := by
  refine quiet_require.draws fun _ held _ => ?_
  refine quiet_require.draws fun _ held _ => ?_
  refine (quiet_changedRevocation tenantID action).draws fun v held _ => ?_
  refine (quiet_perform rfl).draws fun _ held _ => ?_
  -- From here on the epoch is held.
  have hentry : ∀ epochs held', RevocationLock.epoch ∈ held' →
      logSequence.DrawsUnder ((insertEntry (logEntry action v e epochs sequence)).bind fun _ =>
        (insertEvidence tenantID action v e epochs sequence).bind fun _ =>
          .pure (⟨v, action.change, sequence, epochs⟩ : RevocationResult)) held' fun _ => True := by
    intro epochs held' hgate
    refine DrawsUnder.bind (drawsUnder_perform (fun _ => hgate) fun _ => ?_)
    refine Quiet.drawsUnder (Quiet.bind ?_ fun _ => trivial) fun _ _ => trivial
    exact (quiet_perform rfl).bind fun _ => quiet_perform rfl
  refine DrawsUnder.bind (DrawsUnder.bind (drawsUnder_perform
    (fun hne => absurd rfl hne) fun security => ?_))
  cases v.tenantID with
  | none => exact fun epochs => hentry epochs _ mem_cons_self
  | some owner =>
    exact (quiet_incrementTenantEpochs v owner found security).drawsUnder fun held' hsub epochs =>
      hentry epochs held' (hsub mem_cons_self)

theorem drawsUnder_revocationProgram (request : RevocationRequest) :
    logSequence.DrawsUnder (revocationProgram request) [] fun _ => True := by
  cases request with
  | registerAgent tenantID id => exact (quiet_perform rfl).draws fun _ _ _ => trivial
  | registerVersion id tenantID agentID digest =>
    refine Quiet.draws (quiet_snapshot.bind fun _ => ?_)
      fun _ _ _ => trivial
    exact quiet_require.bind fun _ => quiet_perform rfl
  | activatePolicy tenantID => exact (quiet_perform rfl).draws fun _ _ _ => trivial
  | create tenantID v e sequence found =>
    refine DrawsUnder.bind (quiet_ofExcept.draws fun v held _ => ?_)
    exact quiet_require.draws fun _ held _ =>
      (drawsUnder_changeRevocation tenantID _ e sequence found).mono fun _ _ _ => trivial
  | lift tenantID l e sequence found =>
    refine DrawsUnder.bind (quiet_ofExcept.draws fun l held _ => ?_)
    exact quiet_require.draws fun _ held _ =>
      (drawsUnder_changeRevocation tenantID _ e sequence found).mono fun _ _ _ => trivial
  | requestApproval tenantID a =>
    refine Quiet.draws (quiet_require.bind fun _ => ?_)
      fun _ _ _ => trivial
    refine quiet_require.bind fun _ => ?_
    refine quiet_ofExcept.bind fun _ => ?_
    exact quiet_require.bind fun _ => quiet_perform rfl
  | decideApproval tenantID a =>
    refine Quiet.draws (quiet_require.bind fun _ => ?_)
      fun _ _ _ => trivial
    refine quiet_require.bind fun _ => ?_
    refine quiet_ofExcept.bind fun _ => ?_
    refine quiet_snapshot.bind fun _ => ?_
    exact quiet_require.bind fun _ => quiet_perform rfl
  | consumeApproval tenantID id digest consumedAt =>
    refine Quiet.draws (quiet_require.bind fun _ => ?_)
      fun _ _ _ => trivial
    refine Quiet.bind ((quiet_perform rfl).bind fun _ => ?_) fun _ => ?_
    · refine quiet_snapshot.bind fun _ => ?_
      refine quiet_snapshot.bind fun _ => ?_
      exact quiet_ofExcept.bind fun _ => trivial
    · refine quiet_ofExcept.bind fun _ => ?_
      exact (quiet_perform rfl).bind fun _ => trivial

end AgentGovernor
