import AgentGovernor.RevocationSnapshots
import AgentGovernor.StoreWorker

/-! Revocations and workers. The rule which revocations stop a worker is written twice: in the query that
claims a run, and in the service, which looks at the active revocations before a heartbeat or an
operation. -/

namespace AgentGovernor

open Ledger Transaction RevocationSample Bool

variable (s : RevocationStore)

/-! ### The query -/

/-- In force for the tenant: visible, effective, and its latest change is its creation. -/
def RevocationStore.inForceFor (tenantID : ID) (now : Int) (v : RevocationRow) : Bool :=
  visibleTo tenantID v.tenantID && v.effective now && s.unlifted v.id

/-- The revocation is about everybody, the tenant, the worker or the run. -/
def namesWorker (tenantID workerID runID : ID) (scope : RevocationScope) (target : String) : Bool :=
  scope = .global || (scope = .tenantID && target = tenantID.string) ||
    (scope = .principalID && target = workerID.string) || (scope = .runID && target = runID.string)

/-- The revocation is about the agent of the run or its version. -/
def RevocationStore.namesAgentOf (tenantID : ID) (run : Run) (v : RevocationRow) : Bool :=
  (v.scope = .agentID && v.target = run.agentID.string) ||
    (v.scope = .agentVersion && s.versions.rows.any fun version => version.tenantID = tenantID &&
      version.id = run.agentVersionID && version.contentDigest = v.target)

/-- The `EXISTS` of `ClaimRun`: the run is not for this worker. -/
def RevocationStore.excludesClaim (tenantID workerID : ID) (run : Run) (now : Int) : Bool :=
  s.revocations.rows.any fun v => s.inForceFor tenantID now v &&
    (namesWorker tenantID workerID run.id v.scope v.target || s.namesAgentOf tenantID run v)

/-! ### The service -/

def RunLease.activeAt (lease : RunLease) (now : Time) : Bool :=
  match requireUTC now with
  | .ok now => lease.validate && lease.expiresAt.after now
  | .error _ => false

def workerRevoked : Failure := .domain .forbidden "worker operation is revoked"

def checkWorkerRevocations (tenantID workerID runID : ID) (now : Time) : Except Failure Unit :=
  match revocationEngine.run (authoritativeRevocations tenantID (.ofNat 0) now) s with
  | .error _ => .error (.domain .unavailable "worker revocation authority is unavailable")
  | .ok ((_, active), _) =>
    if active.any fun v => v.scope = .global || (v.scope = .tenantID && v.target = tenantID.string) ||
        (v.scope = .principalID && v.target = workerID.string) ||
        (!runID.isZero && v.scope = .runID && v.target = runID.string) then
      .error workerRevoked
    else .ok ()

/-- What both methods do before they call the repository: the instant they call it with. -/
def admitWorker (lease : RunLease) (clock : Time) : Except Failure Time := do
  let now ← (requireUTC clock).mapError fun _ => .domain .internal "worker clock is invalid"
  if !lease.activeAt now then .error staleLease
  else
    checkWorkerRevocations s lease.tenantID lease.workerID lease.runID now
    return now

/-- What `Heartbeat` calls `HeartbeatRun` with. -/
def workerHeartbeat (leaseDuration : Int) (lease : RunLease) (clock : Time) :
    Except Failure (RunLease × Time × Time) := do
  let now ← admitWorker s lease clock
  return (lease, now, ⟨now.nanos + leaseDuration, now.utc⟩)

/-- What `Operate` calls `MutateWorkerRun` with, next to a fresh identifier. -/
def workerOperate (lease : RunLease) (operation : WorkerRunOperation) (clock : Time) :
    Except Failure (RunLease × WorkerRunOperation × Time) := do
  let now ← admitWorker s lease clock
  return (lease, operation, now)

/-! ### Agreement -/

/-- A revocation in force stops the worker on this run, whatever agent runs. -/
def RevocationStore.revokesWorker (tenantID workerID runID : ID) (now : Int) : Bool :=
  s.revocations.rows.any fun v => s.inForceFor tenantID now v && namesWorker tenantID workerID runID v.scope v.target

/-- A revocation in force is about the agent of the run or its version. -/
def RevocationStore.revokesAgent (tenantID : ID) (run : Run) (now : Int) : Bool :=
  s.revocations.rows.any fun v => s.inForceFor tenantID now v && s.namesAgentOf tenantID run v

variable {s} {tenantID workerID runID : ID} {now clock : Time} {lease : RunLease} {run : Run}

theorem excludesClaim_iff (n : Int) : s.excludesClaim tenantID workerID run n = true ↔
    s.revokesWorker tenantID workerID run.id n = true ∨ s.revokesAgent tenantID run n = true := by
  simp only [RevocationStore.excludesClaim, RevocationStore.revokesWorker, RevocationStore.revokesAgent,
    List.any_eq_true, and_eq_true, or_eq_true, and_or_left, exists_or]

/-- The active revocations are those in force. -/
theorem any_active (p : RevocationScope → String → Bool) (n : Int) :
    ((s.active tenantID n).any fun v => p v.scope v.target) =
      s.revocations.rows.any fun v => s.inForceFor tenantID n v && p v.scope v.target := by
  rw [(active_perm s tenantID n).any_eq, List.any_map, List.any_filter]
  rfl

theorem checkWorkerRevocations_eq (htenant : tenantID.isZero = false) (hnow : now.isZero = false)
    (hrun : runID.isZero = false) : checkWorkerRevocations s tenantID workerID runID now =
      if s.revokesWorker tenantID workerID runID now.stored then .error workerRevoked else .ok () := by
  have hany : ((s.active tenantID now.stored).any fun v =>
      namesWorker tenantID workerID runID v.scope v.target) = _ :=
    any_active (namesWorker tenantID workerID runID) now.stored
  unfold checkWorkerRevocations RevocationStore.revokesWorker
  rw [run_authoritativeRevocations s _ htenant hnow, ← hany]
  simp only [hrun, Bool.not_false, Bool.true_and, namesWorker]
  rfl

/-- An instant that fits into nanoseconds is not the zero value. -/
theorem not_isZero_of_requireUTC (h : requireUTC clock = .ok now) : now.isZero = false := by
  have hfits := representable_of_requireUTC h
  simp only [Time.representable, wrapInt64] at hfits
  refine decide_eq_false fun hzero => ?_
  rw [hzero] at hfits
  exact absurd hfits (by decide)

theorem admitWorker_eq (hclock : requireUTC clock = .ok now) (hactive : lease.activeAt now = true) :
    admitWorker s lease clock =
      if s.revokesWorker lease.tenantID lease.workerID lease.runID now.stored then .error workerRevoked
      else .ok now := by
  have hvalid : lease.validate = true := by
    unfold RunLease.activeAt at hactive
    split at hactive
    · exact (and_eq_true_iff.mp hactive).1
    · cases hactive
  simp only [RunLease.validate, and_eq_true, not_eq_true'] at hvalid
  obtain ⟨⟨⟨⟨⟨hrun, htenant⟩, _⟩, _⟩, _⟩, _⟩ := hvalid
  unfold admitWorker
  rw [hclock]
  show (if (!lease.activeAt now) = true then Except.error staleLease
    else checkWorkerRevocations s lease.tenantID lease.workerID lease.runID now >>= fun _ => pure now) = _
  rw [hactive, checkWorkerRevocations_eq htenant (not_isZero_of_requireUTC hclock) hrun, if_neg (by decide)]
  split_ifs
  · rfl
  · rfl

/-- Heartbeats and operations on an unexpired lease are refused for the same revocations as claims just when
no revocation of the run's agent or version is in force without one of the worker. -/
theorem worker_revocations_agree (s : RevocationStore) (hclock : requireUTC clock = .ok now)
    (hactive : lease.activeAt now = true) (hrun : run.id = lease.runID) (leaseDuration : Int)
    (operation : WorkerRunOperation) :
    ((workerHeartbeat s leaseDuration lease clock = .error workerRevoked ↔
        s.excludesClaim lease.tenantID lease.workerID run now.stored = true) ∧
      (workerOperate s lease operation clock = .error workerRevoked ↔
        s.excludesClaim lease.tenantID lease.workerID run now.stored = true)) ↔
      (s.revokesAgent lease.tenantID run now.stored = true →
        s.revokesWorker lease.tenantID lease.workerID run.id now.stored = true) := by
  have hgate := admitWorker_eq (s := s) hclock hactive
  rw [← hrun] at hgate
  unfold workerHeartbeat workerOperate
  rw [hgate, excludesClaim_iff]
  cases s.revokesWorker lease.tenantID lease.workerID run.id now.stored with
  | true => simp [bind, Except.bind]
  | false => simp [bind, Except.bind, pure, Except.pure]

namespace RevocationSample

/-- A run of agent 9 that worker 4 has leased until second 100. -/
def leasedRun : Run :=
  ⟨.ofNat 20, identifier 9, .ofNat 10, .ofNat 3, .running, 2, none, some (.ofNat 21), some 100000000, 1, 0, 0, none⟩

def workerLease : RunLease := ⟨.ofNat 20, tenant, .ofNat 21, .ofNat 4, 1, instant 100⟩

/-- The revocations after an agent or the tenant was revoked at second 10. -/
def revokedStore (scope : RevocationScope) (target : String) : RevocationStore :=
  (after [.registerAgent tenant (identifier 9), create 1 scope target 10 1]).1.committed

theorem tenant_revoked :
    (revokedStore .tenantID tenant.string).revokesWorker tenant (.ofNat 4) (.ofNat 20) (instant 50).stored =
      true := by
  decide +kernel

theorem agent_revoked :
    (revokedStore .agentID (identifier 9).string).excludesClaim tenant (.ofNat 4) leasedRun (instant 50).stored =
        true ∧
      (workerHeartbeat (revokedStore .agentID (identifier 9).string) 60000000000 workerLease (instant 50)).isOk =
        true ∧
      (workerOperate (revokedStore .agentID (identifier 9).string) workerLease .complete (instant 50)).isOk =
        true := by
  decide +kernel

end RevocationSample

theorem worker_revocations_agree_tenant :
    workerHeartbeat (revokedStore .tenantID tenant.string) 60000000000
        workerLease (instant 50) = .error workerRevoked ↔
      (revokedStore .tenantID tenant.string).excludesClaim
        tenant (.ofNat 4) leasedRun (instant 50).stored =
        true :=
  ((worker_revocations_agree (revokedStore .tenantID tenant.string)
    (show requireUTC (instant 50) = .ok (instant 50) from rfl) (by decide)
    rfl 60000000000 .complete).mpr fun _ => tenant_revoked).1

/-- A worker goes on with the run of a revoked agent that nobody may claim. -/
theorem revoked_agent_operates :
    (revokedStore .agentID (identifier 9).string).excludesClaim tenant
        (.ofNat 4) leasedRun (instant 50).stored = true ∧
      (workerHeartbeat (revokedStore .agentID (identifier 9).string) 60000000000
        workerLease (instant 50)).isOk = true ∧
      (workerOperate (revokedStore .agentID (identifier 9).string)
        workerLease .complete (instant 50)).isOk = true :=
  agent_revoked

end AgentGovernor
