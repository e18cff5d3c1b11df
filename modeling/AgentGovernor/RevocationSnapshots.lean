import AgentGovernor.RevocationDelta

/-! Snapshots of the revocations in force. A snapshot takes the latest change of a revocation by the
instants that callers gave, the log has the changes in the order of their commits. The two agree as long as
no lift is dated before a change that was recorded earlier. -/

namespace AgentGovernor

open Ledger Transaction Engine RevocationSample List

variable {a : RevocationSystem × Int} {s t : RevocationStore}

/-! ### The fold of the log -/

/-- The last committed entry about a revocation. -/
def RevocationStore.lastEntry (s : RevocationStore) (id : ID) : Option RevocationEntry :=
  lastOf RevocationEntry.revocationID s.entries.rows id

/-- The last committed entry about the revocation created it. -/
def RevocationStore.standing (s : RevocationStore) (id : ID) : Bool :=
  (s.lastEntry id).any (·.changeType = .created)

/-- The latest change of the revocation, by the instants that changes carry, created it. -/
def RevocationStore.unlifted (s : RevocationStore) (id : ID) : Bool :=
  (s.lastChange id).any (·.changeType = .created)

/-- The revocations in force for a tenant, as the log tells them. -/
def RevocationStore.inForce (s : RevocationStore) (tenantID : ID) (now : Int) : List Revocation :=
  (s.revocations.rows.filter fun r => visibleTo tenantID r.tenantID && r.effective now &&
    s.standing r.id).map RevocationRow.revocation

/-- Snapshots return the revocations in force, each once, for whichever agent they are asked. -/
structure ExactSnapshots (s : RevocationStore) : Prop where
  snapshot : ∀ tenantID now, tenantID.isZero = false → now.isZero = false → ∃ snapshot t,
    revocationEngine.run (revocationSnapshot tenantID now) s = .ok (snapshot, t) ∧
      snapshot.active.Perm (s.inForce tenantID now.stored)
  authoritative : ∀ tenantID agentID now, tenantID.isZero = false → now.isZero = false → ∃ epochs active t,
    revocationEngine.run (authoritativeRevocations tenantID agentID now) s = .ok ((epochs, active), t) ∧
      active.Perm (s.inForce tenantID now.stored)

theorem run_revocationSnapshot (s : RevocationStore) {tenantID : ID} {now : Time}
    (htenant : tenantID.isZero = false) (hnow : now.isZero = false) :
    revocationEngine.run (revocationSnapshot tenantID now) s =
      .ok (⟨(s.snapshotHead tenantID).1, (s.snapshotHead tenantID).2, s.active tenantID now.stored⟩, s) := by
  have hvalid : !tenantID.isZero ∧ !now.isZero := by simp [htenant, hnow]
  unfold revocationSnapshot Tx.require
  rw [if_pos hvalid]
  rfl

/-- The epochs that the authority compares for an agent; those of no agent are of all agents of the tenant. -/
def RevocationStore.authorityEpochs (s : RevocationStore) (tenantID agentID : ID) : EpochVector :=
  if agentID.isZero then (s.snapshotHead tenantID).2
  else { (s.snapshotHead tenantID).2 with
    agentRevocation := (s.agentEpochs.get (tenantID, agentID)).elim 0 AgentEpoch.revocationEpoch }

theorem run_authoritativeRevocations (s : RevocationStore) {tenantID : ID} (agentID : ID) {now : Time}
    (htenant : tenantID.isZero = false) (hnow : now.isZero = false) :
    revocationEngine.run (authoritativeRevocations tenantID agentID now) s =
      .ok ((s.authorityEpochs tenantID agentID, s.active tenantID now.stored), s) := by
  unfold authoritativeRevocations RevocationStore.authorityEpochs
  rw [bind_eq, run_bind, run_revocationSnapshot s htenant hnow]
  simp only [Except.bind]
  split_ifs <;> rfl

theorem active_perm (s : RevocationStore) (tenantID : ID) (now : Int) :
    (s.active tenantID now).Perm ((s.revocations.rows.filter fun r => visibleTo tenantID r.tenantID &&
      r.effective now && s.unlifted r.id).map RevocationRow.revocation) :=
  (perm_insertionSort _ _).map _

/-- Snapshots are exact when the latest changes by instant and by commit agree. -/
theorem exactSnapshots_of_agree (h : ∀ r ∈ s.revocations.rows, s.unlifted r.id = s.standing r.id) :
    ExactSnapshots s := by
  have hperm : ∀ tenantID now, (s.active tenantID now).Perm (s.inForce tenantID now) := by
    intro tenantID now
    refine (active_perm s tenantID now).trans (List.Perm.of_eq (congrArg _ ?_))
    exact filter_congr fun r hr => by rw [h r hr]
  refine ⟨fun tenantID now htenant hnow => ?_, fun tenantID agentID now htenant hnow => ?_⟩
  · exact ⟨_, _, run_revocationSnapshot s htenant hnow, hperm tenantID now.stored⟩
  · exact ⟨_, _, _, run_authoritativeRevocations s agentID htenant hnow, hperm tenantID now.stored⟩

/-- Where they do not agree, a snapshot of a tenant that may see the revocation is wrong. -/
theorem ExactSnapshots.agree (h : ExactSnapshots s) {tenantID : ID} {r : RevocationRow}
    (hr : r ∈ s.revocations.rows) (hcheck : r.check = true) (htenant : tenantID.isZero = false)
    (hvisible : visibleTo tenantID r.tenantID = true) (hunlifted : s.unlifted r.id = true) :
    s.standing r.id = true := by
  -- One nanosecond into the microsecond in which the revocation takes effect: never the zero value.
  have hnow : Time.isZero ⟨1000 * r.effectiveAt + 1, true⟩ = false := by
    simp only [Time.isZero, decide_eq_false_iff_not]
    omega
  have hstored : Time.stored ⟨1000 * r.effectiveAt + 1, true⟩ = r.effectiveAt := by
    simp only [Time.stored]
    omega
  have heffective : r.effective r.effectiveAt = true := by
    simp only [RevocationRow.check, Bool.and_eq_true] at hcheck
    simp [RevocationRow.effective, hcheck.2]
  obtain ⟨snapshot, t, hrun, hperm⟩ := h.snapshot tenantID _ htenant hnow
  rw [run_revocationSnapshot s htenant hnow, hstored] at hrun
  rw [hstored] at hperm
  cases hrun
  have hactive : r.revocation ∈ s.active tenantID r.effectiveAt :=
    (active_perm s tenantID r.effectiveAt).mem_iff.mpr (List.mem_map_of_mem (mem_filter.mpr
      ⟨hr, by simp [hvisible, heffective, hunlifted]⟩))
  obtain ⟨r', hr', hsame⟩ := List.mem_map.mp (hperm.mem_iff.mp hactive)
  have hid : r'.id = r.id := congrArg Revocation.id hsame
  have hstanding := (mem_filter.mp hr').2
  rw [hid] at hstanding
  simp only [Bool.and_eq_true] at hstanding
  exact hstanding.2

/-! ### Changes in the order of their dates -/

/-- The change is dated after those that are recorded for its revocation, ties by its identifier. -/
def RevocationCall.DatedLater (call : RevocationCall) (s : RevocationStore) : Prop :=
  ∀ c ∈ s.changesOf call.action.revocationID, c.changedAt < call.action.changedAt.stored ∨
    (c.changedAt = call.action.changedAt.stored ∧ ID.le c.id call.evidence.changeID)

instance (call : RevocationCall) (s : RevocationStore) : Decidable (call.DatedLater s) :=
  inferInstanceAs (Decidable (∀ _ ∈ _, _ ∨ _ ∧ _))

def RevocationCommit.DatedLater (c : RevocationCommit) : Prop :=
  ∀ call ∈ c.request.call, call.DatedLater c.before

instance (c : RevocationCommit) : Decidable (RevocationCommit.DatedLater c) :=
  inferInstanceAs (Decidable (∀ _ ∈ _, _))

theorem Concerns.id {tenantID : ID} {action : RevocationAction} {v : Revocation}
    (h : Concerns tenantID s v action) : v.id = action.revocationID := by
  cases h with
  | create => rfl
  | lift l r last hr _ _ _ hv =>
    rw [hv]
    exact Table.key_of_get (r := r) hr

section Change

variable {call : RevocationCall} {v : Revocation} {epochs : EpochVector}

theorem Changes.lastEntry (h : Changes call v epochs s t) (id : ID) :
    t.lastEntry id = if v.id = id then some (call.entry v epochs) else s.lastEntry id := by
  unfold RevocationStore.lastEntry
  rw [h.entries, Table.rows_put_of_none _ h.freshEntry, lastOf_concat]
  rfl

theorem Changes.mem_changesOf (h : Changes call v epochs s t) {id : ID} {c : RevocationChange} :
    c ∈ t.changesOf id ↔ c ∈ s.changesOf id ∨ (c = call.change v ∧ v.id = id) := by
  rw [RevocationStore.mem_changesOf, RevocationStore.mem_changesOf, h.changes,
    Table.rows_put_of_none _ h.freshChange, mem_append, mem_singleton, or_and_right]
  refine or_congr_right (and_congr_right fun hc => ?_)
  rw [hc]
  rfl

theorem Changes.lastChange_of_ne (h : Changes call v epochs s t) {id : ID} (hid : v.id ≠ id) :
    t.lastChange id = s.lastChange id :=
  head_insertionSort_congr (t.changesOf_antisymm id) fun c => by
    rw [h.mem_changesOf, or_iff_left fun hnew => hid hnew.2]

/-- A change that is dated later is the latest. -/
theorem Changes.lastChange_of_datedLater (h : Changes call v epochs s t) (hdated : call.DatedLater s) :
    t.lastChange v.id = some (call.change v) := by
  refine RevocationStore.lastChange_iff.mpr ⟨h.mem_changesOf.mpr (Or.inr ⟨rfl, rfl⟩), fun c hc => ?_⟩
  rcases h.mem_changesOf.mp hc with hc | ⟨rfl, _⟩
  · rw [h.concerns.id] at hc
    exact hdated c hc
  · exact (Std.Total.total (call.change v) (call.change v)).elim id id

theorem Changes.standing (h : Changes call v epochs s t) :
    t.standing v.id = decide (call.action.change = .created) := by
  unfold RevocationStore.standing
  rw [h.lastEntry, if_pos rfl]
  rfl

/-- A lift that is not dated later leaves what it lifts in force by the instants. -/
theorem Changes.unlifted_of_not_datedLater (href : References s) (h : Changes call v epochs s t)
    (hdated : ¬call.DatedLater s) : t.unlifted v.id = true ∧ t.standing v.id = false := by
  have hstanding := h.standing
  have hmem : ∀ {c}, c ∈ t.changesOf v.id ↔ c ∈ s.changesOf v.id ∨ (c = call.change v ∧ v.id = v.id) :=
    h.mem_changesOf
  unfold RevocationCall.DatedLater at hdated
  push Not at hdated
  obtain ⟨c, hc, hlater⟩ := hdated
  have hearlier : laterChange c (call.change v) := by
    refine (Std.Total.total c (call.change v)).resolve_right fun hnew => ?_
    rcases hnew with hnew | ⟨hsame, hid⟩
    · exact absurd hnew (Int.not_lt.mpr hlater.1)
    · exact hlater.2 hsame hid
  rw [← h.concerns.id] at hc
  obtain ⟨tenantID, action, evidence, sequence⟩ := call
  cases h.concerns with
  | create _ hfresh =>
    obtain ⟨hrow, hid⟩ := RevocationStore.mem_changesOf.mp hc
    obtain ⟨r, hr⟩ := href.changes c hrow
    rw [hid, hfresh] at hr
    cases hr
  | lift l r last hr _ hlast hactive hv =>
    obtain ⟨hlastMem, hlatest⟩ := RevocationStore.lastChange_iff.mp hlast
    have hid : l.revocationID = v.id := h.concerns.id.symm
    rw [hid] at hlastMem hlatest
    have hkept : t.lastChange v.id = some last := by
      refine RevocationStore.lastChange_iff.mpr ⟨hmem.mpr (Or.inl hlastMem), fun c' hc' => ?_⟩
      rcases hmem.mp hc' with hc' | ⟨rfl, _⟩
      · exact hlatest c' hc'
      · exact Trans.trans (hlatest c hc) hearlier
    refine ⟨?_, hstanding⟩
    unfold RevocationStore.unlifted
    rw [hkept]
    exact decide_eq_true hactive

end Change

/-! ### Runs -/

/-- By instant and by commit, the latest changes agree. -/
def SnapshotsAgree (s : RevocationStore) : Prop :=
  ∀ r ∈ s.revocations.rows, s.unlifted r.id = s.standing r.id

theorem SnapshotsAgree.step {request : RevocationRequest} {response : RevocationResponse}
    (hcommit : revocationEngine.Commits revocationProgram request response s t)
    (hdated : RevocationCommit.DatedLater ⟨request, response, s, t⟩) (hs : SnapshotsAgree s) :
    SnapshotsAgree t := by
  obtain ⟨held, hrevokes⟩ := revokes_of_commits hcommit
  cases hrevokes with
  | change call v epochs hrequest _ _ _ h =>
    intro r hr
    by_cases hid : v.id = r.id
    · rw [← hid, h.standing]
      unfold RevocationStore.unlifted
      rw [h.lastChange_of_datedLater (hdated call hrequest)]
      rfl
    · have hold : r ∈ s.revocations.rows := by
        rcases h.inserted r hr with hold | ⟨hnew, _⟩
        · exact hold
        · exact absurd hnew.symm hid
      unfold RevocationStore.unlifted RevocationStore.standing
      rw [h.lastChange_of_ne hid, h.lastEntry, if_neg hid]
      exact hs r hold
  | other _ _ hrevocations hchanges hentries =>
    intro r hr
    have hrow := hs r (hrevocations ▸ hr)
    simp only [RevocationStore.unlifted, RevocationStore.lastChange, RevocationStore.changesOf,
      RevocationStore.standing, RevocationStore.lastEntry, hchanges, hentries] at hrow ⊢
    exact hrow

/-- Snapshots are exact after every commit of a run just when every change is dated later than those
recorded for its revocation before it. -/
theorem snapshots_fold_log (h : RevocationReachable a) :
    ((∀ c ∈ a.1.log, ExactSnapshots c.after) ↔ ∀ c ∈ a.1.log, RevocationCommit.DatedLater c) ∧
      ((∀ c ∈ a.1.log, RevocationCommit.DatedLater c) → ExactSnapshots a.1.committed) := by
  have hagree := fun hdated : ∀ c ∈ a.1.log, RevocationCommit.DatedLater c =>
    h.history.invariant_where (P := SnapshotsAgree) (fun r hr => absurd hr not_mem_nil)
      (fun _ _ _ _ => SnapshotsAgree.step) hdated
  refine ⟨⟨fun hexact c hc call hcall => ?_, fun hdated c hc => ?_⟩,
    fun hdated => exactSnapshots_of_agree (hagree hdated).1⟩
  · have hreferences := (h.history.invariant references_initial fun _ _ _ _ => References.step).2 c hc
    obtain ⟨held, hrevokes⟩ := revokes_of_commits (h.history.commits hc)
    cases hrevokes with
    | change call' v epochs hrequest _ _ hvisible hchanges =>
      cases hcall.symm.trans hrequest
      by_contra hdated
      obtain ⟨hunlifted, hstanding⟩ := hchanges.unlifted_of_not_datedLater hreferences.1 hdated
      obtain ⟨r, hr, htenant, _⟩ := hchanges.changed
      have hid : r.id = v.id := Table.key_of_get hr
      have hrow := Table.mem_of_get hr
      rw [← hid] at hunlifted hstanding
      rw [(hexact c hc).agree hrow (hreferences.2.1.checked r hrow) hchanges.tenant (htenant ▸ hvisible)
        hunlifted] at hstanding
      cases hstanding
    | other hrequest => cases hcall.symm.trans hrequest
  · exact exactSnapshots_of_agree ((hagree hdated).2 c hc).2.1

namespace RevocationSample

/-- A principal is revoked at second 10, and the revocation is lifted by a change with another date. -/
def liftedAt (changed : Int) : List RevocationRequest :=
  [create 1 .principalID "principal-1" 10 1, lift 2 1 changed 2]

theorem liftedAt_dated : (∀ c ∈ (after (liftedAt 30)).1.log, RevocationCommit.DatedLater c) ∧
    (after (liftedAt 30)).1.committed.entries.rows.map RevocationEntry.changeType = [.created, .lifted] := by
  decide +kernel

theorem liftedAt_stands :
    (after (liftedAt 5)).1.committed.entries.rows.map RevocationEntry.changeType = [.created, .lifted] ∧
      ((after (liftedAt 5)).1.committed.active tenant (instant 50).stored).map Revocation.id = [.ofNat 701] ∧
      (after (liftedAt 5)).1.committed.inForce tenant (instant 50).stored = [] := by
  decide +kernel

end RevocationSample

theorem snapshots_fold_log_lifted :
    ExactSnapshots (after (liftedAt 30)).1.committed ∧
      (after (liftedAt 30)).1.committed.entries.rows.map
        RevocationEntry.changeType = [.created, .lifted] :=
  ⟨(snapshots_fold_log (reachable _)).2 liftedAt_dated.1,
    liftedAt_dated.2⟩

/-- The lift of a revocation is committed with an instant before its creation, and the revocation stays
active. -/
theorem lifted_revocation_active :
    (after (liftedAt 5)).1.committed.entries.rows.map
        RevocationEntry.changeType = [.created, .lifted] ∧
      ¬ExactSnapshots (after (liftedAt 5)).1.committed := by
  obtain ⟨hlifted, hactive, hnone⟩ := liftedAt_stands
  refine ⟨hlifted, fun hexact => ?_⟩
  obtain ⟨snapshot, t, hrun, hperm⟩ :=
    hexact.snapshot tenant (instant 50) (by decide) (by decide)
  rw [run_revocationSnapshot _ (by decide) (by decide)] at hrun
  cases hrun
  rw [hnone] at hperm
  have hempty := hperm.eq_nil
  dsimp only at hempty
  rw [hempty] at hactive
  cases hactive

end AgentGovernor
