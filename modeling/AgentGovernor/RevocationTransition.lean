import AgentGovernor.LedgerOrder
import AgentGovernor.RevocationSystem

/-! What the commits of the revocation tables do: a change of a revocation, told by the row it is about and
the rows it appends, or something else, which leaves revocations, their changes and the log alone. -/

namespace AgentGovernor

open Ledger Table Handle Transaction Engine

variable {held held' : List RevocationLock} {s t : RevocationStore}

/-! ### The latest change -/

instance : Std.Total laterChange where
  total c c' := by
    have htotal := Nat.le_total c'.id.bits.toNat c.id.bits.toNat
    rcases Int.lt_trichotomy c'.changedAt c.changedAt with hlt | heq | hgt
    · exact Or.inl (Or.inl hlt)
    · exact htotal.imp (fun h => Or.inr ⟨heq, h⟩) (fun h => Or.inr ⟨heq.symm, h⟩)
    · exact Or.inr (Or.inl hgt)

instance : IsTrans RevocationChange laterChange where
  trans c c' c'' := by
    unfold laterChange ID.le
    omega

theorem laterChange_antisymm (c c' : RevocationChange) (h : laterChange c c') (h' : laterChange c' c) :
    c.changedAt = c'.changedAt ∧ c.id = c'.id := by
  unfold laterChange at h h'
  have hid : ID.le c'.id c.id ∧ ID.le c.id c'.id := by
    constructor
    · rcases h with h | ⟨_, h⟩
      · omega
      · exact h
    · rcases h' with h' | ⟨_, h'⟩
      · omega
      · exact h'
  exact ⟨by omega, ID.le_antisymm hid.2 hid.1⟩

variable {id : ID}

variable {c : RevocationChange}

theorem RevocationStore.mem_changesOf :
    c ∈ s.changesOf id ↔ c ∈ s.changes.rows ∧ c.revocationID = id := by
  simp [RevocationStore.changesOf]

theorem RevocationStore.changesOf_antisymm (s : RevocationStore) (id : ID) :
    ∀ c ∈ s.changesOf id, ∀ c' ∈ s.changesOf id, laterChange c c' → laterChange c' c → c = c' :=
  fun c hc c' hc' h h' => s.changes.eq_of_key_eq (RevocationStore.mem_changesOf.mp hc).1
    (RevocationStore.mem_changesOf.mp hc').1 (laterChange_antisymm c c' h h').2

theorem RevocationStore.lastChange_iff :
    s.lastChange id = some c ↔ c ∈ s.changesOf id ∧ ∀ c' ∈ s.changesOf id, laterChange c c' :=
  head_insertionSort_iff (s.changesOf_antisymm id)

/-- Whoever has the revocation reads its latest change as it is at the commit. -/
theorem lastChange_of_interference {seen : RevocationStore}
    (hheld : RevocationLock.revocation id ∈ held) (h : revocationEngine.Interference held seen s) :
    seen.lastChange id = s.lastChange id := by
  refine head_insertionSort_congr (seen.changesOf_antisymm id) fun c => ?_
  rw [RevocationStore.mem_changesOf, RevocationStore.mem_changesOf]
  refine and_congr_left fun hid => (mem_iff_of_interference (H := RevocationTables.changes) ?_ h).symm
  exact ⟨.revocation c.revocationID, by simp [updateLocks], .revocation id, hheld, by rw [hid]; rfl⟩

/-! ### Changes of revocations -/

/-- The revocation that a change is about, as the database has it before the change. -/
inductive Concerns (tenantID : ID) (s : RevocationStore) (v : Revocation) : RevocationAction → Prop where
  | create (hcheck : v.row.check = true) (hfresh : s.revocations.get v.id = none) :
      Concerns tenantID s v (.create v)
  | lift (l : RevocationLift) (r : RevocationRow) (last : RevocationChange)
      (hr : s.revocations.get l.revocationID = some r) (hvisible : visibleTo tenantID r.tenantID = true)
      (hlast : s.lastChange l.revocationID = some last) (hactive : last.changeType = .created)
      (hv : v = { r.revocation with actorPrincipalID := l.actorPrincipalID }) :
      Concerns tenantID s v (.lift l)

variable {action : RevocationAction} {tenantID : ID} {v : Revocation}

/-- Only revocations that the tenant may see are changed. -/
theorem Concerns.visible
    (h : Concerns tenantID s v action)
    (hown : ∀ v', action = .create v' → v'.scope = .global ∨ v'.tenantID = some tenantID) :
    visibleTo tenantID v.tenantID = true := by
  cases h with
  | create hcheck =>
    rcases hown v rfl with hglobal | howner
    · simp only [RevocationRow.check, Revocation.row, hglobal, Bool.and_eq_true, decide_eq_true_eq] at hcheck
      rw [Option.isNone_iff_eq_none.mp hcheck.1.symm]
      rfl
    · simp [howner, visibleTo]
  | lift l r last hr hvisible _ _ hv =>
    rw [hv]
    exact hvisible

/-- A created revocation is inserted, a lifted one stays as it is. -/
def RevocationAction.inserted (action : RevocationAction) (v : Revocation) (s : RevocationStore) :
    RevocationStore :=
  match action with
  | .create _ => Schema.Database.put s .revocations v.row
  | .lift _ => s

/-- The revocation names the agent, or a version that is looked up. -/
def Revocation.NamesAgent (v : Revocation) (agentID : ID) : Prop :=
  (v.scope = .agentID ∧ parseID v.target = some agentID) ∨ v.scope = .agentVersion

/-- The epochs that a change of a revocation advances. -/
structure AdvancesEpochs (v : Revocation) (epochs : EpochVector) (s t : RevocationStore) : Prop where
  security : Table.Advances SecurityEpoch.securityEpoch () epochs.security s.securityEpochs t.securityEpochs
  global : v.tenantID = none → t.tenantEpochs = s.tenantEpochs
  tenant : ∀ owner, v.tenantID = some owner →
    Table.Advances TenantEpoch.revocationEpoch owner epochs.tenantRevocation s.tenantEpochs t.tenantEpochs
  policy : ∀ owner, v.tenantID = some owner →
    t.tenantEpochs.column TenantEpoch.policyEpoch owner = epochs.tenantPolicy ∧
      ∀ k, s.tenantEpochs.column TenantEpoch.policyEpoch k ≤ t.tenantEpochs.column TenantEpoch.policyEpoch k
  agent : (epochs.agentRevocation = 0 ∧ t.agentEpochs = s.agentEpochs ∧
      (v.tenantID = none ∨ ∀ agentID, ¬v.NamesAgent agentID)) ∨
    ∃ owner agentID, v.tenantID = some owner ∧ v.NamesAgent agentID ∧
      Table.Advances AgentEpoch.revocationEpoch (owner, agentID) epochs.agentRevocation s.agentEpochs
        t.agentEpochs

/-- What `changeRevocation` is called with, after validation. -/
structure RevocationCall where
  tenantID : ID
  action : RevocationAction
  evidence : RevocationEvidence
  sequence : Int
  deriving DecidableEq

namespace RevocationCall

def change (call : RevocationCall) (v : Revocation) : RevocationChange :=
  changeRow call.action v call.evidence

def entry (call : RevocationCall) (v : Revocation) (epochs : EpochVector) : RevocationEntry :=
  logEntry call.action v call.evidence epochs call.sequence

end RevocationCall

/-- What a committed change of a revocation has done. -/
structure Changes (call : RevocationCall) (v : Revocation) (epochs : EpochVector) (s t : RevocationStore) :
    Prop where
  tenant : call.tenantID.isZero = false
  concerns : Concerns call.tenantID s v call.action
  revocations : t.revocations = (call.action.inserted v s).revocations
  freshChange : s.changes.get call.evidence.changeID = none
  changes : t.changes = s.changes.put (call.change v)
  advances : AdvancesEpochs v epochs s t
  freshEntry : s.entries.get call.sequence = none
  entries : t.entries = s.entries.put (call.entry v epochs)
  approvals : t.approvals = s.approvals
  outcomes : t.outcomes = s.outcomes
  consumptions : t.consumptions = s.consumptions

theorem exec_changedRevocation
    (h : revocationEngine.Exec (changedRevocation tenantID action) held s v held' t) :
    Concerns tenantID s v action ∧ t = action.inserted v s := by
  cases action with
  | create v' =>
    obtain ⟨_, _, _, hinsert, rfl, _, rfl⟩ := exec_bind.mp h
    obtain ⟨hcheck, h₁⟩ := exec_bind_require.mp hinsert
    obtain ⟨hfresh, _, rfl⟩ := exec_insert.mp h₁
    exact ⟨.create hcheck (get_eq_none_iff.mpr fun r hr => of_decide_eq_false (hfresh r hr)), rfl⟩
  | lift l =>
    obtain ⟨r, _, _, hlock, h₁⟩ := exec_bind.mp h
    obtain ⟨_, hr, hown, rfl, rfl⟩ := exec_lock.mp hlock
    split_ifs at hown with hother
    cases hown
    obtain ⟨_, _, _, hactive, rfl, _, rfl⟩ := exec_bind.mp h₁
    obtain ⟨_, ⟨seen, hseen, rfl⟩, h₂⟩ := exec_bind_snapshot.mp hactive
    obtain ⟨last, hsome, h₃⟩ := exec_bind_orThrow.mp h₂
    obtain ⟨hcreated, _, rfl⟩ := exec_require.mp h₃
    rw [lastChange_of_interference List.mem_cons_self hseen] at hsome
    have hvisible : visibleTo tenantID r.tenantID = true := by
      cases howner : r.tenantID with
      | none => rfl
      | some owner => simpa [visibleTo, howner] using hother
    exact ⟨.lift l r last hr hvisible hsome hcreated rfl, rfl⟩

variable {owner : ID}

variable {policy : Bool} {r : TenantEpoch} {tenants : Table TenantEpoch.tenantID}

theorem revocationEpoch_of_advancedTenant
    (h : advancedTenant owner policy (tenants.get owner) = .ok r) :
    Table.Advances TenantEpoch.revocationEpoch owner r.revocationEpoch tenants (tenants.put r) := by
  have hkey : r.tenantID = owner := tenantID_of_advancedTenant (fun r' hr' => key_of_get hr') h
  have hadvance : r.revocationEpoch = tenants.column TenantEpoch.revocationEpoch owner + 1 := by
    cases hold : tenants.get owner with
    | none =>
      rw [hold] at h
      cases h
      rw [column_of_none hold]
      rfl
    | some old =>
      rw [hold] at h
      rw [column_of_get hold]
      simp only [advancedTenant] at h
      split_ifs at h <;> cases h <;> rfl
  rw [← hkey] at hadvance ⊢
  exact Table.Advances.of_put hadvance

/-- A change keeps the policy epoch or takes it one on. -/
theorem policyEpoch_of_advancedTenant
    (h : advancedTenant owner policy (tenants.get owner) = .ok r) :
    (tenants.put r).column TenantEpoch.policyEpoch owner = r.policyEpoch ∧
      ∀ k, tenants.column TenantEpoch.policyEpoch k ≤ (tenants.put r).column TenantEpoch.policyEpoch k := by
  have hkey : r.tenantID = owner := tenantID_of_advancedTenant (fun r' hr' => key_of_get hr') h
  have hle : tenants.column TenantEpoch.policyEpoch owner ≤ r.policyEpoch := by
    cases hold : tenants.get owner with
    | none =>
      rw [hold] at h
      cases h
      rw [column_of_none hold]
      cases policy
      · exact Int.le_refl _
      · exact Int.zero_le_ofNat 1
    | some old =>
      rw [hold] at h
      rw [column_of_get hold]
      simp only [advancedTenant] at h
      split_ifs at h
      · cases h
        exact Int.le_of_lt (Int.lt_succ _)
      · cases h
        exact Int.le_refl _
  subst hkey
  refine ⟨by rw [column_put, if_pos rfl], fun k => ?_⟩
  rw [column_put]
  split_ifs with hk
  · rw [hk]
    exact hle
  · exact Int.le_refl _

theorem revocationEpoch_of_advancedAgent {agentID : ID} {r : AgentEpoch}
    {agents : Table AgentEpoch.key} (h : advancedAgent owner agentID (agents.get (owner, agentID)) = .ok r) :
    Table.Advances AgentEpoch.revocationEpoch (owner, agentID) r.revocationEpoch agents (agents.put r) := by
  have hkey : r.key = (owner, agentID) := key_of_advancedAgent (fun r' hr' => key_of_get hr') h
  have hadvance : r.revocationEpoch = agents.column AgentEpoch.revocationEpoch (owner, agentID) + 1 := by
    cases hold : agents.get (owner, agentID) with
    | none =>
      rw [hold] at h
      cases h
      rw [column_of_none hold]
      rfl
    | some old =>
      rw [hold] at h
      rw [column_of_get hold]
      simp only [advancedAgent] at h
      split_ifs at h
      cases h
      rfl
  rw [← hkey] at hadvance ⊢
  exact Table.Advances.of_put hadvance

variable {found : ID}

theorem exec_revokedAgent {agent : Option ID}
    (h : revocationEngine.Exec (revokedAgent v tenantID found) held s agent held' t) :
    t = s ∧ (∀ agentID, agent = some agentID → v.NamesAgent agentID) ∧
      (agent = none → ∀ agentID, ¬v.NamesAgent agentID) := by
  unfold revokedAgent at h
  split at h
  · rename_i hscope
    split_ifs at h with htarget
    · obtain ⟨rfl, _, rfl⟩ := h
      refine ⟨rfl, nofun, fun _ agentID hnames => ?_⟩
      rcases hnames with ⟨_, hparsed⟩ | hversion
      · rw [htarget] at hparsed
        cases hparsed
      · rw [hscope] at hversion
        cases hversion
    · obtain ⟨_, _, _, hsome, rfl, _, rfl⟩ := exec_bind.mp h
      obtain ⟨hparsed, _, rfl⟩ := exec_orThrow.mp hsome
      refine ⟨rfl, fun agentID hagent => Or.inl ⟨hscope, ?_⟩, nofun⟩
      cases hagent
      exact hparsed
  · rename_i hscope
    obtain ⟨_, _, h₁⟩ := exec_bind_snapshot.mp h
    obtain ⟨_, _, _, hsome, rfl, _, rfl⟩ := exec_bind.mp h₁
    obtain ⟨_, _, rfl⟩ := exec_orThrow.mp hsome
    exact ⟨rfl, fun _ _ => Or.inr hscope, nofun⟩
  · rename_i hnotAgent hnotVersion
    obtain ⟨rfl, _, rfl⟩ := h
    exact ⟨rfl, nofun, fun _ _ hnames => hnames.elim (fun h => hnotAgent h.1) hnotVersion⟩

/-- The rows that the epochs of a change are kept in. -/
inductive WritesEpochs (v : Revocation) (epochs : EpochVector) (s : RevocationStore) :
    RevocationStore → Prop where
  | global (hglobal : v.tenantID = none) (hagent : epochs.agentRevocation = 0) :
      WritesEpochs v epochs s (Schema.Database.put s .securityEpochs (⟨epochs.security⟩ : SecurityEpoch))
  | tenant (owner : ID) (r : TenantEpoch) (howner : v.tenantID = some owner)
      (hr : advancedTenant owner v.scope.advancesPolicy (s.tenantEpochs.get owner) = .ok r)
      (hepoch : epochs.tenantRevocation = r.revocationEpoch) (hpolicy : epochs.tenantPolicy = r.policyEpoch)
      (hagent : epochs.agentRevocation = 0) (hnames : ∀ agentID, ¬v.NamesAgent agentID) :
      WritesEpochs v epochs s (Schema.Database.put
        (Schema.Database.put s .securityEpochs (⟨epochs.security⟩ : SecurityEpoch)) .tenantEpochs r)
  | agent (owner agentID : ID) (r : TenantEpoch) (a : AgentEpoch) (howner : v.tenantID = some owner)
      (hr : advancedTenant owner v.scope.advancesPolicy (s.tenantEpochs.get owner) = .ok r)
      (hepoch : epochs.tenantRevocation = r.revocationEpoch) (hpolicy : epochs.tenantPolicy = r.policyEpoch)
      (hnames : v.NamesAgent agentID)
      (ha : advancedAgent owner agentID (s.agentEpochs.get (owner, agentID)) = .ok a)
      (hagent : epochs.agentRevocation = a.revocationEpoch) :
      WritesEpochs v epochs s (Schema.Database.put (Schema.Database.put
        (Schema.Database.put s .securityEpochs (⟨epochs.security⟩ : SecurityEpoch)) .tenantEpochs r)
          .agentEpochs a)

variable {epochs : EpochVector}

theorem exec_incrementRevocationEpochs
    (h : revocationEngine.Exec (incrementRevocationEpochs v found) held s epochs held' t) :
    epochs.security = s.securityEpochs.column SecurityEpoch.securityEpoch () + 1 ∧
      WritesEpochs v epochs s t := by
  obtain ⟨_, _, _, hsecurity, h₁⟩ := exec_bind.mp h
  obtain ⟨old, r, hold, hr, _, rfl⟩ := exec_update.mp hsecurity
  split_ifs at hr with hbound
  cases hr
  have hnext : old.securityEpoch + 1 = s.securityEpochs.column SecurityEpoch.securityEpoch () + 1 := by
    rw [show s.securityEpochs.column SecurityEpoch.securityEpoch () = old.securityEpoch from
      column_of_get hold]
  cases howner : v.tenantID with
  | none =>
    rw [howner] at h₁
    obtain ⟨rfl, _, rfl⟩ := h₁
    exact ⟨hnext, .global howner rfl⟩
  | some owner =>
    rw [howner] at h₁
    obtain ⟨row, _, _, htenant, h₂⟩ := exec_bind.mp h₁
    obtain ⟨_, hrow, _, rfl⟩ := exec_upsert.mp htenant
    obtain ⟨row', hadvanced, hpair⟩ := map_eq_ok.mp hrow
    cases hpair
    obtain ⟨agent, _, _, hagent, h₃⟩ := exec_bind.mp h₂
    obtain ⟨rfl, hnames, hnone⟩ := exec_revokedAgent hagent
    cases agent with
    | none =>
      obtain ⟨rfl, _, rfl⟩ := h₃
      exact ⟨hnext, .tenant owner row howner hadvanced rfl rfl rfl (hnone rfl)⟩
    | some agentID =>
      obtain ⟨epoch, _, _, hepoch, rfl, _, rfl⟩ := exec_bind.mp h₃
      obtain ⟨a, ha, _, rfl⟩ := exec_upsert.mp hepoch.vetted
      obtain ⟨a', ha', hpair⟩ := map_eq_ok.mp ha
      cases hpair
      exact ⟨hnext, .agent owner agentID row a howner hadvanced rfl rfl (hnames agentID rfl) ha' rfl⟩

theorem WritesEpochs.advances
    (hsecurity : epochs.security = s.securityEpochs.column SecurityEpoch.securityEpoch () + 1)
    (h : WritesEpochs v epochs s t) : AdvancesEpochs v epochs s t := by
  have hadvance : Table.Advances SecurityEpoch.securityEpoch () epochs.security s.securityEpochs
      (s.securityEpochs.put ⟨epochs.security⟩) :=
    Table.Advances.of_put (r := (⟨epochs.security⟩ : SecurityEpoch)) hsecurity
  cases h with
  | global hglobal hagent =>
    have hnobody : ∀ {owner}, v.tenantID ≠ some owner := fun howner => by
      rw [hglobal] at howner
      cases howner
    exact ⟨hadvance, fun _ => rfl, fun _ howner => absurd howner hnobody,
      fun _ howner => absurd howner hnobody, Or.inl ⟨hagent, rfl, Or.inl hglobal⟩⟩
  | tenant owner r howner hr hepoch hpolicy hagent hnames =>
    refine ⟨hadvance, fun hglobal => ?_, fun owner' howner' => ?_, fun owner' howner' => ?_,
      Or.inl ⟨hagent, rfl, Or.inr hnames⟩⟩
    · rw [hglobal] at howner
      cases howner
    · rw [howner] at howner'
      cases howner'
      rw [hepoch]
      exact revocationEpoch_of_advancedTenant hr
    · rw [howner] at howner'
      cases howner'
      rw [hpolicy]
      exact policyEpoch_of_advancedTenant hr
  | agent owner agentID r a howner hr hepoch hpolicy hnames ha hagent =>
    refine ⟨hadvance, fun hglobal => ?_, fun owner' howner' => ?_, fun owner' howner' => ?_,
      Or.inr ⟨owner, agentID, howner, hnames, ?_⟩⟩
    · rw [hglobal] at howner
      cases howner
    · rw [howner] at howner'
      cases howner'
      rw [hepoch]
      exact revocationEpoch_of_advancedTenant hr
    · rw [howner] at howner'
      cases howner'
      rw [hpolicy]
      exact policyEpoch_of_advancedTenant hr
    · rw [hagent]
      exact revocationEpoch_of_advancedAgent ha

theorem WritesEpochs.frame (h : WritesEpochs v epochs s t) :
    t.revocations = s.revocations ∧ t.changes = s.changes ∧ t.entries = s.entries ∧
      t.approvals = s.approvals ∧ t.outcomes = s.outcomes ∧ t.consumptions = s.consumptions := by
  cases h <;> exact ⟨rfl, rfl, rfl, rfl, rfl, rfl⟩

variable {e : RevocationEvidence} {sequence : Int} {u : Unit}

theorem exec_insertEvidence
    (h : revocationEngine.Exec (insertEvidence tenantID action v e epochs sequence) held s u held' t) :
    ∃ audit message, t = Schema.Database.put (Schema.Database.put s .audits audit) .messages message := by
  obtain ⟨_, _, _, haudit, hmessage⟩ := exec_bind.mp h
  obtain ⟨_, _, rfl⟩ := exec_insert.mp haudit
  obtain ⟨_, _, rfl⟩ := exec_insert.mp hmessage
  exact ⟨_, _, rfl⟩

theorem exec_changeRevocation
    {result : RevocationResult}
    (h : revocationEngine.Exec (changeRevocation tenantID action e sequence found) held s result held' t) :
    result.state = action.change ∧ result.sequence = sequence ∧ RevocationLock.sequence sequence ∈ held' ∧
      Changes ⟨tenantID, action, e, sequence⟩ result.revocation result.epochs s t := by
  obtain ⟨hset, h₁⟩ := exec_bind_require.mp h
  obtain ⟨v, _, s₁, hchanged, h₃⟩ := exec_bind.mp h₁.checked
  obtain ⟨hconcerns, hs₁⟩ := exec_changedRevocation hchanged
  obtain ⟨_, _, _, hchange, h₄⟩ := exec_bind.mp h₃
  obtain ⟨hfreshChange, _, rfl⟩ := exec_insert.mp hchange
  obtain ⟨epochs, _, s₂, hepochs, h₅⟩ := exec_bind.mp h₄
  obtain ⟨hsecurity, hwrites⟩ := exec_incrementRevocationEpochs hepochs
  obtain ⟨_, _, _, hentry, h₆⟩ := exec_bind.mp h₅
  obtain ⟨hfreshEntry, rfl, rfl⟩ := exec_insert.mp hentry
  obtain ⟨_, _, _, hlast, rfl, rfl, rfl⟩ := exec_bind.mp h₆
  obtain ⟨audit, message, rfl⟩ := exec_insertEvidence hlast
  obtain ⟨hrevocations, hchanges, hentries, happrovals, houtcomes, hconsumptions⟩ := hwrites.frame
  have hadvances := hwrites.advances hsecurity
  have hnone : s₂.entries.get sequence = none := get_eq_none_iff.mpr fun r hr hsequence => by
    have hclash := hfreshEntry r hr
    simp [logEntry, hsequence] at hclash
  refine ⟨rfl, rfl, exec_subset hlast (by simp [logEntry]), ?_⟩
  have hfresh : s₁.changes.get e.changeID = none :=
    get_eq_none_iff.mpr fun r hr => of_decide_eq_false (hfreshChange r hr)
  subst hs₁
  -- The epochs are other tables than those written before and after them.
  have hput : s₂.entries.put (logEntry action v e epochs sequence) =
      s.entries.put (logEntry action v e epochs sequence) := by
    rw [hentries]
    cases action <;> rfl
  cases action with
  | create v' =>
    exact ⟨by simpa using hset, hconcerns, hrevocations, hfresh, hchanges,
      ⟨hadvances.security, hadvances.global, hadvances.tenant, hadvances.policy, hadvances.agent⟩, hentries ▸ hnone, hput,
      happrovals, houtcomes, hconsumptions⟩
  | lift l =>
    exact ⟨by simpa using hset, hconcerns, hrevocations, hfresh, hchanges,
      ⟨hadvances.security, hadvances.global, hadvances.tenant, hadvances.policy, hadvances.agent⟩, hentries ▸ hnone, hput,
      happrovals, houtcomes, hconsumptions⟩

/-! ### Transitions -/

/-- What a request asks to change, once it is validated. -/
def RevocationRequest.call : RevocationRequest → Option RevocationCall
  | .create tenantID v e sequence _ =>
    (validateRevocation v).toOption.map fun v => ⟨tenantID, .create v, e, sequence⟩
  | .lift tenantID l e sequence _ =>
    (validateRevocationLift l).toOption.map fun l => ⟨tenantID, .lift l, e, sequence⟩
  | _ => none

/-- A commit changes a revocation, or leaves the revocations, their changes, the log and the revocation
epochs as they are. -/
inductive Revokes (request : RevocationRequest) (response : RevocationResponse) (held : List RevocationLock)
    (s t : RevocationStore) : Prop where
  | change (call : RevocationCall) (v : Revocation) (epochs : EpochVector)
      (hrequest : request.call = some call)
      (hresponse : response = .changed ⟨v, call.action.change, call.sequence, epochs⟩)
      (hheld : RevocationLock.sequence call.sequence ∈ held)
      (hvisible : visibleTo call.tenantID v.tenantID = true) (h : Changes call v epochs s t)
  | other (hrequest : request.call = none) (hresponse : ∀ result, response ≠ .changed result)
      (hrevocations : t.revocations = s.revocations) (hchanges : t.changes = s.changes)
      (hentries : t.entries = s.entries) (hsecurity : t.securityEpochs = s.securityEpochs)
      (htenants : ∀ k, t.tenantEpochs.column TenantEpoch.revocationEpoch k =
        s.tenantEpochs.column TenantEpoch.revocationEpoch k)
      (hagents : t.agentEpochs = s.agentEpochs)
      (hpolicies : ∀ k, s.tenantEpochs.column TenantEpoch.policyEpoch k ≤
        t.tenantEpochs.column TenantEpoch.policyEpoch k)

theorem exec_activatePolicy
    (h : revocationEngine.Exec (activatePolicy tenantID) held s u held' t) :
    ∃ r : TenantEpoch, r.revocationEpoch = s.tenantEpochs.column TenantEpoch.revocationEpoch r.tenantID ∧
      s.tenantEpochs.column TenantEpoch.policyEpoch r.tenantID ≤ r.policyEpoch ∧
      t = Schema.Database.put s .tenantEpochs r := by
  obtain ⟨r, hr, _, rfl⟩ := exec_upsert.mp h
  suffices hrow : r.revocationEpoch = s.tenantEpochs.column TenantEpoch.revocationEpoch r.tenantID ∧
      s.tenantEpochs.column TenantEpoch.policyEpoch r.tenantID ≤ r.policyEpoch from
    ⟨r, hrow.1, hrow.2, rfl⟩
  cases hold : s.tenantEpochs.get tenantID with
  | none =>
    rw [show (RevocationTables.tenantEpochs.table s).get tenantID = none from hold] at hr
    cases hr
    rw [column_of_none hold, column_of_none hold]
    exact ⟨rfl, Int.zero_le_ofNat 1⟩
  | some old =>
    rw [show (RevocationTables.tenantEpochs.table s).get tenantID = some old from hold] at hr
    dsimp only at hr
    split_ifs at hr
    cases hr
    rw [← key_of_get hold] at hold
    rw [column_of_get hold, column_of_get hold]
    exact ⟨rfl, Int.le_of_lt (Int.lt_succ _)⟩

variable {response : RevocationResponse}

theorem exec_answered {α : Type} {p : RevocationOp α} {f : α → RevocationResponse}
    (h : revocationEngine.Exec (p.bind fun a => .pure (f a)) held s response held' t) :
    ∃ a, revocationEngine.Exec p held s a held' t ∧ response = f a := by
  obtain ⟨a, _, _, hp, rfl, rfl, rfl⟩ := exec_bind.mp h
  exact ⟨a, hp, rfl⟩

theorem exec_revocationProgram {request : RevocationRequest}
    (h : revocationEngine.Exec (revocationProgram request) held s response held' t) :
    Revokes request response held' s t := by
  cases request with
  | registerAgent tenantID id =>
    obtain ⟨_, hinsert, rfl⟩ := exec_answered h
    obtain ⟨_, _, rfl⟩ := exec_insert.mp hinsert
    exact .other rfl (fun _ h => by cases h) rfl rfl rfl rfl (fun _ => rfl) rfl fun _ => Int.le_refl _
  | registerVersion id tenantID agentID digest =>
    obtain ⟨_, hregister, rfl⟩ := exec_answered h
    obtain ⟨_, _, h₁⟩ := exec_bind_snapshot.mp hregister
    obtain ⟨_, h₂⟩ := exec_bind_require.mp h₁
    obtain ⟨_, _, rfl⟩ := exec_insert.mp h₂
    exact .other rfl (fun _ h => by cases h) rfl rfl rfl rfl (fun _ => rfl) rfl fun _ => Int.le_refl _
  | activatePolicy tenantID =>
    obtain ⟨_, hactivate, rfl⟩ := exec_answered h
    obtain ⟨r, hr, hpolicy, rfl⟩ := exec_activatePolicy hactivate
    refine .other rfl (fun _ h => by cases h) rfl rfl rfl rfl (fun k => ?_) rfl fun k => ?_
    · show (s.tenantEpochs.put r).column TenantEpoch.revocationEpoch k = _
      rw [column_put]
      split_ifs with hk
      · rw [hk, hr]
      · rfl
    · show _ ≤ (s.tenantEpochs.put r).column TenantEpoch.policyEpoch k
      rw [column_put]
      split_ifs with hk
      · rw [hk]
        exact hpolicy
      · exact Int.le_refl _
  | create tenantID v e sequence found =>
    obtain ⟨result, hcreate, hresponse⟩ := exec_answered h
    obtain ⟨v', hvalid, h₁⟩ := exec_bind_ofExcept.mp hcreate
    obtain ⟨hown, h₂⟩ := exec_bind_require.mp h₁
    obtain ⟨hstate, hsequence, hheld, hchanges⟩ := exec_changeRevocation h₂
    refine .change ⟨tenantID, .create v', e, sequence⟩ result.revocation result.epochs ?_ ?_ hheld
      (hchanges.concerns.visible fun _ hv => RevocationAction.create.inj hv ▸ hown) hchanges
    · simp only [RevocationRequest.call, hvalid]
      rfl
    · rw [hresponse, ← hstate, ← hsequence]
  | lift tenantID l e sequence found =>
    obtain ⟨result, hlift, hresponse⟩ := exec_answered h
    obtain ⟨l', hvalid, h₁⟩ := exec_bind_ofExcept.mp hlift
    obtain ⟨_, h₂⟩ := exec_bind_require.mp h₁
    obtain ⟨hstate, hsequence, hheld, hchanges⟩ := exec_changeRevocation h₂
    refine .change ⟨tenantID, .lift l', e, sequence⟩ result.revocation result.epochs ?_ ?_ hheld
      (hchanges.concerns.visible fun _ h => by cases h) hchanges
    · simp only [RevocationRequest.call, hvalid]
      rfl
    · rw [hresponse, ← hstate, ← hsequence]
  | requestApproval tenantID a =>
    obtain ⟨_, hrequest, rfl⟩ := exec_answered h
    obtain ⟨_, h₁⟩ := exec_bind_require.mp hrequest
    obtain ⟨_, h₂⟩ := exec_bind_require.mp h₁
    obtain ⟨_, _, h₃⟩ := exec_bind_ofExcept.mp h₂
    obtain ⟨_, h₄⟩ := exec_bind_require.mp h₃
    obtain ⟨_, _, rfl⟩ := exec_insert.mp h₄
    exact .other rfl (fun _ h => by cases h) rfl rfl rfl rfl (fun _ => rfl) rfl fun _ => Int.le_refl _
  | decideApproval tenantID a =>
    obtain ⟨_, hdecide, rfl⟩ := exec_answered h
    obtain ⟨_, h₁⟩ := exec_bind_require.mp hdecide
    obtain ⟨_, h₂⟩ := exec_bind_require.mp h₁
    obtain ⟨_, _, h₃⟩ := exec_bind_ofExcept.mp h₂
    obtain ⟨_, _, h₄⟩ := exec_bind_snapshot.mp h₃
    obtain ⟨_, h₅⟩ := exec_bind_require.mp h₄
    obtain ⟨_, _, rfl⟩ := exec_insert.mp h₅
    exact .other rfl (fun _ h => by cases h) rfl rfl rfl rfl (fun _ => rfl) rfl fun _ => Int.le_refl _
  | consumeApproval tenantID id digest consumedAt =>
    obtain ⟨_, hconsume, rfl⟩ := exec_answered h
    obtain ⟨_, _, _, hlock, h₂⟩ := exec_bind.mp hconsume.checked
    obtain ⟨_, _, _, hrequest, h₃⟩ := exec_bind.mp hlock
    obtain ⟨_, _, _, rfl, rfl⟩ := exec_lock.mp hrequest
    obtain ⟨_, _, h₄⟩ := exec_bind_snapshot.mp h₃
    obtain ⟨_, _, h₅⟩ := exec_bind_snapshot.mp h₄
    obtain ⟨_, _, _, hstored, rfl, rfl, rfl⟩ := exec_bind.mp h₅
    obtain ⟨_, rfl, rfl⟩ := exec_ofExcept.mp hstored
    obtain ⟨_, _, h₆⟩ := exec_bind_ofExcept.mp h₂
    obtain ⟨_, _, _, hinsert, rfl, rfl, rfl⟩ := exec_bind.mp h₆
    obtain ⟨_, _, rfl⟩ := exec_insert.mp hinsert
    exact .other rfl (fun _ h => by cases h) rfl rfl rfl rfl (fun _ => rfl) rfl fun _ => Int.le_refl _

end AgentGovernor
