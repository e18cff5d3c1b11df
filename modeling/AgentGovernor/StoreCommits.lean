import AgentGovernor.StoreAccounts
import AgentGovernor.StoreDiscipline

/-! What each statement and each transaction commits, as equations between the tables before and after
and facts about what was read. Later proofs use these and never unfold a transaction. -/

namespace AgentGovernor

open Ledger Table Handle Transaction Engine Option

variable {held held' : List Lock} {s t : Store} {dep : Deployment}

/-! ### Tables and writes of the handles -/

section Handles

variable (s)

@[simp] theorem windowRows_table : windowRows.table s = s.windows := rfl
@[simp] theorem idempotencyRows_table : idempotencyRows.table s = s.idempotency := rfl

@[simp] theorem apply_envelope (e : Envelope) :
    storeEngine.apply (envelopeRows.write e) s = { s with envelopes := s.envelopes.put e } := rfl

end Handles

/-! ### Evidence -/

/-- The registry and the records of idempotent requests. -/
def Store.desk (s : Store) : Table AgentRow.id × Table AgentVersion.id × Table IdempotencyRecord.scope :=
  (s.agents, s.versions, s.idempotency)

theorem Store.desk_eq :
    t.desk = s.desk ↔ t.agents = s.agents ∧ t.versions = s.versions ∧ t.idempotency = s.idempotency := by
  simp [Store.desk]

/-- Only evidence was appended. -/
def Store.Evidenced (s t : Store) : Prop :=
  ∃ events signals audits outbox, t = { s with
    events := events, signals := signals, audits := audits, outbox := outbox }

namespace Store.Evidenced

theorem refl (s : Store) : s.Evidenced s := ⟨_, _, _, _, rfl⟩

theorem runs (h : s.Evidenced t) : t.runs = s.runs := by
  obtain ⟨_, _, _, _, rfl⟩ := h
  rfl

theorem envelopes (h : s.Evidenced t) : t.envelopes = s.envelopes := by
  obtain ⟨_, _, _, _, rfl⟩ := h
  rfl

theorem grants (h : s.Evidenced t) : t.grants = s.grants := by
  obtain ⟨_, _, _, _, rfl⟩ := h
  rfl

theorem balances (h : s.Evidenced t) : t.balances = s.balances := by
  obtain ⟨_, _, _, _, rfl⟩ := h
  rfl

theorem reservations (h : s.Evidenced t) : t.reservations = s.reservations := by
  obtain ⟨_, _, _, _, rfl⟩ := h
  rfl

theorem usage (h : s.Evidenced t) : t.usage = s.usage := by
  obtain ⟨_, _, _, _, rfl⟩ := h
  rfl

theorem windows (h : s.Evidenced t) : t.windows = s.windows := by
  obtain ⟨_, _, _, _, rfl⟩ := h
  rfl

theorem extensions (h : s.Evidenced t) : t.extensions = s.extensions := by
  obtain ⟨_, _, _, _, rfl⟩ := h
  rfl

theorem settlements (h : s.Evidenced t) : t.settlements = s.settlements := by
  obtain ⟨_, _, _, _, rfl⟩ := h
  rfl

theorem desk (h : s.Evidenced t) : t.desk = s.desk := by
  obtain ⟨_, _, _, _, rfl⟩ := h
  rfl

end Store.Evidenced

variable {r : Unit}

variable {error : Failure}

theorem exec_insertAudit {audit : AuditEvent}
    (h : storeEngine.Exec (insertAudit audit error) held s r held' t) :
    ∃ audits, t = { s with audits := audits } := by
  obtain ⟨_, _, rfl⟩ := exec_insert.mp h
  exact ⟨_, rfl⟩

theorem exec_insertOutbox {message : OutboxMessage}
    (h : storeEngine.Exec (insertOutbox message error) held s r held' t) :
    ∃ outbox, t = { s with outbox := outbox } := by
  obtain ⟨_, _, rfl⟩ := exec_insert.mp h
  exact ⟨_, rfl⟩

/-- The two rows with which most operations end. -/
theorem exec_evidence {audit : AuditEvent} {message : OutboxMessage} {error' : Failure}
    (h : storeEngine.Exec ((insertAudit audit error).bind fun _ => insertOutbox message error') held s r held' t) :
    ∃ audits outbox, t = { s with audits := audits, outbox := outbox } := by
  obtain ⟨_, _, _, haudit, houtbox⟩ := exec_bind.mp h
  obtain ⟨_, rfl⟩ := exec_insertAudit haudit
  obtain ⟨_, rfl⟩ := exec_insertOutbox houtbox
  exact ⟨_, _, rfl⟩

theorem exec_bind_evidence {α : Type} {audit : AuditEvent} {message : OutboxMessage} {error' : Failure}
    {k : Unit → Op α} {result : α}
    (h : storeEngine.Exec ((insertAudit audit error).bind fun _ => (insertOutbox message error').bind k)
      held s result held' t) :
    ∃ mid audits outbox,
      storeEngine.Exec (k ()) mid { s with audits := audits, outbox := outbox } result held' t := by
  obtain ⟨_, _, _, haudit, h₁⟩ := exec_bind.mp h
  obtain ⟨_, mid, _, houtbox, h₂⟩ := exec_bind.mp h₁
  obtain ⟨_, rfl⟩ := exec_insertAudit haudit
  obtain ⟨_, rfl⟩ := exec_insertOutbox houtbox
  exact ⟨mid, _, _, h₂⟩

/-! ### Single rows -/

theorem exec_insertGrant {grant : Grant}
    (h : storeEngine.Exec (insertGrant grant error) held s r held' t) :
    s.grants.get (grant.envelopeID, grant.dimensionID) = none ∧
      t = { s with grants := s.grants.put grant } := by
  obtain ⟨hclash, _, rfl⟩ := exec_insert.mp h
  refine ⟨?_, rfl⟩
  rw [get_eq_none_iff]
  intro g hg hkey
  have hfree := hclash g hg
  obtain ⟨he, hd⟩ := Prod.mk.inj hkey
  simp [he, hd] at hfree

variable {d e : ID} {updatedAt value : Int}

theorem exec_insertBalance
    (h : storeEngine.Exec (insertBalance e d value updatedAt error) held s r held' t) :
    s.balances.get (e, d) = none ∧ ∃ b : Balance, (b.envelopeID, b.dimensionID) = (e, d) ∧
      b.availableValue = value ∧ b.directConsumedValue = 0 ∧ b.allocatedOpenValue = 0 ∧
      t = { s with balances := s.balances.put b } := by
  simp only [insertBalance, bind_eq, exec_bind, exec_orThrow] at h
  obtain ⟨b, _, _, ⟨hb, rfl, rfl⟩, h⟩ := h
  obtain ⟨he, hd, havailable, hdirect, hallocated⟩ := Balance.check_spec hb
  obtain ⟨hclash, _, rfl⟩ := exec_insert.mp h
  refine ⟨?_, b, by rw [he, hd], havailable, hdirect, hallocated, rfl⟩
  rw [get_eq_none_iff]
  intro row hrow hkey
  have hfree := hclash row hrow
  obtain ⟨he', hd'⟩ := Prod.mk.inj hkey
  simp [he', hd'] at hfree

/-- A guarded update of a balance: the guard held of the old row, and the terms moved. -/
theorem exec_moveBalance {α : Type} {guard : Balance → Prop} [DecidablePred guard]
    {available direct allocated : Int} {violation refused missing : Failure}
    {result : Balance → α × Balance} (hresult : ∀ row, (result row).2 = row) {a : α}
    (h : storeEngine.Exec (balanceRows.update [.balance e d] (e, d)
      (fun b => if guard b then
        (b.change available direct allocated updatedAt violation).map result else .error refused)
      missing) held s a held' t) :
    ∃ b b', s.balances.get (e, d) = some b ∧ guard b ∧ result b' = (a, b') ∧
      (b'.envelopeID, b'.dimensionID) = (e, d) ∧
      b'.availableValue = b.availableValue + available ∧
      b'.directConsumedValue = b.directConsumedValue + direct ∧
      b'.allocatedOpenValue = b.allocatedOpenValue + allocated ∧
      t = { s with balances := s.balances.put b' } := by
  obtain ⟨b, b', hget, hchange, _, rfl⟩ := exec_update.mp h
  split_ifs at hchange with hguard
  cases hrow : b.change available direct allocated updatedAt violation with
  | error error => simp [hrow, Except.map] at hchange
  | ok row =>
    simp only [hrow, Except.map, Except.ok.injEq] at hchange
    have hb : row = b' := by rw [← hresult row, hchange]
    subst hb
    obtain ⟨he, hd, hterms⟩ := Balance.change_spec hrow
    have hkey := key_of_get hget
    refine ⟨b, row, hget, hguard, hchange, ?_, hterms.1, hterms.2.1, hterms.2.2, rfl⟩
    rw [he, hd]
    exact hkey

/-! ### From a snapshot to the commit -/

section Snapshot

variable {seen : Store}

theorem grants_kept (h : storeEngine.Interference held seen s) : seen.grants.Keeps Eq s.grants :=
  h.relates (R := fun s t => s.grants.Keeps Eq t.grants) (fun _ => Table.Keeps.refl Eq.refl _)
    (fun _ _ _ h h' => h.trans Eq.trans h') fun _ _ ⟨_, _, _, hpromise⟩ => hpromise.grants

theorem envelopes_kept (h : storeEngine.Interference held seen s) :
    seen.envelopes.Keeps Envelope.Keep s.envelopes :=
  h.relates (R := fun s t => s.envelopes.Keeps Envelope.Keep t.envelopes)
    (fun _ => Table.Keeps.refl Envelope.Keep.refl _)
    (fun _ _ _ h h' => h.trans Envelope.Keep.trans h') fun _ _ ⟨_, _, _, hpromise⟩ =>
      hpromise.envelopes

theorem usage_kept (h : storeEngine.Interference held seen s) : seen.usage.Keeps Eq s.usage :=
  h.relates (R := fun s t => s.usage.Keeps Eq t.usage) (fun _ => Table.Keeps.refl Eq.refl _)
    (fun _ _ _ h h' => h.trans Eq.trans h') fun _ _ ⟨_, _, _, hpromise⟩ => hpromise.usage

theorem settlements_kept (h : storeEngine.Interference held seen s) :
    seen.settlements.Keeps Eq s.settlements :=
  h.relates (R := fun s t => s.settlements.Keeps Eq t.settlements)
    (fun _ => Table.Keeps.refl Eq.refl _) (fun _ _ _ h h' => h.trans Eq.trans h')
    fun _ _ ⟨_, _, _, hpromise⟩ => hpromise.settlements

theorem extensions_kept (h : storeEngine.Interference held seen s) :
    seen.extensions.Keeps Eq s.extensions :=
  h.relates (R := fun s t => s.extensions.Keeps Eq t.extensions)
    (fun _ => Table.Keeps.refl Eq.refl _) (fun _ _ _ h h' => h.trans Eq.trans h')
    fun _ _ ⟨_, _, _, hpromise⟩ => hpromise.extensions

/-- While the envelope is locked, nothing is added to it. -/
theorem extendedValue_stable {e : ID} (he : .envelope e ∈ held)
    (h : storeEngine.Interference held seen s) {d : ID} :
    extendedValue seen e d = extendedValue s e d := by
  refine h.relates (R := fun s t => extendedValue s e d = extendedValue t e d) (fun _ => rfl)
    (fun _ _ _ => Eq.trans) fun v v' ⟨other, hcompat, hg, hp⟩ => ?_
  apply total_eq_of_column
  intro k
  cases hget : v.extensions.get k with
  | some x =>
    obtain ⟨_, hget', rfl⟩ := Store.Keeps.extensions hp k x hget
    rw [column_of_get hget, column_of_get hget']
  | none =>
    rw [column_of_none hget]
    cases hget' : v'.extensions.get k with
    | none => rw [column_of_none hget']
    | some x =>
      -- A row that appeared is of another envelope: its insert needs the lock.
      have hfree : Lock.envelope e ∉ other := fun hmem =>
        hcompat _ hmem _ he (Lock.conflict_self rfl)
      have hstep : RowStep other (v.extensions.get k) (v'.extensions.get k) :=
        Store.Evolves.extensions hg k
      rw [hget'] at hstep
      have hne : x.envelopeID ≠ e := by
        rintro rfl
        obtain ⟨_, hbefore, _⟩ := hstep.exists_before (l := .envelope x.envelopeID)
          (by simp [insertLocks]) hfree
        rw [hget] at hbefore
        cases hbefore
      rw [column_of_get hget', if_neg hne]

variable {parent : ID}

/-- While the envelope is locked, its children are not more at the commit than in a snapshot. -/
theorem children_le (hparent : .envelope parent ∈ held) {f : Reservation → Int}
    (hnonneg : ∀ r, 0 ≤ f r) (hlock : ∀ r, f r ≠ 0 → r.parentEnvelopeID = parent)
    (hkeep : ∀ r r', r.Keep r' → f r' ≤ f r) (h : storeEngine.Interference held seen s) :
    s.reservations.total f ≤ seen.reservations.total f := by
  refine h.relates (R := fun s t => t.reservations.total f ≤ s.reservations.total f)
    (fun _ => le_refl _) (fun _ _ _ h h' => h'.trans h) fun v v' ⟨other, hcompat, hg, hp⟩ => ?_
  apply total_le_of_column
  intro k
  cases hget' : v'.reservations.get k with
  | none =>
    rw [column_of_none hget']
    cases hget : v.reservations.get k with
    | none => rw [column_of_none hget]
    | some r =>
      rw [column_of_get hget]
      exact hnonneg r
  | some r' =>
    rw [column_of_get hget']
    by_cases hzero : f r' = 0
    · rw [hzero]
      cases hget : v.reservations.get k with
      | none => rw [column_of_none hget]
      | some r =>
        rw [column_of_get hget]
        exact hnonneg r
    · -- The row was there before: its insert needs the lock of the parent.
      have hfree : Lock.envelope parent ∉ other := fun hmem =>
        hcompat _ hmem _ hparent (Lock.conflict_self rfl)
      have hstep : RowStep other (v.reservations.get k) (v'.reservations.get k) :=
        Store.Evolves.reservations hg k
      rw [hget'] at hstep
      obtain ⟨r, hget, _, _⟩ := hstep.exists_before (l := .envelope parent)
        (by simp [insertLocks, hlock r' hzero]) hfree
      obtain ⟨r'', hget'', hkept⟩ := Store.Keeps.reservations hp k r hget
      rw [hget'] at hget''
      cases hget''
      rw [column_of_get hget]
      exact hkeep r r' hkept

theorem activeChildren_le (hparent : .envelope parent ∈ held)
    (h : storeEngine.Interference held seen s) :
    activeChildren s parent ≤ activeChildren seen parent := by
  refine children_le hparent (fun r => ?_) (fun r hr => ?_) (fun r r' hkeep => ?_) h
  · split_ifs <;> omega
  · by_contra hne
    simp [hne] at hr
  · rcases hkeep with rfl | ⟨_, hclosed, _⟩
    · exact le_refl _
    · rw [if_neg fun hopen => hclosed hopen.2]
      split_ifs <;> omega

theorem totalChildren_le (hparent : .envelope parent ∈ held)
    (h : storeEngine.Interference held seen s) :
    totalChildren s parent ≤ totalChildren seen parent := by
  refine children_le hparent (fun r => ?_) (fun r hr => ?_) (fun r r' hkeep => ?_) h
  · split_ifs <;> omega
  · by_contra hne
    simp [hne] at hr
  · rcases hkeep with rfl | ⟨_, _, heq⟩
    · exact le_refl _
    · rw [heq]

end Snapshot

/-! ### Runs at work -/

/-- A run that was not terminal moved on; its identity and its deadline stay. -/
def Run.Works (r r' : Run) : Prop :=
  r.state.terminal = false ∧ r'.id = r.id ∧ r'.requestedBy = r.requestedBy ∧
    r'.createdAt = r.createdAt ∧ r'.deadlineAt = r.deadlineAt

/-- At most one run moved. -/
def RunsWork (runs runs' : Table Run.id) : Prop :=
  runs' = runs ∨ ∃ r r', runs.get r.id = some r ∧ r.Works r' ∧ runs' = runs.put r'

theorem RunsWork.get {runs runs' : Table Run.id} (h : RunsWork runs runs') {id : ID} {r : Run}
    (hr : runs.get id = some r) :
    ∃ r', runs'.get id = some r' ∧ r.Keep r' ∧ r'.deadlineAt = r.deadlineAt := by
  rcases h with rfl | ⟨old, new, hold, ⟨hterminal, hid, hby, hat, hdeadline⟩, rfl⟩
  · exact ⟨r, hr, Run.Keep.refl r, rfl⟩
  · rw [get_put]
    split_ifs with hkey
    · rw [hkey, hid, hold] at hr
      cases hr
      exact ⟨new, rfl, ⟨fun h => by simp [hterminal] at h, hby, hat⟩, hdeadline⟩
    · exact ⟨r, hr, Run.Keep.refl r, rfl⟩

/-! ### Topology -/

variable {seen : Store}

theorem structuralLimit_kept (h : seen.grants.Keeps Eq s.grants) {name : String}
    (hlimit : structuralLimit dep seen e name = some value) :
    structuralLimit dep s e name = some value := by
  simp only [structuralLimit, bind_eq_some_iff, map_eq_some_iff] at hlimit ⊢
  obtain ⟨d, hd, g, hg, hvalue⟩ := hlimit
  obtain ⟨g', hg', rfl⟩ := h _ g hg
  exact ⟨d, hd, g, hg', hvalue⟩

variable {limits : StructuralLimits}

theorem structuralLimits_spec :
    structuralLimits dep s e = some limits ↔
      structuralLimit dep s e "active_children" = some limits.active ∧
      structuralLimit dep s e "total_children" = some limits.total ∧
      structuralLimit dep s e "delegation_depth" = some limits.depth := by
  simp only [structuralLimits, bind_eq_bind, bind_eq_some_iff, Option.pure_def,
    Option.some.injEq]
  constructor
  · rintro ⟨active, hactive, total, htotal, depth, hdepth, rfl⟩
    exact ⟨hactive, htotal, hdepth⟩
  · rintro ⟨hactive, htotal, hdepth⟩
    exact ⟨_, hactive, _, htotal, _, hdepth, rfl⟩

theorem structuralLimits_kept (h : seen.grants.Keeps Eq s.grants)
    (hlimits : structuralLimits dep seen e = some limits) :
    structuralLimits dep s e = some limits := by
  rw [structuralLimits_spec] at hlimits ⊢
  obtain ⟨hactive, htotal, hdepth⟩ := hlimits
  exact ⟨structuralLimit_kept h hactive, structuralLimit_kept h htotal, structuralLimit_kept h hdepth⟩

theorem ancestryDepth_kept (h : seen.envelopes.Keeps Envelope.Keep s.envelopes)
    {fuel : Nat} {depth : Int} (hdepth : ancestryDepth seen fuel e = some depth) :
    ancestryDepth s fuel e = some depth := by
  induction fuel generalizing e depth with
  | zero => cases hdepth
  | succ fuel ih =>
    simp only [ancestryDepth, bind_eq_some_iff] at hdepth ⊢
    obtain ⟨row, hrow, hdepth⟩ := hdepth
    obtain ⟨row', hrow', hkeep⟩ := h e row hrow
    have hparent : row'.parentEnvelopeID = row.parentEnvelopeID := by rw [hkeep]
    refine ⟨row', hrow', ?_⟩
    rw [hparent]
    cases hp : row.parentEnvelopeID with
    | none => simpa [hp] using hdepth
    | some parent =>
      simp only [hp, map_eq_some_iff] at hdepth ⊢
      obtain ⟨n, hn, rfl⟩ := hdepth
      exact ⟨n, ih hn, rfl⟩

/-- What a passed topology check says about the database of the commit. -/
structure TopologyAllows (dep : Deployment) (s : Store) (parent child : ID) : Prop where
  parent_exists : ∃ e, s.envelopes.get parent = some e
  limits : ∃ maximum limits depth fuel, structuralLimits dep s parent = some maximum ∧
    structuralLimits dep s child = some limits ∧ limits.active ≤ maximum.active ∧
    limits.total ≤ maximum.total ∧ limits.depth ≤ maximum.depth ∧
    activeChildren s parent < maximum.active ∧ totalChildren s parent < maximum.total ∧
    ancestryDepth s fuel parent = some depth ∧ depth ≤ maximum.depth

variable {parent : ID}

theorem exec_lockParentResourceEnvelope
    (h : storeEngine.Exec (lockParentResourceEnvelope parent) held s r held' t) :
    t = s ∧ held' = [.envelope parent] ++ held ∧ ∃ e, s.envelopes.get parent = some e := by
  obtain ⟨e, he, _, rfl, rfl⟩ := exec_lock.mp h
  exact ⟨rfl, rfl, e, he⟩

theorem exec_enforceChildTopology {child : ID}
    (h : storeEngine.Exec (enforceChildTopology dep parent child) held s r held' t) :
    t = s ∧ held' = [.envelope parent] ++ held ∧ TopologyAllows dep s parent child := by
  simp only [enforceChildTopology, bind_eq, exec_bind, exec_require, exec_orThrow] at h
  obtain ⟨_, _, _, hlock, _, _, _, hsnapshot, topo, _, _, ⟨hfound, rfl, rfl⟩, _, _, _,
    ⟨hexpand, rfl, rfl⟩, _, _, _, ⟨hactive, rfl, rfl⟩, _, _, _, ⟨htotal, rfl, rfl⟩, hdepth, rfl,
    rfl⟩ := h
  obtain ⟨rfl, rfl, hparent⟩ := exec_lockParentResourceEnvelope hlock
  obtain ⟨⟨seen, hseen, rfl⟩, rfl, rfl⟩ := exec_snapshot.mp hsnapshot
  refine ⟨rfl, rfl, hparent, ?_⟩
  simp only [topology, bind_eq_bind, bind_eq_some_iff, Option.pure_def,
    Option.some.injEq] at hfound
  obtain ⟨maximum, hmaximum, limits, hlimits, depth, hancestry, rfl⟩ := hfound
  have hgrants := grants_kept hseen
  exact ⟨maximum, limits, depth, _, structuralLimits_kept hgrants hmaximum,
    structuralLimits_kept hgrants hlimits, hexpand.1, hexpand.2.1, hexpand.2.2,
    lt_of_le_of_lt (activeChildren_le (by simp) hseen) hactive,
    lt_of_le_of_lt (totalChildren_le (by simp) hseen) htotal,
    ancestryDepth_kept (envelopes_kept hseen) hancestry, hdepth⟩

end AgentGovernor
