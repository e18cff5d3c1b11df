import AgentGovernor.CommitReservation

/-! What the registry and the idempotency protocol commit. -/

namespace AgentGovernor

open Ledger Table Handle Transaction Engine

variable {held held' : List Lock} {s t : Store} {dep : Deployment} {u : Unit}

/-! ### Agents -/

variable {agent : Agent}

theorem exec_createAgent
    (h : storeEngine.Exec (createAgent dep agent) held s u held' t) :
    s.agents.get agent.id = none ∧ t = { s with agents := s.agents.put agent.row } := by
  obtain ⟨_, _, h₁⟩ := exec_bind_ofExcept.mp h
  obtain ⟨hclash, _, rfl⟩ := exec_insert.mp h₁.vetted.vetted
  refine ⟨get_eq_none_iff.mpr fun a ha => ?_, rfl⟩
  simpa using hclash a ha

theorem exec_updateAgent {expectedUpdatedAt : Time}
    (h : storeEngine.Exec (updateAgent dep agent expectedUpdatedAt) held s u held' t) :
    ∃ old, s.agents.get agent.id = some old ∧ old.updatedAt = expectedUpdatedAt.stored ∧
      t = { s with
        agents := s.agents.put { agent.row with id := old.id, createdAt := old.createdAt } } := by
  obtain ⟨_, _, h₁⟩ := exec_bind_ofExcept.mp h
  obtain ⟨old, _, _, hlock, h₃⟩ := exec_bind.mp h₁.checked
  obtain ⟨a, hget, hupdated, rfl, rfl⟩ := exec_lock.mp hlock
  split_ifs at hupdated with hsame
  cases hupdated
  obtain ⟨a', row, hget', hrow, _, rfl⟩ := exec_update.mp h₃.vetted.vetted
  rw [hget] at hget'
  cases hget'
  cases hrow
  exact ⟨old, hget, hsame, rfl⟩

/-! ### Versions -/

theorem exec_registerAgentVersion {version : AgentVersionRegistration}
    (h : storeEngine.Exec (registerAgentVersion dep version) held s u held' t) :
    s.versions.get version.id = none ∧ t = { s with versions := s.versions.put version.row } := by
  obtain ⟨_, _, h₂⟩ := exec_bind_ofExcept.mp h.checked
  obtain ⟨hclash, _, rfl⟩ := exec_insert.mp h₂.vetted.vetted.vetted
  refine ⟨get_eq_none_iff.mpr fun x hx => ?_, rfl⟩
  simpa using hclash x hx

/-- The version that a decision is about, before it. -/
structure Decides (approval : AgentVersionApproval) (digest : String) (x : AgentVersion)
    (s t : Store) : Prop where
  version : s.versions.get x.id = some x
  agent_eq : x.agentID = approval.agentID
  digest_eq : x.contentDigest = digest
  allowed : x.state.canApply approval.decision = true
  store_eq : Store.Evidenced { s with
    versions := s.versions.put { x with approvals := x.approvals ++ [approval.row] } } t

theorem exec_recordAgentVersionDecision {approval stored : AgentVersionApproval} {digest : String}
    {auditID outboxID : ID}
    (h : storeEngine.Exec (recordAgentVersionDecision dep approval digest auditID outboxID) held s
      stored held' t) :
    ∃ x, Decides approval digest x s t ∧ stored = { approval with agentVersionID := x.id } ∧
      t.journal = s.journal := by
  obtain ⟨_, _, h₂⟩ := exec_bind_snapshot.mp h.checked
  obtain ⟨candidate, _, h₃⟩ := exec_bind_orThrow.mp h₂
  obtain ⟨_, _, _, hlock, h₄⟩ := exec_bind.mp h₃
  obtain ⟨x, hget, hmatch, rfl, rfl⟩ := exec_lock.mp hlock
  split_ifs at hmatch with hsame
  obtain ⟨_, _, _, hupdate, h₉⟩ := exec_bind.mp h₄.vetted.vetted
  obtain ⟨x', row, hget', hrow, _, rfl⟩ := exec_update.mp hupdate
  rw [hget] at hget'
  cases hget'
  split_ifs at hrow with hallowed
  cases hrow
  obtain ⟨_, _, _, h₁₀⟩ := exec_bind_evidence h₉
  obtain ⟨_, _, hpure⟩ := exec_bind_ofExcept.mp h₁₀
  obtain ⟨rfl, _, rfl⟩ := hpure
  have hid : x.id = candidate.id := key_of_get hget
  rw [← hid] at hget
  exact ⟨x, ⟨hget, hsame.1, hsame.2, hallowed, _, _, _, _, rfl⟩, by rw [hid], rfl⟩

/-! ### Idempotent requests -/

variable {now : Time}

/-- An acquisition writes its fresh record, over none or over one that may be taken; a contended one
changes nothing. -/
theorem exec_acquireIdempotency {request : IdempotencyRequest} {recordID ownerToken : ID}
    {result : Option IdempotencyAcquisition}
    (h : storeEngine.Exec (acquireIdempotency dep request recordID ownerToken now) held s result held'
      t) :
    (result = some ⟨.acquired, recordID, ownerToken, none⟩ ∧
      (∀ r, s.idempotency.get request.scope = some r →
        r.reacquirable request.requestHash now.stored = true) ∧
      t = { s with
        idempotency := s.idempotency.put (freshRecord request recordID ownerToken now) }) ∨
    (result = none ∧ t = s ∧ ∃ r, s.idempotency.get request.scope = some r ∧
      r.reacquirable request.requestHash now.stored = false) := by
  obtain ⟨_, _, h₁⟩ := exec_bind_ofExcept.mp h
  obtain ⟨taken, _, h₂⟩ := exec_bind_snapshot.mp h₁.checked
  obtain ⟨known, _, h₃⟩ := exec_bind_snapshot.mp h₂
  obtain ⟨row, hrow, _, rfl⟩ := exec_upsertWhere.mp h₃
  rw [idempotencyRows_table] at hrow
  split_ifs at hrow with hall
  · have hscan : scanIdempotency dep request.requestHash true
        (freshRecord request recordID ownerToken now) =
          .ok ⟨.acquired, recordID, ownerToken, none⟩ := by
      simp [scanIdempotency, freshRecord]
    rw [hscan] at hrow
    cases hrow
    refine Or.inl ⟨rfl, fun r hr => ?_, rfl⟩
    rwa [hr] at hall
  · cases hrow
    refine Or.inr ⟨rfl, rfl, ?_⟩
    cases hget : s.idempotency.get request.scope with
    | none => simp [hget] at hall
    | some r => exact ⟨r, rfl, by simpa [hget] using hall⟩

variable {r : IdempotencyRecord}

variable {lost : Failure} {passes : IdempotencyRecord → Bool}

theorem exec_lockRecord {candidate : IdempotencyRecord}
    (h : storeEngine.Exec (lockRecord candidate passes lost) held s r held' t) :
    t = s ∧ r.scope = candidate.scope ∧ s.idempotency.get r.scope = some r ∧ passes r = true := by
  obtain ⟨r', hget, hpasses, _, rfl⟩ := exec_lock.mp h
  split_ifs at hpasses with hpass
  cases hpasses
  have hscope : r.scope = candidate.scope := key_of_get hget
  exact ⟨rfl, hscope, hscope ▸ hget, hpass⟩

theorem exec_lockOwned
    (h : storeEngine.Exec (lockOwned passes lost) held s r held' t) :
    t = s ∧ s.idempotency.get r.scope = some r ∧ passes r = true := by
  obtain ⟨_, _, h₁⟩ := exec_bind_snapshot.mp h
  obtain ⟨candidate, _, h₂⟩ := exec_bind_orThrow.mp h₁
  obtain ⟨rfl, _, hget, hpass⟩ := exec_lockRecord h₂
  exact ⟨rfl, hget, hpass⟩

theorem exec_updateRecord {change : IdempotencyRecord → IdempotencyRecord}
    {error : Failure} (hget : s.idempotency.get r.scope = some r)
    (h : storeEngine.Exec (updateRecord r change error) held s u held' t) :
    (change r).check = true ∧ t = { s with idempotency := s.idempotency.put (change r) } := by
  obtain ⟨old, row, hold, hrow, _, rfl⟩ := exec_update.mp h
  rw [idempotencyRows_table, hget] at hold
  cases hold
  split_ifs at hrow with hcheck
  cases hrow
  exact ⟨hcheck, rfl⟩

/-- What a completed record holds. -/
def IdempotencyRecord.complete (r : IdempotencyRecord) (response : StoredResponse) (now : Int) :
    IdempotencyRecord :=
  { r with state := .completed, response := some response, completedAt := some now, lockedUntil := now }

def IdempotencyRecord.fail (r : IdempotencyRecord) (now : Int) : IdempotencyRecord :=
  { r with state := .failed, lockedUntil := now }

variable {acquisition : IdempotencyAcquisition} {response : StoredResponse}

theorem exec_completeRecord {wrap : Failure → Failure}
    {locate : Op IdempotencyRecord}
    {P : IdempotencyRecord → Prop}
    (hlocate : ∀ held r held' t, storeEngine.Exec locate held s r held' t →
      t = s ∧ s.idempotency.get r.scope = some r ∧ P r)
    (h : storeEngine.Exec (completeRecord dep wrap acquisition response now locate) held s u held' t) :
    ∃ r headers, s.idempotency.get r.scope = some r ∧ P r ∧
      dep.jsonb response.headers = some headers ∧
      t = { s with idempotency :=
        s.idempotency.put (r.complete { response with headers := headers } now.stored) } := by
  obtain ⟨r, _, _, hlock, h₄⟩ := exec_bind.mp h.checked.checked.checked
  obtain ⟨rfl, hget, hr⟩ := hlocate _ _ _ _ hlock
  obtain ⟨headers, hjsonb, h₅⟩ := exec_bind_orThrow.mp h₄
  exact ⟨r, headers, hget, hr, hjsonb, (exec_updateRecord hget h₅).2⟩

theorem exec_completeIdempotency
    (h : storeEngine.Exec (completeIdempotency dep acquisition response now) held s u held' t) :
    ∃ r headers, s.idempotency.get r.scope = some r ∧ acquisition.owns r = true ∧
      dep.jsonb response.headers = some headers ∧
      t = { s with idempotency :=
        s.idempotency.put (r.complete { response with headers := headers } now.stored) } :=
  exec_completeRecord (fun _ _ _ _ hlock => exec_lockOwned hlock) h

theorem exec_failIdempotency
    (h : storeEngine.Exec (failIdempotency acquisition now) held s u held' t) :
    ∃ r, s.idempotency.get r.scope = some r ∧ acquisition.owns r = true ∧
      t = { s with idempotency := s.idempotency.put (r.fail now.stored) } := by
  obtain ⟨r, _, _, hlock, h₃⟩ := exec_bind.mp h.checked.checked
  obtain ⟨rfl, hget, howns⟩ := exec_lockOwned hlock
  exact ⟨r, hget, howns, (exec_updateRecord hget h₃).2⟩

variable {admission : RunAdmission}

/-- The completion of a record leaves the admission as it is. -/
theorem Admits.recorded {parent : Option ID} {grants : List RootResourceGrant}
    {idempotency : Table IdempotencyRecord.scope} (h : Admits dep admission parent grants s t) :
    Admits dep admission parent grants s { t with idempotency := idempotency } where
  run_fresh := h.run_fresh
  envelope_fresh := h.envelope_fresh
  parent_exists := h.parent_exists
  posts := h.posts
  store_eq := by
    obtain ⟨_, _, _, _, ht⟩ := h.store_eq
    exact ⟨_, _, _, _, congrArg (fun u : Store => { u with idempotency := idempotency }) ht⟩

/-- An idempotent admission: the admission, then the completion of the record that the caller owned. -/
theorem exec_admitRunIdempotently {resolution : RunVersionResolution}
    {evidence : RunAdmissionEvidence}
    (h : storeEngine.Exec
      (admitRunIdempotently dep admission resolution evidence acquisition response now) held s u held'
      t) :
    ∃ r mid r' headers held₁ held₂, s.idempotency.get r.scope = some r ∧
      (acquisition.owns r = true ∧ r.principalID = admission.requestedBy ∧
        r.route = runAdmissionRoute) ∧
      storeEngine.Exec (admitRun dep admission resolution evidence) held₁ s () held₂ mid ∧
      mid.idempotency.get r'.scope = some r' ∧ (r'.scope = r.scope ∧ acquisition.owns r' = true) ∧
      dep.jsonb response.headers = some headers ∧
      t = { mid with idempotency :=
        mid.idempotency.put (r'.complete { response with headers := headers } now.stored) } := by
  obtain ⟨r, held₁, _, hlock, h₂⟩ := exec_bind.mp h.checked
  obtain ⟨rfl, hget, hpass⟩ := exec_lockOwned hlock
  obtain ⟨⟨⟩, held₂, mid, hadmit, h₃⟩ := exec_bind.mp h₂
  obtain ⟨r', headers, hget', hr', hjsonb, ht⟩ := exec_completeRecord
    (P := fun r' => r'.scope = r.scope ∧ acquisition.owns r' = true)
    (fun _ _ _ _ hlock' => by
      obtain ⟨rfl, hscope, hget', howns⟩ := exec_lockRecord hlock'
      exact ⟨rfl, hget', hscope, howns⟩) h₃
  simp only [Bool.and_eq_true, decide_eq_true_eq, and_assoc] at hpass
  exact ⟨r, mid, r', headers, held₁, held₂, hget, hpass, hadmit, hget', hr', hjsonb, ht⟩

end AgentGovernor
