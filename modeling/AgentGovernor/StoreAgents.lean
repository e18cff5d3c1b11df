import AgentGovernor.DomainClock
import AgentGovernor.StoreApprovals
import AgentGovernor.TransactionAlone

/-! The registry's updates of agents. The token of an update is the instant of the last change: the service has
it in nanoseconds, the database in microseconds. -/

namespace AgentGovernor

open Ledger Transaction Engine Sample

variable {dep : Deployment} {s t : Store} {request : Request} {response : Response} {id : ID} {a : Agent}
  {clock : Time}

/-! ### The service -/

structure CreateAgent where
  id : ID
  tenantID : ID
  ownerPrincipalID : ID
  sponsorPrincipalID : ID
  name : String
  description : String
  riskClass : AgentRiskClass

structure UpdateAgent where
  tenantID : ID
  agentID : ID
  ownerPrincipalID : ID
  sponsorPrincipalID : ID
  name : String
  description : String
  riskClass : AgentRiskClass
  status : AgentStatus
  expectedUpdatedAt : Time

def registryTime (clock : Time) : Except Failure Time :=
  (requireUTC clock).mapError fun _ => .domain .internal "agent registry clock is invalid"

/-- `Create` up to the reads of the principals. -/
def CreateAgent.prepare (command : CreateAgent) (clock : Time) : Except Failure Agent := do
  let now ← registryTime clock
  let agent : Agent := ⟨command.id, command.tenantID, command.name, command.description, command.ownerPrincipalID,
    command.sponsorPrincipalID, command.riskClass, .active, now, now⟩
  (agent.validate.mapError fun _ => invalidAgent).map fun _ => agent

def Agent.canTransitionTo (agent : Agent) (next : AgentStatus) : Bool := agent.status ≠ .retired || next = .retired

/-- `Update` between the read of the agent and those of the principals. -/
def UpdateAgent.prepare (command : UpdateAgent) (current : Agent) (clock : Time) : Except Failure Agent :=
  if current.tenantID ≠ command.tenantID then .error (.domain .notFound "agent not found")
  else if command.expectedUpdatedAt.isZero ∨ command.expectedUpdatedAt.nanos ≠ current.updatedAt.nanos then
    .error (conflict "agent was modified")
  else if !current.canTransitionTo command.status then .error (conflict "agent state transition is not allowed")
  else do
    let now ← registryTime clock
    if now.nanos ≤ current.updatedAt.nanos then
      .error (.domain .internal "agent registry clock did not advance")
    else
      let updated := { current with
        name := command.name, description := command.description, ownerPrincipalID := command.ownerPrincipalID
        sponsorPrincipalID := command.sponsorPrincipalID, riskClass := command.riskClass
        status := command.status, updatedAt := now }
      (updated.validate.mapError fun _ => invalidAgent).map fun _ => updated

/-- `scanAgent`, before it validates. -/
def AgentRow.agent (dep : Deployment) (row : AgentRow) : Agent :=
  ⟨row.id, dep.tenantID, row.name, row.description, row.ownerPrincipalID, row.sponsorPrincipalID, row.riskClass,
    row.status, .ofStored row.createdAt, .ofStored row.updatedAt⟩

def describeAgent (dep : Deployment) (id : ID) : Op Agent := do
  Tx.require (id.isZero = false) (.plain "agent description requires an ID")
  let found ← Tx.snapshot fun v => v.agents.get id
  let row ← Tx.orThrow found (.domain .notFound "agent not found")
  Tx.ofExcept (row.agent dep).validate
  return row.agent dep

def validatePrincipal (label : String) (id : ID) : Op Unit := do
  Tx.require (id.isZero = false) (.plain "principal eligibility requires an ID")
  let eligible ← Tx.snapshot fun v => (v.principals.get id).any (!·.disabled)
  Tx.require (eligible = true)
    (.domain .invalidArgument ("agent " ++ label ++ " is not an active tenant principal"))

/-- `AgentRegistry.Update`. -/
def UpdateAgent.update (dep : Deployment) (command : UpdateAgent) (clock : Time) : Op Agent := do
  let current ← describeAgent dep command.agentID
  let updated ← Tx.ofExcept (command.prepare current clock)
  validatePrincipal "owner" updated.ownerPrincipalID
  validatePrincipal "sponsor" updated.sponsorPrincipalID
  updateAgent dep updated command.expectedUpdatedAt
  return updated

/-- The service may send the request when its clock reads this. What it read of the agent and of the principals
may be out of date. -/
def Request.Prepared (clock : Time) : Request → Prop
  | .createAgent agent => ∃ command : CreateAgent, command.prepare clock = .ok agent
  | .updateAgent agent expected => ∃ (command : UpdateAgent) (current : Agent),
      command.prepare current clock = .ok agent ∧ command.expectedUpdatedAt = expected
  | _ => True

/-- What the clock reads has no fraction of a microsecond. -/
def Time.wholeMicroseconds (t : Time) : Bool := wrapInt64 t.nanos % 1000 = 0

theorem wholeMicroseconds_of_registryTime {now : Time} (h : registryTime clock = .ok now)
    (hclock : clock.wholeMicroseconds = true) : now.nanos % 1000 = 0 ∧ now.isZero = false := by
  have hutc := mapError_eq_ok.mp h
  refine ⟨?_, not_zero_of_representable (representable_of_requireUTC hutc)⟩
  unfold requireUTC at hutc
  split_ifs at hutc
  cases hutc
  exact of_decide_eq_true hclock

theorem CreateAgent.prepare_time {command : CreateAgent} (h : command.prepare clock = .ok a) :
    registryTime clock = .ok a.updatedAt := by
  obtain ⟨now, hnow, h⟩ := bind_eq_ok.mp h
  obtain ⟨_, _, rfl⟩ := map_eq_ok.mp h
  exact hnow

variable {command : UpdateAgent} {current : Agent}

theorem UpdateAgent.prepare_time
    (h : command.prepare current clock = .ok a) :
    registryTime clock = .ok a.updatedAt ∧ command.expectedUpdatedAt.nanos < a.updatedAt.nanos ∧
      a.id = current.id := by
  obtain ⟨_, h⟩ := ite_error_eq_ok.mp h
  obtain ⟨hexpected, h⟩ := ite_error_eq_ok.mp h
  obtain ⟨_, h⟩ := ite_error_eq_ok.mp h
  obtain ⟨now, hnow, h⟩ := bind_eq_ok.mp h
  obtain ⟨hadvanced, h⟩ := ite_error_eq_ok.mp h
  obtain ⟨_, _, rfl⟩ := map_eq_ok.mp h
  refine ⟨hnow, ?_, rfl⟩
  rw [not_not.mp fun hne => hexpected (Or.inr hne)]
  exact not_le.mp hadvanced

/-! ### Commits -/

/-- The instant that the database has for an agent. -/
def Store.token (s : Store) (id : ID) : Option Int := (s.agents.get id).map AgentRow.updatedAt

/-- What a commit does to the instant of an agent. -/
inductive TokenMove (request : Request) (id : ID) : Option Int → Option Int → Prop where
  | keep (token : Option Int) (hother : ∀ a, request.Returns a → a.id ≠ id) : TokenMove request id token token
  | create (a : Agent) (hrequest : request = .createAgent a) (hid : a.id = id) :
      TokenMove request id none (some a.updatedAt.stored)
  | update (a : Agent) (expected : Time) (hrequest : request = .updateAgent a expected) (hid : a.id = id) :
      TokenMove request id (some expected.stored) (some a.updatedAt.stored)

theorem commits_tokenMove (h : Serves dep request response s t) (id : ID) :
    TokenMove request id (s.token id) (t.token id) := by
  have hmove := commits_agentMove h id
  unfold Store.token
  generalize s.agents.get id = old at hmove ⊢
  generalize t.agents.get id = new at hmove ⊢
  cases hmove with
  | keep _ hother => exact .keep _ hother
  | create a hrequest hid => exact .create a hrequest hid
  | update a expected old hrequest hid hexpected =>
    rw [Option.map_some, hexpected]
    exact .update a expected hrequest hid

variable {token token' : Option Int} {expected : Time}

/-- What is returned is also stored, in microseconds. -/
theorem TokenMove.returned (h : TokenMove request a.id token token') (hreturns : request.Returns a) :
    token' = some a.updatedAt.stored := by
  cases h with
  | keep _ hother => exact absurd rfl (hother a hreturns)
  | create _ hrequest | update _ _ hrequest =>
    rcases hreturns with h | ⟨_, h⟩ <;> cases hrequest.symm.trans h
    rfl

theorem TokenMove.expects (h : TokenMove (.updateAgent a expected) a.id token token') :
    token = some expected.stored := by
  cases h with
  | keep _ hother => exact absurd rfl (hother a (Or.inr ⟨_, rfl⟩))
  | create _ hrequest => cases hrequest
  | update _ _ hrequest =>
    cases hrequest
    rfl

/-- At a clock without fractions of a microsecond, an update has a later instant than its token also in the
database. -/
theorem stored_lt_of_prepared (h : (Request.updateAgent a expected).Prepared clock)
    (hclock : clock.wholeMicroseconds = true) : expected.stored < a.updatedAt.stored := by
  obtain ⟨command, current, hprepare, rfl⟩ := h
  obtain ⟨htime, hlater, _⟩ := UpdateAgent.prepare_time hprepare
  have hwhole := (wholeMicroseconds_of_registryTime htime hclock).1
  unfold Time.stored
  omega

theorem returned_whole (hreturns : request.Returns a) (h : request.Prepared clock)
    (hclock : clock.wholeMicroseconds = true) : a.updatedAt.nanos % 1000 = 0 ∧ a.updatedAt.isZero = false := by
  rcases hreturns with rfl | ⟨_, rfl⟩
  · obtain ⟨_, hprepare⟩ := h
    exact wholeMicroseconds_of_registryTime (CreateAgent.prepare_time hprepare) hclock
  · obtain ⟨_, _, hprepare, _⟩ := h
    exact wholeMicroseconds_of_registryTime (UpdateAgent.prepare_time hprepare).1 hclock

/-- The agent stays, and its instant does not go back. -/
def TokenGrows (id : ID) (s t : Store) : Prop :=
  ∀ x, s.token id = some x → ∃ y, t.token id = some y ∧ x ≤ y

theorem tokenGrows_of_commits (h : Serves dep request response s t)
    (hprepared : request.Prepared clock) (hclock : clock.wholeMicroseconds = true) : TokenGrows id s t := by
  intro x hx
  have hmove := commits_tokenMove h id
  rw [hx] at hmove
  generalize t.token id = after at hmove ⊢
  cases hmove with
  | keep => exact ⟨x, rfl, Int.le_refl x⟩
  | update a expected hrequest =>
    subst hrequest
    exact ⟨_, rfl, (stored_lt_of_prepared hprepared hclock).le⟩

/-- A commit that does not update the agent keeps its instant. -/
theorem token_kept (h : Serves dep request response s t)
    (hother : ∀ a expected, request = .updateAgent a expected → a.id ≠ id) {x : Int} (hx : s.token id = some x) :
    t.token id = some x := by
  have hmove := commits_tokenMove h id
  rw [hx] at hmove
  generalize t.token id = after at hmove ⊢
  cases hmove with
  | keep => rfl
  | update a expected hrequest hid => exact absurd hid (hother a expected hrequest)

/-! ### The next update -/

/-- The failures that refuse a token. -/
def Failure.modified : Failure → Bool
  | .domain .conflict message =>
    message = "agent was modified" || message = "agent was modified or does not exist"
  | _ => false

variable {e : Failure}

theorem Agent.not_modified_of_validate (h : a.validate = .error e) : e.modified = false := by
  unfold Agent.validate at h
  repeat' split at h
  all_goals
    cases h
    try rfl

variable {row : AgentRow}

theorem run_describeAgent (hrow : s.agents.get id = some row)
    (h : storeEngine.run (describeAgent dep id) s = .ok (a, t)) : a = row.agent dep ∧ t = s := by
  unfold describeAgent Tx.require at h
  split_ifs at h
  · change storeEngine.run ((Tx.orThrow (s.agents.get id) _).bind _) s = _ at h
    rw [hrow] at h
    change storeEngine.run ((Tx.ofExcept (row.agent dep).validate).bind _) s = _ at h
    cases hvalid : (row.agent dep).validate with
    | error e =>
      rw [hvalid] at h
      cases h
    | ok =>
      rw [hvalid] at h
      cases h
      exact ⟨rfl, rfl⟩
  · cases h

theorem fails_describeAgent (hrow : s.agents.get id = some row) :
    storeEngine.Fails (·.modified = false) (describeAgent dep id) s := by
  refine fails_bind_require rfl fun _ => ?_
  change storeEngine.Fails _ ((Tx.orThrow (s.agents.get id) _).bind _) s
  rw [hrow]
  refine fails_bind_ofExcept (fun e h => Agent.not_modified_of_validate h) fun _ _ => ?_
  rintro _ ⟨⟩

theorem UpdateAgent.not_modified_of_prepare
    (htoken : command.expectedUpdatedAt.nanos = current.updatedAt.nanos)
    (hset : command.expectedUpdatedAt.isZero = false) (h : command.prepare current clock = .error e) :
    e.modified = false := by
  have hcurrent : ¬(command.expectedUpdatedAt.isZero ∨
      command.expectedUpdatedAt.nanos ≠ current.updatedAt.nanos) := by simp [htoken, hset]
  unfold UpdateAgent.prepare registryTime at h
  rw [if_neg hcurrent] at h
  cases hutc : requireUTC clock with
  | error message =>
    rw [hutc] at h
    split_ifs at h <;> cases h <;> rfl
  | ok now =>
    rw [hutc] at h
    dsimp only [Except.mapError, bind, Except.bind] at h
    split_ifs at h
    · cases h
      rfl
    · cases h
      rfl
    · cases h
      rfl
    · cases hvalid : Agent.validate { current with
          name := command.name, description := command.description, ownerPrincipalID := command.ownerPrincipalID
          sponsorPrincipalID := command.sponsorPrincipalID, riskClass := command.riskClass
          status := command.status, updatedAt := now } with
      | error => rw [hvalid] at h; cases h; rfl
      | ok => rw [hvalid] at h; cases h

theorem fails_bind_validatePrincipal {α : Type} {label : String} {p : Op α}
    (h : storeEngine.Fails (·.modified = false) p s) :
    storeEngine.Fails (·.modified = false) ((validatePrincipal label id).bind fun _ => p) s := by
  refine Fails.bind (fails_bind_require rfl fun _ e hrun => ?_) fun _ t hrun => ?_
  · change storeEngine.run (Tx.require _ _) s = _ at hrun
    unfold Tx.require at hrun
    split_ifs at hrun <;> cases hrun
    rfl
  · obtain ⟨_, hexec⟩ := exec_of_run [] hrun
    obtain ⟨_, hread⟩ := exec_bind_require.mp hexec
    obtain ⟨_, _, hrequire⟩ := exec_bind_snapshot.mp hread
    obtain ⟨_, _, rfl⟩ := exec_require.mp hrequire
    exact h

theorem fails_updateAgent {expectedUpdatedAt : Time} (hrow : s.agents.get a.id = some row)
    (htoken : row.updatedAt = expectedUpdatedAt.stored) :
    storeEngine.Fails (·.modified = false) (updateAgent dep a expectedUpdatedAt) s := by
  refine fails_bind_ofExcept (fun e h => ?_) fun _ _ => fails_bind_require rfl fun _ =>
    fails_bind_of_run (Handle.run_lock hrow (if_pos htoken)) ?_
  · unfold validAgent at h
    split_ifs at h
    · cases h
      rfl
    · exact Agent.not_modified_of_validate h
  · refine fails_bind_of_run (run_snapshot _) (fails_bind_require rfl fun _ =>
      fails_bind_of_run (run_snapshot _) (fails_bind_require rfl fun _ e h => ?_))
    cases (Handle.run_update (H := agentRows) hrow rfl).symm.trans h

theorem fails_update (hrow : s.agents.get command.agentID = some row)
    (htoken : command.expectedUpdatedAt.nanos = 1000 * row.updatedAt)
    (hset : command.expectedUpdatedAt.isZero = false) :
    storeEngine.Fails (·.modified = false) (command.update dep clock) s := by
  refine (fails_describeAgent hrow).bind fun current _ hdescribe => ?_
  obtain ⟨rfl, rfl⟩ := run_describeAgent hrow hdescribe
  refine fails_bind_ofExcept (fun e h => UpdateAgent.not_modified_of_prepare htoken hset h) fun updated hprepare =>
    fails_bind_validatePrincipal (fails_bind_validatePrincipal (Fails.bind (@fails_updateAgent _ _ _ row _ ?_ ?_)
      fun _ _ _ _ h => by cases h))
  · have hid : updated.id = row.id := (UpdateAgent.prepare_time hprepare).2.2
    have hkey : row.id = command.agentID := Table.key_of_get hrow
    rw [hid, hkey]
    exact hrow
  · unfold Time.stored
    omega

/-! ### Every run -/

/-- Both update one agent, with the same token. -/
def Request.sameToken : Request → Request → Bool
  | .updateAgent a expected, .updateAgent a' expected' => a.id = a'.id && expected.nanos = expected'.nanos
  | _, _ => false

variable {governor : Governor}

/-- As long as the clock of the registry has no fractions of a microsecond, no two updates of an agent with one
token commit, and the instant that the last change returned is not refused to the next one. -/
theorem agent_tokens_single_use (h : Reachable dep governor)
    (hclocks : ∀ c ∈ governor.log, ∃ clock, c.request.Prepared clock ∧ clock.wholeMicroseconds = true) :
    governor.log.Pairwise (fun c c' => c.request.sameToken c'.request = false) ∧
    ∀ log₁ c log₂ a, governor.log = log₁ ++ c :: log₂ → c.request.Returns a →
      (∀ c' ∈ log₂, ∀ a' expected, c'.request = .updateAgent a' expected → a'.id ≠ a.id) →
      ∀ (command : UpdateAgent) (clock : Time), command.agentID = a.id →
        command.expectedUpdatedAt.nanos = a.updatedAt.nanos →
        storeEngine.Fails (·.modified = false) (command.update dep clock) governor.committed := by
  constructor
  · have hgrows := h.history.pairwise (R := fun s t => ∀ id, TokenGrows id s t)
      (fun _ _ x hx => ⟨x, hx, Int.le_refl x⟩)
      (fun _ _ _ hst htu id x hx => by
        obtain ⟨y, hy, hxy⟩ := hst id x hx
        obtain ⟨z, hz, hyz⟩ := htu id y hy
        exact ⟨z, hz, hxy.trans hyz⟩)
      fun c hc id => by
        obtain ⟨clock, hprepared, hclock⟩ := hclocks c hc
        exact tokenGrows_of_commits (h.commits hc) hprepared hclock
    refine hgrows.imp_of_mem fun {c c'} hc hc' hbetween => Bool.not_eq_true _ ▸ fun htwice => ?_
    obtain ⟨a, expected, a', expected', hrequest, hrequest', hid, heq⟩ :
        ∃ a expected a' expected', c.request = .updateAgent a expected ∧
          c'.request = .updateAgent a' expected' ∧ a.id = a'.id ∧ expected.nanos = expected'.nanos := by
      unfold Request.sameToken at htwice
      split at htwice
      · rw [Bool.and_eq_true, decide_eq_true_eq, decide_eq_true_eq] at htwice
        exact ⟨_, _, _, _, ‹_›, ‹_›, htwice⟩
      · cases htwice
    obtain ⟨clock, hprepared, hclock⟩ := hclocks c hc
    have hlater := stored_lt_of_prepared (hrequest ▸ hprepared) hclock
    obtain ⟨y, hy, hle⟩ := hbetween a.id _
      ((commits_tokenMove (h.commits hc) a.id).returned (Or.inr ⟨_, hrequest⟩))
    have hmove := commits_tokenMove (h.commits hc') a.id
    rw [hrequest', hid] at hmove
    have hsame : y = expected'.stored := Option.some.inj (hy.symm.trans (hid ▸ hmove.expects))
    unfold Time.stored at hsame hlater hle
    omega
  · intro log₁ c log₂ a hlog hreturns hother command clock hid hexpected
    have hc : c ∈ governor.log := hlog ▸ List.mem_append_right _ List.mem_cons_self
    have hhistory := h.history
    rw [hlog] at hhistory
    have hkept := hhistory.since_commit
      (R := fun (s t : Store) => s.token a.id = some a.updatedAt.stored → t.token a.id = some a.updatedAt.stored)
      (fun _ => id) (fun _ _ _ hst htu hs => htu (hst hs))
      (fun c' hc' => token_kept (hhistory.commits (List.mem_append_right _ (List.mem_cons_of_mem _ hc')))
        (hother c' hc'))
      ((commits_tokenMove (h.commits hc) a.id).returned hreturns)
    obtain ⟨row, hrow, htoken⟩ := Option.map_eq_some_iff.mp hkept
    obtain ⟨clock', hprepared, hclock⟩ := hclocks c hc
    obtain ⟨hwhole, hset⟩ := returned_whole hreturns hprepared hclock
    refine fails_update (hid ▸ hrow) ?_ ?_
    · rw [hexpected, htoken]
      unfold Time.stored
      omega
    · unfold Time.isZero at hset ⊢
      rw [hexpected]
      exact hset

/-- A command of the request's own values leads to it. -/
def Sample.prepares (clock : Time) : Request → Bool
  | .createAgent a => (CreateAgent.prepare ⟨a.id, a.tenantID, a.ownerPrincipalID, a.sponsorPrincipalID, a.name,
      a.description, a.riskClass⟩ clock).toOption = some a
  | .updateAgent a expected => (UpdateAgent.prepare ⟨a.tenantID, a.id, a.ownerPrincipalID, a.sponsorPrincipalID,
      a.name, a.description, a.riskClass, a.status, expected⟩
      { a with status := .active, updatedAt := expected } clock).toOption = some a
  | _ => true

theorem Sample.prepared_of_prepares (h : prepares clock request = true) : request.Prepared clock := by
  have hok : ∀ {value : Except Failure Agent} {a : Agent}, value.toOption = some a → value = .ok a := by
    rintro (_ | _) _ ⟨⟩
    rfl
  cases request with
  | createAgent a => exact ⟨_, hok (of_decide_eq_true h)⟩
  | updateAgent a expected => exact ⟨_, _, hok (of_decide_eq_true h), rfl⟩
  | _ => trivial

/-- Two updates of the agent with the token of its creation. -/
def Sample.updates (clocks : List Time) : List Request :=
  provision ++ clocks.map fun now => .updateAgent ⟨.ofNat 2, .ofNat 1, "planner", "", .ofNat 4, .ofNat 7,
    .low, .suspended, instant 1, now⟩ (instant 1)

/-- The second update is not among the commits. -/
theorem agent_tokens_single_use_refused :
    (after (updates [instant 50, instant 60])).log.Pairwise
      (fun c c' => c.request.sameToken c'.request = false) := by
  refine (agent_tokens_single_use (reachable _) fun c hc => ?_).1
  have hall : (after (updates [instant 50, instant 60])).log.all fun c =>
      [instant 1, instant 50].any fun clock =>
        prepares clock c.request && clock.wholeMicroseconds := by
    decide +kernel
  obtain ⟨clock, _, h⟩ := List.any_eq_true.mp (List.all_eq_true.mp hall c hc)
  rw [Bool.and_eq_true] at h
  exact ⟨clock, prepared_of_prepares h.1, h.2⟩

/-- Half a microsecond after the agent was created, its token is still in the database after an update. -/
def Sample.rushed : Governor :=
  after (updates [⟨1000000500, true⟩, ⟨1000000700, true⟩])

theorem agent_token_used_twice : Reachable deployment rushed ∧
    (∀ c ∈ rushed.log, ∃ clock, c.request.Prepared clock) ∧
    ¬rushed.log.Pairwise (fun c c' => c.request.sameToken c'.request = false) := by
  refine ⟨reachable _, fun c hc => ?_, by decide +kernel⟩
  have hall : rushed.log.all fun c => [instant 1, ⟨1000000500, true⟩, ⟨1000000700, true⟩].any
      fun clock => prepares clock c.request := by
    decide +kernel
  obtain ⟨clock, _, h⟩ := List.any_eq_true.mp (List.all_eq_true.mp hall c hc)
  exact ⟨clock, prepared_of_prepares h⟩

end AgentGovernor
