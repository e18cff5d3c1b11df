import AgentGovernor.StoreApprovals

/-! Idempotency records over whole runs. A record has one owner at a time, the one that the last
acquisition named; only this owner completes or fails it, and what it completed stays there, is replayed
to every later caller with the same request and refused to every other, for as long as nobody comes with
a time past the record's expiry. -/

namespace AgentGovernor

open Ledger Transaction Engine Sample List

variable {s t : Store} {dep : Deployment} {request : Request} {response : Response}
  {scope : ID × String × String} {old new : Option IdempotencyRecord} {r : IdempotencyRecord}

/-! ### What a commit does to one record -/

/-- The request completes the record of this acquisition with this response. -/
def Request.Completes (acquisition : IdempotencyAcquisition) (stored : StoredResponse) (now : Time) :
    Request → Prop
  | .completeIdempotency presented completed at' =>
    presented = acquisition ∧ completed = stored ∧ at' = now
  | .admitRunIdempotently _ _ _ presented completed at' =>
    presented = acquisition ∧ completed = stored ∧ at' = now
  | _ => False

/-- The request presents this acquisition as its owner. -/
def Request.PresentsOwner (acquisition : IdempotencyAcquisition) : Request → Prop
  | .completeIdempotency presented _ _ => presented = acquisition
  | .failIdempotency presented _ => presented = acquisition
  | .admitRunIdempotently _ _ _ presented _ _ => presented = acquisition
  | _ => False

variable {acquisition : IdempotencyAcquisition} {now : Time}

variable {stored : StoredResponse}

theorem Request.Completes.presentsOwner
    (h : request.Completes acquisition stored now) : request.PresentsOwner acquisition := by
  cases request with
  | completeIdempotency | admitRunIdempotently => exact h.1
  | _ => exact absurd h id

/-- The record of a scope before and after a commit. -/
inductive RecordMove (dep : Deployment) (request : Request) (response : Response)
    (scope : ID × String × String) : Option IdempotencyRecord → Option IdempotencyRecord → Prop where
  | keep (record : Option IdempotencyRecord) : RecordMove dep request response scope record record
  | acquire (wanted : IdempotencyRequest) (recordID ownerToken : ID) (now : Time)
      (hrequest : request = .acquireIdempotency wanted recordID ownerToken now)
      (hscope : wanted.scope = scope)
      (hresponse : response = .acquired (some ⟨.acquired, recordID, ownerToken, none⟩))
      {old : Option IdempotencyRecord}
      (hold : ∀ r, old = some r → r.reacquirable wanted.requestHash now.stored = true) :
      RecordMove dep request response scope old (some (freshRecord wanted recordID ownerToken now))
  | complete (acquisition : IdempotencyAcquisition) (stored : StoredResponse) (now : Time)
      (headers : String) (r : IdempotencyRecord) (hrequest : request.Completes acquisition stored now)
      (howns : acquisition.owns r = true) (hjsonb : dep.jsonb stored.headers = some headers) :
      RecordMove dep request response scope (some r)
        (some (r.complete { stored with headers := headers } now.stored))
  | fail (acquisition : IdempotencyAcquisition) (now : Time) (r : IdempotencyRecord)
      (hrequest : request = .failIdempotency acquisition now) (howns : acquisition.owns r = true) :
      RecordMove dep request response scope (some r) (some (r.fail now.stored))

/-- A record that is written over is the one of its own scope; the others stay. -/
theorem RecordMove.of_put {row : IdempotencyRecord} (h : t.idempotency = s.idempotency.put row)
    (hrow : RecordMove dep request response row.scope (s.idempotency.get row.scope) (some row))
    (scope : ID × String × String) :
    RecordMove dep request response scope (s.idempotency.get scope) (t.idempotency.get scope) := by
  rw [h, Table.get_put]
  by_cases hscope : scope = row.scope
  · rw [if_pos hscope, hscope]
    exact hrow
  · rw [if_neg hscope]
    exact .keep _

/-- An idempotent admission completes a record of its principal on the admission route. -/
theorem exec_admits_record {admission : RunAdmission} {resolution : RunVersionResolution}
    {evidence : RunAdmissionEvidence}
    {held held' : List Lock} {u : Unit}
    (h : storeEngine.Exec
      (admitRunIdempotently dep admission resolution evidence acquisition stored now) held s u held' t) :
    ∃ r headers, s.idempotency.get r.scope = some r ∧ acquisition.owns r = true ∧
      r.principalID = admission.requestedBy ∧ r.route = runAdmissionRoute ∧
      dep.jsonb stored.headers = some headers ∧
      t.idempotency = s.idempotency.put (r.complete { stored with headers := headers } now.stored) := by
  obtain ⟨r, mid, r', headers, _, _, hr, ⟨howns, hprincipal, hroute⟩, hadmit, hr', ⟨hscope, _⟩, hjsonb,
    rfl⟩ := exec_admitRunIdempotently h
  -- The admission itself leaves the records alone, so the record that is completed is the locked one.
  have hmid : mid.idempotency = s.idempotency :=
    (Store.desk_eq.mp (exec_admitRun hadmit).2.1).2.2
  have hsame : r' = r := by
    rw [hmid, hscope, hr] at hr'
    exact (Option.some.inj hr').symm
  subst hsame
  exact ⟨r', headers, hr, howns, hprincipal, hroute, hjsonb, by rw [hmid]⟩

theorem commits_recordMove (h : Serves dep request response s t)
    (scope : ID × String × String) :
    RecordMove dep request response scope (s.idempotency.get scope) (t.idempotency.get scope) := by
  by_cases hdesk : request.desk = false
  · have hkept : t.idempotency = s.idempotency := (Store.desk_eq.mp (desk_of_commits h hdesk)).2.2
    rw [hkept]
    exact .keep _
  · obtain ⟨_, hexec⟩ := h
    cases request with
    | createAgent agent =>
      obtain ⟨_, hcreate, _⟩ := exec_respond hexec
      obtain ⟨_, rfl⟩ := exec_createAgent hcreate
      exact .keep _
    | updateAgent agent expectedUpdatedAt =>
      obtain ⟨_, hupdate, _⟩ := exec_respond hexec
      obtain ⟨_, _, _, rfl⟩ := exec_updateAgent hupdate
      exact .keep _
    | registerAgentVersion version =>
      obtain ⟨_, hregister, _⟩ := exec_respond hexec
      obtain ⟨_, rfl⟩ := exec_registerAgentVersion hregister
      exact .keep _
    | recordAgentVersionDecision approval digest auditID outboxID =>
      obtain ⟨_, hdecision, _⟩ := exec_respond hexec
      obtain ⟨_, hdecides, _⟩ := exec_recordAgentVersionDecision hdecision
      obtain ⟨_, _, _, _, rfl⟩ := hdecides.store_eq
      exact .keep _
    | acquireIdempotency wanted recordID ownerToken now =>
      obtain ⟨_, hacquire, hresponse⟩ := exec_respond hexec
      obtain ⟨rfl, hold, rfl⟩ | ⟨_, rfl, _⟩ := exec_acquireIdempotency hacquire
      · exact .of_put rfl (.acquire wanted recordID ownerToken now rfl rfl hresponse hold) scope
      · exact .keep _
    | completeIdempotency acquisition stored now =>
      obtain ⟨_, hcomplete, _⟩ := exec_respond hexec
      obtain ⟨r, headers, hr, howns, hjsonb, rfl⟩ := exec_completeIdempotency hcomplete
      refine .of_put rfl ?_ scope
      rw [show (r.complete { stored with headers := headers } now.stored).scope = r.scope from rfl, hr]
      exact .complete acquisition stored now headers r ⟨rfl, rfl, rfl⟩ howns hjsonb
    | failIdempotency acquisition now =>
      obtain ⟨_, hfail, _⟩ := exec_respond hexec
      obtain ⟨r, hr, howns, rfl⟩ := exec_failIdempotency hfail
      refine .of_put rfl ?_ scope
      rw [show (r.fail now.stored).scope = r.scope from rfl, hr]
      exact .fail acquisition now r rfl howns
    | admitRunIdempotently admission resolution evidence acquisition stored now =>
      obtain ⟨_, hrun, _⟩ := exec_respond hexec
      obtain ⟨r, headers, hr, howns, _, _, hjsonb, hput⟩ := exec_admits_record hrun
      refine .of_put hput ?_ scope
      rw [show (r.complete { stored with headers := headers } now.stored).scope = r.scope from rfl, hr]
      exact .complete acquisition stored now headers r ⟨rfl, rfl, rfl⟩ howns hjsonb
    | _ => exact absurd rfl hdesk

/-! ### Before the record expires -/

/-- An acquisition under the scope comes before the stored record expires. -/
def AcquiresLive (scope : ID × String × String) (c : Commit Store Response Request) : Bool :=
  match c.request with
  | .acquireIdempotency wanted _ _ now => wanted.scope != scope ||
      (c.before.idempotency.get scope).all fun r => now.stored < r.expiresAt
  | _ => true

/-- Before it expires, a record passes to a new owner only if its owner failed or let the lease end, and
only for the same request. -/
theorem IdempotencyRecord.reacquirable_live {hash : String} {now : Int} (hlive : now < r.expiresAt)
    (h : r.reacquirable hash now = true) : r.requestHash = hash ∧
      (r.state = .failed ∨ (r.state = .inProgress ∧ r.lockedUntil ≤ now)) := by
  have hexpiry : ¬ r.expiresAt ≤ now := by omega
  simpa [IdempotencyRecord.reacquirable, hexpiry] using h

variable {c : StoreCommit} {wanted : IdempotencyRequest}

variable {ownerToken recordID : ID}

theorem expiry_of_acquiresLive (h : AcquiresLive scope c = true)
    (hrequest : c.request = .acquireIdempotency wanted recordID ownerToken now)
    (hscope : wanted.scope = scope) (hr : c.before.idempotency.get scope = some r) :
    now.stored < r.expiresAt := by
  simpa [AcquiresLive, hrequest, hscope, hr] using h

/-- A completed record stays as it is. -/
theorem completed_kept
    (h : Served dep c)
    (hlive : AcquiresLive scope c = true) (hr : c.before.idempotency.get scope = some r)
    (hstate : r.state = .completed) : c.after.idempotency.get scope = some r := by
  have hmove := commits_recordMove h scope
  rw [hr] at hmove
  generalize hnew : c.after.idempotency.get scope = new at hmove
  cases hmove with
  | keep => rfl
  | acquire wanted recordID ownerToken now hrequest hscope _ hold =>
    have hexpiry := expiry_of_acquiresLive hlive hrequest hscope hr
    obtain ⟨_, hfailed | ⟨hprogress, _⟩⟩ := IdempotencyRecord.reacquirable_live hexpiry (hold r rfl)
    · rw [hstate] at hfailed
      cases hfailed
    · rw [hstate] at hprogress
      cases hprogress
  | complete _ _ _ _ _ _ howns | fail _ _ _ _ howns =>
    simp [IdempotencyAcquisition.owns, hstate] at howns

/-! ### The holder of a record -/

/-- The acquisition under the scope that a commit grants. -/
def granted (scope : ID × String × String) (c : Commit Store Response Request) :
    Option IdempotencyAcquisition :=
  match c.request, c.response with
  | .acquireIdempotency wanted _ _ _, .acquired result => if wanted.scope = scope then result else none
  | _, _ => none

/-- The acquisition under the scope that was granted last. -/
def holder (scope : ID × String × String) (log : List (Commit Store Response Request)) :
    Option IdempotencyAcquisition :=
  log.foldl (fun current c => (granted scope c).or current) none

theorem holder_concat (scope : ID × String × String) (log : List StoreCommit)
    (c : StoreCommit) :
    holder scope (log ++ [c]) = (granted scope c).or (holder scope log) :=
  foldl_append

/-- The two identifiers that an owner presents. -/
def IdempotencyAcquisition.credentials (acquisition : IdempotencyAcquisition) : ID × ID :=
  (acquisition.recordID, acquisition.ownerToken)

def IdempotencyRecord.credentials (r : IdempotencyRecord) : ID × ID := (r.id, r.ownerToken)

theorem IdempotencyAcquisition.owns_iff :
    acquisition.owns r = true ↔ r.credentials = acquisition.credentials ∧ r.state = .inProgress := by
  simp only [IdempotencyAcquisition.owns, IdempotencyAcquisition.credentials,
    IdempotencyRecord.credentials, Bool.and_eq_true, decide_eq_true_eq, Prod.mk.injEq]

/-- A granted acquisition is of a record that may be taken, and leaves its fresh record. -/
theorem commits_granted
    (h : storeEngine.Commits (program dep) c.request c.response c.before c.after)
    (hgranted : granted scope c = some acquisition) : ∃ wanted recordID ownerToken now,
      c.request = .acquireIdempotency wanted recordID ownerToken now ∧ wanted.scope = scope ∧
      acquisition = ⟨.acquired, recordID, ownerToken, none⟩ ∧
      (∀ r, c.before.idempotency.get scope = some r →
        r.reacquirable wanted.requestHash now.stored = true) ∧
      c.after.idempotency.get scope = some (freshRecord wanted recordID ownerToken now) := by
  unfold granted at hgranted
  split at hgranted
  · rename_i wanted recordID ownerToken now result hrequest hresponse
    split_ifs at hgranted with hscope
    subst hscope hgranted
    rw [hrequest, hresponse] at h
    obtain ⟨_, hexec⟩ := h
    obtain ⟨_, hacquire, hresult⟩ := exec_respond hexec
    cases hresult
    obtain ⟨hacquired, hold, hafter⟩ | ⟨hnone, _⟩ := exec_acquireIdempotency hacquire
    · refine ⟨wanted, recordID, ownerToken, now, hrequest, rfl, Option.some.inj hacquired, hold, ?_⟩
      rw [hafter]
      exact Table.get_put_self _ _
    · cases hnone
  · cases hgranted

/-- A commit that grants nothing under the scope leaves the owner of the record. -/
theorem credentials_of_not_granted
    (h : Served dep c)
    (hgranted : granted scope c = none) :
    (c.after.idempotency.get scope).map IdempotencyRecord.credentials =
      (c.before.idempotency.get scope).map IdempotencyRecord.credentials := by
  have hmove := commits_recordMove h scope
  generalize c.before.idempotency.get scope = old at hmove
  generalize c.after.idempotency.get scope = new at hmove
  cases hmove with
  | acquire wanted recordID ownerToken now hrequest hscope hresponse =>
    rw [granted, hrequest, hresponse] at hgranted
    simp [hscope] at hgranted
  | keep | complete | fail => rfl

variable {log : List StoreCommit}

/-- The stored record always names the holder. -/
theorem credentials_eq_holder
    (h : storeEngine.History (program dep) Store.empty log s) (scope : ID × String × String) :
    (s.idempotency.get scope).map IdempotencyRecord.credentials =
      (holder scope log).map IdempotencyAcquisition.credentials := by
  induction h with
  | nil => rfl
  | @snoc log s t request response _ hcommit ih =>
    rw [holder_concat]
    cases hgranted : granted scope ⟨request, response, s, t⟩ with
    | none => exact (credentials_of_not_granted hcommit hgranted).trans ih
    | some acquisition =>
      obtain ⟨_, _, _, _, _, _, rfl, _, hafter⟩ := commits_granted hcommit hgranted
      rw [show t.idempotency.get scope = _ from hafter]
      rfl

/-- A commit that changes the record without granting it presents the holder, while its work is in
progress. -/
theorem changes_as_holder
    (hlog : storeEngine.History (program dep) Store.empty log c.before)
    (h : Served dep c)
    (hgranted : granted scope c = none)
    (hchanged : c.after.idempotency.get scope ≠ c.before.idempotency.get scope) :
    ∃ acquisition r, c.request.PresentsOwner acquisition ∧ c.before.idempotency.get scope = some r ∧
      r.state = .inProgress ∧
      (holder scope log).map IdempotencyAcquisition.credentials = some acquisition.credentials := by
  have hholder := credentials_eq_holder hlog scope
  have hmove := commits_recordMove h scope
  generalize hold : c.before.idempotency.get scope = old at hmove hchanged hholder
  generalize c.after.idempotency.get scope = new at hmove hchanged
  cases hmove with
  | keep => exact absurd rfl hchanged
  | acquire wanted recordID ownerToken now hrequest hscope hresponse =>
    rw [granted, hrequest, hresponse] at hgranted
    simp [hscope] at hgranted
  | complete acquisition _ _ _ r hrequest howns _ =>
    obtain ⟨hsame, hstate⟩ := IdempotencyAcquisition.owns_iff.mp howns
    exact ⟨acquisition, r, hrequest.presentsOwner, rfl, hstate, by rw [← hholder, ← hsame]; rfl⟩
  | fail acquisition now r hrequest howns =>
    obtain ⟨hsame, hstate⟩ := IdempotencyAcquisition.owns_iff.mp howns
    refine ⟨acquisition, r, ?_, rfl, hstate, by rw [← hholder, ← hsame]; rfl⟩
    rw [hrequest]
    rfl

/-! ### Replay -/

/-- A completed record was left by a commit that completed it, with the response as it is stored. -/
theorem completed_stored
    (h : storeEngine.History (program dep) Store.empty log s)
    (hr : s.idempotency.get scope = some r) (hstate : r.state = .completed) :
    ∃ c ∈ log, ∃ acquisition stored headers now, c.request.Completes acquisition stored now ∧
      c.after.idempotency.get scope = some r ∧ dep.jsonb stored.headers = some headers ∧
      r.response = some { stored with headers := headers } := by
  induction h with
  | nil => cases hr
  | @snoc log s t request response hlog hcommit ih =>
    have hlast : (⟨request, response, s, t⟩ : StoreCommit) ∈
        log ++ [⟨request, response, s, t⟩] := mem_append_right _ mem_cons_self
    have hmove := commits_recordMove hcommit scope
    rw [hr] at hmove
    generalize hold : s.idempotency.get scope = old at hmove
    cases hmove with
    | keep =>
      obtain ⟨c, hc, hcompleted⟩ := ih hold
      exact ⟨c, mem_append_left _ hc, hcompleted⟩
    | acquire | fail => cases hstate
    | complete acquisition stored now headers x hrequest _ hjsonb =>
      exact ⟨_, hlast, acquisition, stored, headers, now, hrequest, hr, hjsonb, rfl⟩

/-- Under a completed record nothing is acquired. -/
theorem commits_contended
    (h : Served dep c)
    (hlive : AcquiresLive scope c = true) (hr : c.before.idempotency.get scope = some r)
    (hstate : r.state = .completed) : granted scope c = none := by
  by_contra hsome
  obtain ⟨acquisition, hgranted⟩ := Option.ne_none_iff_exists'.mp hsome
  obtain ⟨wanted, recordID, ownerToken, now, hrequest, hscope, _, hold, _⟩ := commits_granted h hgranted
  have hexpiry := expiry_of_acquiresLive hlive hrequest hscope hr
  obtain ⟨_, hfailed | ⟨hprogress, _⟩⟩ := IdempotencyRecord.reacquirable_live hexpiry (hold r hr)
  · rw [hstate] at hfailed
    cases hfailed
  · rw [hstate] at hprogress
    cases hprogress

/-- The request is not refused before the upsert: its arguments are in order, and the row it would write. -/
def IdempotencyRequest.Accepted (request : IdempotencyRequest) (recordID ownerToken : ID) (now : Time) :
    Prop :=
  validateIdempotencyRequest request now = .ok () ∧
    (freshRecord request recordID ownerToken now).check = true

/-- What a completed record has for a later request. -/
def IdempotencyRecord.answer (r : IdempotencyRecord) (requestHash : String) :
    Except Failure IdempotencyAcquisition :=
  if requestHash = r.requestHash then .ok ⟨.replay, r.id, r.ownerToken, r.response⟩
  else .error idempotencyConflict

/-- The upsert leaves a completed record as it is. -/
theorem concludes_acquireIdempotency (dep : Deployment) (recordID ownerToken : ID)
    (hscope : wanted.scope = scope) (hstate : r.state = .completed) (hlive : now.stored < r.expiresAt) :
    (program dep (.acquireIdempotency wanted recordID ownerToken now)).Concludes
      (fun s => s.idempotency.get scope = some r)
      (fun outcome =>
        (wanted.Accepted recordID ownerToken now → outcome = .ok (.acquired none)) ∧
        (¬wanted.Accepted recordID ownerToken now → ∃ error, outcome = .error error)) := by
  refine Tx.Concludes.bind (R := fun outcome =>
    (wanted.Accepted recordID ownerToken now → outcome = .ok none) ∧
    (¬wanted.Accepted recordID ownerToken now → ∃ error, outcome = .error error)) ?_ ?_ ?_
  · refine Tx.Concludes.ofExcept (fun _ hvalid => ?_) fun e he =>
      ⟨fun haccepted => (nomatch he.symm.trans haccepted.1), fun _ => ⟨e, rfl⟩⟩
    refine Tx.Concludes.require (fun hcheck => ?_) fun hcheck =>
      ⟨fun haccepted => absurd haccepted.2 hcheck, fun _ => ⟨_, rfl⟩⟩
    refine Tx.Concludes.snapshot fun _ _ => ?_
    refine Tx.Concludes.snapshot fun _ _ => ?_
    refine Tx.Concludes.upsertWhere fun s hs =>
      ⟨none, ?_, fun _ => rfl, fun hrefused => absurd ⟨hvalid, hcheck⟩ hrefused⟩
    have hexpiry : ¬ r.expiresAt ≤ now.stored := by omega
    rw [idempotencyRows_table, hscope, hs]
    simp [IdempotencyRecord.reacquirable, hexpiry, hstate]
  · rintro a ⟨hnone, herror⟩
    refine ⟨fun haccepted => by rw [Except.ok.inj (hnone haccepted)], fun hrefused => ?_⟩
    obtain ⟨_, ⟨⟩⟩ := herror hrefused
  · rintro e ⟨hnone, _⟩
    exact ⟨fun haccepted => (nomatch hnone haccepted), fun _ => ⟨e, rfl⟩⟩

/-- What the read then answers. -/
theorem concludes_readContended (dep : Deployment) (hscope : wanted.scope = scope) :
    (program dep (.readContended wanted)).Concludes (fun s => s.idempotency.get scope = some r)
      (· = .ok (.observed (scanIdempotency dep wanted.requestHash false r))) := by
  intro s hs
  rw [← hscope] at hs
  show Except.ok (Response.observed _) = _
  simp only [hs]

/-- A call of `AcquireIdempotency` that started after the first governor and has returned in the second:
the upsert, and where that leaves the record as it is, the read. -/
inductive AcquireCall (dep : Deployment) (governor governor' : Governor) (wanted : IdempotencyRequest)
    (recordID ownerToken : ID) (now : Time) : Except Failure IdempotencyAcquisition → Prop
  | refused (error : Failure) (hupsert : storeEngine.Ends (program dep) governor governor'
      (.acquireIdempotency wanted recordID ownerToken now) (.error error)) :
    AcquireCall dep governor governor' wanted recordID ownerToken now (.error error)
  | acquired (acquisition : IdempotencyAcquisition)
      (hupsert : storeEngine.Ends (program dep) governor governor'
        (.acquireIdempotency wanted recordID ownerToken now) (.ok (.acquired (some acquisition)))) :
    AcquireCall dep governor governor' wanted recordID ownerToken now (.ok acquisition)
  | contended (mid : Governor) (answer : Except Failure IdempotencyAcquisition)
      (hupsert : storeEngine.Ends (program dep) governor mid
        (.acquireIdempotency wanted recordID ownerToken now) (.ok (.acquired none)))
      (hread : storeEngine.Ends (program dep) mid governor' (.readContended wanted)
        (.ok (.observed answer))) :
    AcquireCall dep governor governor' wanted recordID ownerToken now answer

/-- Calls of `AcquireIdempotency` for a completed record that start from here on, before its expiry and as
long as nobody comes past that: the stored response if the request is the same, a conflict if it is not,
and an error for a request that is refused before the upsert. Alone, both transactions return so. -/
structure LaterAcquiresAnswer (dep : Deployment) (governor : Governor) (r : IdempotencyRecord) : Prop where
  returns : ∀ governor' wanted recordID ownerToken now outcome,
    (∀ c ∈ governor'.log, AcquiresLive r.scope c = true) → wanted.scope = r.scope →
    now.stored < r.expiresAt → AcquireCall dep governor governor' wanted recordID ownerToken now outcome →
    (wanted.Accepted recordID ownerToken now → outcome = r.answer wanted.requestHash) ∧
    (¬wanted.Accepted recordID ownerToken now → ∃ error, outcome = .error error)
  alone : ∀ wanted recordID ownerToken now, wanted.scope = r.scope → now.stored < r.expiresAt →
    wanted.Accepted recordID ownerToken now →
    storeEngine.run (program dep (.acquireIdempotency wanted recordID ownerToken now))
      governor.committed = .ok (.acquired none, governor.committed) ∧
    storeEngine.run (program dep (.readContended wanted)) governor.committed =
      .ok (.observed (r.answer wanted.requestHash), governor.committed)

/-- A completed record is kept over any number of commits. -/
def KeepsCompleted (scope : ID × String × String) (s t : Store) : Prop :=
  ∀ r, s.idempotency.get scope = some r → r.state = .completed → t.idempotency.get scope = some r

theorem KeepsCompleted.refl (scope : ID × String × String) (s : Store) : KeepsCompleted scope s s :=
  fun _ hr _ => hr

theorem KeepsCompleted.trans {u : Store} (h : KeepsCompleted scope s t) (h' : KeepsCompleted scope t u) :
    KeepsCompleted scope s u :=
  fun r hr hstate => h' r (h r hr hstate) hstate

section History

variable {governor : Governor} {log₁ log₂ : List StoreCommit}
  {c c' : StoreCommit}

/-- A completed record has a response that a reader accepts. -/
theorem Reachable.completed_readable (h : Reachable dep governor)
    (hr : governor.committed.idempotency.get scope = some r) (hstate : r.state = .completed) :
    ∃ stored, r.response = some stored ∧ dep.validJSONObject stored.headers = true := by
  obtain ⟨_, _, _, stored, headers, _, _, _, hjsonb, hresponse⟩ :=
    completed_stored h.history hr hstate
  exact ⟨_, hresponse, dep.jsonb_valid _ _ hjsonb⟩

theorem Reachable.laterAcquiresAnswer (h : Reachable dep governor)
    (hr : governor.committed.idempotency.get r.scope = some r) (hstate : r.state = .completed) :
    LaterAcquiresAnswer dep governor r := by
  obtain ⟨stored, hstored, hvalid⟩ := h.completed_readable hr hstate
  have hscan : ∀ hash, scanIdempotency dep hash false r = r.answer hash := by
    intro hash
    by_cases hhash : hash = r.requestHash
    · simp [scanIdempotency, IdempotencyRecord.answer, hhash, hstate, hstored, hvalid]
    · simp [scanIdempotency, IdempotencyRecord.answer, hhash, Ne.symm hhash]
  constructor
  · intro governor' wanted recordID ownerToken now outcome hlive hscope hexpiry hcall
    -- In every governor on the way the record is still there.
    have hkept : ∀ mid, Later dep governor mid → Later dep mid governor' →
        mid.committed.idempotency.get r.scope = some r := by
      intro mid hmid hrest
      have hkeeps := Engine.Reaches.relates_where (disciplined_program dep)
        (R := KeepsCompleted r.scope) (KeepsCompleted.refl _) (fun _ _ _ => KeepsCompleted.trans)
        (C := fun c => AcquiresLive r.scope c = true)
        (fun c hc hlive r hr hstate => completed_kept hc hlive hr hstate) h hmid
        fun c hc => hlive c (Engine.Later.log_subset hrest hc)
      exact hkeeps r hr hstate
    have hacquire := concludes_acquireIdempotency dep recordID ownerToken hscope hstate hexpiry
    cases hcall with
    | refused error hupsert =>
      have hends := hupsert.concludes hacquire hkept
      refine ⟨fun haccepted => ?_, fun _ => ⟨error, rfl⟩⟩
      cases hends.1 haccepted
    | acquired acquisition hupsert =>
      have hends := hupsert.concludes hacquire hkept
      refine ⟨fun haccepted => ?_, fun hrefused => ?_⟩
      · cases hends.1 haccepted
      · obtain ⟨_, herror⟩ := hends.2 hrefused
        cases herror
    | contended mid answer hupsert hread =>
      have hends := hupsert.concludes hacquire fun between hfrom hto =>
        hkept between hfrom (hto.trans hread.later)
      have hanswer := hread.concludes (concludes_readContended dep hscope) fun between hfrom hto =>
        hkept between (hupsert.later.trans hfrom) hto
      rw [hscan] at hanswer
      cases hanswer
      refine ⟨fun _ => rfl, fun hrefused => ?_⟩
      obtain ⟨_, herror⟩ := hends.2 hrefused
      cases herror
  · intro wanted recordID ownerToken now hscope hexpiry haccepted
    have hacquire := concludes_acquireIdempotency dep recordID ownerToken hscope hstate hexpiry
    obtain ⟨_, hends, hupsert⟩ := hacquire.run (E := storeEngine) hr
    obtain ⟨_, rfl, hread⟩ := (concludes_readContended dep hscope).run (E := storeEngine) hr
    rw [hends.1 haccepted] at hupsert
    rw [hscan] at hread
    exact ⟨hupsert, hread⟩

/-- What a commit leaves completed is what every later one finds. -/
theorem Reachable.completed_later (h : Reachable dep governor)
    (hlive : ∀ x ∈ governor.log, AcquiresLive scope x = true)
    (hlog : governor.log = log₁ ++ c :: log₂) (hr : c.after.idempotency.get scope = some r)
    (hstate : r.state = .completed) (hc' : c' ∈ log₂) : c'.before.idempotency.get scope = some r := by
  obtain ⟨log₂, log₃, rfl⟩ := append_of_mem hc'
  refine (hlog ▸ h.history).between (R := KeepsCompleted scope) (KeepsCompleted.refl _)
    (fun _ _ _ => KeepsCompleted.trans) (fun x hx r hr hstate => ?_) r hr hstate
  have hx' : x ∈ governor.log := by
    rw [hlog]
    exact mem_append_right _ (mem_cons_of_mem _ (mem_append_left _ hx))
  exact completed_kept (h.commits hx') (hlive x hx') hr hstate

/-! ### Idempotent admission -/

/-- The commit admits a run and settles the record of the scope with it. -/
def AdmitsUnder (scope : ID × String × String) (c : Commit Store Response Request) : Prop :=
  (∃ admission resolution evidence acquisition stored now,
    c.request = .admitRunIdempotently admission resolution evidence acquisition stored now) ∧
  c.after.idempotency.get scope ≠ c.before.idempotency.get scope

/-- It stores the run, and completes the record of its owner with the response. -/
theorem AdmitsUnder.completes (hadmits : AdmitsUnder scope c)
    (h : storeEngine.Commits (program dep) c.request c.response c.before c.after) :
    ∃ admission resolution evidence acquisition stored headers now r,
      c.request = .admitRunIdempotently admission resolution evidence acquisition stored now ∧
      c.before.runs.get admission.runID = none ∧
      c.after.runs.get admission.runID = some (admittedRun admission) ∧
      c.before.idempotency.get scope = some r ∧ acquisition.owns r = true ∧ dep.jsonb stored.headers = some headers ∧
      c.after.idempotency.get scope =
        some (r.complete { stored with headers := headers } now.stored) := by
  obtain ⟨⟨admission, resolution, evidence, acquisition, stored, now, hrequest⟩, hchanged⟩ := hadmits
  have hmove := commits_recordMove h scope
  rw [hrequest] at h hmove
  have hrun : c.before.runs.get admission.runID = none ∧
      c.after.runs.get admission.runID = some (admittedRun admission) := by
    obtain ⟨_, hexec⟩ := h
    obtain ⟨_, hidempotent, _⟩ := exec_respond hexec
    obtain ⟨_, mid, _, _, _, _, _, _, hadmit, _, _, _, hafter⟩ := exec_admitRunIdempotently hidempotent
    obtain ⟨_, _, _, _, hadmits⟩ := exec_admitRun hadmit
    refine ⟨hadmits.run_fresh, ?_⟩
    rw [hafter, hadmits.store_eq.runs]
    exact Table.get_put_self _ _
  generalize hold : c.before.idempotency.get scope = old at hmove hchanged
  generalize c.after.idempotency.get scope = new at hmove hchanged
  cases hmove with
  | keep => exact absurd rfl hchanged
  | acquire _ _ _ _ hother => cases hother
  | fail _ _ _ hother => cases hother
  | complete _ _ _ headers r hcompletes howns hjsonb =>
    obtain ⟨rfl, rfl, rfl⟩ := hcompletes
    exact ⟨admission, resolution, evidence, acquisition, stored, headers, now, r, hrequest, hrun.1,
      hrun.2, rfl, howns, hjsonb, rfl⟩

/-- After an admission under the scope there is no other. -/
theorem Reachable.not_admitted_again (h : Reachable dep governor)
    (hlive : ∀ x ∈ governor.log, AcquiresLive scope x = true)
    (hlog : governor.log = log₁ ++ c :: log₂) (hadmits : AdmitsUnder scope c) (hc' : c' ∈ log₂) :
    ¬AdmitsUnder scope c' := by
  have hc : c ∈ governor.log := hlog ▸ mem_append_right _ mem_cons_self
  have hmem : c' ∈ governor.log := hlog ▸ mem_append_right _ (mem_cons_of_mem _ hc')
  obtain ⟨_, _, _, _, _, _, _, _, _, _, _, _, _, _, hafter⟩ := hadmits.completes (h.commits hc)
  have hfound := h.completed_later hlive hlog hafter rfl hc'
  have hkept := completed_kept (h.commits hmem) (hlive c' hmem) hfound rfl
  rintro ⟨_, hchanged⟩
  exact hchanged (hkept.trans hfound.symm)

/-- Every call of an owner that commits presents the holder of the record that it settles. -/
theorem Reachable.presents_holder (h : Reachable dep governor)
    (hlog : governor.log = log₁ ++ c :: log₂)
    (hpresents : c.request.PresentsOwner acquisition) : ∃ scope r,
      c.before.idempotency.get scope = some r ∧ r.state = .inProgress ∧
      (holder scope log₁).map IdempotencyAcquisition.credentials = some acquisition.credentials ∧
      c.after.idempotency.get scope ≠ c.before.idempotency.get scope := by
  have hc : c ∈ governor.log := hlog ▸ mem_append_right _ mem_cons_self
  have hbefore := (hlog ▸ h.history).before
  -- It is enough to find the record that the call owned and closed.
  suffices hrow : ∃ r row, c.before.idempotency.get r.scope = some r ∧ acquisition.owns r = true ∧
      row.scope = r.scope ∧ row.state ≠ .inProgress ∧
      c.after.idempotency = c.before.idempotency.put row by
    obtain ⟨r, row, hr, howns, hscope, hclosed, hput⟩ := hrow
    obtain ⟨hsame, hstate⟩ := IdempotencyAcquisition.owns_iff.mp howns
    refine ⟨r.scope, r, hr, hstate, ?_, ?_⟩
    · rw [← credentials_eq_holder hbefore, hr, ← hsame]
      rfl
    · rw [hput, hr, ← hscope, Table.get_put_self]
      intro heq
      exact hclosed ((Option.some.inj heq).symm ▸ hstate)
  obtain ⟨_, hexec⟩ := h.commits hc
  cases hrequest : c.request with
  | completeIdempotency presented stored now =>
    rw [hrequest] at hexec hpresents
    obtain rfl : presented = acquisition := hpresents
    obtain ⟨_, hcomplete, _⟩ := exec_respond hexec
    obtain ⟨r, headers, hr, howns, _, hafter⟩ := exec_completeIdempotency hcomplete
    exact ⟨r, r.complete { stored with headers := headers } now.stored, hr, howns, rfl, nofun,
      by rw [hafter]⟩
  | failIdempotency presented now =>
    rw [hrequest] at hexec hpresents
    obtain rfl : presented = acquisition := hpresents
    obtain ⟨_, hfail, _⟩ := exec_respond hexec
    obtain ⟨r, hr, howns, hafter⟩ := exec_failIdempotency hfail
    exact ⟨r, r.fail now.stored, hr, howns, rfl, nofun, by rw [hafter]⟩
  | admitRunIdempotently admission resolution evidence presented stored now =>
    rw [hrequest] at hexec hpresents
    obtain rfl : presented = acquisition := hpresents
    obtain ⟨_, hrun, _⟩ := exec_respond hexec
    obtain ⟨r, headers, hr, howns, _, _, _, hput⟩ := exec_admits_record hrun
    exact ⟨r, r.complete { stored with headers := headers } now.stored, hr, howns, rfl, nofun, hput⟩
  | _ =>
    rw [hrequest] at hpresents
    exact absurd hpresents id

/-- A call that does not present the holder of a record leaves the record as it is. -/
theorem Reachable.superseded_changes_nothing (h : Reachable dep governor)
    (hlog : governor.log = log₁ ++ c :: log₂)
    (hpresents : c.request.PresentsOwner acquisition)
    (hother : (holder scope log₁).map IdempotencyAcquisition.credentials ≠ some acquisition.credentials) :
    c.after.idempotency.get scope = c.before.idempotency.get scope := by
  have hc : c ∈ governor.log := hlog ▸ mem_append_right _ mem_cons_self
  have hgranted : granted scope c = none := by
    unfold granted
    split
    · rename_i hrequest _
      rw [hrequest] at hpresents
      exact absurd hpresents id
    · rfl
  by_contra hchanged
  obtain ⟨presented, _, hpresented, _, _, hholder⟩ :=
    changes_as_holder (hlog ▸ h.history).before (h.commits hc) hgranted hchanged
  have hsame : presented = acquisition := by
    cases hrequest : c.request with
    | completeIdempotency | failIdempotency | admitRunIdempotently =>
      rw [hrequest] at hpresents hpresented
      exact hpresented.symm.trans hpresents
    | _ =>
      rw [hrequest] at hpresents
      exact absurd hpresents id
  exact hother (hsame ▸ hholder)

end History

/-- At most one run is ever admitted under a key. Its response is what the record holds from then on and
what every later caller with the same request is given; a caller whose acquisition is not the one granted
last neither changes the record nor admits anything under the key, and no call of an owner commits
anywhere except as the current holder of a record. -/
theorem admission_idempotent {governor : Governor} (h : Reachable dep governor) (principalID : ID)
    (key : String)
    (hlive : ∀ c ∈ governor.log, AcquiresLive (principalID, runAdmissionRoute, key) c = true) :
    (∀ log₁ c log₂, governor.log = log₁ ++ c :: log₂ →
      AdmitsUnder (principalID, runAdmissionRoute, key) c →
      (∀ c' ∈ log₁ ++ log₂, ¬AdmitsUnder (principalID, runAdmissionRoute, key) c') ∧
      (∀ c' ∈ log₂, granted (principalID, runAdmissionRoute, key) c' = none) ∧
      ∃ admission resolution evidence acquisition stored headers now r,
        c.request = .admitRunIdempotently admission resolution evidence acquisition stored now ∧
        c.before.runs.get admission.runID = none ∧
        c.after.runs.get admission.runID = some (admittedRun admission) ∧
        dep.jsonb stored.headers = some headers ∧
        governor.committed.idempotency.get (principalID, runAdmissionRoute, key) = some r ∧
        r.response = some { stored with headers := headers } ∧ LaterAcquiresAnswer dep governor r) ∧
    (∀ log₁ c log₂ acquisition, governor.log = log₁ ++ c :: log₂ → c.request.PresentsOwner acquisition →
      ((holder (principalID, runAdmissionRoute, key) log₁).map IdempotencyAcquisition.credentials ≠
        some acquisition.credentials →
        c.after.idempotency.get (principalID, runAdmissionRoute, key) =
          c.before.idempotency.get (principalID, runAdmissionRoute, key) ∧
        ¬AdmitsUnder (principalID, runAdmissionRoute, key) c) ∧
      ∃ scope, (holder scope log₁).map IdempotencyAcquisition.credentials =
        some acquisition.credentials) ∧
    ∀ c ∈ governor.log, ∀ admission resolution evidence acquisition stored now,
      c.request = .admitRunIdempotently admission resolution evidence acquisition stored now →
      ∃ key, AdmitsUnder (admission.requestedBy, runAdmissionRoute, key) c := by
  refine ⟨fun log₁ c log₂ hlog hadmits => ⟨fun c' hc' hadmits' => ?_, fun c' hc' => ?_, ?_⟩,
    fun log₁ c log₂ acquisition hlog hpresents => ⟨fun hother => ?_, ?_⟩,
    fun c hc admission resolution evidence acquisition stored now hrequest => ?_⟩
  · rcases mem_append.mp hc' with hc' | hc'
    · -- An earlier one would have excluded this one.
      obtain ⟨first, mid, rfl⟩ := append_of_mem hc'
      rw [append_assoc, cons_append] at hlog
      exact h.not_admitted_again hlive hlog hadmits'
        (mem_append_right _ mem_cons_self) hadmits
    · exact h.not_admitted_again hlive hlog hadmits hc' hadmits'
  · have hc : c ∈ governor.log := hlog ▸ mem_append_right _ mem_cons_self
    have hmem : c' ∈ governor.log := hlog ▸ mem_append_right _ (mem_cons_of_mem _ hc')
    obtain ⟨_, _, _, _, _, _, _, _, _, _, _, _, _, _, hafter⟩ := hadmits.completes (h.commits hc)
    exact commits_contended (h.commits hmem) (hlive c' hmem)
      (h.completed_later hlive hlog hafter rfl hc') rfl
  · have hc : c ∈ governor.log := hlog ▸ mem_append_right _ mem_cons_self
    obtain ⟨admission, resolution, evidence, acquisition, stored, headers, now, r, hrequest, hfresh, hrun,
      hr, _, hjsonb, hafter⟩ := hadmits.completes (h.commits hc)
    have hend := h.history.since (R := KeepsCompleted (principalID, runAdmissionRoute, key))
      (KeepsCompleted.refl _) (fun _ _ _ => KeepsCompleted.trans)
      (fun x hx r hr hstate => completed_kept (h.commits hx) (hlive x hx) hr hstate) c hc _ hafter rfl
    refine ⟨admission, resolution, evidence, acquisition, stored, headers, now, _, hrequest, hfresh, hrun,
      hjsonb, hend, rfl, h.laterAcquiresAnswer ?_ rfl⟩
    have hscope := Table.key_of_get hend
    rw [hscope]
    exact hend
  · have hkept := h.superseded_changes_nothing hlog hpresents hother
    exact ⟨hkept, fun hadmits => hadmits.2 hkept⟩
  · obtain ⟨scope, _, _, _, hholder, _⟩ := h.presents_holder hlog hpresents
    exact ⟨scope, hholder⟩
  · obtain ⟨_, hexec⟩ := h.commits hc
    rw [hrequest] at hexec
    obtain ⟨_, hrun, _⟩ := exec_respond hexec
    obtain ⟨r, headers, hr, howns, hprincipal, hroute, _, hput⟩ := exec_admits_record hrun
    obtain ⟨_, hstate⟩ := IdempotencyAcquisition.owns_iff.mp howns
    have hscope : r.scope = (admission.requestedBy, runAdmissionRoute, r.idempotencyKey) := by
      rw [← hprincipal, ← hroute]
      rfl
    refine ⟨r.idempotencyKey, ⟨_, _, _, _, _, _, hrequest⟩, ?_⟩
    rw [← hscope, hput, hr,
      show r.scope = (r.complete { stored with headers := headers } now.stored).scope from rfl,
      Table.get_put_self]
    intro heq
    rw [← Option.some.inj heq] at hstate
    cases hstate

/-- A caller acquires the key and loses its lease, a second one acquires it and admits the run; the first
comes late, and a third caller asks again. -/
def Sample.retried : List Request :=
  let wanted : IdempotencyRequest :=
    ⟨.ofNat 4, runAdmissionRoute, "retry", digest, 10000000000, 100000000000⟩
  let first : IdempotencyAcquisition := ⟨.acquired, .ofNat 50, .ofNat 51, none⟩
  let second : IdempotencyAcquisition := ⟨.acquired, .ofNat 52, .ofNat 53, none⟩
  let admitted (run : Nat) (owner : IdempotencyAcquisition) (headers : String) : Request :=
    .admitRunIdempotently (admission run none) (resolution run (("max_tool_calls", .int 10) :: limits))
      (evidence run) owner ⟨201, headers, [1, 2]⟩ (instant 121)
  provision ++ [.acquireIdempotency wanted (.ofNat 50) (.ofNat 51) (instant 100),
    .acquireIdempotency wanted (.ofNat 52) (.ofNat 53) (instant 120),
    admitted 100 second "\x7b\"Location\":[\"/v1/runs/100\"]\x7d",
    admitted 200 first "\x7b\"Location\":[\"/v1/runs/200\"]\x7d",
    .failIdempotency first (instant 122),
    .acquireIdempotency wanted (.ofNat 54) (.ofNat 55) (instant 130), .readContended wanted]

theorem Sample.retried_evaluated :
    ((after retried).log.all
      (AcquiresLive (.ofNat 4, runAdmissionRoute, "retry"))) = true ∧
    ((after retried).log.any fun c => match c.request with
      | .admitRunIdempotently _ _ _ _ _ _ => decide (c.after.idempotency.get
          (.ofNat 4, runAdmissionRoute, "retry") ≠ c.before.idempotency.get
          (.ofNat 4, runAdmissionRoute, "retry"))
      | _ => false) = true := by
  decide +kernel

theorem admission_idempotent_retried : ∃ log₁ c log₂,
    (after retried).log = log₁ ++ c :: log₂ ∧
    AdmitsUnder (.ofNat 4, runAdmissionRoute, "retry") c ∧
    ∀ c' ∈ log₁ ++ log₂, ¬AdmitsUnder (.ofNat 4, runAdmissionRoute, "retry") c' := by
  obtain ⟨hlive, hany⟩ := retried_evaluated
  have hidempotent := admission_idempotent (reachable retried) (.ofNat 4) "retry"
    (List.all_eq_true.mp hlive)
  obtain ⟨c, hc, hadmits⟩ := List.any_eq_true.mp hany
  split at hadmits
  · rename_i hrequest
    obtain ⟨log₁, log₂, hlog⟩ := append_of_mem hc
    have hunder : AdmitsUnder (.ofNat 4, runAdmissionRoute, "retry") c :=
      ⟨⟨_, _, _, _, _, _, hrequest⟩, of_decide_eq_true hadmits⟩
    exact ⟨log₁, c, log₂, hlog, hunder, (hidempotent.1 log₁ c log₂ hlog hunder).1⟩
  · cases hadmits

/-! ### The protocol of one record -/

/-- A record names the acquisition that was granted last, and only a call that presents it completes or
fails the record. It passes to another owner only for the same request, and only when its owner failed or
let the lease end. A completed record keeps the status and the body that its owner gave and the headers as
the column stores them; later callers are given exactly these if their request is the same, and a conflict
if it is not. -/
theorem idempotency_record_protocol {governor : Governor} (h : Reachable dep governor)
    (scope : ID × String × String) (hlive : ∀ c ∈ governor.log, AcquiresLive scope c = true) :
    (∀ log₁ c log₂, governor.log = log₁ ++ c :: log₂ →
      (c.before.idempotency.get scope).map IdempotencyRecord.credentials =
        (holder scope log₁).map IdempotencyAcquisition.credentials ∧
      (∀ acquisition, c.request.PresentsOwner acquisition →
        (holder scope log₁).map IdempotencyAcquisition.credentials ≠ some acquisition.credentials →
        c.after.idempotency.get scope = c.before.idempotency.get scope) ∧
      (∀ r, c.before.idempotency.get scope = some r →
        (c.after.idempotency.get scope).map IdempotencyRecord.credentials ≠ some r.credentials →
        ∃ wanted recordID ownerToken now,
          c.request = .acquireIdempotency wanted recordID ownerToken now ∧
          r.requestHash = wanted.requestHash ∧
          (r.state = .failed ∨ (r.state = .inProgress ∧ r.lockedUntil ≤ now.stored))) ∧
      ∀ r, c.after.idempotency.get scope = some r → r.state = .completed →
        ∀ c' ∈ log₂, granted scope c' = none ∧ c'.after.idempotency.get scope = some r) ∧
    ∀ r, governor.committed.idempotency.get scope = some r → r.state = .completed →
      LaterAcquiresAnswer dep governor r ∧ ∃ c ∈ governor.log, ∃ acquisition stored headers now,
        c.request.Completes acquisition stored now ∧ c.after.idempotency.get scope = some r ∧
        dep.jsonb stored.headers = some headers ∧
        r.response = some { stored with headers := headers } := by
  refine ⟨fun log₁ c log₂ hlog => ?_, fun r hr hstate => ⟨?_, completed_stored h.history hr hstate⟩⟩
  · have hc : c ∈ governor.log := hlog ▸ mem_append_right _ mem_cons_self
    refine ⟨credentials_eq_holder (hlog ▸ h.history).before scope,
      fun acquisition hpresents hother => h.superseded_changes_nothing hlog hpresents hother,
      fun r hr hpassed => ?_, fun r hr hstate c' hc' => ?_⟩
    · cases hgranted : granted scope c with
      | none =>
        have hsame := credentials_of_not_granted (h.commits hc) hgranted
        rw [hr] at hsame
        exact absurd hsame hpassed
      | some acquisition =>
        obtain ⟨wanted, recordID, ownerToken, now, hrequest, hscope, _, hold, _⟩ :=
          commits_granted (h.commits hc) hgranted
        have hexpiry := expiry_of_acquiresLive (hlive c hc) hrequest hscope hr
        exact ⟨wanted, recordID, ownerToken, now, hrequest,
          IdempotencyRecord.reacquirable_live hexpiry (hold r hr)⟩
    · have hmem : c' ∈ governor.log := hlog ▸ mem_append_right _ (mem_cons_of_mem _ hc')
      have hfound := h.completed_later hlive hlog hr hstate hc'
      exact ⟨commits_contended (h.commits hmem) (hlive c' hmem) hfound hstate,
        completed_kept (h.commits hmem) (hlive c' hmem) hfound hstate⟩
  · have hscope : r.scope = scope := Table.key_of_get hr
    subst hscope
    exact h.laterAcquiresAnswer hr hstate

/-- The headers of the response as a program writes them, without spaces. -/
def Sample.headers : String := "\x7b\"Content-Type\":[\"application/json\"]\x7d"

/-- A caller completes its request, and the same request comes again. -/
def Sample.completed : List Request :=
  let wanted : IdempotencyRequest := ⟨.ofNat 4, "/v1/runs", "again", digest, 10000000000, 100000000000⟩
  provision ++ [.acquireIdempotency wanted (.ofNat 50) (.ofNat 51) (instant 100),
    .completeIdempotency ⟨.acquired, .ofNat 50, .ofNat 51, none⟩ ⟨201, headers, [1, 2]⟩ (instant 101),
    .acquireIdempotency wanted (.ofNat 52) (.ofNat 53) (instant 130), .readContended wanted]

theorem Sample.completed_evaluated :
    ((after completed).log.all (AcquiresLive (.ofNat 4, "/v1/runs", "again"))) = true ∧
    ((after completed).committed.idempotency.get (.ofNat 4, "/v1/runs", "again")).any
      (fun r => decide (r.state = .completed)) = true ∧
    ((after completed).log.any fun c => match c.request with
      | .completeIdempotency acquisition stored _ =>
        acquisition.recordID = .ofNat 50 && stored.headers = headers
      | _ => false) = true ∧
    ((after completed).log.any fun c => match c.response with
      | .observed (.ok answer) => answer.outcome = .replay && answer.recordID = .ofNat 50 &&
          answer.response.any fun stored => stored.headers != headers
      | _ => false) = true := by
  decide +kernel

theorem idempotency_record_protocol_completed : ∃ r,
    (after completed).committed.idempotency.get (.ofNat 4, "/v1/runs", "again") = some r ∧
    r.state = .completed ∧
    LaterAcquiresAnswer deployment (after completed) r := by
  obtain ⟨hlive, hrow, _⟩ := completed_evaluated
  rw [Option.any_eq_true] at hrow
  obtain ⟨r, hr, hstate⟩ := hrow
  have hprotocol := idempotency_record_protocol (reachable completed)
    (.ofNat 4, "/v1/runs", "again") (List.all_eq_true.mp hlive)
  exact ⟨r, hr, of_decide_eq_true hstate, (hprotocol.2 r hr (of_decide_eq_true hstate)).1⟩

/-- The replayed headers are not the bytes that the owner completed the record with. -/
theorem replayed_headers_rewritten : ∃ c ∈ (after completed).log,
    ∃ c' ∈ (after completed).log, ∃ acquisition stored now answer replayed,
      c.request = .completeIdempotency acquisition stored now ∧ c'.response = .observed (.ok answer) ∧
      answer.outcome = .replay ∧ answer.recordID = acquisition.recordID ∧
      answer.response = some replayed ∧ replayed.headers ≠ stored.headers := by
  obtain ⟨_, _, hcomplete, hreplay⟩ := completed_evaluated
  obtain ⟨c, hc, hcompletes⟩ := List.any_eq_true.mp hcomplete
  obtain ⟨c', hc', hanswer⟩ := List.any_eq_true.mp hreplay
  split at hcompletes
  · rename_i acquisition stored now hrequest
    rw [Bool.and_eq_true, decide_eq_true_eq, decide_eq_true_eq] at hcompletes
    split at hanswer
    · rename_i answer hresponse
      simp only [Bool.and_eq_true, decide_eq_true_eq, Option.any_eq_true, bne_iff_ne] at hanswer
      obtain ⟨⟨houtcome, hrecord⟩, replayed, hreplayed, hheaders⟩ := hanswer
      exact ⟨c, hc, c', hc', acquisition, stored, now, answer, replayed, hrequest, hresponse, houtcome,
        hrecord.trans hcompletes.1.symm, hreplayed, hcompletes.2 ▸ hheaders⟩
    · cases hanswer
  · cases hcompletes

end AgentGovernor
