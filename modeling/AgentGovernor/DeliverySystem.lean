import AgentGovernor.DeliveryEvidence

/-! Publishers and exporters on one database. The requests of both and of those who append messages, what
each of them commits, and that they keep to their locks; the rest is a history of such commits. -/

namespace AgentGovernor

open Ledger Table Handle Transaction Engine List Option

inductive DeliveryRequest where
  | appendMessage (id : ID) (content : OutboxContent) (occurredAt availableAt : Int)
  | claimBatch (config : OutboxConfig) (now : Time) (token : ID) (skipped : List ID)
  | recordSend (config : OutboxConfig) (message : ClaimedMessage) (result : SendResult) (jitter : Int)
      (now : Time)
  | ensureCheckpoint (sinkID : String) (now : Time)
  | pendingEvidence (sinkID : String)
  | claimCandidate (sinkID : String) (now : Time) (token : ID) (lease : Int) (hints : List ID)
  | completeDelivery (claim : ClaimedDelivery) (receipt : SinkReceipt)
  | releaseDelivery (claim : ClaimedDelivery) (token : ID)

inductive DeliveryResponse where
  | done
  | claimed (messages : List ClaimedMessage)
  | pending (ids : List ID)
  | offered (result : Except Failure (Option ClaimedDelivery))
  deriving DecidableEq

/-- A message as the transactions that append it leave it. -/
def freshMessage (id : ID) (content : OutboxContent) (occurredAt availableAt : Int) : OutboxRow :=
  ⟨id, content, occurredAt, availableAt, none, 0, none, none, none, none⟩

def appendMessage (id : ID) (content : OutboxContent) (occurredAt availableAt : Int) : DeliveryOp Unit :=
  messageRows.insert [.message id] (freshMessage id content occurredAt availableAt) (fun r => r.id = id)
    (.database "append outbox message")

def deliveryProgram (format : EvidenceFormat) : DeliveryRequest → DeliveryOp DeliveryResponse
  | .appendMessage id content occurredAt availableAt =>
    (appendMessage id content occurredAt availableAt).bind fun _ => .pure .done
  | .claimBatch config now token skipped =>
    (claimBatch config now token skipped).bind fun messages => .pure (.claimed messages)
  | .recordSend config message result jitter now =>
    (recordSend config message result jitter now).bind fun _ => .pure .done
  | .ensureCheckpoint sinkID now => (ensureCheckpoint sinkID now).bind fun _ => .pure .done
  | .pendingEvidence sinkID => (pendingEvidence sinkID).bind fun ids => .pure (.pending ids)
  | .claimCandidate sinkID now token lease hints =>
    (claimCandidate format sinkID now token lease hints).bind fun result => .pure (.offered result)
  | .completeDelivery claim receipt => (completeDelivery format claim receipt).bind fun _ => .pure .done
  | .releaseDelivery claim token => (releaseDelivery claim token).bind fun _ => .pure .done

variable {format : EvidenceFormat} {held held' : List DeliveryLock} {s t : DeliveryStore}

/-! ### Lock discipline -/

theorem messages_keyed : Handle.Keyed deliveryEngine OutboxRow.id DeliveryLock.message :=
  ⟨⟨fun _ => rfl, fun _ => rfl⟩, fun _ => rfl⟩

theorem checkpoints_keyed : Handle.Keyed deliveryEngine SinkCheckpoint.sinkID DeliveryLock.sink :=
  ⟨⟨fun _ => rfl, fun _ => rfl⟩, fun _ => rfl⟩

theorem wellLocked_appendMessage {id : ID} {content : OutboxContent} {occurredAt availableAt : Int} :
    deliveryEngine.WellLocked (appendMessage id content occurredAt availableAt) held fun _ _ => True :=
  messages_keyed.wellLocked_insert (by simp [freshMessage]) (fun r => by simp [freshMessage]) trivial

variable {config : OutboxConfig} {now : Time} {token : ID}

variable {skipped : List ID}

theorem wellLocked_claimBatch :
    deliveryEngine.WellLocked (claimBatch config now token skipped) held fun _ _ => True := by
  refine .require fun _ => ?_
  refine .snapshot fun candidates => ?_
  refine WellLocked.andThen (wellLocked_traverse candidates fun id _ held _ => ?_) fun _ _ _ _ => trivial
  refine messages_keyed.wellLocked_update (by simp) fun old a r hold hr => ⟨?_, trivial⟩
  split_ifs at hr
  cases hr
  exact hold

variable {m : ClaimedMessage}

variable {change : OutboxRow → OutboxRow} {error : Failure}

theorem wellLocked_markMessage
    (hchange : ∀ r, (change r).id = r.id) :
    deliveryEngine.WellLocked (markMessage m change error) held fun _ _ => True := by
  refine messages_keyed.wellLocked_update (by simp) fun old a r hold hr => ⟨?_, trivial⟩
  split_ifs at hr
  cases hr
  exact (hchange old).trans hold

variable {jitter : Int} {result : SendResult}

theorem wellLocked_recordSend :
    deliveryEngine.WellLocked (recordSend config m result jitter now) held fun _ _ => True := by
  cases result with
  | accepted => exact wellLocked_markMessage fun _ => rfl
  | failed classified => exact wellLocked_markMessage fun _ => rfl

variable {sinkID : String}

theorem wellLocked_ensureCheckpoint :
    deliveryEngine.WellLocked (ensureCheckpoint sinkID now) held fun _ _ => True := by
  refine checkpoints_keyed.wellLocked_upsertWhere (by simp) fun old a row hold hrow => ⟨?_, trivial⟩
  intro c hc
  cases old with
  | some _ =>
    cases hrow
    cases hc
  | none =>
    dsimp only at hrow
    split_ifs at hrow
    cases hrow
    cases hc
    rfl

variable {hints : List ID} {lease : Int}

theorem wellLocked_claimCandidate :
    deliveryEngine.WellLocked (claimCandidate format sinkID now token lease hints) held
      fun _ _ => True := by
  refine .snapshot fun candidate => ?_
  cases candidate with
  | none => trivial
  | some candidate =>
    refine WellLocked.bind (checkpoints_keyed.wellLocked_upsertWhere (by simp)
      fun old a row hold hrow => ⟨fun c hc => ?_, ?_⟩)
    · cases old with
      | none =>
        cases hrow
        cases hc
      | some c' =>
        dsimp only at hrow
        split_ifs at hrow
        · cases hrow
          cases hc
          exact hold c' rfl
        · cases hrow
          cases hc
    · cases a with
      | none => trivial
      | some _ => trivial

variable {row : ReceiptRow}

/-- Both unique indexes are held, so no session can bring about a receipt that clashes. -/
theorem wellLocked_insertReceipt :
    deliveryEngine.WellLocked (insertReceipt row) held fun _ _ => True := by
  refine .snapshot fun _ => ?_
  refine .require fun _ => ?_
  refine wellLocked_insert (subset_append_left _ _) (fun r hr => ?_) (fun r hr => ?_) trivial
  · have hkey : r.sinkID = row.sinkID ∧ r.sequence = row.sequence := Prod.mk.inj hr
    simp [hkey]
  · simp only [Bool.and_eq_true, decide_eq_true_eq, Bool.or_eq_true] at hr
    obtain ⟨hsink, hsequence | hevent⟩ := hr
    · exact Or.inl ⟨.receipt r.sinkID r.sequence, by simp [updateLocks], _,
        by simp [hsink, hsequence], rfl⟩
    · exact Or.inl ⟨.receiptOf r.sinkID r.eventID, by simp [updateLocks], _,
        by simp [hsink, hevent], rfl⟩

theorem wellLocked_advanceCheckpoint :
    deliveryEngine.WellLocked (advanceCheckpoint row) held fun _ _ => True := by
  refine checkpoints_keyed.wellLocked_update (by simp) fun old a r hold hr => ⟨?_, trivial⟩
  cases hr
  exact hold

theorem wellLocked_publishReceived :
    deliveryEngine.WellLocked (publishReceived row) held fun _ _ => True := by
  refine messages_keyed.wellLocked_upsertWhere (by simp) fun old a row hold hrow => ⟨?_, trivial⟩
  intro r hr
  cases old with
  | none =>
    cases hrow
    cases hr
  | some r' =>
    dsimp only at hrow
    split_ifs at hrow
    · cases hrow
      cases hr
    · cases hrow
      cases hr
      exact hold r' rfl

variable {claim : ClaimedDelivery} {receipt : SinkReceipt}

theorem wellLocked_completeDelivery :
    deliveryEngine.WellLocked (completeDelivery format claim receipt) held fun _ _ => True := by
  refine .ofExcept fun _ _ => ?_
  refine .require fun _ => ?_
  refine .snapshot fun _ => ?_
  refine .require fun _ => ?_
  refine WellLocked.andThen wellLocked_insertReceipt fun _ _ _ _ => ?_
  exact WellLocked.andThen wellLocked_advanceCheckpoint fun _ _ _ _ => wellLocked_publishReceived

theorem wellLocked_releaseDelivery :
    deliveryEngine.WellLocked (releaseDelivery claim token) held fun _ _ => True := by
  refine checkpoints_keyed.wellLocked_update (by simp) fun old a r hold hr => ⟨?_, trivial⟩
  split at hr
  · split_ifs at hr
    cases hr
    exact hold
  · cases hr

theorem wellLocked_deliveryProgram (format : EvidenceFormat) (request : DeliveryRequest) :
    deliveryEngine.WellLocked (deliveryProgram format request) [] fun _ _ => True := by
  cases request with
  | appendMessage => exact wellLocked_appendMessage.andThen fun _ _ _ _ => trivial
  | claimBatch => exact wellLocked_claimBatch.andThen fun _ _ _ _ => trivial
  | recordSend => exact wellLocked_recordSend.andThen fun _ _ _ _ => trivial
  | ensureCheckpoint => exact wellLocked_ensureCheckpoint.andThen fun _ _ _ _ => trivial
  | pendingEvidence => exact WellLocked.bind (wellLocked_snapshot fun _ => trivial)
  | claimCandidate => exact wellLocked_claimCandidate.andThen fun _ _ _ _ => trivial
  | completeDelivery => exact wellLocked_completeDelivery.andThen fun _ _ _ _ => trivial
  | releaseDelivery => exact wellLocked_releaseDelivery.andThen fun _ _ _ _ => trivial

/-! ### What commits -/

/-- What the publisher writes by the answer of the sink. -/
def OutboxRow.recorded (config : OutboxConfig) (m : ClaimedMessage) (jitter : Int) (now : Time)
    (r : OutboxRow) : SendResult → OutboxRow
  | .accepted => r.published now.stored
  | .failed classified => r.failed (classify classified).1 (gaveUp config m classified)
      (⟨now.nanos + retryDelay config jitter m.attempt, now.utc⟩ : Time).stored now.stored

variable {u : Unit}

theorem exec_markMessage
    (h : deliveryEngine.Exec (markMessage m change error) held s u held' t) :
    ∃ r, s.messages.get m.id = some r ∧ m.holds r = true ∧ (change r).check = true ∧
      t = s.putMessage (change r) := by
  obtain ⟨r, row, hr, hrow, _, rfl⟩ := exec_update.mp h
  split_ifs at hrow with hholds hcheck
  cases hrow
  exact ⟨r, hr, hholds, hcheck, rfl⟩

theorem exec_recordSend
    (h : deliveryEngine.Exec (recordSend config m result jitter now) held s u held' t) :
    ∃ r, s.messages.get m.id = some r ∧ m.holds r = true ∧
      (r.recorded config m jitter now result).check = true ∧
      t = s.putMessage (r.recorded config m jitter now result) := by
  cases result with
  | accepted => exact exec_markMessage h
  | failed classified => exact exec_markMessage h

theorem claimCandidates_nodup (config : OutboxConfig) (now : Int) (skipped : List ID)
    (s : DeliveryStore) : (claimCandidates config now skipped s).Nodup := by
  have hrows : ((s.messages.rows.filter fun r => r.ready now && !skipped.contains r.id).map
      OutboxRow.id).Nodup :=
    s.messages.nodup.sublist (filter_sublist.map OutboxRow.id)
  refine List.Nodup.sublist ((take_sublist _ _).map OutboxRow.id) ?_
  exact ((perm_insertionSort _ _).map OutboxRow.id).nodup_iff.mpr hrows

/-- What a batch of claims does: the messages that it returns were ready and are claimed under its token,
and the others stay. -/
structure ClaimsBatch (config : OutboxConfig) (now : Int) (token : ID) (messages : List ClaimedMessage)
    (s t : DeliveryStore) : Prop where
  checkpoints : t.checkpoints = s.checkpoints
  receipts : t.receipts = s.receipts
  rows : ∀ id, t.messages.get id = s.messages.get id ∨ ∃ r, s.messages.get id = some r ∧
    r.ready now = true ∧ r.attemptCount < maxInteger ∧
    t.messages.get id = some (r.claimed config now token) ∧
    (r.claimed config now token).message token ∈ messages
  returned : ∀ m ∈ messages, ∃ r, s.messages.get m.id = some r ∧
    t.messages.get m.id = some (r.claimed config now token) ∧
    m = (r.claimed config now token).message token

variable {messages : List ClaimedMessage}

theorem ClaimsBatch.perm {now : Int}
    {messages' : List ClaimedMessage} (h : ClaimsBatch config now token messages s t)
    (hperm : messages'.Perm messages) : ClaimsBatch config now token messages' s t where
  checkpoints := h.checkpoints
  receipts := h.receipts
  rows id := by
    rcases h.rows id with hsame | ⟨r, hr, hready, hcount, ht, hmem⟩
    · exact Or.inl hsame
    · exact Or.inr ⟨r, hr, hready, hcount, ht, hperm.mem_iff.mpr hmem⟩
  returned m hm := h.returned m (hperm.mem_iff.mp hm)

theorem exec_claimMessages {now : Int} {ids : List ID}
    (hids : ids.Nodup)
    (h : deliveryEngine.Exec (.traverse ids (claimMessage config now token)) held s messages held' t) :
    ClaimsBatch config now token messages s t ∧ (∀ m ∈ messages, m.id ∈ ids) ∧
      ∀ id, id ∉ ids → t.messages.get id = s.messages.get id := by
  induction ids generalizing held s messages with
  | nil =>
    obtain ⟨rfl, _, rfl⟩ := exec_traverse_nil.mp h
    exact ⟨⟨rfl, rfl, fun _ => Or.inl rfl, nofun⟩, nofun, fun _ _ => rfl⟩
  | cons id ids ih =>
    obtain ⟨hnot, hrest⟩ := nodup_cons.mp hids
    obtain ⟨m, _, u, ms, hfirst, hloop, rfl⟩ := exec_traverse_cons.mp h
    obtain ⟨r, row, hr, hrow, _, rfl⟩ := exec_update.mp hfirst
    split_ifs at hrow with hready hcount
    cases hrow
    have hrid : r.id = id := key_of_get hr
    -- The rest of the loop does not come back to this message.
    obtain ⟨hclaims, hmem, hothers⟩ := ih hrest hloop
    have hput : ∀ i, (deliveryEngine.apply (messageRows.write (r.claimed config now token)) s :
        DeliveryStore).messages.get i = if i = id then some (r.claimed config now token)
          else s.messages.get i := by
      intro i
      have hget := s.messages.get_put (r.claimed config now token) i
      rwa [show (r.claimed config now token).id = id from hrid] at hget
    have hkept : t.messages.get id = some (r.claimed config now token) := by
      rw [hothers id hnot, hput, if_pos rfl]
    refine ⟨⟨hclaims.checkpoints, hclaims.receipts, fun i => ?_, fun m hm => ?_⟩, fun m hm => ?_,
      fun i hi => ?_⟩
    · by_cases hi : i = id
      · subst hi
        exact Or.inr ⟨r, hr, hready, hcount, hkept, mem_cons_self⟩
      · have hsame := hput i
        rw [if_neg hi] at hsame
        rcases hclaims.rows i with hrow | ⟨r', hr', hready', hcount', ht, hm⟩
        · exact Or.inl (hrow.trans hsame)
        · exact Or.inr ⟨r', hsame.symm.trans hr', hready', hcount', ht, mem_cons_of_mem _ hm⟩
    · rcases mem_cons.mp hm with rfl | hm
      · refine ⟨r, ?_, ?_, rfl⟩
        · rw [show ((r.claimed config now token).message token).id = id from hrid]
          exact hr
        · rw [show ((r.claimed config now token).message token).id = id from hrid]
          exact hkept
      · obtain ⟨r', hr', ht, hmessage⟩ := hclaims.returned m hm
        have hne : m.id ≠ id := fun heq => hnot (heq ▸ hmem m hm)
        have hsame := hput m.id
        rw [if_neg hne] at hsame
        exact ⟨r', hsame.symm.trans hr', ht, hmessage⟩
    · rcases mem_cons.mp hm with rfl | hm
      · exact hrid ▸ mem_cons_self
      · exact mem_cons_of_mem _ (hmem m hm)
    · have hne : i ≠ id := fun heq => hi (heq ▸ mem_cons_self)
      rw [hothers i fun hmem => hi (mem_cons_of_mem _ hmem), hput, if_neg hne]

theorem exec_claimBatch
    (h : deliveryEngine.Exec (claimBatch config now token skipped) held s messages held' t) :
    ClaimsBatch config now.stored token messages s t := by
  obtain ⟨_, ⟨seen, _, rfl⟩, h₂⟩ := exec_bind_snapshot.mp h.checked
  obtain ⟨_, _, _, hloop, rfl, rfl, rfl⟩ := exec_bind.mp h₂
  exact (exec_claimMessages (claimCandidates_nodup _ _ _ seen) hloop).1.perm
    (perm_insertionSort _ _)

variable {seen : DeliveryStore}

/-- What a snapshot saw has only been added to since. -/
theorem keeps_of_interference (h : deliveryEngine.Interference held seen s) :
    seen.Keeps s :=
  h.relates DeliveryStore.Keeps.refl (fun _ _ _ => DeliveryStore.Keeps.trans)
    fun _ _ ⟨_, _, _, hpromise⟩ => hpromise

variable {c : SinkCheckpoint}

theorem evidenceCandidate_spec {now : Int} {event : OutboxRow}
    (h : evidenceCandidate sinkID now hints s = some (event, c)) :
    s.checkpoints.get sinkID = some c ∧ s.messages.get event.id = some event ∧
      (∀ claim, c.claim = some claim → claim.eventID = event.id) ∧ received s sinkID event.id = false := by
  unfold evidenceCandidate at h
  obtain ⟨c', hc', h⟩ := bind_eq_some_iff.mp h
  dsimp only at h
  split_ifs at h
  obtain ⟨event', hhead, hpair⟩ := map_eq_some_iff.mp h
  cases hpair
  have hmem := mem_of_mem_head? hhead
  rw [mem_insertionSort, mem_filter] at hmem
  obtain ⟨hrow, hchoice⟩ := hmem
  rw [Bool.and_eq_true, Bool.not_eq_true'] at hchoice
  refine ⟨hc', get_of_mem hrow, fun claim hclaim => ?_, hchoice.2⟩
  rw [hclaim, elim_some] at hchoice
  have hsame : event.id = claim.eventID := by simpa using hchoice.1
  exact hsame.symm

/-- What a claim under a new token writes. -/
def SinkCheckpoint.claimed (token eventID : ID) (now lease : Int) (c : SinkCheckpoint) : SinkCheckpoint :=
  { c with
    claim := some ⟨token, eventID, .at (now + lease)⟩
    updatedAt := now }

/-- The delivery that is offered from a checkpoint. -/
def offeredDelivery (format : EvidenceFormat) (c : SinkCheckpoint) (event : OutboxRow) :
    Except Failure Delivery :=
  newDelivery format c.sinkID (c.lastSequence + 1) (c.lastEventHash.getD "") event.id
    event.content.payload

/-- What a claim does with a snapshot: nothing, or it takes the candidate of the snapshot for the checkpoint, if
that has not moved since. -/
theorem exec_claimCandidate_seen
    {next : DeliveryStore → DeliveryOp (Except Failure (Option ClaimedDelivery))}
    {result : Except Failure (Option ClaimedDelivery)}
    (hnext : claimCandidate format sinkID now token lease hints = .peek next)
    (h : deliveryEngine.Exec (next seen) held s result held' t) :
    (result = .ok none ∧ t = s) ∨ ∃ c event before,
      evidenceCandidate sinkID now.stored hints seen = some (event, before) ∧
      s.checkpoints.get sinkID = some c ∧ c.unmoved before = true ∧
      result = (newDelivery format sinkID (c.lastSequence + 1) (c.lastEventHash.getD "") event.id
        event.content.payload).map (fun delivery => some ⟨delivery, token⟩) ∧
      t = s.putCheckpoint (c.claimed token event.id now.stored lease) := by
  cases hnext
  simp only [Tx.bind] at h
  cases hfound : evidenceCandidate sinkID now.stored hints seen with
  | none =>
    rw [hfound] at h
    obtain ⟨rfl, _, rfl⟩ := h
    exact Or.inl ⟨rfl, rfl⟩
  | some candidate =>
    obtain ⟨event, before⟩ := candidate
    rw [hfound] at h
    obtain ⟨found, _, _, hupdate, h₂⟩ := exec_bind.mp h
    obtain ⟨row, hrow, _, rfl⟩ := exec_upsertWhere.mp hupdate
    cases hc : s.checkpoints.get sinkID with
    | none =>
      rw [show (checkpointRows.table s).get sinkID = none from hc] at hrow
      cases hrow
      obtain ⟨rfl, _, rfl⟩ := h₂
      exact Or.inl ⟨rfl, rfl⟩
    | some c =>
      rw [show (checkpointRows.table s).get sinkID = some c from hc] at hrow
      dsimp only at hrow
      split_ifs at hrow with hunmoved hfits
      · cases hrow
        obtain ⟨rfl, _, rfl⟩ := h₂
        exact Or.inr ⟨c, event, before, rfl, rfl, hunmoved, rfl, rfl⟩
      · cases hrow
        obtain ⟨rfl, _, rfl⟩ := h₂
        exact Or.inl ⟨rfl, rfl⟩

/-- A claim either finds nothing to do, or continues its checkpoint with an event: the one that was
claimed before, if there was one. -/
theorem exec_claimCandidate
    {result : Except Failure (Option ClaimedDelivery)}
    (h : deliveryEngine.Exec (claimCandidate format sinkID now token lease hints) held s result held' t) :
    (result = .ok none ∧ t = s) ∨ ∃ c event, s.checkpoints.get sinkID = some c ∧
      s.messages.get event.id = some event ∧
      (∀ claim, c.claim = some claim → claim.eventID = event.id) ∧
      result = (offeredDelivery format c event).map (fun delivery => some ⟨delivery, token⟩) ∧
      t = s.putCheckpoint (c.claimed token event.id now.stored lease) := by
  obtain ⟨seen, hseen, hexec⟩ := h
  obtain ⟨hresult, ht⟩ | ⟨c, event, before, hfound, hc, hunmoved, hresult, ht⟩ :=
    exec_claimCandidate_seen rfl hexec
  · exact Or.inl ⟨hresult, ht⟩
  · obtain ⟨hbefore, hevent, hclaimed, _⟩ := evidenceCandidate_spec hfound
    simp only [SinkCheckpoint.unmoved, Bool.and_eq_true, decide_eq_true_eq] at hunmoved
    -- The message is still there, with the payload that the snapshot had.
    obtain ⟨event', hevent', hkeep⟩ := (keeps_of_interference hseen).messages _ event hevent
    have hid : event'.id = event.id := key_of_get hevent'
    have hsink : c.sinkID = sinkID := key_of_get hc
    refine Or.inr ⟨c, event', hc, hid ▸ hevent', fun claim hclaim => ?_, ?_, ?_⟩
    · rw [hid]
      exact hclaimed claim (hunmoved.2 ▸ hclaim)
    · rw [offeredDelivery, hsink, hid, hkeep.content]
      exact hresult
    · rw [hid]
      exact ht

/-- What the acceptance of an event leaves of its message. -/
def OutboxRow.received (acceptedAt : Int) (r : OutboxRow) : OutboxRow :=
  if r.publishedAt.isSome then r else { r with publishedAt := some acceptedAt }

/-- What a completed delivery leaves of the checkpoint. -/
def SinkCheckpoint.advanced (row : ReceiptRow) (c : SinkCheckpoint) : SinkCheckpoint :=
  { c with
    lastSequence := row.sequence
    lastEventHash := some row.eventHash
    claim := none
    updatedAt := row.acceptedAt }

/-- A completion found the checkpoint at the predecessor of its sequence, with its event claimed, though
maybe under another token by now; no receipt of the sink was in its way. -/
structure Completes (format : EvidenceFormat) (claim : ClaimedDelivery) (receipt : SinkReceipt)
    (c : SinkCheckpoint) (r : OutboxRow) (s t : DeliveryStore) : Prop where
  valid : receipt.validateFor format claim.delivery = .ok ()
  checkpoint : s.checkpoints.get claim.delivery.sinkID = some c
  sequence : c.lastSequence + 1 = claim.delivery.sequence
  event : c.claim.map SinkClaim.eventID = some claim.delivery.eventID
  message : s.messages.get claim.delivery.eventID = some r
  checked : (receiptRow claim.delivery receipt).check = true
  message_checked : r.publishedAt.isSome = true ∨ (r.received receipt.acceptedAt.stored).check = true
  fresh : ∀ x ∈ s.receipts.rows, x.sinkID = claim.delivery.sinkID →
    x.sequence ≠ claim.delivery.sequence ∧ x.eventID ≠ claim.delivery.eventID
  receipts : t.receipts = s.receipts.put (receiptRow claim.delivery receipt)
  checkpoints : t.checkpoints = s.checkpoints.put (c.advanced (receiptRow claim.delivery receipt))
  messages : t.messages = s.messages.put (r.received receipt.acceptedAt.stored)

theorem exec_insertReceipt
    (h : deliveryEngine.Exec (insertReceipt row) held s u held' t) :
    (s.messages.get row.eventID).isSome = true ∧ row.check = true ∧
      (∀ x ∈ s.receipts.rows, x.sinkID = row.sinkID →
        x.sequence ≠ row.sequence ∧ x.eventID ≠ row.eventID) ∧ t = s.putReceipt row := by
  obtain ⟨_, ⟨seen, hseen, rfl⟩, h₁⟩ := exec_bind_snapshot.mp h
  obtain ⟨⟨hsome, hcheck⟩, h₂⟩ := exec_bind_require.mp h₁
  obtain ⟨hfresh, _, rfl⟩ := exec_insert.mp h₂
  obtain ⟨r, hr⟩ := isSome_iff_exists.mp hsome
  obtain ⟨r', hr', _⟩ := (keeps_of_interference hseen).messages _ r hr
  refine ⟨hr' ▸ rfl, hcheck, fun x hx hsink => ?_, rfl⟩
  have hclash := hfresh x hx
  simpa [hsink, not_or] using hclash

variable {r : OutboxRow}

theorem exec_publishReceived
    (hr : s.messages.get row.eventID = some r)
    (h : deliveryEngine.Exec (publishReceived row) held s u held' t) :
    (r.publishedAt.isSome = true ∨ (r.received row.acceptedAt).check = true) ∧
      t.receipts = s.receipts ∧ t.checkpoints = s.checkpoints ∧
      t.messages = s.messages.put (r.received row.acceptedAt) := by
  obtain ⟨written, hwritten, _, rfl⟩ := exec_upsertWhere.mp h
  rw [show (messageRows.table s).get row.eventID = some r from hr] at hwritten
  dsimp only at hwritten
  split_ifs at hwritten with hpublished hcheck
  · cases hwritten
    have hid : r.id = row.eventID := key_of_get hr
    refine ⟨Or.inl hpublished, rfl, rfl, ?_⟩
    rw [OutboxRow.received, if_pos hpublished]
    exact (put_of_get (hid ▸ hr)).symm
  · cases hwritten
    have hreceived : r.received row.acceptedAt = { r with publishedAt := some row.acceptedAt } :=
      if_neg hpublished
    rw [hreceived]
    exact ⟨Or.inr hcheck, rfl, rfl, rfl⟩

theorem exec_completeDelivery
    (h : deliveryEngine.Exec (completeDelivery format claim receipt) held s u held' t) :
    ∃ c r, Completes format claim receipt c r s t := by
  obtain ⟨_, hok, h₁⟩ := exec_bind_ofExcept.mp h
  obtain ⟨_, ⟨seen, hseen, rfl⟩, h₂⟩ := exec_bind_snapshot.mp h₁.checked
  obtain ⟨hclaim, h₃⟩ := exec_bind_require.mp h₂
  obtain ⟨_, _, _, hinsert, h₄⟩ := exec_bind.mp h₃
  obtain ⟨hsome, hcheck, hfresh, rfl⟩ := exec_insertReceipt hinsert
  obtain ⟨_, _, _, hadvance, hpublish⟩ := exec_bind.mp h₄
  obtain ⟨c, row, hc, hrow, _, rfl⟩ := exec_update.mp hadvance
  cases hrow
  obtain ⟨r, hr⟩ := isSome_iff_exists.mp hsome
  obtain ⟨hmessage, hreceipts, hcheckpoints, hmessages⟩ :=
    exec_publishReceived (r := r) (by exact hr) hpublish
  replace hc : s.checkpoints.get claim.delivery.sinkID = some c := hc
  -- The snapshot had the claim; had the checkpoint advanced since, its receipt would be in the way.
  obtain ⟨before, hbefore, hpasses⟩ := (Option.any_eq_true _ _).mp hclaim
  simp only [Bool.and_eq_true, Option.any_eq_true, decide_eq_true_eq] at hpasses
  obtain ⟨⟨k, hk, _, hevent⟩, hsequence⟩ := hpasses
  have hkeeps := keeps_of_interference hseen
  obtain ⟨c', hc', hkeep⟩ := hkeeps.checkpoints _ before hbefore
  cases hc.symm.trans hc'
  have hstill : c.lastSequence = before.lastSequence := by
    by_contra hmoved
    have hlt : before.lastSequence < c.lastSequence :=
      lt_of_le_of_ne hkeep.lastSequence fun heq => hmoved heq.symm
    obtain ⟨x, hx⟩ := isSome_iff_exists.mp (hkeeps.advanced _ before c hbefore hc hlt)
    have hkey := key_of_get hx
    obtain ⟨hsink, hnumber⟩ := Prod.mk.inj hkey
    exact (hfresh x (mem_of_get hx) hsink).1 (hnumber.trans hsequence)
  refine ⟨c, r, ?_⟩
  exact
    { valid := hok
      checkpoint := hc
      sequence := by rw [hstill]; exact hsequence
      event := hkeep.claim hstill _ (by rw [hk]; exact congrArg some hevent)
      message := hr
      checked := hcheck
      message_checked := hmessage
      fresh := hfresh
      receipts := hreceipts
      checkpoints := hcheckpoints
      messages := hmessages }

/-- What a release leaves: the event stays claimed, under a token of nobody and without a lease. -/
def SinkCheckpoint.released (token : ID) (k : SinkClaim) (c : SinkCheckpoint) : SinkCheckpoint :=
  { c with claim := some { k with claimToken := token, claimedUntil := .infinitelyPast } }

theorem exec_releaseDelivery
    (h : deliveryEngine.Exec (releaseDelivery claim token) held s u held' t) :
    ∃ c k, s.checkpoints.get claim.delivery.sinkID = some c ∧ c.claim = some k ∧
      k.claimToken = claim.claimToken ∧ k.eventID = claim.delivery.eventID ∧
      t = s.putCheckpoint (c.released token k) := by
  obtain ⟨c, row, hc, hrow, _, rfl⟩ := exec_update.mp h
  split at hrow
  · rename_i k hk
    split_ifs at hrow with hmatch
    cases hrow
    exact ⟨c, k, hc, hk, hmatch.1, hmatch.2, rfl⟩
  · cases hrow

/-! ### Transitions -/

/-- What a request commits. -/
inductive Delivers (format : EvidenceFormat) (request : DeliveryRequest) (response : DeliveryResponse)
    (s t : DeliveryStore) : Prop where
  | append (id : ID) (content : OutboxContent) (occurredAt availableAt : Int)
      (hresponse : response = .done) (hfresh : s.messages.get id = none)
      (h : t = s.putMessage (freshMessage id content occurredAt availableAt))
  | claimBatch (config : OutboxConfig) (now : Time) (token : ID) (skipped : List ID)
      (messages : List ClaimedMessage) (hrequest : request = .claimBatch config now token skipped)
      (hresponse : response = .claimed messages) (h : ClaimsBatch config now.stored token messages s t)
  | recordSend (config : OutboxConfig) (m : ClaimedMessage) (result : SendResult) (jitter : Int)
      (now : Time) (r : OutboxRow) (hrequest : request = .recordSend config m result jitter now)
      (hresponse : response = .done) (hr : s.messages.get m.id = some r) (hholds : m.holds r = true)
      (hcheck : (r.recorded config m jitter now result).check = true)
      (h : t = s.putMessage (r.recorded config m jitter now result))
  | ensure (sinkID : String) (now : Time) (hresponse : response = .done)
      (hfresh : s.checkpoints.get sinkID = none) (h : t = s.putCheckpoint ⟨sinkID, 0, none, none, now.stored⟩)
  | idle (hrequest : ∀ claim receipt, request ≠ .completeDelivery claim receipt)
      (hresponse : (∀ messages, response ≠ .claimed messages) ∧
        ∀ claim, response ≠ .offered (.ok (some claim))) (h : t = s)
  | offer (sinkID : String) (now : Time) (token : ID) (lease : Int) (hints : List ID) (c : SinkCheckpoint)
      (event : OutboxRow) (hrequest : request = .claimCandidate sinkID now token lease hints)
      (hc : s.checkpoints.get sinkID = some c) (hevent : s.messages.get event.id = some event)
      (hclaim : ∀ claim, c.claim = some claim → claim.eventID = event.id)
      (hresponse : response =
        .offered ((offeredDelivery format c event).map fun delivery => some ⟨delivery, token⟩))
      (h : t = s.putCheckpoint (c.claimed token event.id now.stored lease))
  | complete (claim : ClaimedDelivery) (receipt : SinkReceipt) (c : SinkCheckpoint) (r : OutboxRow)
      (hrequest : request = .completeDelivery claim receipt) (hresponse : response = .done)
      (h : Completes format claim receipt c r s t)
  | release (claim : ClaimedDelivery) (token : ID) (c : SinkCheckpoint) (k : SinkClaim)
      (hrequest : request = .releaseDelivery claim token) (hresponse : response = .done)
      (hc : s.checkpoints.get claim.delivery.sinkID = some c) (hk : c.claim = some k)
      (htoken : k.claimToken = claim.claimToken) (hevent : k.eventID = claim.delivery.eventID)
      (h : t = s.putCheckpoint (c.released token k))

variable {response : DeliveryResponse}

/-- The response of a request is what its body returned. -/
theorem exec_answer {α : Type} {p : DeliveryOp α} {f : α → DeliveryResponse}
    (h : deliveryEngine.Exec (p.bind fun a => .pure (f a)) held s response held' t) :
    ∃ a, deliveryEngine.Exec p held s a held' t ∧ response = f a := by
  obtain ⟨a, _, _, hp, rfl, rfl, rfl⟩ := exec_bind.mp h
  exact ⟨a, hp, rfl⟩

variable {request : DeliveryRequest}

theorem exec_deliveryProgram
    (h : deliveryEngine.Exec (deliveryProgram format request) held s response held' t) :
    Delivers format request response s t := by
  cases request with
  | appendMessage id content occurredAt availableAt =>
    obtain ⟨_, happend, hresponse⟩ := exec_answer h
    obtain ⟨hfresh, _, rfl⟩ := exec_insert.mp happend
    refine .append id content occurredAt availableAt hresponse ?_ rfl
    refine get_eq_none_iff.mpr fun r hr hid => ?_
    have hclash := hfresh r hr
    simp [hid] at hclash
  | claimBatch config now token skipped =>
    obtain ⟨messages, hclaim, hresponse⟩ := exec_answer h
    exact .claimBatch config now token skipped messages rfl hresponse (exec_claimBatch hclaim)
  | recordSend config m result jitter now =>
    obtain ⟨_, hrecord, hresponse⟩ := exec_answer h
    obtain ⟨r, hr, hholds, hcheck, ht⟩ := exec_recordSend hrecord
    exact .recordSend config m result jitter now r rfl hresponse hr hholds hcheck ht
  | ensureCheckpoint sinkID now =>
    obtain ⟨_, hensure, hresponse⟩ := exec_answer h
    obtain ⟨row, hrow, _, ht⟩ := exec_upsertWhere.mp hensure
    cases hc : s.checkpoints.get sinkID with
    | some c =>
      rw [show (checkpointRows.table s).get sinkID = some c from hc] at hrow
      cases hrow
      refine .idle (by rintro _ _ ⟨⟩) ?_ ht
      rw [hresponse]
      exact ⟨by rintro _ ⟨⟩, by rintro _ ⟨⟩⟩
    | none =>
      rw [show (checkpointRows.table s).get sinkID = none from hc] at hrow
      dsimp only at hrow
      split_ifs at hrow
      cases hrow
      exact .ensure sinkID now hresponse hc ht
  | pendingEvidence sinkID =>
    obtain ⟨_, hpending, hresponse⟩ := exec_answer h
    obtain ⟨_, _, rfl⟩ := exec_snapshot.mp hpending
    refine .idle (by rintro _ _ ⟨⟩) ?_ rfl
    rw [hresponse]
    exact ⟨by rintro _ ⟨⟩, by rintro _ ⟨⟩⟩
  | claimCandidate sinkID now token lease hints =>
    obtain ⟨_, hclaim, hresponse⟩ := exec_answer h
    obtain ⟨rfl, rfl⟩ | ⟨c, event, hc, hevent, hsame, rfl, ht⟩ := exec_claimCandidate hclaim
    · refine .idle (by rintro _ _ ⟨⟩) ?_ rfl
      rw [hresponse]
      exact ⟨by rintro _ ⟨⟩, by rintro _ ⟨⟩⟩
    · exact .offer sinkID now token lease hints c event rfl hc hevent hsame hresponse ht
  | completeDelivery claim receipt =>
    obtain ⟨_, hcomplete, hresponse⟩ := exec_answer h
    obtain ⟨c, r, hcompletes⟩ := exec_completeDelivery hcomplete
    exact .complete claim receipt c r rfl hresponse hcompletes
  | releaseDelivery claim token =>
    obtain ⟨_, hrelease, hresponse⟩ := exec_answer h
    obtain ⟨c, k, hc, hk, htoken, hevent, ht⟩ := exec_releaseDelivery hrelease
    exact .release claim token c k rfl hresponse hc hk htoken hevent ht

/-! ### What they keep -/

theorem OutboxRow.keep_claimed (config : OutboxConfig) (now : Int) (token : ID) (r : OutboxRow) :
    r.Keep (r.claimed config now token) := ⟨rfl, rfl, fun _ => rfl, fun _ => rfl⟩

theorem OutboxRow.keep_received (acceptedAt : Int) (r : OutboxRow) : r.Keep (r.received acceptedAt) := by
  unfold OutboxRow.received
  split_ifs with hpublished
  · exact .refl r
  · exact ⟨rfl, rfl, fun h => absurd h hpublished, fun _ => rfl⟩

/-- A mark is only set on a message that has none. -/
theorem OutboxRow.keep_recorded
    (h : m.holds r = true) :
    r.Keep (r.recorded config m jitter now result) := by
  simp only [ClaimedMessage.holds, OutboxRow.unmarked, Bool.and_eq_true, isNone_iff_eq_none] at h
  obtain ⟨_, hpublished, hdead⟩ := h
  cases result with
  | accepted => exact ⟨rfl, rfl, fun h => by simp [hpublished] at h, fun _ => rfl⟩
  | failed classified => exact ⟨rfl, rfl, fun _ => rfl, fun h => by simp [hdead] at h⟩

theorem DeliveryStore.Keeps.of_messages (hmessages : s.messages.Keeps OutboxRow.Keep t.messages)
    (hcheckpoints : t.checkpoints = s.checkpoints) (hreceipts : t.receipts = s.receipts) :
    s.Keeps t where
  messages := hmessages
  checkpoints := .of_eq SinkCheckpoint.Keep.refl hcheckpoints
  receipts := .of_eq Eq.refl hreceipts
  advanced sink c c' hc hc' hlt := by
    rw [hcheckpoints, hc] at hc'
    cases hc'
    exact absurd hlt (lt_irrefl _)

/-- A checkpoint that stays at its sequence is kept. -/
theorem DeliveryStore.Keeps.of_checkpoint {row : SinkCheckpoint}
    (h : ∀ c, s.checkpoints.get row.sinkID = some c → c.Keep row ∧ row.lastSequence = c.lastSequence) :
    s.Keeps (s.putCheckpoint row) where
  messages := .refl OutboxRow.Keep.refl _
  checkpoints := .of_put SinkCheckpoint.Keep.refl fun c hc => (h c hc).1
  receipts := .refl Eq.refl _
  advanced sink c c' hc hc' hlt := by
    rw [DeliveryStore.checkpoints_putCheckpoint, get_put] at hc'
    split_ifs at hc' with hsink
    · cases hc'
      subst hsink
      have hsame := (h c hc).2
      omega
    · rw [hc] at hc'
      cases hc'
      exact absurd hlt (lt_irrefl _)

theorem Completes.keeps
    (h : Completes format claim receipt c r s t) : s.Keeps t where
  messages := by
    rw [h.messages]
    refine .of_put OutboxRow.Keep.refl fun old hold => ?_
    have hid : (r.received receipt.acceptedAt.stored).id = claim.delivery.eventID := by
      have hkey : r.id = claim.delivery.eventID := key_of_get h.message
      unfold OutboxRow.received
      split_ifs <;> exact hkey
    rw [hid, h.message] at hold
    cases hold
    exact r.keep_received _
  checkpoints := by
    rw [h.checkpoints]
    refine .of_put SinkCheckpoint.Keep.refl fun old hold => ?_
    have hsink : c.sinkID = claim.delivery.sinkID := key_of_get h.checkpoint
    rw [show (c.advanced (receiptRow claim.delivery receipt)).sinkID = claim.delivery.sinkID from hsink,
      h.checkpoint] at hold
    cases hold
    have hnext : (c.advanced (receiptRow claim.delivery receipt)).lastSequence = c.lastSequence + 1 :=
      h.sequence.symm
    exact ⟨by omega, fun hsame => by omega, fun hsame => by omega⟩
  receipts := by
    rw [h.receipts]
    refine .of_put Eq.refl fun old hold => ?_
    have hkey := key_of_get hold
    obtain ⟨hsink, hsequence⟩ := Prod.mk.inj hkey
    exact absurd hsequence (h.fresh old (mem_of_get hold) hsink).1
  advanced sink a b ha hb hlt := by
    have hsink : c.sinkID = claim.delivery.sinkID := key_of_get h.checkpoint
    rw [h.checkpoints, get_put,
      show (c.advanced (receiptRow claim.delivery receipt)).sinkID = claim.delivery.sinkID from hsink]
      at hb
    split_ifs at hb with hsame
    · subst hsame
      have hca : c = a := Option.some.inj (h.checkpoint.symm.trans ha)
      subst hca
      have hkey : (receiptRow claim.delivery receipt).key =
          (claim.delivery.sinkID, c.lastSequence + 1) := by rw [h.sequence]; rfl
      rw [h.receipts, ← hkey, get_put_self]
      rfl
    · rw [ha] at hb
      cases hb
      exact absurd hlt (lt_irrefl _)

theorem Delivers.keeps
    (h : Delivers format request response s t) : s.Keeps t := by
  cases h with
  | append id content occurredAt availableAt _ hfresh ht =>
    subst ht
    refine .of_messages (.of_put OutboxRow.Keep.refl fun old hold => ?_) rfl rfl
    rw [show (freshMessage id content occurredAt availableAt).id = id from rfl, hfresh] at hold
    cases hold
  | claimBatch config now token skipped messages _ _ hclaims =>
    refine .of_messages (fun id r hr => ?_) hclaims.checkpoints hclaims.receipts
    rcases hclaims.rows id with hsame | ⟨r', hr', _, _, ht, _⟩
    · exact ⟨r, hsame.trans hr, .refl r⟩
    · rw [hr] at hr'
      cases hr'
      exact ⟨_, ht, r.keep_claimed _ _ _⟩
  | recordSend config m result jitter now r _ _ hr hholds _ ht =>
    subst ht
    refine .of_messages (.of_put OutboxRow.Keep.refl fun old hold => ?_) rfl rfl
    have hid : (r.recorded config m jitter now result).id = m.id := by
      have hkey : r.id = m.id := key_of_get hr
      cases result <;> exact hkey
    rw [hid, hr] at hold
    cases hold
    exact OutboxRow.keep_recorded hholds
  | ensure sinkID now _ hfresh ht =>
    subst ht
    refine .of_checkpoint fun c hc => ?_
    rw [hfresh] at hc
    cases hc
  | idle _ _ ht =>
    subst ht
    exact .refl _
  | offer sinkID now token lease hints c event _ hc _ hclaim _ ht =>
    subst ht
    refine .of_checkpoint fun c' hc' => ?_
    have hsink : c.sinkID = sinkID := key_of_get hc
    rw [show (c.claimed token event.id now.stored lease).sinkID = sinkID from hsink, hc] at hc'
    cases hc'
    refine ⟨⟨le_refl _, fun _ => rfl, fun _ e he => ?_⟩, rfl⟩
    obtain ⟨k, hk, rfl⟩ := map_eq_some_iff.mp he
    exact congrArg some (hclaim k hk).symm
  | complete claim receipt c r _ _ hcompletes => exact hcompletes.keeps
  | release claim token c k _ _ hc hk _ _ ht =>
    subst ht
    refine .of_checkpoint fun c' hc' => ?_
    have hsink : c.sinkID = claim.delivery.sinkID := key_of_get hc
    rw [show (c.released token k).sinkID = claim.delivery.sinkID from hsink, hc] at hc'
    cases hc'
    refine ⟨⟨le_refl _, fun _ => rfl, fun _ e he => ?_⟩, rfl⟩
    rw [hk] at he
    exact he

theorem disciplined_deliveryProgram (format : EvidenceFormat) :
    deliveryEngine.Disciplined (deliveryProgram format) where
  wellLocked := wellLocked_deliveryProgram format
  promise _ _ _ _ _ h := (exec_deliveryProgram h).keeps

/-! ### Runs -/

/-- A database of deliveries with the sessions on it. -/
abbrev DeliverySystem : Type :=
  System DeliveryStore DeliveryLock deliverySchema.Write Failure DeliveryResponse DeliveryRequest

abbrev DeliveryCommit : Type := Commit DeliveryStore DeliveryResponse DeliveryRequest

/-- Everything that any number of publishers, exporters and writers can lead to from an empty database. -/
def DeliveryReachable (format : EvidenceFormat) : DeliverySystem → Prop :=
  deliveryEngine.Reaches (deliveryProgram format) DeliveryStore.empty

variable {system : DeliverySystem}

theorem DeliveryReachable.history (h : DeliveryReachable format system) :
    deliveryEngine.History (deliveryProgram format) DeliveryStore.empty system.log system.committed :=
  Engine.Reaches.history (disciplined_deliveryProgram format) h

theorem commits_delivers
    (h : deliveryEngine.Commits (deliveryProgram format) request response s t) :
    Delivers format request response s t := by
  obtain ⟨_, hexec⟩ := h
  exact exec_deliveryProgram hexec

theorem DeliveryReachable.delivers (h : DeliveryReachable format system)
    {x : DeliveryCommit} (hx : x ∈ system.log) :
    Delivers format x.request x.response x.before x.after :=
  commits_delivers (h.history.commits hx)

end AgentGovernor
