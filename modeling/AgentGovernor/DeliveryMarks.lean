import AgentGovernor.DeliveryChain
import AgentGovernor.DeliveryQueue

/-! What publishers do to the marks of a message. Sending and marking are not one transaction with the
claim; the token in the row is all that tells a holder from one that lost its claim. -/

namespace AgentGovernor

open Ledger Table Transaction Engine DeliverySample Bool

variable {format : EvidenceFormat} {request : DeliveryRequest} {response : DeliveryResponse}
  {s t : DeliveryStore} {id : ID}

/-- The message has this mark. -/
def DeliveryStore.Marked (s : DeliveryStore) (mark : OutboxRow → Option Int) (id : ID) : Prop :=
  ∃ r, s.messages.get id = some r ∧ (mark r).isSome = true

/-- The row of the message carries the token of the claim. -/
def ClaimedMessage.Current (m : ClaimedMessage) (s : DeliveryStore) : Prop :=
  ∃ r k, s.messages.get m.id = some r ∧ r.claim = some k ∧ k.claimToken = m.claimToken

variable {m : ClaimedMessage} {r : OutboxRow}

theorem ClaimedMessage.current_of_holds
    (hr : s.messages.get m.id = some r) (h : m.holds r = true) : m.Current s := by
  simp only [ClaimedMessage.holds, and_eq_true, Option.any_eq_true, decide_eq_true_eq] at h
  obtain ⟨⟨k, hk, htoken⟩, _⟩ := h
  exact ⟨r, k, hr, hk, htoken⟩

variable {mark : OutboxRow → Option Int}

/-- A mark that a request set: which message it went to, or that it was there before. -/
theorem DeliveryStore.Marked.of_put {row : OutboxRow}
    (h : (s.putMessage row).Marked mark id) : (id = row.id ∧ (mark row).isSome = true) ∨ s.Marked mark id := by
  obtain ⟨r, hr, hmark⟩ := h
  rw [DeliveryStore.messages_putMessage, get_put] at hr
  split_ifs at hr with hid
  · cases hr
    exact Or.inl ⟨hid, hmark⟩
  · exact Or.inr ⟨r, hr, hmark⟩

theorem DeliveryStore.Marked.congr (h : t.Marked mark id)
    (hmessages : t.messages = s.messages) : s.Marked mark id := by
  obtain ⟨r, hr, hmark⟩ := h
  exact ⟨r, hmessages ▸ hr, hmark⟩

variable {config : OutboxConfig}

/-- Claims set no mark. -/
theorem ClaimsBatch.marked {now : Int} {token : ID} {messages : List ClaimedMessage}
    (h : ClaimsBatch config now token messages s t)
    (hclaimed : ∀ r : OutboxRow, mark (r.claimed config now token) = mark r) (hmarked : t.Marked mark id) :
    s.Marked mark id := by
  obtain ⟨r, hr, hmark⟩ := hmarked
  rcases h.rows id with hsame | ⟨r', hr', _, _, ht, _⟩
  · exact ⟨r, hsame ▸ hr, hmark⟩
  · rw [ht] at hr
    cases hr
    exact ⟨r', hr', hclaimed r' ▸ hmark⟩

/-! ### Who sets a mark -/

/-- A mark that neither a new message nor a claim has is set by the holder of a claim, or with a receipt. -/
theorem Delivers.marks
    (hfresh : ∀ id content occurredAt availableAt,
      mark (freshMessage id content occurredAt availableAt) = none)
    (hclaimed : ∀ config now token (r : OutboxRow), mark (r.claimed config now token) = mark r)
    (h : Delivers format request response s t) (hbefore : ¬s.Marked mark id) (hafter : t.Marked mark id) :
    (∃ claim receipt r, request = .completeDelivery claim receipt ∧ s.messages.get id = some r ∧
      (mark (r.received receipt.acceptedAt.stored)).isSome = true) ∨
    ∃ config m result jitter now r, request = .recordSend config m result jitter now ∧ m.id = id ∧
      s.messages.get id = some r ∧ m.Current s ∧
      (mark (r.recorded config m jitter now result)).isSome = true := by
  cases h with
  | append _ _ _ _ _ _ ht =>
    subst ht
    rcases hafter.of_put with ⟨_, hmark⟩ | hmarked
    · rw [hfresh] at hmark
      cases hmark
    · exact absurd hmarked hbefore
  | claimBatch _ _ _ _ _ _ _ hclaims => exact absurd (hclaims.marked (hclaimed _ _ _) hafter) hbefore
  | recordSend config m result jitter now r hrequest _ hr hholds _ ht =>
    subst ht
    have hid : (r.recorded config m jitter now result).id = m.id := by
      have hkey : r.id = m.id := key_of_get hr
      cases result <;> exact hkey
    rcases hafter.of_put with ⟨hsame, hmark⟩ | hmarked
    · have hm : m.id = id := (hsame.trans hid).symm
      exact Or.inr ⟨config, m, result, jitter, now, r, hrequest, hm, hm ▸ hr,
        ClaimedMessage.current_of_holds hr hholds, hmark⟩
    · exact absurd hmarked hbefore
  | ensure _ _ _ _ ht => exact absurd (hafter.congr (by rw [ht]; rfl)) hbefore
  | idle _ _ ht => exact absurd (ht ▸ hafter) hbefore
  | offer _ _ _ _ _ _ _ _ _ _ _ _ ht => exact absurd (hafter.congr (by rw [ht]; rfl)) hbefore
  | complete claim receipt c r hrequest _ hcompletes =>
    have hid : (r.received receipt.acceptedAt.stored).id = claim.delivery.eventID := by
      have hkey : r.id = claim.delivery.eventID := key_of_get hcompletes.message
      unfold OutboxRow.received
      split_ifs <;> exact hkey
    have hput : (s.putMessage (r.received receipt.acceptedAt.stored)).Marked mark id :=
      hafter.congr hcompletes.messages
    rcases hput.of_put with ⟨hsame, hmark⟩ | hmarked
    · exact Or.inl ⟨claim, receipt, r, hrequest, hsame.trans hid ▸ hcompletes.message, hmark⟩
    · exact absurd hmarked hbefore
  | release _ _ _ _ _ _ _ _ _ _ ht => exact absurd (hafter.congr (by rw [ht]; rfl)) hbefore

/-- The exporter aside, a message is published by the holder of its claim, whose sink accepted it. -/
theorem Delivers.publishes (h : Delivers format request response s t)
    (hbefore : ¬s.Marked OutboxRow.publishedAt id) (hafter : t.Marked OutboxRow.publishedAt id) :
    (∃ claim receipt, request = .completeDelivery claim receipt) ∨
      ∃ config m jitter now, request = .recordSend config m .accepted jitter now ∧ m.id = id ∧
        m.Current s := by
  rcases h.marks (fun _ _ _ _ => rfl) (fun _ _ _ _ => rfl) hbefore hafter with
    ⟨claim, receipt, _, hrequest, _⟩ | ⟨config, m, result, jitter, now, r, hrequest, hm, hr, hcurrent, hmark⟩
  · exact Or.inl ⟨claim, receipt, hrequest⟩
  · cases result with
    | accepted => exact Or.inr ⟨config, m, jitter, now, hrequest, hm, hcurrent⟩
    | failed classified => exact absurd ⟨r, hr, hmark⟩ hbefore

/-- A permanent error, an error code that is not one, or one attempt too many. -/
def GivesUp (config : OutboxConfig) (m : ClaimedMessage) (classified : Option PublishError) : Prop :=
  (∃ e, classified = some e ∧ (e.permanent = true ∨ byteLength e.code < 1 ∨ 128 < byteLength e.code)) ∨
    config.maxAttempts ≤ m.attempt

theorem gaveUp_iff {classified : Option PublishError} :
    gaveUp config m classified = true ↔ GivesUp config m classified := by
  rw [gaveUp, or_eq_true, decide_eq_true_eq, GivesUp]
  refine or_congr_left ?_
  cases classified with
  | none =>
    have hunclassified : (classify none).2 = false := by decide
    simp [hunclassified]
  | some e =>
    have hclassify : classify (some e) = if byteLength e.code < 1 ∨ 128 < byteLength e.code then
        ("invalid_error_code", true) else (e.code, e.permanent) := rfl
    simp only [Option.some.injEq, exists_eq_left', hclassify]
    by_cases hcode : byteLength e.code < 1 ∨ 128 < byteLength e.code
    · rw [if_pos hcode]
      exact ⟨fun _ => Or.inr hcode, fun _ => rfl⟩
    · rw [if_neg hcode]
      exact ⟨Or.inl, fun h => h.resolve_right hcode⟩

/-- A message is given up by the holder of its claim, and for a reason. -/
theorem Delivers.gives_up (h : Delivers format request response s t)
    (hbefore : ¬s.Marked OutboxRow.deadLetteredAt id) (hafter : t.Marked OutboxRow.deadLetteredAt id) :
    ∃ config m classified jitter now, request = .recordSend config m (.failed classified) jitter now ∧
      m.id = id ∧ m.Current s ∧ GivesUp config m classified := by
  rcases h.marks (fun _ _ _ _ => rfl) (fun _ _ _ _ => rfl) hbefore hafter with
    ⟨_, _, r, _, hr, hmark⟩ | ⟨config, m, result, jitter, now, r, hrequest, hm, hr, hcurrent, hmark⟩
  · -- A receipt publishes; it gives nothing up.
    refine absurd ⟨r, hr, ?_⟩ hbefore
    unfold OutboxRow.received at hmark
    split_ifs at hmark <;> exact hmark
  · cases result with
    | accepted => exact absurd ⟨r, hr, hmark⟩ hbefore
    | failed classified =>
      refine ⟨config, m, classified, jitter, now, hrequest, hm, hcurrent, gaveUp_iff.mp ?_⟩
      by_contra hretry
      simp [OutboxRow.recorded, OutboxRow.failed, hretry] at hmark

/-- Only the holder of the claim commits what it learned. -/
theorem current_of_commits {result : SendResult} {jitter : Int}
    {now : Time}
    (h : deliveryEngine.Commits (deliveryProgram format) (.recordSend config m result jitter now) response s t) :
    m.Current s := by
  obtain ⟨_, hexec⟩ := h
  obtain ⟨_, hrecord, _⟩ := exec_answer hexec
  obtain ⟨r, hr, hholds, _⟩ := exec_recordSend hrecord
  exact ClaimedMessage.current_of_holds hr hholds

/-- The row of a message that was never marked twice. -/
def OutboxRow.MarkedOnce (r : OutboxRow) : Prop :=
  ¬(r.publishedAt.isSome = true ∧ r.deadLetteredAt.isSome = true)

theorem OutboxRow.markedOnce_of_check (h : r.check = true) : r.MarkedOnce := by
  simp only [OutboxRow.check, and_eq_true, not_eq_true', and_eq_false_iff] at h
  rintro ⟨hpublished, hdead⟩
  rcases h.2 with h | h
  · rw [hpublished] at h; cases h
  · rw [hdead] at h; cases h

/-- Every message has at most one mark. -/
def DeliveryStore.MarkedOnce (s : DeliveryStore) : Prop :=
  ∀ id r, s.messages.get id = some r → r.MarkedOnce

theorem DeliveryStore.MarkedOnce.put {row : OutboxRow} (h : s.MarkedOnce) (hrow : row.MarkedOnce) :
    (s.putMessage row).MarkedOnce := by
  intro id r hr
  rw [DeliveryStore.messages_putMessage, get_put] at hr
  split_ifs at hr
  · cases hr
    exact hrow
  · exact h id r hr

theorem DeliveryStore.MarkedOnce.congr (h : s.MarkedOnce) (hmessages : t.messages = s.messages) :
    t.MarkedOnce := fun id r hr => h id r (hmessages ▸ hr)

theorem Delivers.markedOnce (h : Delivers format request response s t) (hs : s.MarkedOnce) :
    t.MarkedOnce := by
  cases h with
  | append _ _ _ _ _ _ ht =>
    subst ht
    exact hs.put (by rintro ⟨⟨⟩, _⟩)
  | claimBatch _ _ _ _ _ _ _ hclaims =>
    intro id r hr
    rcases hclaims.rows id with hsame | ⟨r', hr', _, _, ht, _⟩
    · exact hs id r (hsame ▸ hr)
    · rw [ht] at hr
      cases hr
      exact hs id r' hr'
  | recordSend _ _ _ _ _ _ _ _ _ _ hcheck ht =>
    subst ht
    exact hs.put (OutboxRow.markedOnce_of_check hcheck)
  | ensure _ _ _ _ ht => exact hs.congr (by rw [ht]; rfl)
  | idle _ _ ht => exact ht ▸ hs
  | offer _ _ _ _ _ _ _ _ _ _ _ _ ht => exact hs.congr (by rw [ht]; rfl)
  | complete claim receipt c r _ _ hcompletes =>
    have hreceived : (r.received receipt.acceptedAt.stored).MarkedOnce := by
      rcases hcompletes.message_checked with hpublished | hcheck
      · rw [OutboxRow.received, if_pos hpublished]
        exact hs _ r hcompletes.message
      · exact OutboxRow.markedOnce_of_check hcheck
    exact (hs.put hreceived).congr hcompletes.messages
  | release _ _ _ _ _ _ _ _ _ _ ht => exact hs.congr (by rw [ht]; rfl)

/-! ### Publishers -/

/-- What a publisher has after its claim. -/
def claimsOf (x : DeliveryCommit) : List (OutboxConfig × ClaimedMessage) :=
  match x.request, x.response with
  | .claimBatch config _ _ _, .claimed messages => messages.map (config, ·)
  | _, _ => []

def DeliveryRequest.sent : DeliveryRequest → List (OutboxConfig × ClaimedMessage)
  | .recordSend config m _ _ _ => [(config, m)]
  | _ => []

/-- Publishers send what they claimed. -/
abbrev SendsClaimed (log : List DeliveryCommit) : Prop := UsesGiven claimsOf DeliveryRequest.sent log

/-- The publisher claimed the message under the token that it shows. -/
def Claims (config : OutboxConfig) (m : ClaimedMessage) (x : DeliveryCommit) : Prop :=
  ∃ now skipped messages, x.request = .claimBatch config now m.claimToken skipped ∧
    x.response = .claimed messages ∧ m ∈ messages

theorem claims_of_mem {x : DeliveryCommit}
    (h : deliveryEngine.Commits (deliveryProgram format) x.request x.response x.before x.after)
    (hm : (config, m) ∈ claimsOf x) : Claims config m x := by
  obtain ⟨request, response, s, t⟩ := x
  unfold claimsOf at hm
  split at hm
  next config' now token skipped messages hrequest hresponse =>
    obtain rfl : request = _ := hrequest
    obtain rfl : response = _ := hresponse
    obtain ⟨_, hm, ⟨⟩⟩ := List.mem_map.mp hm
    obtain ⟨_, hexec⟩ := h
    obtain ⟨_, hclaim, ⟨⟩⟩ := exec_answer hexec
    obtain ⟨r, _, _, rfl⟩ := (exec_claimBatch hclaim).returned m hm
    exact ⟨now, skipped, messages, rfl, rfl, hm⟩
  next => cases hm

/-- Publishers that vanish after their claims bring a message, alone in its table, to any number of
attempts. -/
theorem attempts_reachable (format : EvidenceFormat) (config : OutboxConfig) (id : ID)
    (content : OutboxContent) (n : Nat) (hn : (n : Int) ≤ maxInteger) :
    ∃ s log r, DeliveryReachable format (System.idle s log) ∧ (∀ x ∈ log, x.request.sent = []) ∧
      s.messages.get id = some r ∧ (∀ i x, s.messages.get i = some x → x = r) ∧ r.unmarked = true ∧
      r.attemptCount = n := by
  induction n with
  | zero =>
    have hrun : deliveryEngine.run (deliveryProgram format (.appendMessage id content 0 0))
        DeliveryStore.empty = .ok (.done, DeliveryStore.empty.putMessage (freshMessage id content 0 0)) := rfl
    exact ⟨_, _, _, Engine.Reaches.serve Relation.ReflTransGen.refl hrun, fun x hx => by
      cases List.mem_singleton.mp hx
      rfl, DeliveryStore.empty.messages.get_put_self (freshMessage id content 0 0),
      fun i x hx => List.mem_singleton.mp (mem_of_get hx), rfl, rfl⟩
  | succ n ih =>
    obtain ⟨s, log, r, hreach, hsent, hr, hone, hunmarked, hcount⟩ := ih (by omega)
    have hid : r.id = id := key_of_get hr
    obtain ⟨late, _, hlate⟩ := s.exists_late 0
    -- At a late time the message is the whole queue.
    have hqueue : (s.queue (Time.stored ⟨late, true⟩)).take config.batchSize = [r] := by
      rw [List.perm_singleton.mp ((List.perm_ext_iff_of_nodup (s.nodup_queue _).of_map
        (List.nodup_singleton r)).mpr fun x => ?_), List.take_of_length_le config.batchSize_bounded.1]
      rw [hlate _ (le_refl late), DeliveryStore.waiting, List.mem_insertionSort, List.mem_filter,
        List.mem_singleton, mem_rows_iff]
      exact ⟨fun hx => hone _ x hx.1, by rintro rfl; exact ⟨hid ▸ hr, hunmarked⟩⟩
    obtain ⟨messages, t, hids, hrun⟩ := run_claimBatch config ⟨late, true⟩ (.ofNat 0) s rfl
    rw [hqueue] at hids hrun
    rw [if_pos (List.forall_mem_singleton.mpr (by omega))] at hrun
    obtain ⟨_, hclaims, _⟩ := claimBatch_spec hrun
    obtain ⟨m, hm, rfl⟩ := (hids id).mpr ⟨r, List.mem_cons_self, hid⟩
    obtain ⟨x, hx, ht, _⟩ := hclaims.returned m hm
    cases hx.symm.trans hr
    have hserve : deliveryEngine.run (deliveryProgram format
        (.claimBatch config ⟨late, true⟩ (.ofNat 0) [])) s = .ok (.claimed messages, t) := by
      rw [deliveryProgram, run_bind_of_run hrun]
      rfl
    refine ⟨t, _, _, hreach.serve hserve, fun x hx => ?_, ht, fun i x hx => ?_, hunmarked, ?_⟩
    · rcases List.mem_append.mp hx with hx | hx
      · exact hsent x hx
      · cases List.mem_singleton.mp hx
        rfl
    · rcases hclaims.rows i with hsame | ⟨y, hy, _, _, hty, _⟩
      · cases hone i x (hsame ▸ hx)
        obtain rfl : r.id = i := key_of_get (hsame ▸ hx)
        exact Option.some.inj (hx.symm.trans (hid ▸ ht))
      · cases hone i y hy
        exact Option.some.inj (hx.symm.trans hty)
    · simp only [OutboxRow.claimed, hcount, Nat.cast_succ]

/-- Marks exclude each other and stay. A mark is set only by a publisher that claimed the message and
whose token is still in the row, after what the sink said to it; who lost a claim commits nothing. A
message without a mark stays claimable as long as the attempts of all messages up to the end of its batch
can be counted. -/
theorem outbox_publishers {system : DeliverySystem} (h : DeliveryReachable format system)
    (hsends : SendsClaimed system.log) :
    system.committed.MarkedOnce ∧
    (∀ x ∈ system.log, ∀ id r, x.after.messages.get id = some r →
      ∃ r', system.committed.messages.get id = some r' ∧
        (r.publishedAt.isSome = true → r'.publishedAt = r.publishedAt) ∧
        (r.deadLetteredAt.isSome = true → r'.deadLetteredAt = r.deadLetteredAt)) ∧
    (∀ log₁ x log₂, system.log = log₁ ++ x :: log₂ → ∀ id, ¬x.before.Marked OutboxRow.publishedAt id →
      x.after.Marked OutboxRow.publishedAt id →
      (∃ claim receipt, x.request = .completeDelivery claim receipt) ∨
        ∃ config m jitter now, x.request = .recordSend config m .accepted jitter now ∧ m.id = id ∧
          m.Current x.before ∧ ∃ y ∈ log₁, Claims config m y) ∧
    (∀ log₁ x log₂, system.log = log₁ ++ x :: log₂ → ∀ id,
      ¬x.before.Marked OutboxRow.deadLetteredAt id → x.after.Marked OutboxRow.deadLetteredAt id →
      ∃ config m classified jitter now, x.request = .recordSend config m (.failed classified) jitter now ∧
        m.id = id ∧ m.Current x.before ∧ GivesUp config m classified ∧ ∃ y ∈ log₁, Claims config m y) ∧
    (∀ x ∈ system.log, ∀ config m result jitter now,
      x.request = .recordSend config m result jitter now → m.Current x.before) ∧
    ∀ id r, system.committed.messages.get id = some r → ∀ config, 0 < config.lease →
      ((∀ earliest, ∃ now : Time, earliest ≤ now.nanos ∧ system.committed.Claimable config now id) ↔
        ∃ n, system.committed.waiting[n]? = some r ∧
          ∀ x ∈ system.committed.waiting.take ((n / config.batchSize + 1) * config.batchSize),
            x.attemptCount < maxInteger) := by
  -- A send that committed came after the claim that it belongs to.
  have hclaimed : ∀ {log₁ x log₂ config m result jitter now}, system.log = log₁ ++ x :: log₂ →
      x.request = .recordSend config m result jitter now → ∃ y ∈ log₁, Claims config m y := by
    intro log₁ x log₂ config m result jitter now hlog hrequest
    obtain ⟨y, hy, hgiven⟩ := hsends log₁ x log₂ hlog (config, m) (by rw [hrequest]; exact List.mem_cons_self)
    exact ⟨y, hy, claims_of_mem (h.history.commits (hlog ▸ List.mem_append_left _ hy)) hgiven⟩
  refine ⟨?_, fun x hx id r hr => ?_, fun log₁ x log₂ hlog id hbefore hafter => ?_,
    fun log₁ x log₂ hlog id hbefore hafter => ?_, fun x hx config m result jitter now hrequest => ?_,
    fun id r hr config => claimable_iff hr⟩
  · exact (h.history.invariant (P := DeliveryStore.MarkedOnce) (by rintro _ _ ⟨⟩)
      fun _ _ _ _ hcommit => (commits_delivers hcommit).markedOnce).1
  · have hkeeps := h.history.since (R := DeliveryStore.Keeps) .refl (fun _ _ _ => .trans)
      (fun y hy => (h.delivers hy).keeps) x hx
    obtain ⟨r', hr', hkeep⟩ := hkeeps.messages id r hr
    exact ⟨r', hr', hkeep.publishedAt, hkeep.deadLetteredAt⟩
  · have hx : x ∈ system.log := hlog ▸ List.mem_append_right _ List.mem_cons_self
    rcases (h.delivers hx).publishes hbefore hafter with hreceipt |
      ⟨config, m, jitter, now, hrequest, hid, hcurrent⟩
    · exact Or.inl hreceipt
    · exact Or.inr ⟨config, m, jitter, now, hrequest, hid, hcurrent, hclaimed hlog hrequest⟩
  · have hx : x ∈ system.log := hlog ▸ List.mem_append_right _ List.mem_cons_self
    obtain ⟨config, m, classified, jitter, now, hrequest, hid, hcurrent, hgives⟩ :=
      (h.delivers hx).gives_up hbefore hafter
    exact ⟨config, m, classified, jitter, now, hrequest, hid, hcurrent, hgives, hclaimed hlog hrequest⟩
  · exact current_of_commits (hrequest ▸ h.history.commits hx)

namespace DeliverySample

def publisher : OutboxConfig :=
  ⟨"publisher", 10, 3, 60000000, 1000000000, 60000000000, by decide, by decide, by decide, by decide,
    by decide, by decide⟩

def claimed (message token : Nat) : ClaimedMessage :=
  ⟨.ofNat message, ⟨none, "run", "100", "run.created", 1, payload, payload⟩, 0, 0, .ofNat token, 1⟩

/-- Both messages are claimed; the first is accepted, the publisher vanishes before it sends the second. -/
def publishes : List DeliveryRequest :=
  [append 1, append 2, .claimBatch publisher (instant 10) (.ofNat 21) [],
    .recordSend publisher (claimed 1 21) .accepted 0 (instant 11)]

theorem publishes_waiting : ∃ r, (after publishes).committed.messages.get (.ofNat 2) = some r ∧
    (after publishes).committed.waiting[0]? = some r ∧
    ∀ x ∈ (after publishes).committed.waiting, x.attemptCount < maxInteger := by
  have hwaiting : ((after publishes).committed.messages.get (.ofNat 2)).isSome = true ∧
      (after publishes).committed.waiting[0]? = (after publishes).committed.messages.get (.ofNat 2) ∧
      ∀ x ∈ (after publishes).committed.waiting, x.attemptCount < maxInteger := by
    decide +kernel
  obtain ⟨r, hr⟩ := Option.isSome_iff_exists.mp hwaiting.1
  exact ⟨r, hr, hr ▸ hwaiting.2.1, hwaiting.2.2⟩

end DeliverySample

theorem outbox_publishers_vanished :
    SendsClaimed (after publishes).log ∧ (after publishes).committed.MarkedOnce ∧
    ∀ earliest, ∃ now : Time, earliest ≤ now.nanos ∧
      (after publishes).committed.Claimable publisher now (.ofNat 2) := by
  have hsends : SendsClaimed (after publishes).log := by decide +kernel
  obtain ⟨r, hr, hfirst, hcount⟩ := publishes_waiting
  obtain ⟨honce, _, _, _, _, hclaimable⟩ := outbox_publishers (reachable publishes) hsends
  exact ⟨hsends, honce, (hclaimable _ r hr publisher (by decide)).mpr
    ⟨0, hfirst, fun x hx => hcount x (List.mem_of_mem_take hx)⟩⟩

/-- After `2147483647` claims whose publishers vanished a message cannot be claimed any more. -/
theorem outbox_attempts_exhausted : ∃ system : DeliverySystem,
    DeliveryReachable digests system ∧ SendsClaimed system.log ∧
    ∃ r, system.committed.messages.get (.ofNat 1) = some r ∧ r.unmarked = true ∧
      r.attemptCount = maxInteger ∧
      ∀ config now, ¬system.committed.Claimable config now (.ofNat 1) := by
  obtain ⟨s, log, r, hreach, hsent, hr, _, hunmarked, hcount⟩ := attempts_reachable digests
    publisher (.ofNat 1) (claimed 1 21).content maxInteger.toNat (by decide)
  refine ⟨_, hreach, fun log₁ x log₂ hlog a ha => ?_, r, hr, hunmarked, hcount, fun config now =>
    not_claimable hr ?_⟩
  · obtain rfl : log = log₁ ++ x :: log₂ := hlog
    rw [hsent x (List.mem_append_right _ List.mem_cons_self)] at ha
    cases ha
  · rw [hcount]
    decide

end AgentGovernor
