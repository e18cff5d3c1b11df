import AgentGovernor.DeliveryMarks
import AgentGovernor.TransactionAlone
import AgentGovernor.TransactionSnapshot

/-! Whether a delivery can be completed. The receipt of a claimed event never stands in its own way; what does
is the message in the outbox, which the completion publishes as well, and a receipt that cannot be stored. -/

namespace AgentGovernor

open Ledger Table Transaction Engine DeliverySample List

variable {format : EvidenceFormat} {request : DeliveryRequest} {response : DeliveryResponse}
  {s t : DeliveryStore} {sink : String}

/-! ### Claimed events have no receipt -/

theorem received_eq_false {e : ID} :
    received s sink e = false ↔ ∀ r ∈ s.receipts.rows, r.sinkID = sink → r.eventID ≠ e := by
  simp [received]

/-- As long as the sequence of a sink stays, it receives nothing. -/
structure DeliveryStore.Awaits (sink : String) (s t : DeliveryStore) : Prop where
  le : s.lastSequence sink ≤ t.lastSequence sink
  received : t.lastSequence sink = s.lastSequence sink → ∀ e, received t sink e = received s sink e

theorem DeliveryStore.Awaits.refl (s : DeliveryStore) : s.Awaits sink s := ⟨le_rfl, fun _ _ => rfl⟩

theorem DeliveryStore.Awaits.trans {u : DeliveryStore} (h : DeliveryStore.Awaits sink s t)
    (h' : DeliveryStore.Awaits sink t u) : DeliveryStore.Awaits sink s u where
  le := h.le.trans h'.le
  received hsame e := by
    have hle := h.le
    have hle' := h'.le
    rw [h'.received (by omega) e, h.received (by omega) e]

theorem Completes.received_other {claim : ClaimedDelivery} {receipt : SinkReceipt} {c : SinkCheckpoint}
    {r : OutboxRow} (h : Completes format claim receipt c r s t) (hsink : sink ≠ claim.delivery.sinkID) (e : ID) :
    received t sink e = received s sink e := by
  have hnone : s.receipts.get (receiptRow claim.delivery receipt).key = none := by
    rw [get_eq_none_iff]
    intro x hx hkey
    obtain ⟨hsinkID, hsequence⟩ := Prod.mk.inj hkey
    exact (h.fresh x hx hsinkID).1 hsequence
  rw [received, h.receipts, rows_put_of_none _ hnone, any_append, any_cons, any_nil,
    Bool.or_false, received]
  have hrow : decide ((receiptRow claim.delivery receipt).sinkID = sink) = false :=
    decide_eq_false (Ne.symm hsink)
  rw [hrow, Bool.false_and, Bool.or_false]

theorem Delivers.awaits (h : Delivers format request response s t) (sink : String) :
    DeliveryStore.Awaits sink s t := by
  rcases h.moves with ⟨claim, receipt, c, r, _, hcompletes⟩ | ⟨hreceipts, hunmoved⟩
  · by_cases hsink : sink = claim.delivery.sinkID
    · subst hsink
      have hbefore := hcompletes.lastSequence_before
      have hafter := hcompletes.lastSequence_after
      exact ⟨by omega, fun hsame => by omega⟩
    · exact ⟨(hcompletes.lastSequence_other hsink).ge, fun _ => hcompletes.received_other hsink⟩
  · refine ⟨(hunmoved sink).1.ge, fun _ e => ?_⟩
    rw [received, hreceipts, received]

/-- What a sink has claimed it has not received. -/
def DeliveryStore.Unreceived (s : DeliveryStore) : Prop :=
  ∀ sink c k, s.checkpoints.get sink = some c → c.claim = some k → received s sink k.eventID = false

/-- A claim that changed something took an event without a receipt. -/
def OffersUnreceived (x : DeliveryCommit) : Prop :=
  ∀ sinkID now token lease hints, x.request = .claimCandidate sinkID now token lease hints →
    x.after = x.before ∨ ∀ c k, x.after.checkpoints.get sinkID = some c → c.claim = some k →
      received x.before sinkID k.eventID = false

/-- The snapshot of the claim had no receipt, and the checkpoint has not moved since. -/
theorem DeliveryReachable.offersUnreceived {system : DeliverySystem} (h : DeliveryReachable format system)
    {x : DeliveryCommit} (hx : x ∈ system.log) : OffersUnreceived x := by
  intro sinkID now token lease hints hrequest
  obtain ⟨log₁, log₂, hlog⟩ := append_of_mem hx
  obtain ⟨early, seen, held, ⟨later, rfl⟩, hseen, hexec⟩ :=
    Engine.Reaches.witnessed (disciplined_deliveryProgram format) h log₁ x log₂ hlog _
      (by rw [hrequest]; rfl)
  obtain ⟨_, hclaim, _⟩ := exec_answer hexec
  obtain ⟨_, hsame⟩ | ⟨c, event, before, hfound, hc, hunmoved, _, hafter⟩ := exec_claimCandidate_seen rfl hclaim
  · exact Or.inl hsame
  · obtain ⟨hbefore, _, _, hunreceived⟩ := evidenceCandidate_spec hfound
    have hhistory := (hlog ▸ h.history).before
    have hawaits : DeliveryStore.Awaits sinkID seen x.before :=
      Engine.History.since_prefix DeliveryStore.Awaits.refl (fun _ _ _ => DeliveryStore.Awaits.trans) hseen
        hhistory fun y hy => (commits_delivers (hhistory.commits (mem_append_right _ hy))).awaits sinkID
    simp only [SinkCheckpoint.unmoved, Bool.and_eq_true, decide_eq_true_eq] at hunmoved
    have hsequence : x.before.lastSequence sinkID = seen.lastSequence sinkID := by
      rw [DeliveryStore.lastSequence_of_get hc, DeliveryStore.lastSequence_of_get hbefore, hunmoved.1]
    refine Or.inr fun c' k hc' hk => ?_
    have hsink : c.sinkID = sinkID := key_of_get hc
    have hself := x.before.checkpoints.get_put_self (c.claimed token event.id now.stored lease)
    rw [show (c.claimed token event.id now.stored lease).sinkID = sinkID from hsink] at hself
    rw [hafter, DeliveryStore.checkpoints_putCheckpoint, hself] at hc'
    cases hc'
    cases hk
    rw [hawaits.received hsequence]
    exact hunreceived

theorem Delivers.unreceived (h : Delivers format request response s t)
    (hoffers : OffersUnreceived ⟨request, response, s, t⟩) (hs : s.Unreceived) : t.Unreceived := by
  cases h with
  | append _ _ _ _ _ _ ht => subst ht; exact hs
  | claimBatch _ _ _ _ _ _ _ hclaims =>
    intro sink c k hc hk
    rw [hclaims.checkpoints] at hc
    rw [received, hclaims.receipts]
    exact hs sink c k hc hk
  | recordSend _ _ _ _ _ _ _ _ _ _ _ ht => subst ht; exact hs
  | ensure sinkID now _ hfresh ht =>
    subst ht
    intro sink c k hc hk
    rw [DeliveryStore.checkpoints_putCheckpoint, get_put] at hc
    split_ifs at hc
    · cases hc
      cases hk
    · exact hs sink c k hc hk
  | idle _ _ ht => subst ht; exact hs
  | offer sinkID now token lease hints c event hrequest hc _ _ _ ht =>
    rcases hoffers sinkID now token lease hints hrequest with hsame | hunreceived
    · exact (show t = s from hsame) ▸ hs
    · intro sink c' k hc' hk
      by_cases hsink : sink = sinkID
      · subst hsink
        have hfree := hunreceived c' k hc' hk
        rw [ht]
        exact hfree
      · have hsinkID : c.sinkID = sinkID := key_of_get hc
        have hother : sink ≠ (c.claimed token event.id now.stored lease).sinkID :=
          fun heq => hsink (heq.trans hsinkID)
        rw [ht, DeliveryStore.checkpoints_putCheckpoint, get_put, if_neg hother] at hc'
        rw [ht]
        exact hs sink c' k hc' hk
  | complete claim receipt c r _ _ hcompletes =>
    intro sink c' k hc' hk
    rw [hcompletes.checkpoints_get] at hc'
    split_ifs at hc' with hsink
    · cases hc'
      cases hk
    · rw [hcompletes.received_other hsink]
      exact hs sink c' k hc' hk
  | release claim token c k _ _ hc hk _ _ ht =>
    subst ht
    intro sink c' k' hc' hk'
    rw [DeliveryStore.checkpoints_putCheckpoint, get_put] at hc'
    split_ifs at hc' with hsink
    · cases hc'
      cases hk'
      have hsinkID : c.sinkID = claim.delivery.sinkID := key_of_get hc
      rw [hsink, show (c.released token k).sinkID = claim.delivery.sinkID from hsinkID]
      exact hs _ c k hc hk
    · exact hs sink c' k' hc' hk'

theorem DeliveryReachable.unreceived {system : DeliverySystem} (h : DeliveryReachable format system) :
    system.committed.Unreceived :=
  (h.history.invariant_where (P := DeliveryStore.Unreceived) (C := OffersUnreceived)
    (fun sink c k hc _ => by cases hc)
    (fun _ _ _ _ hcommit hoffers hs => (commits_delivers hcommit).unreceived hoffers hs)
    fun _ hx => h.offersUnreceived hx).1

/-! ### The rows that a completion writes -/

theorem length_le_byteLength (value : String) : value.length ≤ byteLength value := by
  have hchars : ∀ chars : List Char, chars.length ≤ (chars.map Char.utf8Size).sum := by
    intro chars
    induction chars with
    | nil => exact le_rfl
    | cons c chars ih =>
      have hpos := c.utf8Size_pos
      rw [length_cons, map_cons, sum_cons]
      omega
  rw [← String.length_toList]
  exact hchars value.toList

theorem length_pos_of_byteLength {value : String} (h : 0 < byteLength value) : 1 ≤ value.length := by
  rw [← String.length_toList, Nat.succ_le_iff, length_pos_iff]
  intro hnil
  rw [byteLength, hnil] at h
  exact absurd h (lt_irrefl _)

/-- What the binding of a delivery says of its hashes. -/
theorem Delivery.validate_spec {d : Delivery} (h : d.validate format = .ok ()) :
    (d.sequence = 1 ↔ d.previousHash = "") ∧ (d.previousHash ≠ "" → validDigest d.previousHash = true) ∧
      ∃ text, d.eventHash = "sha256:" ++ format.sha256 text := by
  unfold Delivery.validate at h
  cases hnew : newDelivery format d.sinkID d.sequence d.previousHash d.eventID d.event with
  | error failure =>
    rw [hnew] at h
    cases h
  | ok rebuilt =>
    rw [hnew] at h
    dsimp only at h
    split_ifs at h with hsame
    unfold newDelivery at hnew
    rw [ite_error_eq_ok] at hnew
    obtain ⟨hbinding, hrebuilt⟩ := hnew
    cases hrebuilt
    simp only [not_or, not_and, Bool.not_eq_true', Bool.not_eq_false, ne_eq, not_not] at hbinding hsame
    obtain ⟨_, _, hfirst, hdigest, _⟩ := hbinding
    exact ⟨iff_of_eq hfirst, hdigest, _, hsame.2.symm⟩

/-- Of the checks on its row a valid receipt can only fail the one on its text. -/
theorem receiptRow_check {d : Delivery} {receipt : SinkReceipt}
    (hdigests : ∀ text, validDigest ("sha256:" ++ format.sha256 text) = true)
    (hvalid : receipt.validateFor format d = .ok ()) (hsequence : 0 < d.sequence) :
    (receiptRow d receipt).check = storableText receipt.receiptID := by
  obtain ⟨_, hdelivery, hreceipt⟩ := bind_eq_ok.mp hvalid
  split_ifs at hreceipt with hbound
  simp only [not_or, Bool.not_eq_true', Bool.not_eq_false, ne_eq, not_not] at hbound
  obtain ⟨_, _, _, _, _, hid, hcheckpoint, _⟩ := hbound
  obtain ⟨hfirst, hprevious, text, hhash⟩ := Delivery.validate_spec hdelivery
  simp only [validReference, Bool.and_eq_true, decide_eq_true_eq] at hid
  have hlength := length_pos_of_byteLength hid.1
  have hbound := (length_le_byteLength receipt.receiptID).trans hid.2
  have hpreviousHash : ((receiptRow d receipt).previousEventHash.all validDigest) = true := by
    simp only [receiptRow]
    split_ifs with hempty
    · rfl
    · exact hprevious hempty
  have hlink : decide (decide (d.sequence = 1) = (receiptRow d receipt).previousEventHash.isNone) = true := by
    simp only [receiptRow]
    split_ifs with hempty
    · simp [hfirst.mpr hempty]
    · have hlater : d.sequence ≠ 1 := fun hone => hempty (hfirst.mp hone)
      simp [hlater]
  unfold ReceiptRow.check
  rw [hpreviousHash, show (receiptRow d receipt).eventHash = "sha256:" ++ format.sha256 text from hhash,
    hdigests, show (receiptRow d receipt).receiptID = receipt.receiptID from rfl,
    show (receiptRow d receipt).sinkCheckpoint = receipt.checkpoint from rfl, hcheckpoint,
    show (receiptRow d receipt).sequence = d.sequence from rfl, hlink, decide_eq_true hsequence,
    decide_eq_true hlength, decide_eq_true hbound]
  simp

/-- The message is published already, or it was not given up and did not occur after the acceptance. -/
def OutboxRow.Publishable (r : OutboxRow) (acceptedAt : Int) : Prop :=
  r.publishedAt.isSome = true ∨ (r.deadLetteredAt = none ∧ r.occurredAt ≤ acceptedAt)

theorem succeeds_publishReceived {row : ReceiptRow} {r : OutboxRow}
    (hr : s.messages.get row.eventID = some r) :
    deliveryEngine.Succeeds (publishReceived row) s ↔ r.Publishable row.acceptedAt := by
  refine Handle.succeeds_upsertWhere.trans ?_
  rw [show (messageRows.table s).get row.eventID = some r from hr]
  dsimp only
  by_cases hpublished : r.publishedAt.isSome = true
  · rw [if_pos hpublished]
    exact iff_of_true ⟨_, rfl⟩ (Or.inl hpublished)
  · rw [if_neg hpublished]
    have hcheck : ({ r with publishedAt := some row.acceptedAt } : OutboxRow).check = true ↔
        r.deadLetteredAt = none ∧ r.occurredAt ≤ row.acceptedAt := by
      cases r.deadLetteredAt <;> simp [OutboxRow.check]
    constructor
    · rintro ⟨result, hresult⟩
      split_ifs at hresult with hok
      exact Or.inr (hcheck.mp hok)
    · rintro (hsome | hok)
      · exact (hpublished hsome).elim
      · rw [if_pos (hcheck.mpr hok)]
        exact ⟨_, rfl⟩

theorem succeeds_completeDelivery {claim : ClaimedDelivery} {receipt : SinkReceipt} {r : OutboxRow}
    (hcurrent : claim.current s = true) (hvalid : receipt.validateFor format claim.delivery = .ok ())
    (hr : s.messages.get claim.delivery.eventID = some r)
    (hfresh : ∀ x ∈ s.receipts.rows, x.sinkID = claim.delivery.sinkID →
      x.sequence ≠ claim.delivery.sequence ∧ x.eventID ≠ claim.delivery.eventID) :
    deliveryEngine.Succeeds (completeDelivery format claim receipt) s ↔ receipt.acceptedAt.encodable = true ∧
      (receiptRow claim.delivery receipt).check = true ∧ r.Publishable receipt.acceptedAt.stored := by
  obtain ⟨c, hc, _⟩ := (Option.any_eq_true _ _).mp hcurrent
  have hbody : deliveryEngine.run (.ofExcept (receipt.validateFor format claim.delivery) : DeliveryOp Unit) s =
      .ok ((), s) := by
    rw [hvalid]
    rfl
  unfold completeDelivery
  refine (succeeds_bind_of_run hbody).trans (succeeds_bind_iff succeeds_require fun _ u hrun => ?_)
  cases run_require_eq hrun
  refine (succeeds_bind_of_run (run_snapshot _)).trans ((succeeds_bind_of_run (run_require hcurrent)).trans ?_)
  refine succeeds_bind_iff ?_ fun _ u hrun => ?_
  · have hknown : (s.messages.get claim.delivery.eventID).isSome = true := by
      rw [hr]
      rfl
    have hinsert : ∀ u, u = s → (deliveryEngine.Succeeds (receiptRows.insert
        [.receipt claim.delivery.sinkID claim.delivery.sequence,
          .receiptOf claim.delivery.sinkID claim.delivery.eventID] (receiptRow claim.delivery receipt)
        (fun x => x.sinkID = claim.delivery.sinkID && (x.sequence = claim.delivery.sequence ||
          x.eventID = claim.delivery.eventID)) (Failure.database "commit evidence receipt")) u ↔ True) := by
      rintro u rfl
      refine iff_true_intro (Handle.succeeds_insert.mpr fun x hx => ?_)
      by_cases hsink : x.sinkID = claim.delivery.sinkID
      · obtain ⟨hsequence, hevent⟩ := hfresh x hx hsink
        simp [hsequence, hevent]
      · simp [hsink]
    refine (succeeds_bind_of_run (run_snapshot _)).trans
      ((succeeds_bind_iff succeeds_require fun _ u hrun => hinsert u (run_require_eq hrun)).trans ?_)
    rw [and_true]
    exact and_iff_right hknown
  · obtain ⟨_, hexec⟩ := exec_of_run [] hrun
    obtain ⟨_, _, _, rfl⟩ := exec_insertReceipt hexec
    have hadvance : deliveryEngine.run (advanceCheckpoint (receiptRow claim.delivery receipt))
        (s.putReceipt (receiptRow claim.delivery receipt)) = .ok ((),
          (s.putReceipt (receiptRow claim.delivery receipt)).putCheckpoint
            (c.advanced (receiptRow claim.delivery receipt))) :=
      Handle.run_update (H := checkpointRows) hc rfl
    exact (succeeds_bind_of_run hadvance).trans (succeeds_publishReceived hr)

/-! ### Every completion -/

/-- Whatever publishers and exporters did before, the current claim of a sink can be completed with a receipt
for it exactly when the time of acceptance has a JSON text, the identifier of the receipt can be stored and the
message is published already, or has not been given up and did not occur after that time. -/
theorem completions_commit_iff {system : DeliverySystem} (h : DeliveryReachable format system)
    (hcompletes : CompletesHandedOut system.log)
    (hdigests : ∀ text, validDigest ("sha256:" ++ format.sha256 text) = true) {claim : ClaimedDelivery}
    {receipt : SinkReceipt} {r : OutboxRow} (hcurrent : claim.current system.committed = true)
    (hvalid : receipt.validateFor format claim.delivery = .ok ())
    (hr : system.committed.messages.get claim.delivery.eventID = some r) :
    (∃ t, deliveryEngine.run (completeDelivery format claim receipt) system.committed = .ok ((), t) ∧
        t.receipts.get (claim.delivery.sinkID, claim.delivery.sequence) =
          some (receiptRow claim.delivery receipt) ∧
        t.lastSequence claim.delivery.sinkID = claim.delivery.sequence) ↔
      receipt.acceptedAt.encodable = true ∧ storableText receipt.receiptID = true ∧
        r.Publishable receipt.acceptedAt.stored := by
  obtain ⟨c, hc, hclaim⟩ := (Option.any_eq_true _ _).mp hcurrent
  rw [Bool.and_eq_true, decide_eq_true_eq] at hclaim
  obtain ⟨hclaim, hsequence⟩ := hclaim
  obtain ⟨k, hk, htoken⟩ := (Option.any_eq_true _ _).mp hclaim
  simp only [Bool.and_eq_true, decide_eq_true_eq] at htoken
  have hchained := (chained_of_history h.history hcompletes).1 claim.delivery.sinkID
  have hlast := DeliveryStore.lastSequence_of_get hc
  have hnonneg := hchained.nonneg
  have hunreceived := received_eq_false.mp (h.unreceived _ c k hc hk)
  have hfresh : ∀ x ∈ system.committed.receipts.rows, x.sinkID = claim.delivery.sinkID →
      x.sequence ≠ claim.delivery.sequence ∧ x.eventID ≠ claim.delivery.eventID := by
    intro x hx hsink
    refine ⟨fun hnext => ?_, htoken.2 ▸ hunreceived x hx hsink⟩
    have hstored : system.committed.receipts.get (claim.delivery.sinkID, x.sequence) = some x := by
      rw [← hsink]
      exact get_of_mem hx
    have hle := ((hchained.numbered x.sequence).mp (hstored ▸ rfl)).2
    omega
  have hcheck := receiptRow_check hdigests hvalid (by omega)
  have hsucceeds := succeeds_completeDelivery hcurrent hvalid hr hfresh
  rw [hcheck] at hsucceeds
  rw [← hsucceeds]
  constructor
  · rintro ⟨t, hrun, _⟩
    exact ⟨(), t, hrun⟩
  · rintro ⟨_, t, hrun⟩
    obtain ⟨_, hexec⟩ := exec_of_run [] hrun
    obtain ⟨c', r', hcompletion⟩ := exec_completeDelivery hexec
    refine ⟨t, hrun, ?_, hcompletion.lastSequence_after⟩
    rw [hcompletion.receipts_get, if_pos ⟨rfl, rfl⟩]

namespace DeliverySample

/-- An exporter has the first event, and a publisher has claimed its message. -/
def exporting : List DeliveryRequest :=
  [append 1, .ensureCheckpoint "archive" (instant 1), claim 11 10,
    .claimBatch publisher (instant 10) (.ofNat 21) []]

/-- The sink of the publisher refuses the message for good. -/
def refused : List DeliveryRequest :=
  exporting ++ [.recordSend publisher (claimed 1 21) (.failed (some ⟨"rejected", true⟩)) 0 (instant 11)]

def acceptance : SinkReceipt :=
  ⟨deliveryVersion, "archive", 1, .ofNat 1, eventHash "", "accepted", eventHash "", instant 20⟩

theorem digests_valid (text : String) : validDigest ("sha256:" ++ digests.sha256 text) = true := by
  have hdigit : ∀ n : Fin 16, validDigest ("sha256:" ++
      String.ofList (List.replicate 63 '0' ++ [Nat.digitChar n.val])) = true := by
    decide +kernel
  exact hdigit ⟨text.length % 16, Nat.mod_lt _ (by decide)⟩

/-- The exporter holds the claim, and nobody completed what it was not handed out. -/
def awaitsReceipt (system : DeliverySystem) : Bool :=
  decide (CompletesHandedOut system.log) && (handedOut 1 11 1 "").current system.committed

theorem exporting_evaluated :
    (awaitsReceipt (after exporting) = true ∧ acceptance.validateFor digests (handedOut 1 11 1 "").delivery = .ok () ∧
      ((after exporting).committed.messages.get (.ofNat 1)).any
        (fun r => r.deadLetteredAt = none && r.occurredAt = 0) = true) ∧
    awaitsReceipt (after refused) = true ∧
    (match deliveryEngine.run (completeDelivery digests (handedOut 1 11 1 "") acceptance)
        (after refused).committed with
      | .ok _ => false
      | .error error => error = .database "commit evidence receipt") = true := by
  decide +kernel

end DeliverySample

theorem completions_commit_exporting : ∃ t,
    deliveryEngine.run (completeDelivery digests (handedOut 1 11 1 "")
      acceptance) (after exporting).committed = .ok ((), t) ∧
    t.receipts.get ("archive", 1) =
      some (receiptRow (handedOut 1 11 1 "").delivery acceptance) ∧
    t.lastSequence "archive" = 1 := by
  obtain ⟨⟨hawaits, hvalid, hmessage⟩, _⟩ := exporting_evaluated
  rw [awaitsReceipt, Bool.and_eq_true, decide_eq_true_eq] at hawaits
  obtain ⟨r, hr, hrow⟩ := (Option.any_eq_true _ _).mp hmessage
  simp only [Bool.and_eq_true, decide_eq_true_eq] at hrow
  refine (completions_commit_iff (reachable _) hawaits.1 digests_valid hawaits.2
    hvalid hr).mpr ⟨by decide, by decide, Or.inr ⟨hrow.1, ?_⟩⟩
  rw [hrow.2]
  decide

/-- After a publisher has given the message up, the receipt of the archive cannot be committed. -/
theorem completion_wedged :
    DeliveryReachable digests (after refused) ∧
    CompletesHandedOut (after refused).log ∧
    (handedOut 1 11 1 "").current
      (after refused).committed = true ∧
    acceptance.validateFor digests
      (handedOut 1 11 1 "").delivery = .ok () ∧
    ∀ t, deliveryEngine.run (completeDelivery digests (handedOut 1 11 1 "")
      acceptance) (after refused).committed ≠ .ok ((), t) := by
  obtain ⟨⟨_, hvalid, _⟩, hawaits, hrefused⟩ := exporting_evaluated
  rw [awaitsReceipt, Bool.and_eq_true, decide_eq_true_eq] at hawaits
  refine ⟨reachable _, hawaits.1, hawaits.2, hvalid, fun t hrun => ?_⟩
  rw [hrun] at hrefused
  cases hrefused

end AgentGovernor
