import AgentGovernor.DeliverySystem

/-! The receipts of a sink are one chain. An exporter completes what it was handed out, possibly long after
others have taken its claim over; that such claims still fit onto the chain is the invariant here. -/

namespace AgentGovernor

open Ledger Table Transaction Engine List Option

variable {format : EvidenceFormat} {request : DeliveryRequest} {response : DeliveryResponse}
  {s t : DeliveryStore} {sink : String}

def DeliveryStore.lastSequence (s : DeliveryStore) (sink : String) : Int :=
  (s.checkpoints.get sink).elim 0 SinkCheckpoint.lastSequence

def DeliveryStore.lastEventHash (s : DeliveryStore) (sink : String) : Option String :=
  (s.checkpoints.get sink).bind SinkCheckpoint.lastEventHash

/-- The hash of the event that a sink received under a sequence. -/
def DeliveryStore.eventHash (s : DeliveryStore) (sink : String) (sequence : Int) : Option String :=
  (s.receipts.get (sink, sequence)).map ReceiptRow.eventHash

/-- The receipts of a sink are numbered from 1 to the last sequence of its checkpoint, each continues the
one before it, the checkpoint has the hash of the last, and no event occurs twice. -/
structure DeliveryStore.Chained (s : DeliveryStore) (sink : String) : Prop where
  nonneg : 0 ≤ s.lastSequence sink
  numbered : ∀ k, (s.receipts.get (sink, k)).isSome = true ↔ 1 ≤ k ∧ k ≤ s.lastSequence sink
  linked : ∀ k r, s.receipts.get (sink, k) = some r → r.previousEventHash = s.eventHash sink (k - 1)
  last : s.lastEventHash sink = s.eventHash sink (s.lastSequence sink)
  once : ∀ k k' r r', s.receipts.get (sink, k) = some r → s.receipts.get (sink, k') = some r' →
    r.eventID = r'.eventID → k = k'

/-- A delivery fits onto the chain, at its end or where the chain already has another receipt. -/
structure Delivery.Continues (d : Delivery) (s : DeliveryStore) : Prop where
  positive : 1 ≤ d.sequence
  le_next : d.sequence ≤ s.lastSequence d.sinkID + 1
  previousHash : d.previousHash = (s.eventHash d.sinkID (d.sequence - 1)).getD ""

theorem DeliveryStore.Chained.congr (h : s.Chained sink) (hreceipts : t.receipts = s.receipts)
    (hsequence : t.lastSequence sink = s.lastSequence sink)
    (hhash : t.lastEventHash sink = s.lastEventHash sink) : t.Chained sink := by
  have heventHash : t.eventHash sink = s.eventHash sink := by
    funext k
    rw [DeliveryStore.eventHash, hreceipts, DeliveryStore.eventHash]
  refine ⟨hsequence ▸ h.nonneg, fun k => ?_, fun k r hr => ?_, ?_, ?_⟩
  · rw [hreceipts, hsequence]
    exact h.numbered k
  · rw [hreceipts] at hr
    rw [heventHash]
    exact h.linked k r hr
  · rw [hhash, heventHash, hsequence]
    exact h.last
  · rw [hreceipts]
    exact h.once

theorem Delivery.Continues.congr {d : Delivery} (h : d.Continues s) (hreceipts : t.receipts = s.receipts)
    (hsequence : t.lastSequence d.sinkID = s.lastSequence d.sinkID) : d.Continues t where
  positive := h.positive
  le_next := hsequence ▸ h.le_next
  previousHash := by
    rw [DeliveryStore.eventHash, hreceipts]
    exact h.previousHash

theorem DeliveryStore.chained_empty (sink : String) : DeliveryStore.empty.Chained sink := by
  refine ⟨le_refl _, fun k => ⟨fun h => ?_, fun h => ?_⟩, fun k r hr => ?_, rfl, fun _ _ _ _ hr => ?_⟩
  · cases h
  · have hlast : DeliveryStore.empty.lastSequence sink = 0 := rfl
    omega
  · cases hr
  · cases hr

/-! ### Steps -/

theorem DeliveryStore.lastSequence_of_get {c : SinkCheckpoint} (h : s.checkpoints.get sink = some c) :
    s.lastSequence sink = c.lastSequence := by rw [DeliveryStore.lastSequence, h]; rfl

theorem DeliveryStore.lastEventHash_of_get {c : SinkCheckpoint} (h : s.checkpoints.get sink = some c) :
    s.lastEventHash sink = c.lastEventHash := by rw [DeliveryStore.lastEventHash, h]; rfl

/-- Writing a checkpoint that is where it was moves no chain. -/
theorem DeliveryStore.unmoved_putCheckpoint {row : SinkCheckpoint}
    (hsequence : row.lastSequence = s.lastSequence row.sinkID)
    (hhash : row.lastEventHash = s.lastEventHash row.sinkID) (sink : String) :
    (s.putCheckpoint row).lastSequence sink = s.lastSequence sink ∧
      (s.putCheckpoint row).lastEventHash sink = s.lastEventHash sink := by
  by_cases hsink : sink = row.sinkID
  · subst hsink
    have hget : (s.putCheckpoint row).checkpoints.get row.sinkID = some row := s.checkpoints.get_put_self row
    exact ⟨(DeliveryStore.lastSequence_of_get hget).trans hsequence,
      (DeliveryStore.lastEventHash_of_get hget).trans hhash⟩
  · have hget : (s.putCheckpoint row).checkpoints.get sink = s.checkpoints.get sink := by
      rw [DeliveryStore.checkpoints_putCheckpoint, get_put, if_neg hsink]
    constructor
    · rw [DeliveryStore.lastSequence, hget, DeliveryStore.lastSequence]
    · rw [DeliveryStore.lastEventHash, hget, DeliveryStore.lastEventHash]

/-- Only a completion moves a chain. -/
theorem Delivers.moves (h : Delivers format request response s t) :
    (∃ claim receipt c r, request = .completeDelivery claim receipt ∧
      Completes format claim receipt c r s t) ∨
    (t.receipts = s.receipts ∧ ∀ sink, t.lastSequence sink = s.lastSequence sink ∧
      t.lastEventHash sink = s.lastEventHash sink) := by
  cases h with
  | append _ _ _ _ _ _ ht => subst ht; exact Or.inr ⟨rfl, fun _ => ⟨rfl, rfl⟩⟩
  | claimBatch _ _ _ _ _ _ _ hclaims =>
    refine Or.inr ⟨hclaims.receipts, fun sink => ⟨?_, ?_⟩⟩
    · rw [DeliveryStore.lastSequence, hclaims.checkpoints, DeliveryStore.lastSequence]
    · rw [DeliveryStore.lastEventHash, hclaims.checkpoints, DeliveryStore.lastEventHash]
  | recordSend _ _ _ _ _ _ _ _ _ _ _ ht => subst ht; exact Or.inr ⟨rfl, fun _ => ⟨rfl, rfl⟩⟩
  | ensure sinkID now _ hfresh ht =>
    subst ht
    refine Or.inr ⟨rfl, DeliveryStore.unmoved_putCheckpoint ?_ ?_⟩
    · rw [DeliveryStore.lastSequence, hfresh]; rfl
    · rw [DeliveryStore.lastEventHash, hfresh]; rfl
  | idle _ _ ht => subst ht; exact Or.inr ⟨rfl, fun _ => ⟨rfl, rfl⟩⟩
  | offer sinkID now token lease hints c event _ hc _ _ _ ht =>
    subst ht
    have hsink : c.sinkID = sinkID := key_of_get hc
    rw [← hsink] at hc
    exact Or.inr ⟨rfl, DeliveryStore.unmoved_putCheckpoint
      (DeliveryStore.lastSequence_of_get hc).symm (DeliveryStore.lastEventHash_of_get hc).symm⟩
  | complete claim receipt c r hrequest _ hcompletes =>
    exact Or.inl ⟨claim, receipt, c, r, hrequest, hcompletes⟩
  | release claim token c k _ _ hc _ _ _ ht =>
    subst ht
    have hsink : c.sinkID = claim.delivery.sinkID := key_of_get hc
    rw [← hsink] at hc
    exact Or.inr ⟨rfl, DeliveryStore.unmoved_putCheckpoint
      (DeliveryStore.lastSequence_of_get hc).symm (DeliveryStore.lastEventHash_of_get hc).symm⟩

section Completion

variable {claim : ClaimedDelivery} {receipt : SinkReceipt} {c : SinkCheckpoint} {r : OutboxRow}

theorem Completes.checkpoints_get (h : Completes format claim receipt c r s t) (sink : String) :
    t.checkpoints.get sink = if sink = claim.delivery.sinkID then
      some (c.advanced (receiptRow claim.delivery receipt)) else s.checkpoints.get sink := by
  have hsink : c.sinkID = claim.delivery.sinkID := key_of_get h.checkpoint
  rw [h.checkpoints, get_put,
    show (c.advanced (receiptRow claim.delivery receipt)).sinkID = claim.delivery.sinkID from hsink]

theorem Completes.receipts_get (h : Completes format claim receipt c r s t) (sink : String) (k : Int) :
    t.receipts.get (sink, k) = if sink = claim.delivery.sinkID ∧ k = claim.delivery.sequence then
      some (receiptRow claim.delivery receipt) else s.receipts.get (sink, k) := by
  rw [h.receipts, get_put]
  simp only [ReceiptRow.key, receiptRow, Prod.mk.injEq]

theorem Completes.lastSequence_before (h : Completes format claim receipt c r s t) :
    s.lastSequence claim.delivery.sinkID + 1 = claim.delivery.sequence := by
  rw [DeliveryStore.lastSequence_of_get h.checkpoint]
  exact h.sequence

theorem Completes.lastSequence_after (h : Completes format claim receipt c r s t) :
    t.lastSequence claim.delivery.sinkID = claim.delivery.sequence := by
  rw [DeliveryStore.lastSequence, h.checkpoints_get, if_pos rfl]
  rfl

theorem Completes.lastSequence_other (h : Completes format claim receipt c r s t)
    (hsink : sink ≠ claim.delivery.sinkID) : t.lastSequence sink = s.lastSequence sink := by
  rw [DeliveryStore.lastSequence, h.checkpoints_get, if_neg hsink, DeliveryStore.lastSequence]

/-- The receipts that were there keep their hashes. -/
theorem Completes.eventHash_other (h : Completes format claim receipt c r s t) {k : Int}
    (hother : ¬(sink = claim.delivery.sinkID ∧ k = claim.delivery.sequence)) :
    t.eventHash sink k = s.eventHash sink k := by
  rw [DeliveryStore.eventHash, h.receipts_get, if_neg hother, DeliveryStore.eventHash]

/-- The stored predecessor is the hash before: no hash is empty, since only the first receipt has none. -/
theorem Completes.previousEventHash (h : Completes format claim receipt c r s t)
    (hchained : s.Chained claim.delivery.sinkID) (hcontinues : claim.delivery.Continues s) :
    (receiptRow claim.delivery receipt).previousEventHash =
      s.eventHash claim.delivery.sinkID (claim.delivery.sequence - 1) := by
  have hchecked := h.checked
  simp only [ReceiptRow.check, Bool.and_eq_true, decide_eq_true_eq] at hchecked
  have hfirst := hchecked.2
  have hprevious : (receiptRow claim.delivery receipt).previousEventHash =
      if claim.delivery.previousHash = "" then none else some claim.delivery.previousHash := rfl
  rw [hprevious] at hfirst ⊢
  rw [hcontinues.previousHash] at hfirst ⊢
  cases hhash : s.eventHash claim.delivery.sinkID (claim.delivery.sequence - 1) with
  | none => rfl
  | some hash =>
    rw [hhash] at hfirst
    dsimp only [getD_some] at hfirst ⊢
    split_ifs at hfirst ⊢ with hempty
    · -- An empty hash would make this receipt the first, and then there is none before it.
      have hone : claim.delivery.sequence = 1 := of_decide_eq_true hfirst
      have hnone := (hchained.numbered 0).not.mpr (by omega)
      rw [hone] at hhash
      simp only [DeliveryStore.eventHash, map_eq_some_iff] at hhash
      obtain ⟨x, hx, _⟩ := hhash
      exact absurd (hx ▸ rfl) hnone
    · rfl

theorem Completes.chained (h : Completes format claim receipt c r s t) (hchained : s.Chained sink)
    (hcontinues : claim.delivery.Continues s) : t.Chained sink := by
  by_cases hsink : sink = claim.delivery.sinkID
  · subst hsink
    have hbefore := h.lastSequence_before
    have hafter := h.lastSequence_after
    have hpositive := hcontinues.positive
    refine ⟨by omega, fun k => ?_, fun k x hx => ?_, ?_, fun k k' x x' hx hx' hevent => ?_⟩
    · rw [h.receipts_get, hafter]
      split_ifs with hk
      · simp only [isSome_some, true_iff]
        omega
      · rw [hchained.numbered]
        have hne : k ≠ claim.delivery.sequence := fun heq => hk ⟨rfl, heq⟩
        omega
    · rw [h.receipts_get] at hx
      rw [h.eventHash_other (by have hle := (hchained.numbered k).mp; grind)]
      split_ifs at hx with hk
      · cases hx
        rw [hk.2]
        exact h.previousEventHash hchained hcontinues
      · exact hchained.linked k x hx
    · rw [hafter, DeliveryStore.lastEventHash, h.checkpoints_get, if_pos rfl, DeliveryStore.eventHash,
        h.receipts_get, if_pos ⟨rfl, rfl⟩]
      rfl
    · -- The new receipt's event has no other.
      have hfresh : ∀ k x, s.receipts.get (claim.delivery.sinkID, k) = some x →
          x.eventID ≠ claim.delivery.eventID := by
        intro k x hx
        have hkey := key_of_get hx
        exact (h.fresh x (mem_of_get hx) (Prod.mk.inj hkey).1).2
      rw [h.receipts_get] at hx hx'
      split_ifs at hx hx' with hk hk'
      · exact hk.2.trans hk'.2.symm
      · cases hx
        exact absurd hevent.symm (hfresh k' x' hx')
      · cases hx'
        exact absurd hevent (hfresh k x hx)
      · exact hchained.once k k' x x' hx hx' hevent
  · have hget : ∀ k, t.receipts.get (sink, k) = s.receipts.get (sink, k) := fun k => by
      rw [h.receipts_get, if_neg fun hk => hsink hk.1]
    have hhash : t.eventHash sink = s.eventHash sink := by
      funext k
      exact h.eventHash_other fun hk => hsink hk.1
    have hlast : t.lastEventHash sink = s.lastEventHash sink := by
      rw [DeliveryStore.lastEventHash, h.checkpoints_get, if_neg hsink, DeliveryStore.lastEventHash]
    have hsequence := h.lastSequence_other hsink
    refine ⟨hsequence ▸ hchained.nonneg, fun k => ?_, fun k x hx => ?_, ?_, fun k k' x x' hx hx' => ?_⟩
    · rw [hget, hsequence]
      exact hchained.numbered k
    · rw [hget] at hx
      rw [hhash]
      exact hchained.linked k x hx
    · rw [hlast, hhash, hsequence]
      exact hchained.last
    · rw [hget] at hx hx'
      exact hchained.once k k' x x' hx hx'

theorem Completes.continues (h : Completes format claim receipt c r s t) {d : Delivery}
    (hcontinues : d.Continues s) : d.Continues t := by
  by_cases hsink : d.sinkID = claim.delivery.sinkID
  · have hbefore := h.lastSequence_before
    have hafter := h.lastSequence_after
    have hle := hcontinues.le_next
    rw [← hsink] at hbefore hafter
    refine ⟨hcontinues.positive, by omega, ?_⟩
    rw [h.eventHash_other (by omega)]
    exact hcontinues.previousHash
  · refine ⟨hcontinues.positive, h.lastSequence_other hsink ▸ hcontinues.le_next, ?_⟩
    rw [h.eventHash_other fun hk => hsink hk.1]
    exact hcontinues.previousHash

end Completion

theorem newDelivery_ok {sinkID previousHash event : String} {sequence : Int} {eventID : ID} {d : Delivery}
    (h : newDelivery format sinkID sequence previousHash eventID event = .ok d) :
    d.sinkID = sinkID ∧ d.sequence = sequence ∧ d.previousHash = previousHash := by
  unfold newDelivery at h
  rw [ite_error_eq_ok] at h
  cases h.2
  exact ⟨rfl, rfl, rfl⟩

/-- What is handed out is bound to the checkpoint and the message it was found with. -/
theorem Delivers.offered {claim : ClaimedDelivery}
    (h : Delivers format request (.offered (.ok (some claim))) s t) : ∃ c event,
      s.checkpoints.get claim.delivery.sinkID = some c ∧ s.messages.get event.id = some event ∧
      (∀ k, c.claim = some k → k.eventID = event.id) ∧
      offeredDelivery format c event = .ok claim.delivery ∧
      ∃ now token lease, t = s.putCheckpoint (c.claimed token event.id now lease) := by
  cases h with
  | append _ _ _ _ hresponse => cases hresponse
  | claimBatch _ _ _ _ _ _ hresponse => cases hresponse
  | recordSend _ _ _ _ _ _ _ hresponse => cases hresponse
  | ensure _ _ hresponse => cases hresponse
  | idle _ hresponse => exact absurd rfl (hresponse.2 claim)
  | offer sinkID now token lease hints c event _ hc hevent hclaim hresponse ht =>
    cases hoffered : offeredDelivery format c event with
    | error e => simp [hoffered, Except.map] at hresponse
    | ok d =>
      simp only [hoffered, Except.map, DeliveryResponse.offered.injEq, Except.ok.injEq,
        Option.some.injEq] at hresponse
      subst hresponse
      have hsink : c.sinkID = sinkID := key_of_get hc
      obtain ⟨hd, _⟩ := newDelivery_ok hoffered
      refine ⟨c, event, ?_, hevent, hclaim, hoffered, _, _, _, ht⟩
      rw [hd, hsink]
      exact hc
  | complete _ _ _ _ _ hresponse => cases hresponse
  | release _ _ _ _ _ hresponse => cases hresponse

/-- It fits onto the end of the chain. -/
theorem Delivers.continues_offered {claim : ClaimedDelivery}
    (h : Delivers format request (.offered (.ok (some claim))) s t)
    (hchained : s.Chained claim.delivery.sinkID) : claim.delivery.Continues s := by
  obtain ⟨c, event, hc, _, _, hoffered, _⟩ := h.offered
  obtain ⟨_, hsequence, hprevious⟩ := newDelivery_ok hoffered
  have hlast := DeliveryStore.lastSequence_of_get hc
  have hnonneg := hchained.nonneg
  refine ⟨by omega, by omega, ?_⟩
  rw [hprevious, hsequence, add_sub_cancel_right, ← hlast, ← hchained.last,
    DeliveryStore.lastEventHash_of_get hc]

/-! ### Runs -/

def DeliveryResponse.handedOut : DeliveryResponse → List ClaimedDelivery
  | .offered (.ok (some claim)) => [claim]
  | _ => []

def DeliveryRequest.completed : DeliveryRequest → List ClaimedDelivery
  | .completeDelivery claim _ => [claim]
  | _ => []

theorem DeliveryResponse.mem_handedOut {claim : ClaimedDelivery} :
    claim ∈ response.handedOut ↔ response = .offered (.ok (some claim)) := by
  constructor
  · intro h
    unfold DeliveryResponse.handedOut at h
    split at h
    · rw [mem_singleton.mp h]
    · cases h
  · rintro rfl
    exact mem_cons_self

/-- Exporters complete what they were handed out. -/
abbrev CompletesHandedOut (log : List DeliveryCommit) : Prop :=
  UsesGiven (·.response.handedOut) DeliveryRequest.completed log

/-- Everything that was ever handed out still fits. -/
theorem chained_of_history {log : List DeliveryCommit}
    (h : deliveryEngine.History (deliveryProgram format) DeliveryStore.empty log s)
    (hcompletes : CompletesHandedOut log) :
    (∀ sink, s.Chained sink) ∧
      ∀ x ∈ log, ∀ claim ∈ x.response.handedOut, claim.delivery.Continues s := by
  induction h with
  | nil => exact ⟨DeliveryStore.chained_empty, fun x hx => absurd hx not_mem_nil⟩
  | @snoc log s t request response _ hcommit ih =>
    have hdelivers := commits_delivers hcommit
    obtain ⟨hchained, hcontinues⟩ := ih hcompletes.initial
    -- The commit itself may be the one that hands out.
    have hall : ∀ x ∈ log ++ [⟨request, response, s, t⟩], ∀ claim ∈ x.response.handedOut,
        claim.delivery.Continues s := by
      intro x hx claim hclaim
      rcases mem_append.mp hx with hx | hx
      · exact hcontinues x hx claim hclaim
      · cases mem_singleton.mp hx
        have hresponse : response = _ := DeliveryResponse.mem_handedOut.mp hclaim
        exact (hresponse ▸ hdelivers).continues_offered (hchained _)
    rcases hdelivers.moves with ⟨claim, receipt, c, r, hrequest, hcompletion⟩ | ⟨hreceipts, hunmoved⟩
    · obtain ⟨y, hy, hgiven⟩ := hcompletes.last (a := claim) (by rw [hrequest]; exact mem_cons_self)
      have hclaim := hcontinues y hy claim hgiven
      exact ⟨fun sink => hcompletion.chained (hchained sink) hclaim, fun x hx other hother =>
        hcompletion.continues (hall x hx other hother)⟩
    · exact ⟨fun sink => (hchained sink).congr hreceipts (hunmoved sink).1 (hunmoved sink).2,
        fun x hx claim hclaim =>
          (hall x hx claim hclaim).congr hreceipts (hunmoved claim.delivery.sinkID).1⟩

/-- A commit that completes nothing for the sink. -/
def LeavesChain (sink : String) (x : DeliveryCommit) : Prop :=
  ∀ claim receipt, x.request = .completeDelivery claim receipt → claim.delivery.sinkID ≠ sink

theorem Delivers.lastSequence_eq (h : Delivers format request response s t)
    (hleaves : ∀ claim receipt, request = .completeDelivery claim receipt → claim.delivery.sinkID ≠ sink) :
    t.lastSequence sink = s.lastSequence sink := by
  rcases h.moves with ⟨claim, receipt, c, r, hrequest, hcompletion⟩ | ⟨_, hunmoved⟩
  · exact hcompletion.lastSequence_other (hleaves claim receipt hrequest).symm
  · exact (hunmoved sink).1

/-- As long as nothing is completed for a sink, each claim hands out the same delivery. -/
theorem DeliveryReachable.handed_out_again {system : DeliverySystem} (h : DeliveryReachable format system)
    {log₁ log₂ log₃ : List DeliveryCommit} {x x' : DeliveryCommit} {claim claim' : ClaimedDelivery}
    (hlog : system.log = log₁ ++ x :: (log₂ ++ x' :: log₃))
    (hx : x.response = .offered (.ok (some claim))) (hx' : x'.response = .offered (.ok (some claim')))
    (hsink : claim'.delivery.sinkID = claim.delivery.sinkID)
    (hleaves : ∀ y ∈ log₂, LeavesChain claim.delivery.sinkID y) : claim'.delivery = claim.delivery := by
  have hmem : ∀ y, y = x ∨ y ∈ log₂ ∨ y = x' → y ∈ system.log := by
    intro y hy
    rw [hlog]
    grind
  have hkept := (hlog ▸ h.history).between
    (R := fun (s t : DeliveryStore) => s.Keeps t ∧
      t.lastSequence claim.delivery.sinkID = s.lastSequence claim.delivery.sinkID)
    (fun s => ⟨.refl s, rfl⟩) (fun _ _ _ hst htu => ⟨hst.1.trans htu.1, htu.2.trans hst.2⟩)
    fun y hy => by
      have hdelivers := h.delivers (hmem y (Or.inr (Or.inl hy)))
      exact ⟨hdelivers.keeps, hdelivers.lastSequence_eq (hleaves y hy)⟩
  obtain ⟨hkeeps, hsame⟩ := hkept
  obtain ⟨c, event, hc, hevent, _, hoffered, now, token, lease, hafter⟩ :=
    (hx ▸ h.delivers (hmem x (Or.inl rfl))).offered
  obtain ⟨c', event', hc', hevent', hclaim', hoffered', _⟩ :=
    (hx' ▸ h.delivers (hmem x' (Or.inr (Or.inr rfl)))).offered
  have hsinkID : c.sinkID = claim.delivery.sinkID := key_of_get hc
  have hsinkID' : c'.sinkID = claim'.delivery.sinkID := key_of_get hc'
  -- The checkpoint that the first claim left is the one that the second found, apart from its lease.
  have hclaimed : x.after.checkpoints.get claim.delivery.sinkID =
      some (c.claimed token event.id now lease) := by
    rw [hafter, ← hsinkID]
    exact x.before.checkpoints.get_put_self (c.claimed token event.id now lease)
  obtain ⟨found, hfound, hkeep⟩ := hkeeps.checkpoints _ _ hclaimed
  rw [← hsink, hc'] at hfound
  cases hfound
  rw [DeliveryStore.lastSequence_of_get hclaimed, ← hsink, DeliveryStore.lastSequence_of_get hc'] at hsame
  have hhash := hkeep.lastEventHash hsame
  obtain ⟨k, hk, hkevent⟩ := map_eq_some_iff.mp (hkeep.claim hsame event.id rfl)
  have hid : event'.id = event.id := (hclaim' k hk).symm.trans hkevent
  -- So is the message, as far as it is bound.
  have hmessage : x.after.messages.get event.id = some event := by
    rw [hafter]
    exact hevent
  obtain ⟨kept, hkept, hkeepMessage⟩ := hkeeps.messages _ _ hmessage
  rw [← hid, hevent'] at hkept
  cases hkept
  have hsequence : c'.lastSequence = c.lastSequence := hsame
  have hprevious : c'.lastEventHash = c.lastEventHash := hhash
  refine Except.ok.inj (hoffered'.symm.trans (Eq.trans ?_ hoffered))
  rw [offeredDelivery, offeredDelivery, hsinkID', hsink, ← hsinkID, hsequence, hprevious, hid,
    hkeepMessage.content]

/-- Whatever exporters do, take over, lose and complete late, the receipts of each sink are one chain that
its checkpoint ends, and until the next completion each claim hands out the same delivery. -/
theorem evidence_chain {system : DeliverySystem} (h : DeliveryReachable format system)
    (hcompletes : CompletesHandedOut system.log) (sink : String) :
    system.committed.Chained sink ∧
    ∀ log₁ x log₂ x' log₃, system.log = log₁ ++ x :: (log₂ ++ x' :: log₃) →
      (∀ y ∈ log₂, LeavesChain sink y) →
      ∀ claim ∈ x.response.handedOut, ∀ claim' ∈ x'.response.handedOut, claim.delivery.sinkID = sink →
        claim'.delivery.sinkID = sink → claim'.delivery = claim.delivery := by
  refine ⟨(chained_of_history h.history hcompletes).1 sink, ?_⟩
  rintro log₁ x log₂ x' log₃ hlog hleaves claim hclaim claim' hclaim' rfl hsink
  exact h.handed_out_again hlog (DeliveryResponse.mem_handedOut.mp hclaim)
    (DeliveryResponse.mem_handedOut.mp hclaim') hsink hleaves

/-! ### An archive -/

namespace DeliverySample

def instant (seconds : Int) : Time := ⟨1000000000 * seconds, true⟩

/-- Digests that tell apart texts of different lengths modulo 16. -/
def digests : EvidenceFormat where
  canonical sinkID _ _ previousHash event := sinkID ++ previousHash ++ event
  sha256 text := String.ofList (List.replicate 63 '0' ++ [Nat.digitChar (text.length % 16)])
  validJSONObject text := text.toList.head? = some '\x7b'

@[irreducible] def after (requests : List DeliveryRequest) : DeliverySystem :=
  .idle (deliveryEngine.serve (deliveryProgram digests) requests DeliveryStore.empty []).1
    (deliveryEngine.serve (deliveryProgram digests) requests DeliveryStore.empty []).2

theorem reachable (requests : List DeliveryRequest) : DeliveryReachable digests (after requests) := by
  unfold after
  exact Engine.reaches_serve requests Relation.ReflTransGen.refl

def payload : String := "\x7b\x7d"

def append (message : Nat) : DeliveryRequest :=
  .appendMessage (.ofNat message) ⟨none, "run", "100", "run.created", 1, payload, payload⟩ 0 0

def claim (token : Nat) (seconds : Int) : DeliveryRequest :=
  .claimCandidate "archive" (instant seconds) (.ofNat token) 60000000 [.ofNat 1, .ofNat 2]

def eventHash (previousHash : String) : String :=
  "sha256:" ++ digests.sha256 ("archive" ++ previousHash ++ payload)

def handedOut (message token : Nat) (sequence : Int) (previousHash : String) : ClaimedDelivery :=
  ⟨⟨deliveryVersion, "archive", sequence, .ofNat message, previousHash, eventHash previousHash, payload⟩,
    .ofNat token⟩

def complete (claim : ClaimedDelivery) (seconds : Int) : DeliveryRequest :=
  .completeDelivery claim ⟨deliveryVersion, "archive", claim.delivery.sequence, claim.delivery.eventID,
    claim.delivery.eventHash, "accepted", claim.delivery.eventHash, instant seconds⟩

/-- The first claim is released and the event handed out again before it is completed; then the next. -/
def exports : List DeliveryRequest :=
  [append 1, append 2, .ensureCheckpoint "archive" (instant 1), claim 11 10,
    .releaseDelivery (handedOut 1 11 1 "") (.ofNat 90), claim 12 20, complete (handedOut 1 12 1 "") 21,
    claim 13 30, complete (handedOut 2 13 2 (eventHash "")) 31]

theorem exports_completed : CompletesHandedOut (after exports).log ∧
    (after exports).committed.lastSequence "archive" = 2 := by
  decide +kernel

end DeliverySample

open DeliverySample

theorem evidence_chain_exported : (after exports).committed.Chained "archive" ∧
    (after exports).committed.lastSequence "archive" = 2 :=
  ⟨(evidence_chain (reachable _) exports_completed.1 "archive").1,
    exports_completed.2⟩

end AgentGovernor
