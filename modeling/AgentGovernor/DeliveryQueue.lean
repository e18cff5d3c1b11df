import AgentGovernor.DeliverySystem
import AgentGovernor.LedgerOrder
import AgentGovernor.TransactionAlone
import Mathlib.Data.Finset.Order

/-! The queue of a publisher. A claim is one statement: it takes the first ready messages, and if the
attempts of one of them cannot be counted any more it takes none. A publisher alone therefore comes to a
message if all the batches up to and with the message's own can be claimed. -/

namespace AgentGovernor

open Ledger Table Transaction Engine

variable {s t : DeliveryStore} {id : ID} {r : OutboxRow} {config : OutboxConfig}

/-- The order in which claims take messages. -/
abbrev OutboxRow.Before (r r' : OutboxRow) : Prop :=
  readyBefore r.availableAt r.occurredAt r.id r'.availableAt r'.occurredAt r'.id

instance : Std.Total OutboxRow.Before := ⟨fun r r' => by
  simp only [OutboxRow.Before, readyBefore, ID.le]
  omega⟩

instance : IsTrans OutboxRow OutboxRow.Before := ⟨fun r r' r'' => by
  simp only [OutboxRow.Before, readyBefore, ID.le]
  omega⟩

theorem OutboxRow.Before.id_eq {r' : OutboxRow} (h : r.Before r') (h' : r'.Before r) : r.id = r'.id := by
  simp only [OutboxRow.Before, readyBefore, ID.le] at h h'
  exact ID.le_antisymm (by unfold ID.le; omega) (by unfold ID.le; omega)

/-- The messages that are ready. -/
def DeliveryStore.queue (s : DeliveryStore) (now : Int) : List OutboxRow :=
  (s.messages.rows.filter (·.ready now)).insertionSort OutboxRow.Before

theorem DeliveryStore.mem_queue {now : Int} :
    r ∈ s.queue now ↔ s.messages.get r.id = some r ∧ r.ready now = true := by
  rw [queue, List.mem_insertionSort, List.mem_filter, mem_rows_iff]

theorem DeliveryStore.nodup_queue (s : DeliveryStore) (now : Int) :
    ((s.queue now).map OutboxRow.id).Nodup := by
  have hrows := s.messages.nodup.sublist ((List.filter_sublist (p := (·.ready now))).map OutboxRow.id)
  exact ((List.perm_insertionSort _ _).map OutboxRow.id).nodup_iff.mpr hrows

theorem claimCandidates_nil (config : OutboxConfig) (now : Int) (s : DeliveryStore) :
    claimCandidates config now [] s = ((s.queue now).take config.batchSize).map OutboxRow.id := by
  simp [claimCandidates, DeliveryStore.queue]

variable {now : Time} {token : ID} {messages : List ClaimedMessage}

/-- The statement claims all of its rows, or fails. -/
theorem run_claimMessages (config : OutboxConfig) (token : ID) {now : Int} {rows : List OutboxRow}
    (hids : (rows.map OutboxRow.id).Nodup)
    (hrows : ∀ r ∈ rows, s.messages.get r.id = some r ∧ r.ready now = true) :
    ∃ t, deliveryEngine.run (.traverse (rows.map OutboxRow.id) (claimMessage config now token)) s =
      if ∀ r ∈ rows, r.attemptCount < maxInteger then
        .ok (rows.map fun r => (r.claimed config now token).message token, t)
      else .error (.database "claim outbox messages") := by
  induction rows generalizing s with
  | nil => exact ⟨s, rfl⟩
  | cons r rows ih =>
    obtain ⟨hr, hready⟩ := hrows r List.mem_cons_self
    obtain ⟨hnot, hrest⟩ := List.nodup_cons.mp hids
    rw [List.map_cons, Tx.traverse, run_bind]
    simp only [List.forall_mem_cons]
    by_cases hcount : r.attemptCount < maxInteger
    · have hclaim : deliveryEngine.run (claimMessage config now token r.id) s =
          .ok ((r.claimed config now token).message token, s.putMessage (r.claimed config now token)) :=
        Handle.run_update (H := messageRows) hr ((if_pos hready).trans (if_pos hcount))
      -- The other rows are still as they were.
      obtain ⟨t, ht⟩ := @ih (s.putMessage (r.claimed config now token)) hrest fun x hx => by
        obtain ⟨hx', hready'⟩ := hrows x (List.mem_cons_of_mem r hx)
        refine ⟨?_, hready'⟩
        rw [DeliveryStore.messages_putMessage, get_put_of_ne _ fun hid => ?_]
        · exact hx'
        · exact hnot (hid ▸ List.mem_map_of_mem hx)
      refine ⟨t, ?_⟩
      rw [hclaim]
      show deliveryEngine.run ((Tx.traverse (rows.map OutboxRow.id) _).bind _) _ = _
      rw [run_bind, ht]
      simp only [hcount, true_and]
      split_ifs <;> rfl
    · have hfails : deliveryEngine.run (claimMessage config now token r.id) s =
          .error (.database "claim outbox messages") :=
        Handle.run_update_error (H := messageRows) hr ((if_pos hready).trans (if_neg hcount))
      refine ⟨s, ?_⟩
      rw [hfails, if_neg fun h => hcount h.1]
      rfl

/-- Alone, a claim takes its batch or fails. -/
theorem run_claimBatch (config : OutboxConfig) (now : Time) (token : ID) (s : DeliveryStore)
    (hutc : now.utc = true) :
    ∃ messages t, (∀ id, (∃ m ∈ messages, m.id = id) ↔
        ∃ r ∈ (s.queue now.stored).take config.batchSize, r.id = id) ∧
      deliveryEngine.run (claimBatch config now token []) s =
        if ∀ r ∈ (s.queue now.stored).take config.batchSize, r.attemptCount < maxInteger then
          .ok (messages, t)
        else .error (.database "claim outbox messages") := by
  obtain ⟨t, hrun⟩ := run_claimMessages config token
    ((s.nodup_queue now.stored).sublist ((List.take_sublist config.batchSize _).map OutboxRow.id))
    fun r hr => DeliveryStore.mem_queue.mp (List.mem_of_mem_take hr)
  refine ⟨(((s.queue now.stored).take config.batchSize).map fun r =>
    (r.claimed config now.stored token).message token).insertionSort fun m m' =>
      readyBefore m.availableAt m.occurredAt m.id m'.availableAt m'.occurredAt m'.id, t, fun id => ?_, ?_⟩
  · simp only [List.mem_insertionSort, List.mem_map, exists_exists_and_eq_and]
    rfl
  · rw [claimBatch, show (Tx.require (now.utc = true) _ : DeliveryOp Unit) = .pure () from if_pos hutc]
    show deliveryEngine.run ((Tx.traverse (claimCandidates config now.stored [] s) _).bind _) s = _
    rw [claimCandidates_nil, run_bind, hrun]
    split_ifs <;> rfl

theorem claimBatch_spec (h : deliveryEngine.run (claimBatch config now token []) s = .ok (messages, t)) :
    now.utc = true ∧ ClaimsBatch config now.stored token messages s t ∧
      (∀ r ∈ (s.queue now.stored).take config.batchSize, r.attemptCount < maxInteger) ∧
      ∀ id, (∃ m ∈ messages, m.id = id) ↔
        ∃ r ∈ (s.queue now.stored).take config.batchSize, r.id = id := by
  obtain ⟨_, hexec⟩ := exec_of_run [] h
  have hutc : now.utc = true := (exec_bind_require.mp hexec).1
  obtain ⟨messages', t', hids, hrun⟩ := run_claimBatch config now token s hutc
  rw [h] at hrun
  split_ifs at hrun with hall
  cases hrun
  exact ⟨hutc, exec_claimBatch hexec, hall, hids⟩

/-- While the lease runs, the next claim goes on behind the batch. -/
theorem mem_queue_claimed (hlease : 0 < config.lease)
    (h : deliveryEngine.run (claimBatch config now token []) s = .ok (messages, t)) :
    r ∈ t.queue now.stored ↔ r ∈ (s.queue now.stored).drop config.batchSize := by
  obtain ⟨_, hclaims, _, hids⟩ := claimBatch_spec h
  have hleased (x : OutboxRow) : (x.claimed config now.stored token).ready now.stored = false := by
    simp [OutboxRow.ready, OutboxRow.claimed, hlease]
  have hsplit (x : OutboxRow) : x ∈ s.queue now.stored ↔
      x ∈ (s.queue now.stored).take config.batchSize ∨ x ∈ (s.queue now.stored).drop config.batchSize := by
    rw [← List.mem_append, List.take_append_drop]
  have hnodup := s.nodup_queue now.stored
  rw [← List.take_append_drop config.batchSize (s.queue now.stored), List.map_append] at hnodup
  rw [DeliveryStore.mem_queue]
  constructor
  · rintro ⟨hr, hready⟩
    rcases hclaims.rows r.id with hsame | ⟨x, _, _, _, ht, _⟩
    · refine ((hsplit r).mp (DeliveryStore.mem_queue.mpr ⟨hsame ▸ hr, hready⟩)).resolve_left fun htake => ?_
      obtain ⟨m, hm, hid⟩ := (hids r.id).mpr ⟨r, htake, rfl⟩
      obtain ⟨x, _, ht, _⟩ := hclaims.returned m hm
      cases (hid ▸ ht).symm.trans hr
      exact absurd hready (by rw [hleased]; decide)
    · cases ht.symm.trans hr
      exact absurd hready (by rw [hleased]; decide)
  · intro hdrop
    obtain ⟨hr, hready⟩ := DeliveryStore.mem_queue.mp ((hsplit r).mpr (Or.inr hdrop))
    rcases hclaims.rows r.id with hsame | ⟨x, hx, _, _, _, hm⟩
    · exact ⟨hsame ▸ hr, hready⟩
    · cases hx.symm.trans hr
      obtain ⟨y, htake, hid⟩ := (hids r.id).mp ⟨_, hm, rfl⟩
      exact absurd (List.mem_map_of_mem hdrop)
        (List.disjoint_of_nodup_append hnodup (hid ▸ List.mem_map_of_mem htake))

theorem queue_claimed (hlease : 0 < config.lease)
    (h : deliveryEngine.run (claimBatch config now token []) s = .ok (messages, t)) :
    t.queue now.stored = (s.queue now.stored).drop config.batchSize := by
  have hsorted := fun s : DeliveryStore =>
    List.pairwise_insertionSort OutboxRow.Before (s.messages.rows.filter (·.ready now.stored))
  have hnodup := fun s : DeliveryStore => (s.nodup_queue now.stored).of_map
  have hperm := (List.perm_ext_iff_of_nodup (hnodup t) ((hnodup s).sublist (List.drop_sublist _ _))).mpr
    fun r => mem_queue_claimed hlease h
  refine hperm.eq_of_pairwise (fun a b ha hb hab hba => ?_) (hsorted t)
    ((hsorted s).sublist (List.drop_sublist _ _))
  -- Rows at the same place have the same identifier.
  obtain ⟨ha, _⟩ := DeliveryStore.mem_queue.mp ha
  obtain ⟨hb, _⟩ := DeliveryStore.mem_queue.mp (hperm.mem_iff.mpr hb)
  rw [hab.id_eq hba, hb] at ha
  exact (Option.some.inj ha).symm

/-- A publisher alone, with no row locked by others, comes to the message, claim after claim. -/
inductive DeliveryStore.Claimable (config : OutboxConfig) (now : Time) (id : ID) : DeliveryStore → Prop
  | takes {s t : DeliveryStore} (token : ID) (messages : List ClaimedMessage)
      (hrun : deliveryEngine.run (claimBatch config now token []) s = .ok (messages, t))
      (hm : ∃ m ∈ messages, m.id = id) : Claimable config now id s
  | next {s t : DeliveryStore} (token : ID) (messages : List ClaimedMessage)
      (hrun : deliveryEngine.run (claimBatch config now token []) s = .ok (messages, t))
      (h : Claimable config now id t) : Claimable config now id s

theorem claimable_iff_inBatches (hlease : 0 < config.lease) :
    s.Claimable config now id ↔ now.utc = true ∧
      ∃ r, r.id = id ∧ InBatches (·.attemptCount < maxInteger) config.batchSize r (s.queue now.stored) := by
  constructor
  · intro h
    induction h with
    | takes token messages hrun hm =>
      obtain ⟨hutc, _, hall, hids⟩ := claimBatch_spec hrun
      obtain ⟨r, hr, hid⟩ := (hids id).mp hm
      exact ⟨hutc, r, hid, .take _ hall hr⟩
    | next token messages hrun _ ih =>
      obtain ⟨hutc, r, hid, hbatches⟩ := ih
      rw [queue_claimed hlease hrun] at hbatches
      exact ⟨hutc, r, hid, .drop _ (claimBatch_spec hrun).2.2.1 hbatches⟩
  · rintro ⟨hutc, r, hid, hbatches⟩
    generalize hqueue : s.queue now.stored = rows at hbatches
    induction hbatches generalizing s with
    | take rows hfine hx =>
      subst hqueue
      obtain ⟨messages, t, hids, hrun⟩ := run_claimBatch config now (.ofNat 0) s hutc
      rw [if_pos hfine] at hrun
      exact .takes _ _ hrun ((hids id).mpr ⟨r, hx, hid⟩)
    | drop rows hfine _ ih =>
      subst hqueue
      obtain ⟨messages, t, _, hrun⟩ := run_claimBatch config now (.ofNat 0) s hutc
      rw [if_pos hfine] at hrun
      exact .next _ _ hrun (ih (queue_claimed hlease hrun))

/-- A message whose attempts cannot be counted is never reached, whatever the lease. -/
theorem not_claimable (hr : s.messages.get id = some r) (hcount : ¬r.attemptCount < maxInteger) :
    ¬s.Claimable config now id := by
  intro h
  induction h with
  | takes token messages hrun hm =>
    obtain ⟨_, _, hall, hids⟩ := claimBatch_spec hrun
    obtain ⟨x, hx, hid⟩ := (hids id).mp hm
    obtain ⟨hx', _⟩ := DeliveryStore.mem_queue.mp (List.mem_of_mem_take hx)
    rw [hid, hr] at hx'
    cases hx'
    exact hcount (hall r hx)
  | next token messages hrun _ ih =>
    rcases (claimBatch_spec hrun).2.1.rows id with hsame | ⟨x, hx, _, hlt, _⟩
    · exact ih (hsame ▸ hr)
    · cases hx.symm.trans hr
      exact hcount hlt

/-! ### Late times -/

/-- The messages without a mark, in the order of the queue. -/
def DeliveryStore.waiting (s : DeliveryStore) : List OutboxRow :=
  (s.messages.rows.filter OutboxRow.unmarked).insertionSort OutboxRow.Before

/-- When the message is available and not claimed any more. -/
def OutboxRow.freeFrom (r : OutboxRow) : Int := max r.availableAt (r.claim.elim 0 (·.claimedUntil))

theorem OutboxRow.ready_of_freeFrom {now : Int} (h : r.freeFrom ≤ now) : r.ready now = r.unmarked := by
  obtain ⟨havailable, hclaim⟩ := max_le_iff.mp h
  cases hr : r.claim with
  | none => simp [ready, havailable, hr]
  | some claim =>
    rw [hr] at hclaim
    simp_all [ready]

/-- After some time all messages without a mark are ready. -/
theorem DeliveryStore.exists_late (s : DeliveryStore) (earliest : Int) :
    ∃ late : Int, earliest ≤ late ∧ ∀ now : Time, late ≤ now.nanos → s.queue now.stored = s.waiting := by
  obtain ⟨late, hlate⟩ := (s.messages.rows.map OutboxRow.freeFrom).toFinset.exists_le
  refine ⟨max earliest (1000 * late), le_max_left _ _, fun now hnow => ?_⟩
  have hstored : late ≤ now.stored := by
    rw [Time.stored]
    omega
  unfold queue waiting
  congr 1
  refine List.filter_congr fun r hr => OutboxRow.ready_of_freeFrom ?_
  exact (hlate _ (List.mem_toFinset.mpr (List.mem_map_of_mem hr))).trans hstored

/-- A message without a mark stays claimable exactly if the attempts of all messages up to the end of its
batch can be counted. -/
theorem claimable_iff (hr : s.messages.get id = some r) (hlease : 0 < config.lease) :
    (∀ earliest : Int, ∃ now : Time, earliest ≤ now.nanos ∧ s.Claimable config now id) ↔
      ∃ n, s.waiting[n]? = some r ∧
        ∀ x ∈ s.waiting.take ((n / config.batchSize + 1) * config.batchSize), x.attemptCount < maxInteger := by
  have hsize : 0 < config.batchSize := config.batchSize_bounded.1
  constructor
  · intro h
    obtain ⟨late, _, hlate⟩ := s.exists_late 0
    obtain ⟨now, hnow, hclaimable⟩ := h late
    obtain ⟨_, x, hid, hbatches⟩ := (claimable_iff_inBatches hlease).mp hclaimable
    obtain ⟨n, hn, hfine⟩ := (inBatches_iff hsize).mp hbatches
    obtain ⟨hx, _⟩ := DeliveryStore.mem_queue.mp (List.mem_of_getElem? hn)
    rw [hid, hr] at hx
    cases hx
    rw [hlate now hnow] at hn hfine
    exact ⟨n, hn, hfine⟩
  · rintro ⟨n, hn, hfine⟩ earliest
    obtain ⟨late, hearliest, hlate⟩ := s.exists_late earliest
    refine ⟨⟨late, true⟩, hearliest, (claimable_iff_inBatches hlease).mpr ⟨rfl, r, key_of_get hr, ?_⟩⟩
    rw [hlate ⟨late, true⟩ (le_refl late)]
    exact (inBatches_iff hsize).mpr ⟨n, hn, hfine⟩

end AgentGovernor
