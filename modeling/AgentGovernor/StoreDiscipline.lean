import AgentGovernor.LedgerSchema
import AgentGovernor.StoreSystem

/-! Every transaction of the governor takes the locks that its writes need. Each statement's lemma has the
locks it ends with in its postcondition, so a body is checked by applying them in order. -/

namespace AgentGovernor

open Ledger Handle Transaction Engine

variable {held : List Lock} {post : Unit → List Lock → Prop}

theorem excluded_of_mem {locks : List Lock} {l : Lock} (hl : l ∈ locks) (hheld : l ∈ held)
    (hshared : l.shared = false) : Handle.Excluded storeEngine held locks :=
  ⟨l, hl, l, hheld, Lock.conflict_self hshared⟩

/-! ### Tables with one lock for each key -/

theorem principals_keyed : Keyed storeEngine Principal.id .principal :=
  ⟨⟨fun _ => rfl, fun _ => Lock.conflict_self rfl⟩, fun _ => rfl⟩

theorem versions_keyed : Keyed storeEngine AgentVersion.id (.version · false) :=
  ⟨⟨fun _ => rfl, fun _ => Lock.conflict_self rfl⟩, fun _ => rfl⟩

theorem runs_keyed : Keyed storeEngine Run.id .run :=
  ⟨⟨fun _ => rfl, fun _ => Lock.conflict_self rfl⟩, fun _ => rfl⟩

theorem envelopes_owned : Owned storeEngine Envelope.id .envelope :=
  ⟨fun _ => rfl, fun _ => Lock.conflict_self rfl⟩

theorem grants_keyed :
    Keyed storeEngine (fun g : Grant => (g.envelopeID, g.dimensionID)) (.envelope ·.1) :=
  ⟨⟨fun _ => rfl, fun _ => Lock.conflict_self rfl⟩, fun _ => rfl⟩

theorem balances_keyed :
    Keyed storeEngine (fun b : Balance => (b.envelopeID, b.dimensionID)) fun k => .balance k.1 k.2 :=
  ⟨⟨fun _ => rfl, fun _ => Lock.conflict_self rfl⟩, fun _ => rfl⟩

theorem windows_keyed :
    Keyed storeEngine (fun w : RateWindow => (w.envelopeID, w.dimensionID, w.windowStart))
      fun k => .window k.1 k.2.1 k.2.2 :=
  ⟨⟨fun _ => rfl, fun _ => Lock.conflict_self rfl⟩, fun _ => rfl⟩

theorem reservations_owned : Owned storeEngine Reservation.id .reservation :=
  ⟨fun _ => rfl, fun _ => Lock.conflict_self rfl⟩

theorem extensions_owned : Owned storeEngine Extension.id .extension :=
  ⟨fun _ => rfl, fun _ => Lock.conflict_self rfl⟩

theorem settlements_owned : Owned storeEngine Settlement.id .settlement :=
  ⟨fun _ => rfl, fun _ => Lock.conflict_self rfl⟩

theorem audits_keyed : Keyed storeEngine AuditEvent.id .audit :=
  ⟨⟨fun _ => rfl, fun _ => Lock.conflict_self rfl⟩, fun _ => rfl⟩

theorem outbox_keyed : Keyed storeEngine OutboxMessage.id .outbox :=
  ⟨⟨fun _ => rfl, fun _ => Lock.conflict_self rfl⟩, fun _ => rfl⟩

theorem agents_keyed : Keyed storeEngine AgentRow.id .agent :=
  ⟨⟨fun _ => rfl, fun _ => Lock.conflict_self rfl⟩, fun _ => rfl⟩

theorem records_keyed :
    Keyed storeEngine IdempotencyRecord.scope fun k => .idempotency k.1 k.2.1 k.2.2 :=
  ⟨⟨fun _ => rfl, fun _ => Lock.conflict_self rfl⟩, fun _ => rfl⟩

/-! ### Evidence rows -/

variable {error : Failure}

variable {event : RunEvent}

theorem wellLocked_insertEvent (hrun : .run event.runID ∈ held)
    (hpost : post () ([.event event.id] ++ held)) :
    storeEngine.WellLocked (insertEvent event error) held post := by
  refine wellLocked_insert ?_ ?_ ?_ hpost
  · simp [insertLocks, hrun]
  · intro r hr
    simp [hr]
  · intro r hr
    simp only [Bool.or_eq_true, Bool.and_eq_true, decide_eq_true_eq] at hr
    rcases hr with hid | ⟨hrunID, _⟩
    · exact Or.inl (excluded_of_mem (l := .event r.id) (by simp [updateLocks]) (by simp [hid]) rfl)
    · refine Or.inl (excluded_of_mem (l := .run r.runID) (by simp [updateLocks]) ?_ rfl)
      simp [hrunID, hrun]

theorem wellLocked_insertAudit {audit : AuditEvent}
    (hpost : post () ([.audit audit.id] ++ held)) :
    storeEngine.WellLocked (insertAudit audit error) held post :=
  audits_keyed.wellLocked_insert (by simp) (fun _ => by simp) hpost

theorem wellLocked_insertOutbox {message : OutboxMessage}
    (hpost : post () ([.outbox message.id] ++ held)) :
    storeEngine.WellLocked (insertOutbox message error) held post :=
  outbox_keyed.wellLocked_insert (by simp) (fun _ => by simp) hpost

variable {id d e : ID}

/-! ### Grants and balances -/

theorem wellLocked_insertGrant {grant : Grant}
    (henvelope : .envelope grant.envelopeID ∈ held) (hpost : post () held) :
    storeEngine.WellLocked (insertGrant grant error) held post :=
  grants_keyed.wellLocked_insert henvelope (fun _ => by simp) hpost

variable {updatedAt : Int}

theorem wellLocked_insertBalance {value : Int}
    (hpost : post () ([.balance e d] ++ held)) :
    storeEngine.WellLocked (insertBalance e d value updatedAt error) held post := by
  refine .orThrow fun b hb => ?_
  obtain ⟨he, hd, _⟩ := Balance.check_spec hb
  exact balances_keyed.wellLocked_insert (by simp [he, hd]) (fun _ => by simp [he, hd]) hpost

/-- An update of a balance that keeps its key. -/
theorem wellLocked_updateBalance {α : Type} {change : Balance → Except Failure (α × Balance)}
    {missing : Failure} {post : α → List Lock → Prop}
    (hchange : ∀ old a b, change old = .ok (a, b) →
      b.envelopeID = old.envelopeID ∧ b.dimensionID = old.dimensionID)
    (hpost : ∀ a, post a ([.balance e d] ++ held)) :
    storeEngine.WellLocked (balanceRows.update [.balance e d] (e, d) change missing) held post := by
  refine balances_keyed.wellLocked_update (by simp) fun old a b hold hb => ?_
  obtain ⟨he, hd⟩ := hchange old a b hb
  exact ⟨by rw [he, hd, hold], hpost a⟩

/-- The guarded `SET` lists keep the key of the balance. -/
theorem guarded_change_key {α : Type} {c : Prop} [Decidable c] {old b : Balance} {a : α}
    {available direct allocated : Int} {violation refused : Failure}
    {result : Balance → α × Balance} (hresult : ∀ row, (result row).2 = row)
    (h : (if c then (old.change available direct allocated updatedAt violation).map result
      else .error refused) = .ok (a, b)) :
    b.envelopeID = old.envelopeID ∧ b.dimensionID = old.dimensionID := by
  split_ifs at h
  cases hrow : old.change available direct allocated updatedAt violation with
  | error error => simp [hrow, Except.map] at h
  | ok row =>
    simp only [hrow, Except.map, Except.ok.injEq] at h
    have hb : row = b := by rw [← hresult row, h]
    subst hb
    obtain ⟨he, hd, _⟩ := Balance.change_spec hrow
    exact ⟨he, hd⟩

/-! ### Reservation -/

variable {dep : Deployment}

variable {parent : ID}

theorem wellLocked_lockParentResourceEnvelope
    (hpost : post () ([.envelope parent] ++ held)) :
    storeEngine.WellLocked (lockParentResourceEnvelope parent) held post :=
  envelopes_owned.wellLocked_lock (by simp) fun _ _ _ _ => hpost

variable {child : ID}

theorem wellLocked_enforceChildTopology
    (hpost : post () ([.envelope parent] ++ held)) :
    storeEngine.WellLocked (enforceChildTopology dep parent child) held post := by
  refine WellLocked.bind (wellLocked_lockParentResourceEnvelope ?_)
  refine .snapshot fun found => ?_
  refine .orThrow fun t _ => ?_
  refine .require fun _ => ?_
  refine .require fun _ => ?_
  refine .require fun _ => ?_
  exact wellLocked_require fun _ => hpost

variable {reservation : ResourceReservation}

theorem wellLocked_lockChildEnvelope
    (hpost : post () ([.run reservation.childRunID] ++ ([.envelope reservation.childEnvelopeID] ++ held))) :
    storeEngine.WellLocked (lockChildEnvelope reservation) held post := by
  refine WellLocked.bind (envelopes_owned.wellLocked_lock (by simp) fun _ _ _ _ => ?_)
  exact runs_keyed.wellLocked_lock (by simp) fun _ _ _ _ => hpost

theorem wellLocked_lockParentBalance {amount : ResourceReservationAmount} :
    storeEngine.WellLocked (lockParentBalance dep parent amount) held fun _ _ => True := by
  refine .snapshot fun found => ?_
  refine .orThrow fun grant _ => ?_
  refine WellLocked.bind (balances_keyed.wellLocked_lock (by simp) fun _ _ _ _ => ?_)
  refine .require fun _ => ?_
  refine .require fun _ => ?_
  trivial

theorem wellLocked_insertReservation
    (hrun : .run reservation.childRunID ∈ held)
    (hparent : .envelope reservation.parentEnvelopeID ∈ held)
    (hchild : .envelope reservation.childEnvelopeID ∈ held)
    (hpost : post () ([.reservation reservation.id] ++ held)) :
    storeEngine.WellLocked (insertReservation reservation) held post := by
  refine .require fun _ => ?_
  refine wellLocked_insert ?_ ?_ ?_ hpost
  · simp [insertLocks, hrun, hparent, hchild]
  · intro r hr
    simp [hr]
  · intro r hr
    simp only [Bool.or_eq_true, decide_eq_true_eq, or_assoc] at hr
    rcases hr with hid | henvelope | hrunID
    · exact Or.inl (excluded_of_mem (l := .reservation r.id) (by simp [updateLocks])
        (by simp [hid]) rfl)
    · refine Or.inr ⟨excluded_of_mem (l := .envelope r.childEnvelopeID) (by simp [insertLocks])
        (by simp [henvelope, hchild]) rfl, fun r' hlocks => ?_⟩
      simp only [insertLocks, List.cons.injEq, Lock.envelope.injEq] at hlocks
      simp [hlocks.2.2.2.1, henvelope]
    · refine Or.inr ⟨excluded_of_mem (l := .run r.childRunID) (by simp [insertLocks])
        (by simp [hrunID, hrun]) rfl, fun r' hlocks => ?_⟩
      simp only [insertLocks, List.cons.injEq, Lock.run.injEq] at hlocks
      simp [hlocks.2.1, hrunID]

variable {amount : LockedAmount}

theorem wellLocked_insertReservationItem
    (hid : .reservation id ∈ held) (hpost : post () held) :
    storeEngine.WellLocked (insertReservationItem id amount) held post := by
  refine reservations_owned.wellLocked_update hid fun old a r hold hr => ?_
  split_ifs at hr
  cases hr
  exact ⟨hold, rfl, hpost⟩

theorem wellLocked_reserveAmount
    (hid : .reservation reservation.id ∈ held)
    (hchild : .envelope reservation.childEnvelopeID ∈ held) :
    storeEngine.WellLocked (reserveAmount reservation amount) held fun _ held' => held ⊆ held' := by
  refine WellLocked.bind (wellLocked_updateBalance
    (fun _ _ _ hb => guarded_change_key (fun _ => rfl) hb) fun _ => ?_)
  refine WellLocked.bind (wellLocked_insertReservationItem (by simp [hid]) ?_)
  refine WellLocked.bind (wellLocked_insertGrant (by simp [hchild]) ?_)
  refine wellLocked_insertBalance ?_
  exact fun l hl => by simp [hl]

theorem wellLocked_reserveSorted :
    storeEngine.WellLocked (reserveSorted dep reservation) held fun _ _ => True := by
  refine WellLocked.bind (wellLocked_enforceChildTopology ?_)
  refine WellLocked.bind (wellLocked_lockChildEnvelope ?_)
  refine WellLocked.andThen (wellLocked_traverse _ fun _ _ _ _ => wellLocked_lockParentBalance) ?_
  intro locked held₁ hsub _
  have hrun := hsub (a := .run reservation.childRunID) (by simp)
  have hparent := hsub (a := .envelope reservation.parentEnvelopeID) (by simp)
  have hchild := hsub (a := .envelope reservation.childEnvelopeID) (by simp)
  refine WellLocked.bind (wellLocked_insertReservation hrun hparent hchild ?_)
  refine WellLocked.andThen (wellLocked_forEach (I := fun held' =>
    [.reservation reservation.id] ++ held₁ ⊆ held') locked (fun amount _ held₂ hheld => ?_)
    (List.Subset.refl _)) ?_
  · exact (wellLocked_reserveAmount (hheld (by simp)) (hheld (by simp [hchild]))).weaken
      fun _ _ hsub' => List.Subset.trans hheld hsub'
  · exact fun _ _ _ _ => trivial

theorem wellLocked_reserveChildResources :
    storeEngine.WellLocked (reserveChildResources dep reservation) held fun _ _ => True := by
  refine .require fun _ => ?_
  exact WellLocked.bind (wellLocked_ofExcept fun _ _ => wellLocked_reserveSorted)

/-! ### Admission -/

/-- The shared lock excludes whoever updates the row. -/
theorem protected_version_shared (h : .version id true ∈ held) :
    Handle.Protected storeEngine AgentVersion.id held id := by
  intro r hr
  refine ⟨.version r.id false, by simp [updateLocks], .version r.id true, hr ▸ h, rfl, ?_⟩
  simp [Lock.shared]

variable {admission : RunAdmission} {resolution : RunVersionResolution}

theorem wellLocked_lockAgentVersion
    (hpost : post () ([.version admission.agentVersionID true] ++ held)) :
    storeEngine.WellLocked (lockAgentVersion admission resolution) held post := by
  exact wellLocked_lock (protected_version_shared (by simp)) fun _ _ _ _ => hpost

theorem wellLocked_insertRun
    (hpost : post () ([.run admission.runID] ++ held)) :
    storeEngine.WellLocked (insertRun admission) held post :=
  runs_keyed.wellLocked_insert (by simp [admittedRun]) (fun _ => by simp [admittedRun]) hpost

theorem wellLocked_insertEnvelope (hrun : .run admission.runID ∈ held)
    (hpost : post () ([.envelope admission.envelopeID] ++ held)) :
    storeEngine.WellLocked (insertEnvelope admission) held post := by
  refine wellLocked_insert ?_ ?_ ?_ hpost
  · simp [insertLocks, hrun]
  · intro r hr
    simp [hr]
  · intro r hr
    simp only [Bool.or_eq_true, decide_eq_true_eq] at hr
    rcases hr with hid | hrunID
    · exact Or.inl (excluded_of_mem (l := .envelope r.id) (by simp [updateLocks]) (by simp [hid]) rfl)
    · refine Or.inr ⟨excluded_of_mem (l := .run r.runID) (by simp [insertLocks])
        (by simp [hrunID, hrun]) rfl, fun r' hlocks => ?_⟩
      simp only [insertLocks, List.cons.injEq, Lock.run.injEq] at hlocks
      simp [hlocks.2.1, hrunID]

variable {evidence : RunAdmissionEvidence}

theorem wellLocked_insertAdmissionEvidence
    (hrun : .run admission.runID ∈ held) :
    storeEngine.WellLocked (insertAdmissionEvidence admission evidence) held
      fun _ held' => held ⊆ held' := by
  refine WellLocked.bind (wellLocked_insertEvent hrun ?_)
  refine WellLocked.bind (wellLocked_insertAudit ?_)
  refine wellLocked_insertOutbox ?_
  exact fun l hl => by simp [hl]

/-- An admission ends with the locks of the run and of the envelope. -/
theorem wellLocked_insertAdmission :
    storeEngine.WellLocked (insertAdmission admission resolution evidence) held
      fun _ held' => [.envelope admission.envelopeID, .run admission.runID] ⊆ held' := by
  refine .snapshot fun _ => ?_
  refine .require fun _ => ?_
  refine .snapshot fun _ => ?_
  refine .require fun _ => ?_
  refine WellLocked.bind (wellLocked_insertRun ?_)
  refine WellLocked.bind (wellLocked_insertEnvelope (by simp) ?_)
  refine (wellLocked_insertAdmissionEvidence (by simp)).weaken fun _ _ hsub => ?_
  exact List.Subset.trans (by simp) hsub

theorem wellLocked_issueRootGrant {grant : RootResourceGrant}
    (henvelope : .envelope admission.envelopeID ∈ held) :
    storeEngine.WellLocked (issueRootGrant dep admission grant) held
      fun _ held' => held ⊆ held' := by
  refine .orThrow fun _ _ => ?_
  refine WellLocked.bind (wellLocked_insertGrant henvelope ?_)
  refine wellLocked_insertBalance ?_
  exact fun l hl => by simp [hl]

theorem wellLocked_admitRun :
    storeEngine.WellLocked (admitRun dep admission resolution evidence) held
      fun _ held' => [.envelope admission.envelopeID, .run admission.runID] ⊆ held' := by
  refine .ofExcept fun grants _ => ?_
  refine WellLocked.bind (wellLocked_lockAgentVersion ?_)
  refine WellLocked.andThen wellLocked_insertAdmission fun _ held₁ _ hlocks => ?_
  refine wellLocked_forEach grants (fun grant _ held₂ hheld => ?_) hlocks
  exact (wellLocked_issueRootGrant (hheld (by simp))).weaken
    fun _ _ hsub => List.Subset.trans hheld hsub

theorem wellLocked_linkChildEnvelope
    (hpost : post () ([.envelope child] ++ held)) :
    storeEngine.WellLocked (linkChildEnvelope child parent) held post := by
  refine envelopes_owned.wellLocked_update (by simp) fun old a e hold he => ?_
  split_ifs at he
  cases he
  exact ⟨hold, rfl, hpost⟩

theorem wellLocked_admitChildRun :
    storeEngine.WellLocked (admitChildRun dep admission resolution evidence reservation) held
      fun _ _ => True := by
  refine .require fun _ => ?_
  refine WellLocked.andThen wellLocked_admitRun fun _ held₁ _ _ => ?_
  refine WellLocked.bind (wellLocked_lockParentResourceEnvelope ?_)
  refine WellLocked.bind (wellLocked_linkChildEnvelope ?_)
  exact wellLocked_reserveChildResources

/-! ### Metering -/

variable {usage : TrustedUsage}

theorem wellLocked_applyWindow {rateDimension : String}
    {rateLimit : Int} (hpost : post ()
      ([.window e d usage.recordedAt.truncateToWindow.stored] ++ held)) :
    storeEngine.WellLocked (applyWindow e d rateDimension usage rateLimit) held post := by
  unfold applyWindow
  refine windows_keyed.wellLocked_upsert (by simp) fun old a w hold hw => ?_
  cases old with
  | none =>
    dsimp only at hw
    split_ifs at hw
    cases hw
    exact ⟨rfl, hpost⟩
  | some w' =>
    dsimp only at hw
    split_ifs at hw
    cases hw
    exact ⟨hold w' rfl, hpost⟩

variable {hint : ThroughputHint}

theorem wellLocked_enforceThroughput :
    storeEngine.WellLocked (enforceThroughput dep e usage hint) held fun _ _ => True := by
  unfold enforceThroughput
  split
  · trivial
  · refine .snapshot fun found => ?_
    split
    · trivial
    · refine .require fun _ => ?_
      refine .require fun _ => ?_
      exact wellLocked_applyWindow trivial

theorem wellLocked_insertUsage {entry : UsageEntry}
    (hadvisory : .advisory entry.producerID entry.sourceEventID ∈ held)
    (henvelope : .envelope entry.envelopeID ∈ held)
    (hpost : post () ([.usage entry.id] ++ held)) :
    storeEngine.WellLocked (insertUsage entry) held post := by
  refine wellLocked_insert ?_ ?_ ?_ hpost
  · simp [insertLocks, hadvisory, henvelope]
  · intro r hr
    simp [hr]
  · intro r hr
    simp only [Bool.or_eq_true, Bool.and_eq_true, decide_eq_true_eq] at hr
    rcases hr with hid | ⟨hproducer, hsource⟩
    · exact Or.inl (excluded_of_mem (l := .usage r.id) (by simp [updateLocks]) (by simp [hid]) rfl)
    · refine Or.inl (excluded_of_mem (l := .advisory r.producerID r.sourceEventID)
        (by simp [updateLocks]) ?_ rfl)
      simp [hproducer, hsource, hadvisory]

variable {run : Run}

theorem wellLocked_persistExhaustion {final : RunLifecycle}
    (hpost : post () ([.run usage.runID] ++ held)) :
    storeEngine.WellLocked (persistExhaustion usage run final) held post := by
  refine runs_keyed.wellLocked_update (by simp) fun old a r hold hr => ?_
  dsimp only at hr
  split_ifs at hr
  cases hr
  exact ⟨hold, hpost⟩

variable {actor : RunActor} {eventType : String} {sequence : Int}

theorem wellLocked_appendExhaustionEvent
    {lifecycle : RunLifecycle}
    (hrun : .run usage.runID ∈ held) (hpost : post () ([.outbox id] ++ ([.event id] ++ held))) :
    storeEngine.WellLocked (appendExhaustionEvent usage id sequence eventType actor lifecycle) held
      post := by
  refine WellLocked.bind (wellLocked_insertEvent hrun ?_)
  exact wellLocked_insertOutbox hpost

variable {disposition : ExhaustionDisposition} {ids : ExhaustionIDs}

theorem wellLocked_exhaustWhenSpent {availableAfter : Int} :
    storeEngine.WellLocked (exhaustWhenSpent availableAfter usage run disposition ids) held
      fun _ _ => True := by
  unfold exhaustWhenSpent
  split_ifs
  · refine .ofExcept fun _ _ => ?_
    refine WellLocked.bind (wellLocked_persistExhaustion ?_)
    refine .snapshot fun _ => ?_
    refine WellLocked.bind (wellLocked_appendExhaustionEvent (by simp) ?_)
    refine WellLocked.bind (wellLocked_appendExhaustionEvent (by simp) ?_)
    exact wellLocked_insertAudit trivial
  · trivial

theorem wellLocked_meterUsage
    (hadvisory : .advisory usage.producerID usage.sourceEventID ∈ held) :
    storeEngine.WellLocked (meterUsage dep usage hint disposition ids) held fun _ _ => True := by
  refine .snapshot fun _ => ?_
  refine .orThrow fun target _ => ?_
  refine WellLocked.bind (runs_keyed.wellLocked_lock (by simp) fun _ run _ _ => ?_)
  refine WellLocked.bind (envelopes_owned.wellLocked_lock (by simp) fun _ _ _ _ => ?_)
  refine .require fun _ => ?_
  refine .require fun _ => ?_
  refine .snapshot fun _ => ?_
  refine .require fun _ => ?_
  refine WellLocked.andThen wellLocked_enforceThroughput fun _ held₁ hsub _ => ?_
  refine WellLocked.bind (wellLocked_updateBalance
    (fun _ _ _ hb => guarded_change_key (fun _ => rfl) hb) fun _ => ?_)
  refine WellLocked.bind (wellLocked_insertUsage ?_ ?_ ?_)
  · exact List.mem_append_right _ (hsub (by simp [usageEntry, hadvisory]))
  · exact List.mem_append_right _ (hsub (by simp [usageEntry]))
  refine WellLocked.andThen wellLocked_exhaustWhenSpent fun _ _ _ _ => ?_
  trivial

theorem wellLocked_recordTrustedUsage :
    storeEngine.WellLocked (recordTrustedUsage dep usage hint disposition ids) held
      fun _ _ => True := by
  refine .require fun _ => ?_
  refine .require fun _ => ?_
  refine .ofExcept fun _ _ => ?_
  refine WellLocked.bind (wellLocked_acquire ?_)
  refine .snapshot fun existing => ?_
  cases existing with
  | some u => exact WellLocked.bind (wellLocked_require fun _ => trivial)
  | none => exact wellLocked_meterUsage (by simp)

/-! ### Extension -/

theorem wellLocked_insertExtension {row : Extension}
    (hadvisory : .advisory row.actorPrincipalID row.idempotencyKey ∈ held)
    (henvelope : .envelope row.envelopeID ∈ held) (hpost : post () ([.extension row.id] ++ held)) :
    storeEngine.WellLocked (insertExtension row) held post := by
  refine wellLocked_insert ?_ ?_ ?_ hpost
  · simp [insertLocks, hadvisory, henvelope]
  · intro r hr
    simp [hr]
  · intro r hr
    simp only [Bool.or_eq_true, Bool.and_eq_true, decide_eq_true_eq] at hr
    rcases hr with hid | ⟨hactor, hkey⟩
    · exact Or.inl (excluded_of_mem (l := .extension r.id) (by simp [updateLocks]) (by simp [hid]) rfl)
    · refine Or.inr ⟨excluded_of_mem (l := .advisory r.actorPrincipalID r.idempotencyKey)
        (by simp [insertLocks]) (by simp [hactor, hkey, hadvisory]) rfl, fun r' hlocks => ?_⟩
      simp only [insertLocks, List.cons.injEq, Lock.advisory.injEq] at hlocks
      simp [hlocks.2.1.1, hlocks.2.1.2, hactor, hkey]

theorem wellLocked_insertExtensionItem {item : ExtensionItem} (hid : .extension id ∈ held)
    (hpost : post () held) : storeEngine.WellLocked (insertExtensionItem id item) held post := by
  refine extensions_owned.wellLocked_update hid fun old a x hold hx => ?_
  split_ifs at hx
  cases hx
  exact ⟨hold, rfl, hpost⟩

variable {envelopeID : ID} {extension : ResourceExtension}

theorem wellLocked_extendDimension
    {addition : ResourceExtensionAmount} (hid : .extension extension.id ∈ held) :
    storeEngine.WellLocked (extendDimension dep extension envelopeID addition) held
      fun _ held' => held ⊆ held' := by
  refine .snapshot fun _ => ?_
  refine .orThrow fun _ _ => ?_
  refine .require fun _ => ?_
  refine .require fun _ => ?_
  refine WellLocked.bind (wellLocked_insertExtensionItem hid ?_)
  refine wellLocked_updateBalance (fun _ _ _ hb => guarded_change_key (fun _ => rfl) hb) fun _ => ?_
  exact fun l hl => by simp [hl]

theorem wellLocked_updateExtendedEnvelope {version : Int}
    (hpost : post () ([.envelope envelopeID] ++ held)) :
    storeEngine.WellLocked (updateExtendedEnvelope envelopeID version) held post := by
  refine envelopes_owned.wellLocked_update (by simp) fun old a e hold he => ?_
  cases he
  exact ⟨hold, rfl, hpost⟩

variable {state : RunState} {stateVersion : Int}

theorem wellLocked_updateExtendedRun {deadlineAt : Option Int}
    (hpost : post () ([.run extension.runID] ++ held)) :
    storeEngine.WellLocked (updateExtendedRun extension deadlineAt state stateVersion) held post := by
  refine runs_keyed.wellLocked_update (by simp) fun old a r hold hr => ?_
  dsimp only at hr
  split_ifs at hr
  cases hr
  exact ⟨hold, hpost⟩

theorem wellLocked_appendExtensionEvidence
    {evidence : ResourceExtensionEvidence}
    (hrun : .run extension.runID ∈ held) :
    storeEngine.WellLocked (appendExtensionEvidence extension evidence envelopeID state stateVersion)
      held fun _ _ => True := by
  refine .snapshot fun _ => ?_
  refine WellLocked.bind (wellLocked_insertEvent hrun ?_)
  refine WellLocked.bind (wellLocked_insertAudit ?_)
  exact wellLocked_insertOutbox trivial

theorem wellLocked_applyExtension
    {evidence : ResourceExtensionEvidence}
    (hadvisory : .advisory extension.actorPrincipalID extension.idempotencyKey ∈ held) :
    storeEngine.WellLocked (applyExtension dep extension evidence) held fun _ _ => True := by
  refine .snapshot fun _ => ?_
  refine .orThrow fun envelopeID _ => ?_
  refine WellLocked.bind (envelopes_owned.wellLocked_lock (by simp) fun e e' hkey he => ?_)
  refine WellLocked.bind (runs_keyed.wellLocked_lock (by simp) fun _ run _ _ => ?_)
  refine .require fun _ => ?_
  refine .require fun _ => ?_
  refine .require fun _ => ?_
  refine .ofExcept fun _ _ => ?_
  refine WellLocked.bind (wellLocked_insertExtension ?_ ?_ ?_)
  · simp [extensionRow, hadvisory]
  · split_ifs at he
    cases he
    simp [extensionRow, hkey]
  refine WellLocked.andThen (wellLocked_forEach (I := fun held' => .extension extension.id ∈ held')
    extension.additions (fun _ _ held₁ hheld => ?_) (by simp [extensionRow])) ?_
  · exact (wellLocked_extendDimension hheld).weaken fun _ _ hsub => hsub hheld
  intro _ held₂ hsub _
  refine .ofExcept fun _ _ => ?_
  refine WellLocked.bind (wellLocked_updateExtendedEnvelope ?_)
  refine WellLocked.bind (wellLocked_updateExtendedRun ?_)
  refine WellLocked.andThen (wellLocked_appendExtensionEvidence (by simp)) fun _ _ _ _ => ?_
  trivial

theorem wellLocked_extendResources
    {evidence : ResourceExtensionEvidence} :
    storeEngine.WellLocked (extendResources dep extension evidence) held fun _ _ => True := by
  refine .ofExcept fun _ _ => ?_
  refine .require fun _ => ?_
  refine .require fun _ => ?_
  refine WellLocked.bind (wellLocked_acquire ?_)
  refine .snapshot fun existing => ?_
  cases existing with
  | some x => exact WellLocked.bind (wellLocked_require fun _ => trivial)
  | none => exact wellLocked_applyExtension (by simp)

/-! ### Settlement -/

theorem wellLocked_loadSettlementResult {settledAt : Time} {duplicate : Bool} :
    storeEngine.WellLocked (loadSettlementResult dep id settledAt duplicate) held fun _ _ => True :=
  wellLocked_lock_of_keeps (fun h => Store.Keeps.settlements h) fun _ _ _ => trivial

theorem wellLocked_lockItem {item : ReservationItem} :
    storeEngine.WellLocked (lockItem dep parent child item) held fun _ _ => True := by
  refine WellLocked.bind (wellLocked_read (balances_keyed.isProtected (by simp)) fun _ _ _ _ => ?_)
  refine WellLocked.bind (wellLocked_read (balances_keyed.isProtected (by simp)) fun _ _ _ _ => ?_)
  trivial

variable {r : Reservation}

theorem wellLocked_lockItems {empty invalid : Failure} :
    storeEngine.WellLocked (lockItems dep r empty invalid) held fun _ _ => True := by
  refine WellLocked.andThen (wellLocked_traverse _ fun _ _ _ _ => wellLocked_lockItem) ?_
  intro rows held₁ _ _
  refine .require fun _ => ?_
  exact WellLocked.bind (wellLocked_require fun _ => trivial)

theorem wellLocked_insertSettlement {row : Settlement}
    (hreservation : .reservation row.reservationID ∈ held)
    (hpost : post () ([.settlement row.id,
      .settlementKey row.actorPrincipalID row.idempotencyKey] ++ held)) :
    storeEngine.WellLocked (insertSettlement row error) held post := by
  refine .require fun _ => ?_
  refine wellLocked_insert ?_ ?_ ?_ hpost
  · simp [insertLocks, hreservation]
  · intro r hr
    simp [hr]
  · intro r hr
    simp only [Bool.or_eq_true, Bool.and_eq_true, decide_eq_true_eq, or_assoc] at hr
    rcases hr with hid | hrid | ⟨hactor, hkey⟩
    · exact Or.inl (excluded_of_mem (l := .settlement r.id) (by simp [updateLocks])
        (by simp [hid]) rfl)
    · refine Or.inr ⟨excluded_of_mem (l := .reservation r.reservationID) (by simp [insertLocks])
        (by simp [hrid, hreservation]) rfl, fun r' hlocks => ?_⟩
      simp only [insertLocks, List.cons.injEq, Lock.reservation.injEq] at hlocks
      simp [hlocks.2.2.1, hrid]
    · refine Or.inr ⟨excluded_of_mem (l := .settlementKey r.actorPrincipalID r.idempotencyKey)
        (by simp [insertLocks]) (by simp [hactor, hkey]) rfl, fun r' hlocks => ?_⟩
      simp only [insertLocks, List.cons.injEq, Lock.settlementKey.injEq] at hlocks
      simp [hlocks.2.1.1, hlocks.2.1.2, hactor, hkey]

variable {settledAt : Int}

theorem wellLocked_settleItem {itemError changed : Failure}
    {x : LockedItem} (hid : .settlement id ∈ held) :
    storeEngine.WellLocked (settleItem id parent settledAt itemError changed x) held
      fun _ held' => held ⊆ held' := by
  refine WellLocked.bind (settlements_owned.wellLocked_update hid ?_)
  intro old a row hold hrow
  split at hrow
  · cases hrow
  split_ifs at hrow
  cases hrow
  refine ⟨hold, rfl, ?_⟩
  refine wellLocked_updateBalance (fun _ _ _ hb => guarded_change_key (fun _ => rfl) hb) fun _ => ?_
  exact fun l hl => by simp [hl]

theorem wellLocked_closeReservation {state : ReservationState}
    (hpost : post () ([.reservation id] ++ held)) :
    storeEngine.WellLocked (closeReservation id state settledAt error) held post := by
  refine reservations_owned.wellLocked_update (by simp) fun old a r hold hr => ?_
  dsimp only at hr
  split_ifs at hr
  cases hr
  exact ⟨hold, rfl, hpost⟩

theorem wellLocked_close {c : Closing} {items : List LockedItem}
    (hreservation : .reservation c.settlement.reservationID ∈ held) :
    storeEngine.WellLocked (close c items) held fun _ _ => True := by
  refine WellLocked.bind (wellLocked_insertSettlement hreservation ?_)
  refine WellLocked.andThen (wellLocked_forEach (I := fun held' => .settlement c.settlement.id ∈ held')
    items (fun _ _ held₁ hheld => ?_) (by simp)) ?_
  · exact (wellLocked_settleItem hheld).weaken fun _ _ hsub => hsub hheld
  exact fun _ _ _ _ => wellLocked_closeReservation trivial

variable {settlement : ResourceSettlement}

theorem wellLocked_replayClosed :
    storeEngine.WellLocked (replayClosed dep settlement) held fun _ _ => True := by
  refine .snapshot fun _ => ?_
  refine .orThrow fun _ _ => ?_
  refine .require fun _ => ?_
  exact wellLocked_loadSettlementResult

theorem wellLocked_settleOpen
    {evidence : ResourceSettlementEvidence}
    (hreservation : .reservation settlement.reservationID ∈ held) :
    storeEngine.WellLocked (settleOpen dep settlement evidence r) held fun _ _ => True := by
  refine .snapshot fun _ => ?_
  refine .require fun _ => ?_
  refine WellLocked.bind (runs_keyed.wellLocked_lock (by simp) fun _ run _ _ => ?_)
  refine .require fun _ => ?_
  refine .snapshot fun _ => ?_
  refine .require fun _ => ?_
  refine WellLocked.andThen wellLocked_lockItems fun items held₁ hsub _ => ?_
  refine WellLocked.andThen (wellLocked_close (hsub (by simp [settlementClosing, hreservation])))
    fun _ _ _ _ => ?_
  refine WellLocked.bind (wellLocked_insertAudit ?_)
  refine WellLocked.bind (wellLocked_insertOutbox ?_)
  exact wellLocked_loadSettlementResult

theorem wellLocked_settleReservation
    {evidence : ResourceSettlementEvidence} :
    storeEngine.WellLocked (settleReservation dep settlement evidence) held fun _ _ => True := by
  refine .ofExcept fun settlement _ => ?_
  refine .require fun _ => ?_
  refine WellLocked.bind (wellLocked_acquire ?_)
  refine .snapshot fun existing => ?_
  cases existing with
  | some x => exact WellLocked.bind (wellLocked_require fun _ => wellLocked_loadSettlementResult)
  | none =>
    refine WellLocked.bind (reservations_owned.wellLocked_lock (by simp)
      fun _ r _ _ => ?_)
    split_ifs
    · exact wellLocked_replayClosed
    · exact wellLocked_settleOpen (by simp)

/-! ### Reconciliation -/

variable {now : Time} {request : ResourceReconciliation}

theorem wellLocked_timeOutWhenExpired :
    storeEngine.WellLocked (timeOutWhenExpired request now run) held fun _ _ => True := by
  unfold timeOutWhenExpired
  split_ifs
  · trivial
  refine .ofExcept fun _ _ => ?_
  refine WellLocked.bind (runs_keyed.wellLocked_update (by simp) ?_)
  intro old a r hold hr
  dsimp only at hr
  split_ifs at hr
  cases hr
  refine ⟨hold, ?_⟩
  refine .snapshot fun _ => ?_
  refine WellLocked.bind (wellLocked_insertEvent (by simp) ?_)
  exact wellLocked_insertOutbox trivial

theorem wellLocked_claimReconciliation {now : Int} :
    storeEngine.WellLocked (claimReconciliation dep request now) held
      fun claimed held' => .reservation claimed.1.id ∈ held' := by
  refine .snapshot fun _ => ?_
  refine .orThrow fun candidate _ => ?_
  refine WellLocked.bind (reservations_owned.wellLocked_lock (by simp)
    fun row r hkey hr => ?_)
  cases hr
  refine WellLocked.bind (runs_keyed.wellLocked_lock (by simp) fun _ run _ _ => ?_)
  refine .require fun _ => ?_
  simp [WellLocked, hkey]

theorem wellLocked_reconcileNextReservation :
    storeEngine.WellLocked (reconcileNextReservation dep request) held fun _ _ => True := by
  refine .ofExcept fun now _ => ?_
  refine WellLocked.bind (wellLocked_claimReconciliation.weaken fun claimed held₁ hclaimed => ?_)
  refine WellLocked.andThen wellLocked_timeOutWhenExpired fun _ held₂ hsub _ => ?_
  refine WellLocked.andThen wellLocked_lockItems fun items held₃ hsub' _ => ?_
  refine WellLocked.andThen (wellLocked_close (hsub' (hsub hclaimed))) fun _ _ _ _ => ?_
  refine WellLocked.bind (wellLocked_insertAudit ?_)
  refine WellLocked.bind (wellLocked_insertOutbox ?_)
  exact WellLocked.andThen wellLocked_loadSettlementResult fun _ _ _ _ => trivial

/-! ### Runs -/

theorem wellLocked_updateRun {change : Run → Run}
    (hchange : ∀ r, (change r).id = r.id) (hpost : post () ([.run id] ++ held)) :
    storeEngine.WellLocked (updateRun id change error) held post := by
  refine runs_keyed.wellLocked_update (by simp) fun old a r hold hr => ?_
  split_ifs at hr
  cases hr
  exact ⟨(hchange old).trans hold, hpost⟩

variable {eventID : ID}

theorem wellLocked_appendWorkerEvent {runID workerID : ID}
    {occurredAt : Int}
    (hrun : .run runID ∈ held) :
    storeEngine.WellLocked (appendWorkerEvent runID workerID eventID eventType actor state stateVersion
      occurredAt) held fun _ _ => True := by
  refine .snapshot fun _ => ?_
  refine WellLocked.bind (wellLocked_insertEvent hrun ?_)
  exact wellLocked_insertOutbox trivial

theorem wellLocked_claimRun {claim : RunClaim} :
    storeEngine.WellLocked (claimRun dep claim) held fun _ _ => True := by
  refine .require fun _ => ?_
  refine .snapshot fun _ => ?_
  refine .orThrow fun _ _ => ?_
  refine WellLocked.bind (runs_keyed.wellLocked_lock (by simp) fun _ run _ _ => ?_)
  refine .orThrow fun _ _ => ?_
  refine WellLocked.bind (wellLocked_updateRun (fun _ => rfl) ?_)
  exact WellLocked.andThen (wellLocked_appendWorkerEvent (by simp)) fun _ _ _ _ => trivial

variable {lease : RunLease}

theorem wellLocked_lockLeasedRun {now : Int} :
    storeEngine.WellLocked (lockLeasedRun dep lease now) held
      fun _ held' => .run lease.runID ∈ held' := by
  refine .require fun _ => ?_
  exact runs_keyed.wellLocked_lock (by simp) fun _ _ _ _ => by simp

theorem wellLocked_heartbeatRun {expiresAt : Time} :
    storeEngine.WellLocked (heartbeatRun dep lease now expiresAt eventID) held fun _ _ => True := by
  refine .require fun _ => ?_
  refine WellLocked.andThen wellLocked_lockLeasedRun fun _ _ _ hrun => ?_
  refine .require fun _ => ?_
  refine WellLocked.bind (wellLocked_updateRun (fun _ => rfl) ?_)
  exact WellLocked.andThen (wellLocked_appendWorkerEvent (by simp)) fun _ _ _ _ => trivial

theorem wellLocked_mutateWorkerRun {operation : WorkerRunOperation} :
    storeEngine.WellLocked (mutateWorkerRun dep lease operation eventID now) held
      fun _ _ => True := by
  refine .require fun _ => ?_
  refine WellLocked.andThen wellLocked_lockLeasedRun fun _ _ _ hrun => ?_
  refine .ofExcept fun _ _ => ?_
  split_ifs
  · trivial
  refine WellLocked.bind (wellLocked_updateRun (fun _ => rfl) ?_)
  exact wellLocked_appendWorkerEvent (by simp)

theorem wellLocked_insertSignal {x : RunSignal} (hrun : .run x.runID ∈ held)
    (hpost : post () ([.signal x.id] ++ held)) :
    storeEngine.WellLocked (signalRows.insert [.signal x.id] x (fun y => y.id = x.id ||
      (y.runID = x.runID && y.idempotencyKey = x.idempotencyKey)) error) held post := by
  refine wellLocked_insert ?_ ?_ ?_ hpost
  · simp [insertLocks, hrun]
  · intro r hr
    simp [hr]
  · intro r hr
    simp only [Bool.or_eq_true, Bool.and_eq_true, decide_eq_true_eq] at hr
    rcases hr with hid | ⟨hrunID, _⟩
    · exact Or.inl (excluded_of_mem (l := .signal r.id) (by simp [updateLocks]) (by simp [hid]) rfl)
    · exact Or.inl (excluded_of_mem (l := .run r.runID) (by simp [updateLocks])
        (by simp [hrunID, hrun]) rfl)

variable {cancellation : RunCancellation}

theorem wellLocked_persistCancellation
    {evidence : RunCancellationEvidence} {next : RunLifecycle} :
    storeEngine.WellLocked (persistCancellation cancellation evidence run next sequence) held
      fun _ _ => True := by
  refine .snapshot fun _ => ?_
  refine .require fun _ => ?_
  refine WellLocked.bind (wellLocked_updateRun (fun _ => rfl) ?_)
  refine WellLocked.bind (wellLocked_insertSignal (x := ⟨_, _, _, _, _, _, _⟩) (by simp) ?_)
  refine WellLocked.bind (wellLocked_insertEvent (by simp) ?_)
  refine WellLocked.bind (wellLocked_insertAudit ?_)
  exact wellLocked_insertOutbox trivial

theorem wellLocked_cancelRun {evidence : RunCancellationEvidence} :
    storeEngine.WellLocked (cancelRun dep cancellation evidence) held fun _ _ => True := by
  refine .require fun _ => ?_
  refine .ofExcept fun _ _ => ?_
  refine .require fun _ => ?_
  refine WellLocked.bind (runs_keyed.wellLocked_lock (by simp) fun _ run _ _ => ?_)
  split_ifs
  · trivial
  refine .ofExcept fun _ _ => ?_
  refine .require fun _ => ?_
  refine .snapshot fun _ => ?_
  exact wellLocked_persistCancellation

variable {signal : RunSignalSubmission}

theorem wellLocked_persistSignal {evidence : RunSignalEvidence}
    (hrun : .run signal.runID ∈ held) (hevent : event.runID = signal.runID)
    (hpost : ∀ held', post () held') :
    storeEngine.WellLocked (persistSignal signal evidence event) held post := by
  refine .snapshot fun _ => ?_
  refine .require fun _ => ?_
  refine WellLocked.bind (wellLocked_insertSignal (x := ⟨_, _, _, _, _, _, _⟩) hrun ?_)
  refine WellLocked.bind (wellLocked_insertEvent (by simp [hevent, hrun]) ?_)
  refine WellLocked.bind (wellLocked_insertAudit ?_)
  exact wellLocked_insertOutbox (hpost _)

theorem wellLocked_appendRunSignal {evidence : RunSignalEvidence} :
    storeEngine.WellLocked (appendRunSignal dep signal evidence) held fun _ _ => True := by
  refine .require fun _ => ?_
  refine .ofExcept fun _ _ => ?_
  refine .require fun _ => ?_
  refine WellLocked.bind (runs_keyed.wellLocked_lock (by simp) fun _ run _ _ => ?_)
  refine .require fun _ => ?_
  refine .require fun _ => ?_
  refine .snapshot fun existing => ?_
  cases existing with
  | some x =>
    refine .snapshot fun _ => ?_
    exact wellLocked_orThrow fun _ _ => trivial
  | none =>
    refine .snapshot fun _ => ?_
    exact WellLocked.bind (wellLocked_persistSignal (by simp) rfl fun _ => trivial)

/-! ### The registry -/

variable {agent : Agent}

theorem wellLocked_createAgent :
    storeEngine.WellLocked (createAgent dep agent) held fun _ _ => True := by
  refine .ofExcept fun _ _ => ?_
  refine .snapshot fun _ => ?_
  refine .require fun _ => ?_
  refine .snapshot fun _ => ?_
  refine .require fun _ => ?_
  exact agents_keyed.wellLocked_insert (by simp [Agent.row]) (fun _ => by simp [Agent.row]) trivial

theorem wellLocked_updateAgent {expectedUpdatedAt : Time} :
    storeEngine.WellLocked (updateAgent dep agent expectedUpdatedAt) held fun _ _ => True := by
  refine .ofExcept fun _ _ => ?_
  refine .require fun _ => ?_
  refine WellLocked.bind (agents_keyed.wellLocked_lock (by simp) fun _ old _ _ => ?_)
  refine .snapshot fun _ => ?_
  refine .require fun _ => ?_
  refine .snapshot fun _ => ?_
  refine .require fun _ => ?_
  refine agents_keyed.wellLocked_update (by simp) fun old a r hold hr => ?_
  cases hr
  exact ⟨hold, trivial⟩

theorem wellLocked_registerAgentVersion {version : AgentVersionRegistration} :
    storeEngine.WellLocked (registerAgentVersion dep version) held fun _ _ => True := by
  refine .require fun _ => ?_
  refine .ofExcept fun _ _ => ?_
  refine .snapshot fun _ => ?_
  refine .require fun _ => ?_
  refine .snapshot fun _ => ?_
  refine .require fun _ => ?_
  refine .snapshot fun _ => ?_
  refine .require fun _ => ?_
  exact versions_keyed.wellLocked_insert (by simp [AgentVersionRegistration.row])
    (fun _ => by simp [AgentVersionRegistration.row]) trivial

theorem wellLocked_recordAgentVersionDecision {approval : AgentVersionApproval} {digest : String}
    {auditID outboxID : ID} :
    storeEngine.WellLocked (recordAgentVersionDecision dep approval digest auditID outboxID) held
      fun _ _ => True := by
  refine .require fun _ => ?_
  refine .snapshot fun _ => ?_
  refine .orThrow fun candidate _ => ?_
  refine WellLocked.bind (versions_keyed.wellLocked_lock (by simp) fun _ _ _ _ => ?_)
  refine .snapshot fun _ => ?_
  refine .require fun _ => ?_
  refine .snapshot fun _ => ?_
  refine .require fun _ => ?_
  refine WellLocked.bind (versions_keyed.wellLocked_update (by simp)
    fun old a r hold hr => ?_)
  split_ifs at hr
  cases hr
  refine ⟨hold, ?_⟩
  refine WellLocked.bind (wellLocked_insertAudit ?_)
  refine WellLocked.bind (wellLocked_insertOutbox ?_)
  exact WellLocked.bind (wellLocked_ofExcept fun _ _ => trivial)

/-! ### Idempotent requests -/

theorem wellLocked_acquireIdempotency {request : IdempotencyRequest} {recordID ownerToken : ID} :
    storeEngine.WellLocked (acquireIdempotency dep request recordID ownerToken now) held
      fun _ _ => True := by
  refine .ofExcept fun _ _ => ?_
  refine .require fun _ => ?_
  refine .snapshot fun _ => ?_
  refine .snapshot fun _ => ?_
  refine records_keyed.wellLocked_upsertWhere List.mem_cons_self fun old a row hold hrow =>
    ⟨fun r hr => ?_, trivial⟩
  have hfresh : r = freshRecord request recordID ownerToken now := by
    split_ifs at hrow
    · cases hscan : scanIdempotency dep request.requestHash true
          (freshRecord request recordID ownerToken now) with
      | error error => simp [hscan, Except.map] at hrow
      | ok acquisition =>
        simp only [hscan, Except.map, Except.ok.injEq, Prod.mk.injEq] at hrow
        rw [hr, Option.some.injEq] at hrow
        exact hrow.2.symm
    · cases hrow
      cases hr
  subst hfresh
  rfl

variable {lost : Failure} {passes : IdempotencyRecord → Bool}

theorem wellLocked_lockRecord {candidate : IdempotencyRecord}
    : storeEngine.WellLocked (lockRecord candidate passes lost) held fun _ _ => True :=
  records_keyed.wellLocked_lock List.mem_cons_self fun _ _ _ _ => trivial

theorem wellLocked_lockOwned :
    storeEngine.WellLocked (lockOwned passes lost) held fun _ _ => True := by
  refine .snapshot fun _ => ?_
  exact WellLocked.bind (wellLocked_orThrow fun candidate _ => wellLocked_lockRecord)

theorem wellLocked_updateRecord {r : IdempotencyRecord}
    {change : IdempotencyRecord → IdempotencyRecord}
    (hchange : ∀ old, (change old).scope = old.scope) (hpost : ∀ held', post () held') :
    storeEngine.WellLocked (updateRecord r change error) held post := by
  refine records_keyed.wellLocked_update List.mem_cons_self fun old a r' hold hr => ?_
  split_ifs at hr
  cases hr
  exact ⟨(hchange old).trans hold, hpost _⟩

variable {acquisition : IdempotencyAcquisition}

variable {response : StoredResponse}

theorem wellLocked_completeRecord {wrap : Failure → Failure}
    {locate : Op IdempotencyRecord}
    (hlocate : ∀ held, storeEngine.WellLocked locate held fun _ _ => True) :
    storeEngine.WellLocked (completeRecord dep wrap acquisition response now locate) held
      fun _ _ => True := by
  refine .require fun _ => ?_
  refine .require fun _ => ?_
  refine .require fun _ => ?_
  refine WellLocked.andThen (hlocate _) fun r _ _ _ => ?_
  refine .orThrow fun _ _ => ?_
  exact wellLocked_updateRecord (fun _ => rfl) fun _ => trivial

theorem wellLocked_failIdempotency :
    storeEngine.WellLocked (failIdempotency acquisition now) held fun _ _ => True := by
  refine .require fun _ => ?_
  refine .require fun _ => ?_
  refine WellLocked.andThen wellLocked_lockOwned fun r _ _ _ => ?_
  exact wellLocked_updateRecord (fun _ => rfl) fun _ => trivial

theorem wellLocked_admitRunIdempotently
    :
    storeEngine.WellLocked
      (admitRunIdempotently dep admission resolution evidence acquisition response now) held
      fun _ _ => True := by
  refine .require fun _ => ?_
  refine WellLocked.andThen wellLocked_lockOwned fun _ _ _ _ => ?_
  refine WellLocked.andThen wellLocked_admitRun fun _ _ _ _ => ?_
  exact wellLocked_completeRecord fun _ => wellLocked_lockRecord

/-! ### Every request -/

theorem wellLocked_provisionPrincipal {row : Principal} :
    storeEngine.WellLocked (provisionPrincipal row) held fun _ _ => True := by
  refine principals_keyed.wellLocked_upsert (by simp) fun _ _ _ _ hr => ?_
  cases hr
  exact ⟨rfl, trivial⟩

theorem wellLocked_program (dep : Deployment) (request : Request) :
    storeEngine.WellLocked (program dep request) [] fun _ _ => True := by
  cases request with
  | admitRun => exact .respond wellLocked_admitRun
  | admitChildRun => exact .respond wellLocked_admitChildRun
  | reserveChildResources => exact .respond wellLocked_reserveChildResources
  | recordTrustedUsage => exact .respond wellLocked_recordTrustedUsage
  | extendResources => exact .respond wellLocked_extendResources
  | settleReservation => exact .respond wellLocked_settleReservation
  | reconcileNextReservation => exact .respond wellLocked_reconcileNextReservation
  | claimRun => exact .respond wellLocked_claimRun
  | heartbeatRun => exact .respond wellLocked_heartbeatRun
  | mutateWorkerRun => exact .respond wellLocked_mutateWorkerRun
  | cancelRun => exact .respond wellLocked_cancelRun
  | provisionPrincipal => exact .respond wellLocked_provisionPrincipal
  | appendRunSignal => exact .respond wellLocked_appendRunSignal
  | createAgent => exact .respond wellLocked_createAgent
  | updateAgent => exact .respond wellLocked_updateAgent
  | registerAgentVersion => exact .respond wellLocked_registerAgentVersion
  | recordAgentVersionDecision => exact .respond wellLocked_recordAgentVersionDecision
  | acquireIdempotency => exact .respond wellLocked_acquireIdempotency
  | readContended => exact WellLocked.bind (wellLocked_snapshot fun _ => trivial)
  | completeIdempotency => exact .respond (wellLocked_completeRecord fun _ => wellLocked_lockOwned)
  | failIdempotency => exact .respond wellLocked_failIdempotency
  | admitRunIdempotently => exact .respond wellLocked_admitRunIdempotently

end AgentGovernor
