import AgentGovernor.StoreBalance

/-! Metering. A source event is counted once, however often and in whatever order it is delivered; the
window of a minute holds what was accepted in that minute; and a hint only makes metering stricter. -/

namespace AgentGovernor

open Ledger Table Transaction Engine Sample Option

variable {held : List Lock} {s t : Store} {dep : Deployment} {request : Request} {link : Option ID}

/-! ### The commit that meters -/

variable {u : UsageEntry}

theorem Recorded.usage_unique (hs : Recorded dep s) {v : UsageEntry} (hu : u ∈ s.usage.rows)
    (hv : v ∈ s.usage.rows) (hproducer : u.producerID = v.producerID)
    (hsource : u.sourceEventID = v.sourceEventID) : u = v := by
  have hid := hs.source u.id v.id u v (get_of_mem hu) (get_of_mem hv) hproducer hsource
  have hget := get_of_mem hu
  rw [hid, get_of_mem hv] at hget
  exact (Option.some.inj hget).symm

theorem Transition.usage_origin (h : Transition dep request held s t)
    (hu : u ∈ t.usage.rows) : u ∈ s.usage.rows ∨ ∃ usage target, u = usageEntry target usage ∧
      Meters dep usage target s t := by
  cases h with
  | single h =>
    rcases h.usage_origin (get_of_mem hu) with hold | ⟨_, _, usage, target, _, heq, hmeters⟩
    · exact Or.inl (mem_of_get hold)
    · exact Or.inr ⟨usage, target, heq, hmeters⟩
  | delegate _ _ _ _ _ _ _ mid _ _ _ h =>
    rw [h.reserves.evidenced.usage, h.admits.store_eq.usage] at hu
    exact Or.inl hu

/-- The commit adds the entry, debits one balance by it and counts it in at most one window. -/
structure MeteredBy (c : Commit Store Response Request) (u : UsageEntry) : Prop where
  fresh : ∀ v ∈ c.before.usage.rows,
    ¬(v.producerID = u.producerID ∧ v.sourceEventID = u.sourceEventID)
  added : c.after.usage = c.before.usage.put u
  debited : ∀ e d,
    c.after.accounts.available e d = c.before.accounts.available e d +
        (if (u.envelopeID, u.dimensionID) = (e, d) then -u.quantityValue else 0) ∧
      c.after.accounts.directConsumed e d = c.before.accounts.directConsumed e d +
        (if (u.envelopeID, u.dimensionID) = (e, d) then u.quantityValue else 0) ∧
      c.after.accounts.allocatedOpen e d = c.before.accounts.allocatedOpen e d
  counted : ∃ window : Option (ID × ID × Int), ∀ k,
    c.after.windows.column (·.usedValue) k = c.before.windows.column (·.usedValue) k +
      if window = some k then u.quantityValue else 0

/-- The window that counts an event of the envelope. -/
def countingWindow (dep : Deployment) (s : Store) (e : ID) (usage : TrustedUsage) :
    Option (ID × ID × Int) :=
  (companion dep s e usage.resourceName).map fun (d, _) =>
    (e, d.id, usage.recordedAt.truncateToWindow.stored)

variable {e : ID} {usage : TrustedUsage}

theorem WindowsCount.column
    {windows : Table fun w : RateWindow => (w.envelopeID, w.dimensionID, w.windowStart)}
    (h : WindowsCount dep e usage s windows) (k : ID × ID × Int) :
    windows.column (·.usedValue) k = s.windows.column (·.usedValue) k +
      if countingWindow dep s e usage = some k then usage.quantity.amount.coefficient else 0 := by
  unfold WindowsCount at h
  unfold countingWindow
  cases hcompanion : companion dep s e usage.resourceName with
  | none =>
    rw [hcompanion] at h
    simp [h]
  | some found =>
    obtain ⟨d, rateLimit⟩ := found
    rw [hcompanion] at h
    obtain ⟨w, hkey, hused, _, rfl⟩ := h
    rw [column_put, hkey, map_some]
    by_cases hk : k = (e, d.id, usage.recordedAt.truncateToWindow.stored)
    · rw [if_pos hk, if_pos (congrArg some hk.symm), hused, hk]
    · rw [if_neg hk, if_neg (fun heq => hk (Option.some.inj heq).symm), add_zero]

variable {target : MeteringTarget}

theorem Meters.meteredBy {c : StoreCommit}
    (h : Meters dep usage target c.before c.after) :
    MeteredBy c (usageEntry target usage) where
  fresh v hv := (h.fresh v hv).2
  added := h.store_eq.usage
  debited e d := by
    obtain ⟨_, havailable, hdirect, hallocated⟩ := h.posts.terms e d
    rw [posted_move] at havailable hdirect hallocated
    exact ⟨havailable, hdirect, by simpa using hallocated⟩
  counted := ⟨_, h.windows.column⟩

variable {governor : Governor}

/-- One commit meters the source event; the others add no entry of it. -/
theorem Reachable.metered_once (h : Reachable dep governor)
    (hu : u ∈ governor.committed.usage.rows) :
    ∃ log₁ c log₂, governor.log = log₁ ++ c :: log₂ ∧ MeteredBy c u ∧
      ∀ c' ∈ log₁ ++ log₂, ∀ v ∈ c'.after.usage.rows,
        v.producerID = u.producerID ∧ v.sourceEventID = u.sourceEventID → v ∈ c'.before.usage.rows := by
  obtain ⟨hsound, hcommits⟩ := h.sound
  have hmeters : ∀ c ∈ governor.log, ∀ v ∈ c.after.usage.rows, v ∉ c.before.usage.rows →
      MeteredBy c v := by
    intro c hc v hv hnew
    obtain ⟨held, htransition⟩ := commits_transition (hcommits c hc).2.2
    obtain ⟨usage, target, rfl, hmeters⟩ := (htransition.usage_origin hv).resolve_left hnew
    exact hmeters.meteredBy
  obtain ⟨log₁, c, log₂, hlog, hbefore, hafter, hothers⟩ := h.history.once Store.usage
    (fun v u => v.producerID = u.producerID ∧ v.sourceEventID = u.sourceEventID) rfl
    (fun c hc => (commits_transition (hcommits c hc).2.2).elim fun _ ht => ht.keeps.usage)
    (fun x hx y hy hsame => hsound.recorded.usage_unique hy hx hsame.1 hsame.2)
    (fun c hc v hv hnew w hw hsame =>
      (hmeters c hc v hv hnew).fresh w hw ⟨hsame.1.symm, hsame.2.symm⟩) hu
  exact ⟨log₁, c, log₂, hlog, hmeters c (by simp [hlog]) u hafter hbefore, hothers⟩

/-! ### Later deliveries -/

/-- What a stored entry answers. -/
def UsageEntry.answer (u : UsageEntry) : UsageReceipt := ⟨u.id, true, .ofStored u.recordedAt⟩

section Replay

variable {u : UsageEntry} {candidate usage : TrustedUsage} {hint : ThroughputHint}
  {disposition : ExhaustionDisposition} {ids : ExhaustionIDs}

/-- The replay check comes before everything that depends on the state. -/
theorem concludes_recordTrustedUsage (hvalid : validateTrustedUsage dep candidate = .ok usage)
    (hproducer : usage.producerID = u.producerID) (hsource : usage.sourceEventID = u.sourceEventID) :
    (recordTrustedUsage dep candidate hint disposition ids).Concludes
      (fun s => Recorded dep s ∧ u ∈ s.usage.rows)
      (fun outcome => if candidate.tenantID = dep.tenantID ∧ disposition.valid = true ∧
          usage.contentDigest = u.contentDigest then outcome = .ok u.answer
        else ∃ error, outcome = .error error) := by
  refine Tx.Concludes.require (fun htenant => ?_) fun htenant => ?_
  swap
  · rw [if_neg fun hall => htenant hall.1]
    exact ⟨_, rfl⟩
  refine Tx.Concludes.require (fun hdisposition => ?_) fun hdisposition => ?_
  swap
  · rw [if_neg fun hall => hdisposition hall.2.1]
    exact ⟨_, rfl⟩
  refine Tx.Concludes.ofExcept (fun _ hok => ?_) fun e he => by rw [hvalid] at he; cases he
  cases hvalid.symm.trans (mapError_eq_ok.mp hok)
  refine Tx.Concludes.acquire (Tx.Concludes.snapshot fun s hs => ?_)
  have hfound : s.usage.rows.find? (fun v => v.producerID = usage.producerID &&
      v.sourceEventID = usage.sourceEventID) = some u := by
    cases hfind : s.usage.rows.find? (fun v => v.producerID = usage.producerID &&
      v.sourceEventID = usage.sourceEventID) with
    | none => simpa [hproducer, hsource] using List.find?_eq_none.mp hfind u hs.2
    | some v =>
      have hkey : v.producerID = usage.producerID ∧ v.sourceEventID = usage.sourceEventID := by
        simpa using List.find?_some hfind
      rw [hs.1.usage_unique (List.mem_of_find?_eq_some hfind) hs.2 (hkey.1.trans hproducer)
        (hkey.2.trans hsource)]
  rw [hfound]
  refine Tx.Concludes.require (fun hdigest => ?_) fun hdigest => ?_
  · show ite _ _ _
    rw [if_pos ⟨htenant, hdisposition, hdigest.symm⟩]
    rfl
  · rw [if_neg fun hall => hdigest hall.2.2.symm]
    exact ⟨_, rfl⟩

end Replay

/-- A delivery of the source event that started after the entry was stored writes nothing. It answers with
the entry if it is well-formed and has its digest, and is rejected otherwise. -/
def LaterDeliveriesAnswer (dep : Deployment) (governor : Governor) (u : UsageEntry) : Prop :=
  ∀ (governor' : Governor) (i : Nat) (session : Session Store Lock Write Failure Response Request)
    (candidate usage : TrustedUsage) (hint : ThroughputHint) (disposition : ExhaustionDisposition)
    (ids : ExhaustionIDs),
    Later dep governor governor' → governor.sessions i = none → governor'.sessions i = some session →
    session.request = .recordTrustedUsage candidate hint disposition ids →
    validateTrustedUsage dep candidate = .ok usage →
    usage.producerID = u.producerID → usage.sourceEventID = u.sourceEventID →
    (usage.contentDigest = u.contentDigest → candidate.tenantID = dep.tenantID →
      disposition.valid = true → session.Answers (· = .ok (.metered u.answer))) ∧
    (usage.contentDigest ≠ u.contentDigest → session.Answers fun outcome => ∃ error, outcome = .error error)

theorem Reachable.laterDeliveriesAnswer (h : Reachable dep governor)
    (hu : u ∈ governor.committed.usage.rows) : LaterDeliveriesAnswer dep governor u := by
  intro governor' i session candidate usage hint disposition ids hlater hidle hsession hrequest hvalid
    hproducer hsource
  have hanswers := h.answers (P := fun s => Recorded dep s ∧ u ∈ s.usage.rows)
    (Q := fun outcome => ∃ result : Except Failure UsageReceipt, outcome = result.map .metered ∧
      if candidate.tenantID = dep.tenantID ∧ disposition.valid = true ∧
        usage.contentDigest = u.contentDigest then result = .ok u.answer
      else ∃ error, result = .error error) hlater hidle (fun mid hmid hfrom _ => by
        obtain ⟨_, hkept, rfl⟩ := hfrom.usage _ _ (get_of_mem hu)
        exact ⟨hmid.sound.1.recorded, mem_of_get hkept⟩) hsession (by
        rw [hrequest]
        exact (concludes_recordTrustedUsage hvalid hproducer hsource).bind
          (fun receipt hreceipt => ⟨_, rfl, hreceipt⟩) fun e he => ⟨_, rfl, he⟩)
  refine ⟨fun hdigest htenant hdisposition => hanswers.mono ?_, fun hdigest => hanswers.mono ?_⟩
  · rintro _ ⟨result, rfl, hresult⟩
    rw [if_pos ⟨htenant, hdisposition, hdigest⟩] at hresult
    rw [hresult]
    rfl
  · rintro _ ⟨result, rfl, hresult⟩
    rw [if_neg fun hall => hdigest hall.2.2] at hresult
    obtain ⟨error, rfl⟩ := hresult
    exact ⟨error, rfl⟩

variable {candidate : TrustedUsage} {disposition : ExhaustionDisposition} {hint : ThroughputHint}
  {ids : ExhaustionIDs}

/-- A delivery that commits when the entry is stored changes nothing, has its digest and returns it. -/
theorem commits_metered_replay
    {response : Response}
    (h : storeEngine.Commits (program dep) (.recordTrustedUsage candidate hint disposition ids) response
      s t) (hrecorded : Recorded dep s) (hu : u ∈ s.usage.rows)
    (hproducer : candidate.producerID = u.producerID)
    (hsource : candidate.sourceEventID = u.sourceEventID) :
    t = s ∧ response = .metered u.answer ∧ ∃ usage, validateTrustedUsage dep candidate = .ok usage ∧
      usage.contentDigest = u.contentDigest := by
  obtain ⟨held, hexec⟩ := h
  obtain ⟨receipt, hrecord, rfl⟩ := exec_respond hexec
  obtain ⟨usage, hvalid, hreplay | ⟨_, target, hmeters, _⟩⟩ := exec_recordTrustedUsage hrecord
  all_goals obtain ⟨_, _, _, hproducer', hsource', _⟩ := validateTrustedUsage_spec hvalid
  · obtain ⟨v, hv, hvproducer, hvsource, hdigest, rfl, rfl⟩ := hreplay
    have hvu : v = u := hrecorded.usage_unique hv hu
      (hvproducer.trans (hproducer'.trans hproducer)) (hvsource.trans (hsource'.trans hsource))
    subst hvu
    exact ⟨rfl, rfl, usage, hvalid, hdigest.symm⟩
  · refine absurd ?_ (hmeters.fresh u hu).2
    exact ⟨hproducer.symm.trans hproducer'.symm, hsource.symm.trans hsource'.symm⟩

/-! ### Windows -/

/-- The first microsecond of a minute. -/
def minute (k : Int) : Int := 60000000 * k

/-- The dimension limits what a minute may count. -/
structure Deployment.Throughput (dep : Deployment) (d : ResourceDimension) : Prop where
  defined : dep.byName d.name = some d
  structural : d.resourceClass = .structural
  maximum : d.aggregation = .maximum
  scale : d.scale = 0

/-- The consumable whose companion the dimension is. -/
def Deployment.governs (dep : Deployment) (d : ResourceDimension) (consumable : ID) : Bool :=
  (dep.byID consumable).any fun c => throughputDimensionName c.name = some d.name

/-- What the tenant has accepted in a minute of the consumable that the dimension governs. -/
def accepted (dep : Deployment) (s : Store) (e : ID) (d : ResourceDimension) (k : Int) : Int :=
  s.usage.total fun u => if u.envelopeID = e ∧ dep.governs d u.dimensionID = true ∧
    minute k ≤ u.recordedAt ∧ u.recordedAt < minute (k + 1) then u.quantityValue else 0

/-- The windows hold what was accepted, and no more than is granted. -/
structure WindowsExact (dep : Deployment) (s : Store) : Prop where
  used : ∀ e d g, dep.Throughput d → s.grants.get (e, d.id) = some g → ∀ k,
    s.windows.column (·.usedValue) (e, d.id, minute k) = accepted dep s e d k
  bounded : ∀ w ∈ s.windows.rows, ∃ g, s.grants.get (w.envelopeID, w.dimensionID) = some g ∧
    w.usedValue ≤ g.grantedValue

theorem WindowsExact.empty : WindowsExact dep Store.empty where
  used _ _ _ _ hg := by cases hg
  bounded _ hw := absurd hw List.not_mem_nil

theorem throughputGrant_eq_some {rate : String} {d : ResourceDimension} {v : Int} :
    throughputGrant dep e rate s = some (d, v) ↔ dep.byName rate = some d ∧ dep.Throughput d ∧
      ∃ g, s.grants.get (e, d.id) = some g ∧ g.grantedValue = v := by
  simp only [throughputGrant, bind_eq_bind, bind_eq_some_iff]
  constructor
  · rintro ⟨d', hd', g, hg, hsome⟩
    split_ifs at hsome with hrate
    cases hsome
    refine ⟨hd', ⟨?_, hrate.1, hrate.2.1, hrate.2.2⟩, g, hg, rfl⟩
    rw [(Deployment.byName_spec hd').1]
    exact hd'
  · rintro ⟨hd, hrate, g, hg, rfl⟩
    exact ⟨d, hd, g, hg, by rw [if_pos ⟨hrate.structural, hrate.maximum, hrate.scale⟩]⟩

/-- The window of an event begins with its minute. -/
theorem Time.truncateToWindow_stored (t : Time) {k : Int} :
    t.truncateToWindow.stored = minute k ↔ minute k ≤ t.stored ∧ t.stored < minute (k + 1) := by
  unfold Time.truncateToWindow Time.stored throughputWindow minute
  dsimp only
  omega

/-- An event is counted in the window of a granted dimension if it is of the consumable that the
dimension governs and falls into the minute. -/
theorem countingWindow_eq_some {e₀ : ID} {c d : ResourceDimension} {g : Grant}
    (hc : dep.byName usage.resourceName = some c) (hd : dep.Throughput d)
    (hg : s.grants.get (e, d.id) = some g) {k : Int} :
    countingWindow dep s e₀ usage = some (e, d.id, minute k) ↔
      e₀ = e ∧ dep.governs d c.id = true ∧ minute k ≤ usage.recordedAt.stored ∧
        usage.recordedAt.stored < minute (k + 1) := by
  have hgoverns : dep.governs d c.id = true ↔
      throughputDimensionName usage.resourceName = some d.name := by
    simp [Deployment.governs, (Deployment.byName_spec hc).2, (Deployment.byName_spec hc).1]
  rw [hgoverns, ← Time.truncateToWindow_stored]
  simp only [countingWindow, companion, map_eq_some_iff, bind_eq_some_iff]
  constructor
  · rintro ⟨⟨d', v⟩, ⟨rate, hrate, hfound⟩, hkey⟩
    obtain ⟨hname, hd', _⟩ := throughputGrant_eq_some.mp hfound
    simp only [Prod.mk.injEq] at hkey
    obtain ⟨rfl, hid, hwindow⟩ := hkey
    have hsame : d' = d := by
      have hbyID := (Deployment.byName_spec hd'.defined).2
      rw [hid, (Deployment.byName_spec hd.defined).2] at hbyID
      exact (Option.some.inj hbyID).symm
    subst hsame
    exact ⟨rfl, hrate.trans (congrArg some (Deployment.byName_spec hname).1.symm), hwindow⟩
  · rintro ⟨rfl, hrate, hwindow⟩
    exact ⟨(d, g.grantedValue), ⟨d.name, hrate, throughputGrant_eq_some.mpr
      ⟨hd.defined, hd, g, hg, rfl⟩⟩, by rw [hwindow]⟩

theorem Meters.accepted
    (h : Meters dep usage target s t) (e : ID) (d : ResourceDimension) (k : Int) :
    accepted dep t e d k = accepted dep s e d k +
      if target.envelopeID = e ∧ dep.governs d target.dimension.id = true ∧
        minute k ≤ usage.recordedAt.stored ∧ usage.recordedAt.stored < minute (k + 1) then
        usage.quantity.amount.coefficient else 0 := by
  rw [AgentGovernor.accepted, AgentGovernor.accepted, h.store_eq.usage,
    total_put_of_none _ h.usage_none]
  rfl

/-- A move meters an event, or it leaves the entries and the windows alone. -/
theorem Moves.meters_or_kept (h : Moves dep request held s t link) :
    (∃ usage target, Meters dep usage target s t) ∨ (t.usage = s.usage ∧ t.windows = s.windows) := by
  cases h with
  | idle h => exact Or.inr ⟨h.store_eq.usage, h.store_eq.windows⟩
  | admitRun _ _ _ _ _ _ _ h => exact Or.inr ⟨h.store_eq.usage, h.store_eq.windows⟩
  | reserve _ _ _ _ _ h => exact Or.inr ⟨h.evidenced.usage, h.evidenced.windows⟩
  | meter _ usage target _ _ h => exact Or.inl ⟨usage, target, h⟩
  | extend _ _ _ _ _ _ _ _ h => exact Or.inr ⟨h.store_eq.usage, h.store_eq.windows⟩
  | close _ _ _ h _ => exact Or.inr ⟨h.store_eq.usage, h.store_eq.windows⟩

theorem WindowsExact.meters (hs : WindowsExact dep s)
    (h : Meters dep usage target s t) : WindowsExact dep t := by
  have hgrants : t.grants = s.grants := h.store_eq.grants
  refine ⟨fun e d g hd hg k => ?_, fun w hw => ?_⟩
  · rw [hgrants] at hg
    rw [h.windows.column, h.accepted, hs.used e d g hd hg]
    simp only [countingWindow_eq_some h.dimension hd hg]
  · rw [hgrants]
    have hcount := h.windows
    unfold WindowsCount at hcount
    cases hcompanion : companion dep s target.envelopeID usage.resourceName with
    | none =>
      rw [hcompanion] at hcount
      exact hs.bounded w (hcount ▸ hw)
    | some found =>
      obtain ⟨d, rateLimit⟩ := found
      rw [hcompanion] at hcount
      obtain ⟨w', hkey, _, hlimit, hput⟩ := hcount
      rw [hput] at hw
      rcases mem_put.mp hw with rfl | ⟨hold, _⟩
      · obtain ⟨rate, _, hfound⟩ := bind_eq_some_iff.mp hcompanion
        obtain ⟨_, _, g, hg, rfl⟩ := throughputGrant_eq_some.mp hfound
        simp only [Prod.mk.injEq] at hkey
        exact ⟨g, by rw [hkey.1, hkey.2.1]; exact hg, hlimit⟩
      · exact hs.bounded w hold

theorem WindowsExact.moves (hs : WindowsExact dep s) (h : Moves dep request held s t link)
    (hsound : Sound dep s) : WindowsExact dep t := by
  rcases h.meters_or_kept with ⟨usage, target, hmeters⟩ | ⟨husage, hwindows⟩
  · exact hs.meters hmeters
  refine ⟨fun e d g hd hg k => ?_, fun w hw => ?_⟩
  · rw [hwindows, accepted, husage]
    cases hold : s.grants.get (e, d.id) with
    | some g' => exact hs.used e d g' hd hold k
    | none =>
      -- A dimension that was not granted yet has counted nothing, and so was its envelope not there.
      rw [column_of_none, total_eq_zero]
      · intro u hu
        refine if_neg fun hcounted => ?_
        obtain ⟨row, hrow, _⟩ := hsound.recorded.usage _ u (get_of_mem hu)
        rw [hcounted.1] at hrow
        have hstructural : dep.structural d.id = true := by
          simp [Deployment.structural, (Deployment.byName_spec hd.defined).2, hd.structural]
        rw [h.structural_grant (hsound.moves h).delegated hrow hstructural hg] at hold
        cases hold
      · rw [get_eq_none_iff]
        rintro w hw hkey
        simp only [Prod.mk.injEq] at hkey
        obtain ⟨g', hg', _⟩ := hs.bounded w hw
        rw [hkey.1, hkey.2.1, hold] at hg'
        cases hg'
  · rw [hwindows] at hw
    obtain ⟨g, hg, hle⟩ := hs.bounded w hw
    obtain ⟨_, hkept, rfl⟩ := h.keeps.grants _ g hg
    exact ⟨g, hkept, hle⟩

theorem Reachable.windowsExact (h : Reachable dep governor) :
    WindowsExact dep governor.committed :=
  (h.invariant (P := fun s => Sound dep s ∧ WindowsExact dep s) ⟨Sound.empty, WindowsExact.empty⟩
    fun _ _ _ _ _ hmove hs => ⟨hs.1.moves hmove, hs.2.moves hmove hs.1⟩).1.2

/-! ### The hint -/

/-- Without the block, metering does the same or goes on where the block rejected. -/
theorem recordTrustedUsage_relaxes {hint' : ThroughputHint}
    (hfree : hint'.blocked = false) :
    (recordTrustedUsage dep candidate hint disposition ids).Relaxes
      (recordTrustedUsage dep candidate hint' disposition ids) := by
  have henforce : ∀ e usage, (enforceThroughput dep e usage hint).Relaxes
      (enforceThroughput dep e usage hint') := by
    intro e usage
    unfold enforceThroughput
    split
    · exact .refl _
    · refine .after _ fun found => ?_
      split
      · exact .refl _
      · refine .after _ fun _ => ?_
        exact (Tx.Relaxes.require fun _ hblocked => by simp [hfree] at hblocked).bind fun _ => .refl _
  refine .after _ fun _ => .after _ fun _ => .after _ fun usage => .after _ fun _ =>
    .after _ fun existing => ?_
  cases existing with
  | some u => exact .refl _
  | none =>
    refine .after _ fun _ => .after _ fun target => .after _ fun _ => .after _ fun _ => .after _ fun _ =>
      .after _ fun _ => .after _ fun _ => .after _ fun _ => ?_
    exact (henforce _ _).bind fun _ => .refl _

/-! ### The main results -/

/-- The commits that deliver an event, except the one that meters it, change nothing and return its
entry. -/
theorem Reachable.redelivered (h : Reachable dep governor)
    (hu : u ∈ governor.committed.usage.rows) {c : StoreCommit} (hc : c ∈ governor.log)
    (hadds : ∀ v ∈ c.after.usage.rows, v.producerID = u.producerID ∧ v.sourceEventID = u.sourceEventID →
      v ∈ c.before.usage.rows)
    (hrequest : c.request = .recordTrustedUsage candidate hint disposition ids)
    (hproducer : candidate.producerID = u.producerID)
    (hsource : candidate.sourceEventID = u.sourceEventID) :
    c.after = c.before ∧ c.response = .metered u.answer ∧ ∃ usage,
      validateTrustedUsage dep candidate = .ok usage ∧ usage.contentDigest = u.contentDigest := by
  obtain ⟨hsound, hcommits⟩ := h.sound
  obtain ⟨hbefore, _, hcommit⟩ := hcommits c hc
  rw [hrequest] at hcommit
  -- It is enough that the entry was there: no other entry of the event ever is.
  suffices hmem : u ∈ c.before.usage.rows from
    commits_metered_replay hcommit hbefore.recorded hmem hproducer hsource
  obtain ⟨held, hexec⟩ := hcommit
  obtain ⟨receipt, hrecord, _⟩ := exec_respond hexec
  obtain ⟨usage, hvalid, hcases⟩ := exec_recordTrustedUsage hrecord
  obtain ⟨_, _, _, hproducer', hsource', _⟩ := validateTrustedUsage_spec hvalid
  have hkept := h.since (R := Store.Records) Store.Records.refl (fun _ _ _ => Store.Records.trans)
    (fun _ _ _ _ ht => ⟨ht.keeps.usage, ht.keeps.extensions, ht.keeps.settlements⟩) c hc
  rcases hcases with ⟨v, hv, hvproducer, hvsource, _, _, hsame⟩ | ⟨_, target, hmeters, _⟩
  · obtain ⟨_, hend, rfl⟩ := hkept.usage _ v (get_of_mem (hsame.symm ▸ hv))
    rw [← hsound.recorded.usage_unique (mem_of_get hend) hu
      (hvproducer.trans (hproducer'.trans hproducer)) (hvsource.trans (hsource'.trans hsource))]
    exact hv
  · have hnew : usageEntry target usage ∈ c.after.usage.rows := by
      rw [hmeters.store_eq.usage]
      exact mem_put.mpr (Or.inl rfl)
    have hold := hadds _ hnew ⟨hproducer'.trans hproducer, hsource'.trans hsource⟩
    exact absurd rfl (hmeters.fresh _ hold).1

/-- A source event has at most one entry, which one commit adds together with its one debit and its one
count; all other deliveries of the event, those that commit as well as those under way, change nothing,
and answer with the entry or, if their digest differs, are rejected. -/
theorem metering_idempotent {governor : Governor} (h : Reachable dep governor) :
    (∀ u ∈ governor.committed.usage.rows, ∀ v ∈ governor.committed.usage.rows,
      u.producerID = v.producerID → u.sourceEventID = v.sourceEventID → u = v) ∧
    (∀ u ∈ governor.committed.usage.rows, ∃ log₁ c log₂, governor.log = log₁ ++ c :: log₂ ∧
      MeteredBy c u ∧ ∀ c' ∈ log₁ ++ log₂, ∀ candidate hint disposition ids,
        c'.request = .recordTrustedUsage candidate hint disposition ids →
        candidate.producerID = u.producerID → candidate.sourceEventID = u.sourceEventID →
        c'.after = c'.before ∧ c'.response = .metered u.answer ∧ ∃ usage,
          validateTrustedUsage dep candidate = .ok usage ∧ usage.contentDigest = u.contentDigest) ∧
    (∀ u ∈ governor.committed.usage.rows, LaterDeliveriesAnswer dep governor u) := by
  refine ⟨fun u hu v hv => h.sound.1.recorded.usage_unique hu hv, fun u hu => ?_,
    fun u hu => h.laterDeliveriesAnswer hu⟩
  obtain ⟨log₁, c, log₂, hlog, hmetered, hothers⟩ := h.metered_once hu
  refine ⟨log₁, c, log₂, hlog, hmetered, fun c' hc' candidate hint disposition ids hrequest => ?_⟩
  have hmem : c' ∈ governor.log := by
    rw [hlog]
    rcases List.mem_append.mp hc' with hc' | hc'
    · exact List.mem_append_left _ hc'
    · exact List.mem_append_right _ (List.mem_cons_of_mem _ hc')
  exact h.redelivered hu hmem (hothers c' hc') hrequest

/-- An event is delivered twice, the second time with another identifier and later, when the run has
ended. -/
def Sample.redelivered : List Request :=
  provision ++ [admitRoot 100 (("max_tool_calls", .int 10) :: limits)] ++ start 100 ++
    [meter 100 500, complete 100,
      .recordTrustedUsage ⟨.ofNat 520, .ofNat 1, .ofNat 100, .ofNat 4, toString 500, "tool_calls",
        meteredCalls, instant 120, instant 250, ""⟩ ⟨"tool_calls_per_minute", true⟩ .pause
        ⟨.ofNat 521, .ofNat 522, .ofNat 523⟩]

/-- The deliveries of the event that commit. -/
theorem Sample.redelivered_evaluated :
    (∃ u ∈ (after redelivered).committed.usage.rows,
      (u.id, u.producerID, u.sourceEventID, u.quantityValue) =
        (.ofNat 500, .ofNat 4, toString 500, 2)) ∧
    ((after redelivered).log.filter fun c => match c.request with
      | .recordTrustedUsage candidate _ _ _ => candidate.sourceEventID = toString 500
      | _ => false).map (·.response) =
      [.metered ⟨.ofNat 500, false, instant 120⟩, .metered ⟨.ofNat 500, true, instant 120⟩] ∧
    (after redelivered).committed.windows.column (·.usedValue)
      (.ofNat 101, .ofNat 12, minute 2) = 2 ∧
    (after redelivered).committed.grants.get (.ofNat 101, .ofNat 12) =
      some ⟨.ofNat 101, .ofNat 12, 5, "calls_per_minute", 0⟩ := by
  decide +kernel

theorem metering_idempotent_redelivered : ∃ u log₁ c log₂,
    (u.id, u.quantityValue) = (.ofNat 500, 2) ∧
    (after redelivered).log = log₁ ++ c :: log₂ ∧ MeteredBy c u := by
  obtain ⟨u, hu, hvalues⟩ := redelivered_evaluated.1
  obtain ⟨log₁, c, log₂, hlog, hmetered, _⟩ :=
    (metering_idempotent (reachable redelivered)).2.1 u hu
  simp only [Prod.mk.injEq] at hvalues
  exact ⟨u, log₁, c, log₂, Prod.ext hvalues.1 hvalues.2.2.2, hlog, hmetered⟩

/-- The windows of a reachable tenant hold what was accepted in their minutes, within grants that never
change; only a call that was accepted changes the tenant; and from any database a block only turns an
acceptance into a rejection. -/
theorem throughput_windows_exact {governor : Governor} (h : Reachable dep governor) :
    WindowsExact dep governor.committed ∧
    (∀ c ∈ governor.log, c.after.grants.Keeps Eq governor.committed.grants) ∧
    (∀ i session failure, governor.sessions i = some session → session.body = .throw failure →
      ∀ governor', storeEngine.Step (program dep) governor governor' →
        governor'.committed = governor.committed ∨ ∃ j session' response, j ≠ i ∧
          governor.sessions j = some session' ∧ session'.body = .pure response ∧ governor'.log =
            governor.log ++ [⟨session'.request, response, governor.committed, governor'.committed⟩]) ∧
    (∀ s candidate hint hint' disposition ids result, hint'.blocked = false →
      storeEngine.run (program dep (.recordTrustedUsage candidate hint disposition ids)) s = .ok result →
      storeEngine.run (program dep (.recordTrustedUsage candidate hint' disposition ids)) s =
        .ok result) := by
  refine ⟨h.windowsExact, ?_, fun i session failure hsession hbody governor' hstep => ?_,
    fun s candidate hint hint' disposition ids result hfree hrun => ?_⟩
  · exact h.since (.refl Eq.refl ·.grants) (fun _ _ _ hst htu => hst.trans Eq.trans htu)
      fun _ _ _ _ ht => ht.keeps.grants
  · rcases hstep.committed with ⟨hsame, _⟩ | ⟨j, session', response, hj, hdone, hlog⟩
    · exact Or.inl hsame
    · refine Or.inr ⟨j, session', response, fun hij => ?_, hj, hdone, hlog⟩
      rw [hij, hsession] at hj
      cases hj
      rw [hbody] at hdone
      cases hdone
  · exact ((recordTrustedUsage_relaxes hfree).bind fun _ => .refl _).run hrun

theorem throughput_windows_exact_redelivered :
    accepted deployment (after redelivered).committed (.ofNat 101)
      (dimension 12 "tool_calls_per_minute" .structural "calls_per_minute") 2 = 2 := by
  obtain ⟨_, _, hused, hgrant⟩ := redelivered_evaluated
  have hexact := (throughput_windows_exact (reachable redelivered)).1
  exact (hexact.used _ (dimension 12 "tool_calls_per_minute" .structural "calls_per_minute") _
    ⟨by decide, rfl, rfl, rfl⟩ hgrant 2).symm.trans hused

end AgentGovernor
