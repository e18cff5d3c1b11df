import AgentGovernor.StoreFencing

/-! Exhausted budgets. The delivery that leaves nothing in its dimension stops the run in the same commit,
and until an extension nothing is metered against the run and no worker works on it. An extension resumes
a paused run whatever it adds, so the run has budget again only when the extension adds in the dimension
that ran out, or when something came back to it in the meantime. -/

namespace AgentGovernor

open Ledger Table Transaction Engine Sample List

variable {s t : Store} {dep : Deployment} {request : Request} {response : Response} {r r' : Run}

/-! ### The delivery that spends the rest -/

/-- The run is stopped as the disposition says, two versions on and without its lease. -/
structure Run.StoppedBy (disposition : ExhaustionDisposition) (r r' : Run) : Prop where
  state : r'.state = disposition.state
  version : r'.stateVersion = r.stateVersion + 2
  token : r'.fencingToken = r.fencingToken + 1
  lease : r'.leaseID = none ∧ r'.leaseExpiresAt = none

/-- Two events of the run, numbered after `last` and after `version`: exhausted, then stopped. -/
structure StopsInEvents (id : ID) (disposition : ExhaustionDisposition) (last version : Int)
    (first second : RunEvent) : Prop where
  run : first.runID = id ∧ second.runID = id
  sequence : first.sequence = last + 1 ∧ second.sequence = last + 2
  version : first.stateVersion = version + 1 ∧ second.stateVersion = version + 2
  state : first.state = .budgetExhausted ∧ second.state = disposition.state

variable {disposition : ExhaustionDisposition} {ids : ExhaustionIDs}

theorem Exhausts.stops {usage : TrustedUsage}
    {exhausted final : RunLifecycle}
    (h : Exhausts usage disposition ids r exhausted final s t) :
    t.runs.get usage.runID = some (r.exhaustedBy usage final) ∧
      Run.StoppedBy disposition r (r.exhaustedBy usage final) ∧
      ∃ first second, t.events.rows = s.events.rows ++ [first, second] ∧
        StopsInEvents usage.runID disposition (s.lastSequence usage.runID) r.stateVersion first
          second := by
  obtain ⟨⟨_, hfirst⟩, _, hsecond⟩ := exhaustionTransitions_spec h.transitions
  obtain ⟨_, hversion, hstate⟩ := RunLifecycle.transition_path hfirst rfl
  have hactive : exhausted.state.terminal = false := by
    rw [hstate]
    rfl
  obtain ⟨_, hversion', hstate'⟩ := RunLifecycle.transition_path hsecond hactive
  have hone : exhausted.version = r.stateVersion + 1 := hversion
  have htwo : final.version = r.stateVersion + 2 := by omega
  have hid : r.id = usage.runID := key_of_get h.run
  refine ⟨?_, ⟨hstate', htwo, rfl, rfl, rfl⟩, _, _, h.events_eq,
    ⟨⟨rfl, rfl⟩, ⟨rfl, by dsimp only; omega⟩, ⟨hone, htwo⟩, hstate, hstate'⟩⟩
  rw [h.runs_eq, ← hid]
  exact get_put_self s.runs (r.exhaustedBy usage final)

/-- A delivery that is not a replay spends. -/
theorem commits_spends {candidate : TrustedUsage} {hint : ThroughputHint}
    (h : storeEngine.Commits (program dep) (.recordTrustedUsage candidate hint disposition ids) response
      s t) :
    ∃ usage receipt, validateTrustedUsage dep candidate = .ok usage ∧ response = .metered receipt ∧
      ((receipt.duplicate = true ∧ t = s) ∨
        (receipt.duplicate = false ∧ ∃ e d b, Spends dep usage disposition ids e d b s t)) := by
  obtain ⟨_, hexec⟩ := h
  obtain ⟨receipt, hbody, hresponse⟩ := exec_respond hexec
  obtain ⟨usage, hvalid, ⟨_, _, _, _, _, rfl, hsame⟩ | ⟨rfl, target, _, e, b, hspends⟩⟩ :=
    exec_recordTrustedUsage hbody
  · exact ⟨usage, _, hvalid, hresponse, Or.inl ⟨rfl, hsame⟩⟩
  · exact ⟨usage, _, hvalid, hresponse, Or.inr ⟨rfl, e, target.dimension, b, hspends⟩⟩

/-! ### A stopped run -/

/-- The run is paused or has ended, and nobody has a lease on it. -/
def Run.Halted (r : Run) : Prop :=
  (r.state = .pausedForBudget ∨ r.state.terminal = true) ∧ r.leaseID = none

theorem Run.StoppedBy.halted (h : r.StoppedBy disposition r') :
    r'.Halted := by
  refine ⟨?_, h.lease.1⟩
  rw [h.state]
  unfold ExhaustionDisposition.state
  split_ifs
  · exact Or.inl rfl
  · exact Or.inr rfl

/-- The call extends the run. -/
def Request.extendsRun (id : ID) : Request → Bool
  | .extendResources candidate _ => candidate.runID = id
  | _ => false

/-- Only an extension of the run takes it out of this. -/
theorem RunMove.halted (h : RunMove dep request response r r') (hhalted : r.Halted)
    (hextends : request.extendsRun r.id = false) : r'.Halted := by
  obtain ⟨hstate, hlease⟩ := hhalted
  have hrunning : r.state ≠ .running := by
    rintro hrunning
    rw [hrunning] at hstate
    rcases hstate with hstate | hstate <;> cases hstate
  cases h with
  | claim _ _ _ hclaimable =>
    simp only [claimable, Bool.and_eq_true, Bool.or_eq_true, decide_eq_true_eq] at hclaimable
    rcases hclaimable.1 with hadmitted | hclaimed
    · rw [hadmitted] at hstate
      rcases hstate with hstate | hstate <;> cases hstate
    · exact absurd hclaimed hrunning
  | heartbeat _ _ _ _ _ _ hholds => cases hlease.symm.trans hholds.leaseID
  | operate _ _ _ _ _ _ _ hholds => cases hlease.symm.trans hholds.leaseID
  | cancel => exact ⟨Or.inr rfl, rfl⟩
  | signal => exact ⟨hstate, hlease⟩
  | exhaust _ _ _ _ _ _ _ _ _ _ hexhausts => exact absurd hexhausts hrunning
  | extend candidate extension _ _ _ _ _ hvalid hrun =>
    have hid : candidate.runID = r.id := (validateResourceExtension_spec hvalid).2.2.1.symm.trans hrun.symm
    simp [Request.extendsRun, hid] at hextends
  | timeout => exact ⟨Or.inr rfl, rfl⟩

/-- The run is there, and it is halted. -/
def HaltedIn (id : ID) (s : Store) : Prop := ∃ r, s.runs.get id = some r ∧ r.Halted

variable {id : ID}

theorem commits_halted (h : Serves dep request response s t)
    (hextends : request.extendsRun id = false) (hs : HaltedIn id s) : HaltedIn id t := by
  obtain ⟨r, hr, hhalted⟩ := hs
  have hid : r.id = id := key_of_get hr
  obtain ⟨r', hr', rfl | hmove⟩ := (commits_journals h).run_get hr
  · exact ⟨r', hr', hhalted⟩
  · exact ⟨r', hr', hmove.halted hhalted (hid ▸ hextends)⟩

/-- A first delivery of usage of the run. -/
def MetersRun (id : ID) (c : Commit Store Response Request) : Prop :=
  ∃ candidate hint disposition ids receipt, c.request = .recordTrustedUsage candidate hint disposition ids ∧
    c.response = .metered receipt ∧ receipt.duplicate = false ∧ candidate.runID = id

variable {c : StoreCommit}

/-- Nothing is metered against a halted run, and no worker's call on it commits. -/
theorem HaltedIn.refuses (h : HaltedIn id c.before)
    (hcommit : storeEngine.Commits (program dep) c.request c.response c.before c.after) :
    ¬MetersRun id c ∧ ∀ lease now, c.request.Presents lease now → lease.runID ≠ id := by
  obtain ⟨r, hr, hstate, hlease⟩ := h
  constructor
  · rintro ⟨candidate, hint, disposition, ids, receipt, hrequest, hresponse, hfirst, rfl⟩
    rw [hrequest, hresponse] at hcommit
    obtain ⟨usage, _, hvalid, hreceipt, ⟨hreplay, _⟩ | ⟨_, e, d, b, hspends⟩⟩ := commits_spends hcommit
    · cases hreceipt
      rw [hfirst] at hreplay
      cases hreplay
    · obtain ⟨x, hx, hrunning⟩ := hspends.running
      rw [(validateTrustedUsage_spec hvalid).2.2.1] at hx
      cases hr.symm.trans hx
      rw [hrunning] at hstate
      rcases hstate with hstate | hstate <;> cases hstate
  · rintro lease now hpresents rfl
    obtain ⟨x, hx, hholds⟩ := commits_holds hpresents hcommit
    cases hr.symm.trans hx
    cases hlease.symm.trans hholds.leaseID

/-- Over every interleaving, a committed delivery is a replay that changes nothing, or a first one. When
that leaves nothing in its dimension, the same commit stops the run as the disposition says, two versions
and one token further, without its lease and with two events; from then on, until a commit extends the run,
nothing is metered against it and no worker's call on it commits. When it leaves something, it changes no
run and appends no event. -/
theorem exhaustion_atomic {governor : Governor} (h : Reachable dep governor)
    {log₁ log₂ : List (Commit Store Response Request)} {c : Commit Store Response Request}
    (hlog : governor.log = log₁ ++ c :: log₂) {candidate : TrustedUsage} {hint : ThroughputHint}
    {disposition : ExhaustionDisposition} {ids : ExhaustionIDs}
    (hrequest : c.request = .recordTrustedUsage candidate hint disposition ids) :
    ∃ receipt, c.response = .metered receipt ∧ ((receipt.duplicate = true ∧ c.after = c.before) ∨
      (receipt.duplicate = false ∧ ∃ e d b r,
        c.before.envelopes.get e.id = some e ∧ e.runID = candidate.runID ∧
        dep.byName candidate.resourceName = some d ∧ c.after.balances.get (e.id, d.id) = some b ∧
        c.before.runs.get candidate.runID = some r ∧
        (b.availableValue = 0 →
          (∃ r' first second, c.after.runs.get candidate.runID = some r' ∧
            c.after.runs = c.before.runs.put r' ∧ r.StoppedBy disposition r' ∧
            c.after.events.rows = c.before.events.rows ++ [first, second] ∧
            StopsInEvents candidate.runID disposition (c.before.lastSequence candidate.runID)
              r.stateVersion first second) ∧
          ∀ log₃ x log₄, log₂ = log₃ ++ x :: log₄ →
            (∀ y ∈ log₃, y.request.extendsRun candidate.runID = false) →
            ¬MetersRun candidate.runID x ∧
              ∀ lease now, x.request.Presents lease now → lease.runID ≠ candidate.runID) ∧
        (0 < b.availableValue → c.after.runs = c.before.runs ∧ c.after.events = c.before.events))) := by
  have hhistory : storeEngine.History (program dep) Store.empty (log₁ ++ c :: log₂) governor.committed :=
    hlog ▸ h.history
  have hcommit := hhistory.commits (mem_append_right log₁ mem_cons_self)
  rw [hrequest] at hcommit
  obtain ⟨usage, receipt, hvalid, hresponse, hreplay | ⟨hfirst, e, d, b, hspends⟩⟩ :=
    commits_spends hcommit
  · exact ⟨receipt, hresponse, Or.inl hreplay⟩
  obtain ⟨_, _, hrun, _, _, hname, _⟩ := validateTrustedUsage_spec hvalid
  obtain ⟨r, hr, _⟩ := hspends.running
  refine ⟨receipt, hresponse, Or.inr ⟨hfirst, e, d, b, r, hspends.envelope, hrun ▸ hspends.envelope_run,
    hname ▸ hspends.dimension, hspends.balance, hrun ▸ hr, fun hspent => ?_, fun hleft => ?_⟩⟩
  · obtain ⟨x, exhausted, final, hexhausts⟩ := hspends.spent hspent
    cases hr.symm.trans hexhausts.run
    obtain ⟨hr', hstopped, first, second, hevents, hstops⟩ := hexhausts.stops
    rw [hrun] at hr' hstops
    refine ⟨⟨_, first, second, hr', hexhausts.runs_eq, hstopped, hevents, hstops⟩, ?_⟩
    rintro log₃ x log₄ rfl hextends
    -- The run stays halted over the commits in between.
    have hhalted : HaltedIn candidate.runID c.after := ⟨_, hr', hstopped.halted⟩
    have hmem : ∀ y ∈ log₃, y ∈ log₁ ++ c :: (log₃ ++ x :: log₄) := fun y hy => by simp [hy]
    have hbefore : HaltedIn candidate.runID x.before :=
      hhistory.between (R := fun s t => HaltedIn candidate.runID s → HaltedIn candidate.runID t)
        (fun _ => id) (fun _ _ _ hst htu hs => htu (hst hs))
        (fun y hy => commits_halted (hhistory.commits (hmem y hy)) (hextends y hy)) hhalted
    exact hbefore.refuses (hhistory.commits (by simp))
  · obtain ⟨hruns, hevents, _⟩ := Store.journal_eq.mp (hspends.unspent hleft.ne')
    exact ⟨hruns, hevents⟩

/-- The first delivery of the sample spends the two tool calls of its run. -/
theorem Sample.exhausted_meter : ((after exhausted).log.any fun c =>
    match c.request, c.response with
    | .recordTrustedUsage candidate _ disposition _, .metered receipt =>
      decide (receipt.duplicate = false ∧ candidate.runID = .ofNat 100 ∧ disposition = .pause ∧
        candidate.resourceName = "tool_calls" ∧ ∀ e ∈ c.before.envelopes.rows,
          e.runID = .ofNat 100 → c.after.accounts.available e.id (.ofNat 11) = 0)
    | _, _ => false) = true := by
  decide +kernel

theorem exhaustion_atomic_paused : ∃ c ∈ (after exhausted).log, ∃ r r' first second,
    c.before.runs.get (.ofNat 100) = some r ∧ c.after.runs.get (.ofNat 100) = some r' ∧
      r'.state = .pausedForBudget ∧ r'.stateVersion = r.stateVersion + 2 ∧ r'.leaseID = none ∧
      c.after.events.rows = c.before.events.rows ++ [first, second] ∧
      first.state = .budgetExhausted ∧ second.state = .pausedForBudget := by
  obtain ⟨c, hc, hmeter⟩ := List.any_eq_true.mp exhausted_meter
  obtain ⟨log₁, log₂, hlog⟩ := append_of_mem hc
  split at hmeter
  · rename_i candidate hint disposition ids receipt hrequest hresponse
    obtain ⟨hfirst, hrun, rfl, hname, hzero⟩ := of_decide_eq_true hmeter
    obtain ⟨_, hreceipt, ⟨hreplay, _⟩ | ⟨_, e, d, b, r, he, herun, hd, hb, hr, hspent, _⟩⟩ :=
      exhaustion_atomic (reachable _) hlog hrequest
    · cases hresponse.symm.trans hreceipt
      rw [hfirst] at hreplay
      cases hreplay
    rw [hrun] at herun
    rw [hname] at hd
    cases hd
    have havailable : b.availableValue = 0 :=
      (column_of_get hb).symm.trans (hzero e (mem_of_get he) herun)
    obtain ⟨⟨r', first, second, hr', _, hstopped, hevents, hstops⟩, _⟩ := hspent havailable
    rw [hrun] at hr hr'
    exact ⟨c, hc, r, r', first, second, hr, hr', hstopped.state, hstopped.version, hstopped.lease.1, hevents,
      hstops.state.1, hstops.state.2⟩
  · cases hmeter

/-! ### Resuming -/

/-- The run is paused. -/
def PausedIn (id : ID) (s : Store) : Prop := ∃ r, s.runs.get id = some r ∧ r.state = .pausedForBudget

/-- The commit is the delivery that spent the rest of a consumable dimension and paused the run. -/
structure PausedBy (dep : Deployment) (id : ID) (e : Envelope) (d : ResourceDimension)
    (c : Commit Store Response Request) : Prop where
  usage : ∃ candidate hint disposition ids, candidate.runID = id ∧
    dep.byName candidate.resourceName = some d ∧
    c.request = .recordTrustedUsage candidate hint disposition ids
  consumable : d.resourceClass = .consumable
  envelope : c.before.envelopes.get e.id = some e
  envelope_run : e.runID = id
  spent : c.after.accounts.available e.id d.id = 0
  running : ∃ r, c.before.runs.get id = some r ∧ r.state = .running
  paused : PausedIn id c.after

/-- Only a delivery pauses a run. -/
theorem RunMove.pauses (h : RunMove dep request response r r') (hbefore : r.state ≠ .pausedForBudget)
    (hafter : r'.state = .pausedForBudget) :
    ∃ candidate hint disposition ids, request = .recordTrustedUsage candidate hint disposition ids := by
  cases h with
  | claim | heartbeat | signal => exact absurd hafter hbefore
  | operate _ operation => cases operation <;> cases hafter
  | cancel | timeout => cases hafter
  | exhaust candidate _ hint disposition ids => exact ⟨candidate, hint, disposition, ids, rfl⟩
  | extend _ _ _ _ _ _ _ _ _ _ hstate =>
    rcases extendedState_spec hstate with ⟨hpaused, _⟩ | ⟨_, rfl⟩
    · exact absurd hpaused hbefore
    · exact absurd hafter hbefore

theorem commits_pausedBy
    (h : storeEngine.Commits (program dep) c.request c.response c.before c.after)
    (hbefore : ¬PausedIn id c.before) (hafter : PausedIn id c.after) :
    ∃ e d, PausedBy dep id e d c := by
  obtain ⟨r', hr', hpaused⟩ := hafter
  cases hr : c.before.runs.get id with
  | none =>
    obtain ⟨_, _, _, _, _, rfl⟩ := (commits_journals h).run_new hr hr'
    cases hpaused
  | some r =>
    have hstate : r.state ≠ .pausedForBudget := fun hstate => hbefore ⟨r, hr, hstate⟩
    obtain ⟨x, hx, hmove⟩ := (commits_journals h).run_get hr
    cases hr'.symm.trans hx
    rcases hmove with rfl | hmove
    · exact absurd hpaused hstate
    obtain ⟨candidate, hint, disposition, ids, hrequest⟩ := hmove.pauses hstate hpaused
    rw [hrequest] at h
    obtain ⟨usage, _, hvalid, _, ⟨_, hsame⟩ | ⟨_, e, d, b, hspends⟩⟩ := commits_spends h
    · exact absurd ⟨r', hsame ▸ hr', hpaused⟩ hbefore
    by_cases hspent : b.availableValue = 0
    · obtain ⟨y, exhausted, final, hexhausts⟩ := hspends.spent hspent
      obtain ⟨hy, hstopped, _⟩ := hexhausts.stops
      -- The delivery moved its own run, so that is the one that is paused now.
      have hid : usage.runID = id := by
        by_contra hne
        have hyid : y.id = usage.runID := key_of_get hexhausts.run
        have hother : id ≠ (y.exhaustedBy usage final).id := fun heq => hne (hyid.symm.trans heq.symm)
        rw [hexhausts.runs_eq, get_put_of_ne _ hother, hr] at hr'
        cases hr'
        exact hstate hpaused
      obtain ⟨_, _, hrun, _, _, hname, _⟩ := validateTrustedUsage_spec hvalid
      exact ⟨e, d, ⟨candidate, hint, disposition, ids, hrun.symm.trans hid, hname ▸ hspends.dimension,
        hrequest⟩, hspends.consumable, hspends.envelope, hspends.envelope_run.trans hid,
        (column_of_get hspends.balance).trans hspent, hid ▸ hspends.running, r', hr', hpaused⟩
    · rw [(Store.journal_eq.mp (hspends.unspent hspent)).1] at hr'
      exact absurd ⟨r', hr', hpaused⟩ hbefore

variable {governor : Governor} {log₁ log₂ : List StoreCommit}

/-- A run that is paused was paused by a delivery, and has been paused since. -/
theorem Reachable.pausedBy (h : Reachable dep governor)
    (hlog : governor.log = log₁ ++ c :: log₂) (hpaused : PausedIn id c.before) :
    ∃ log₃ p log₄ e d, log₁ = log₃ ++ p :: log₄ ∧ PausedBy dep id e d p ∧
      ∀ x ∈ log₄, PausedIn id x.before ∧ PausedIn id x.after := by
  have hhistory : storeEngine.History (program dep) Store.empty (log₁ ++ c :: log₂) governor.committed :=
    hlog ▸ h.history
  have hempty : ¬PausedIn id Store.empty := by
    rintro ⟨r, hr, _⟩
    cases hr
  obtain ⟨log₃, p, log₄, rfl, hbefore, hafter, hsince⟩ := hhistory.before.appears_last hempty hpaused
  obtain ⟨e, d, hp⟩ := commits_pausedBy (hhistory.commits (by simp)) hbefore hafter
  exact ⟨log₃, p, log₄, e, d, rfl, hp, hsince⟩

/-! ### What an extension adds -/

/-- The amounts of an extension are positive, so what it posts to a dimension is positive exactly when it
has an item for it. -/
theorem added_pos {items : List ExtensionItem} (hpos : ∀ i ∈ items, 0 < i.addedValue) (d : ID) :
    0 ≤ (items.map fun i => if i.dimensionID = d then i.addedValue else 0).sum ∧
      (0 < (items.map fun i => if i.dimensionID = d then i.addedValue else 0).sum ↔
        ∃ i ∈ items, i.dimensionID = d) := by
  induction items with
  | nil => simp
  | cons i items ih =>
    obtain ⟨hnonneg, hiff⟩ := ih fun j hj => hpos j (mem_cons_of_mem i hj)
    have hi := hpos i mem_cons_self
    simp only [map_cons, sum_cons, exists_mem_cons_iff, ← hiff]
    split_ifs with hd
    · exact ⟨by omega, by simp only [hd, true_or, iff_true]; omega⟩
    · exact ⟨by omega, by simp only [hd, false_or]; omega⟩

variable {candidate : ResourceExtension} {e : Envelope}

/-- What is available in a dimension after an extension. -/
theorem Extends.available_pos {extension : ResourceExtension} {row : Extension}
    {run run' : Run} (hvalid : validateResourceExtension candidate = .ok extension)
    (h : Extends dep extension row e run run' s t) {d : ResourceDimension}
    (hd : dep.byName d.name = some d) :
    0 < t.accounts.available e.id d.id ↔
      0 < s.accounts.available e.id d.id ∨ ∃ a ∈ candidate.additions, a.name = d.name := by
  obtain ⟨_, _, hadded⟩ := validateResourceExtension_eq hvalid
  have hmem : ∀ a, a ∈ extension.additions ↔ a ∈ candidate.additions := by
    intro a
    rw [hadded]
    exact (perm_insertionSort _ _).mem_iff
  have hitems : (∃ i ∈ row.items, i.dimensionID = d.id) ↔ ∃ a ∈ candidate.additions, a.name = d.name := by
    constructor
    · rintro ⟨i, hi, hid⟩
      obtain ⟨a, ha, hadds⟩ := exists_of_forall₂ h.items hi
      obtain ⟨d', hd', hid', _⟩ := hadds.dimension
      have hbyID := (Deployment.byName_spec hd').2
      rw [hid', hid, (Deployment.byName_spec hd).2] at hbyID
      cases hbyID
      exact ⟨a, (hmem a).mp ha, (Deployment.byName_spec hd').1.symm⟩
    · rintro ⟨a, ha, hname⟩
      obtain ⟨i, hi, hadds⟩ := exists_of_forall₂ h.items.flip ((hmem a).mpr ha)
      obtain ⟨d', hd', hid', _⟩ := hadds.dimension
      rw [hname, hd] at hd'
      cases hd'
      exact ⟨i, hi, hid'.symm⟩
  have hposted := (h.posts.terms e.id d.id).2.1
  rw [Extension.entries, posted_moves, if_pos h.envelopeID] at hposted
  dsimp only at hposted
  obtain ⟨hnonneg, hiff⟩ := added_pos (fun i hi => (h.item hvalid hi).2.1) d.id
  have hbefore := s.accounts.available_nonneg e.id d.id
  rw [← hitems, ← hiff, hposted]
  omega

theorem commits_extends {evidence : ResourceExtensionEvidence}
    (h : storeEngine.Commits (program dep) (.extendResources candidate evidence) response s t) :
    ∃ extension, validateResourceExtension candidate = .ok extension ∧
      (t = s ∨ ∃ row e run run', Extends dep extension row e run run' s t) := by
  obtain ⟨_, hexec⟩ := h
  obtain ⟨_, hbody, _⟩ := exec_respond hexec
  obtain ⟨extension, hvalid, ⟨hsame, _⟩ | ⟨row, e, run, run', hextends, _⟩⟩ := exec_extendResources hbody
  · exact ⟨extension, hvalid, Or.inl hsame⟩
  · exact ⟨extension, hvalid, Or.inr ⟨row, e, run, run', hextends⟩⟩

/-- The envelope of a run is the one that it had when an earlier commit found it. -/
theorem Reachable.envelope_same (h : Reachable dep governor)
    {log₃ : List StoreCommit} {p : StoreCommit}
    (hlog : governor.log = log₁ ++ p :: (log₂ ++ c :: log₃)) {e' : Envelope}
    (he : p.before.envelopes.get e.id = some e) (he' : c.before.envelopes.get e'.id = some e')
    (hsame : e.runID = e'.runID) : e.id = e'.id := by
  have hhistory : storeEngine.History (program dep) Store.empty (log₁ ++ p :: (log₂ ++ c :: log₃))
      governor.committed := hlog ▸ h.history
  have hkeeps : ∀ x ∈ log₁ ++ p :: (log₂ ++ c :: log₃),
      x.before.envelopes.Keeps Envelope.Keep x.after.envelopes := by
    intro x hx
    obtain ⟨_, htransition⟩ := commits_transition (hhistory.commits hx)
    exact htransition.keeps.envelopes
  obtain ⟨e₁, he₁, hkeep₁⟩ := hkeeps p (by simp) _ e he
  have hbetween := hhistory.between (R := fun s t => s.envelopes.Keeps Envelope.Keep t.envelopes)
    (fun _ => .refl Envelope.Keep.refl _) (fun _ _ _ hst htu => hst.trans Envelope.Keep.trans htu)
    (fun x hx => hkeeps x (by simp [hx]))
  obtain ⟨e₂, he₂, hkeep₂⟩ := hbetween _ e₁ he₁
  have hplaced := (h.sound.2 c (hlog ▸ by simp)).1.placed
  refine hplaced.unique _ _ e₂ e' he₂ he' ?_
  rw [hkeep₂.runID, hkeep₁.runID, hsame]

/-- Over every interleaving, an extension that takes a run from paused to running was preceded by the
delivery that paused it, and leaves something available in the dimension that this delivery had spent
exactly when something was available there before, or the extension adds to it. -/
theorem resumed_run_has_budget_iff {governor : Governor} (h : Reachable dep governor)
    {log₁ log₂ : List (Commit Store Response Request)} {c : Commit Store Response Request}
    (hlog : governor.log = log₁ ++ c :: log₂) {candidate : ResourceExtension}
    {evidence : ResourceExtensionEvidence} (hrequest : c.request = .extendResources candidate evidence)
    {id : ID} (hr : c.before.runs.get id = some r) (hpaused : r.state = .pausedForBudget)
    (hr' : c.after.runs.get id = some r') (hrunning : r'.state = .running) :
    ∃ log₃ p log₄ e d, log₁ = log₃ ++ p :: log₄ ∧ PausedBy dep id e d p ∧
      (∀ x ∈ log₄, PausedIn id x.before ∧ PausedIn id x.after) ∧
      (0 < c.after.accounts.available e.id d.id ↔
        0 < c.before.accounts.available e.id d.id ∨ ∃ a ∈ candidate.additions, a.name = d.name) := by
  obtain ⟨log₃, p, log₄, e, d, rfl, hp, hsince⟩ := h.pausedBy hlog ⟨r, hr, hpaused⟩
  refine ⟨log₃, p, log₄, e, d, rfl, hp, hsince, ?_⟩
  have hhistory : storeEngine.History (program dep) Store.empty ((log₃ ++ p :: log₄) ++ c :: log₂)
      governor.committed := hlog ▸ h.history
  have hcommit := hhistory.commits (c := c) (by simp)
  rw [hrequest] at hcommit
  obtain ⟨extension, hvalid, hsame | ⟨row, e', run, run', hextends⟩⟩ := commits_extends hcommit
  · rw [hsame, hr] at hr'
    cases hr'
    rw [hpaused] at hrunning
    cases hrunning
  · have hid : extension.runID = id := by
      by_contra hne
      have hrun' : run'.id = extension.runID :=
        hextends.run_kept.1.trans (key_of_get hextends.run_get)
      have hother : id ≠ run'.id := fun heq => hne (hrun'.symm.trans heq.symm)
      rw [hextends.store_eq.runs, get_put_of_ne _ hother, hr] at hr'
      cases hr'
      rw [hpaused] at hrunning
      cases hrunning
    have hsame : e.id = e'.id := h.envelope_same (by simpa using hlog) hp.envelope hextends.envelope
      (hp.envelope_run.trans (hid.symm.trans hextends.envelope_run.symm))
    obtain ⟨_, _, _, _, _, hd, _⟩ := hp.usage
    rw [hsame]
    exact hextends.available_pos hvalid ((Deployment.byName_spec hd).1 ▸ hd)

namespace Sample

/-- Run 100 spends its tool calls and pauses; the extension adds tokens. -/
def resumedWithout : List Request :=
  provision ++ [admitRoot 100 (("max_tool_calls", .int 2) :: ("max_llm_tokens", .int 9) :: limits)] ++
    start 100 ++ [meter 100 500,
      .extendResources ⟨.ofNat 700, .ofNat 1, .ofNat 100, .ofNat 7, .ofNat 5, "more", "manual", "ticket",
        [⟨"llm_tokens", ⟨addedCalls.amount, "tokens", by decide⟩⟩], 0, instant 400⟩
        ⟨.ofNat 701, .ofNat 702, .ofNat 703, .ofNat 704, ["ok"]⟩]

/-- An extension with these additions takes run 100 from paused to running and leaves so many tool calls. -/
def resumes (names : List String) (left : Int) (c : Commit Store Response Request) : Bool :=
  match c.request with
  | .extendResources candidate _ => candidate.additions.map (·.name) = names &&
      (c.before.runs.get (.ofNat 100)).any (·.state = .pausedForBudget) &&
      (c.after.runs.get (.ofNat 100)).any (·.state = .running) &&
      c.after.accounts.available (.ofNat 101) (.ofNat 11) = left
  | _ => false

/-- Envelope 101 is the only one, and only tool calls are metered. -/
def metersCalls (c : Commit Store Response Request) : Bool :=
  c.before.envelopes.rows.all (·.id = .ofNat 101) && match c.request with
    | .recordTrustedUsage candidate _ _ _ => candidate.resourceName = "tool_calls"
    | _ => true

variable {c : StoreCommit}

theorem resumes_spec {names : List String} {left : Int}
    (h : resumes names left c = true) : ∃ candidate evidence r r',
      c.request = .extendResources candidate evidence ∧ candidate.additions.map (·.name) = names ∧
      c.before.runs.get (.ofNat 100) = some r ∧ r.state = .pausedForBudget ∧
      c.after.runs.get (.ofNat 100) = some r' ∧ r'.state = .running ∧
      c.after.accounts.available (.ofNat 101) (.ofNat 11) = left := by
  unfold resumes at h
  split at h
  · rename_i candidate evidence hrequest
    simp only [Bool.and_eq_true, Option.any_eq_true, decide_eq_true_eq] at h
    obtain ⟨⟨⟨hnames, r, hr, hpaused⟩, r', hr', hrunning⟩, hleft⟩ := h
    exact ⟨candidate, evidence, r, r', hrequest, hnames, hr, hpaused, hr', hrunning, hleft⟩
  · cases h

theorem pausedBy_calls {e : Envelope} {d : ResourceDimension}
    (h : PausedBy deployment (.ofNat 100) e d c) (hcalls : metersCalls c = true) :
    e.id = .ofNat 101 ∧ d.id = .ofNat 11 ∧ d.name = "tool_calls" := by
  simp only [metersCalls, Bool.and_eq_true, List.all_eq_true, decide_eq_true_eq] at hcalls
  obtain ⟨candidate, _, _, _, _, hd, hrequest⟩ := h.usage
  rw [hrequest] at hcalls
  rw [of_decide_eq_true hcalls.2] at hd
  cases hd
  exact ⟨hcalls.1 e (mem_of_get h.envelope), rfl, rfl⟩

theorem exhausted_resumes : ((after exhausted).log.any (resumes ["tool_calls"] 4) &&
    (after exhausted).log.all metersCalls) = true := by
  decide +kernel

theorem resumedWithout_resumes : ((after resumedWithout).log.any (resumes ["llm_tokens"] 0) &&
    (after resumedWithout).log.all metersCalls) = true := by
  decide +kernel

end Sample

theorem resumed_run_has_budget_added : ∃ c ∈ (after exhausted).log, ∃ e d,
    (∃ p ∈ (after exhausted).log, PausedBy deployment (.ofNat 100) e d p) ∧
      ¬PausedIn (.ofNat 100) c.after ∧ 0 < c.after.accounts.available e.id d.id := by
  obtain ⟨hany, hall⟩ := (Bool.and_eq_true _ _).mp exhausted_resumes
  obtain ⟨c, hc, hresumes⟩ := List.any_eq_true.mp hany
  obtain ⟨log₁, log₂, hlog⟩ := append_of_mem hc
  obtain ⟨candidate, _, r, r', hrequest, hnames, hr, hpaused, hr', hrunning, _⟩ :=
    resumes_spec hresumes
  obtain ⟨log₃, p, log₄, e, d, rfl, hp, _, hiff⟩ :=
    resumed_run_has_budget_iff (reachable _) hlog hrequest hr hpaused hr' hrunning
  have hmem : p ∈ (after exhausted).log := by
    rw [hlog]
    simp
  have hadds : "tool_calls" ∈ candidate.additions.map (·.name) := by
    rw [hnames]
    exact mem_cons_self
  obtain ⟨a, ha, hname⟩ := List.mem_map.mp hadds
  refine ⟨c, hc, e, d, ⟨p, hmem, hp⟩, ?_, hiff.mpr (Or.inr ⟨a, ha, ?_⟩)⟩
  · rintro ⟨x, hx, hxpaused⟩
    cases hr'.symm.trans hx
    rw [hrunning] at hxpaused
    cases hxpaused
  · rw [hname, (pausedBy_calls hp (List.all_eq_true.mp hall p hmem)).2.2]

/-- An extension by tokens resumes a run that has no tool call left. -/
theorem resumed_without_budget : Reachable deployment (after resumedWithout) ∧
    ∃ log₁ c log₂ candidate evidence r r',
      (after resumedWithout).log = log₁ ++ c :: log₂ ∧
      c.request = .extendResources candidate evidence ∧
      c.before.runs.get (.ofNat 100) = some r ∧ r.state = .pausedForBudget ∧
      c.after.runs.get (.ofNat 100) = some r' ∧ r'.state = .running ∧
      ∃ log₃ p log₄ e d, log₁ = log₃ ++ p :: log₄ ∧ PausedBy deployment (.ofNat 100) e d p ∧
        (∀ x ∈ log₄, PausedIn (.ofNat 100) x.before ∧ PausedIn (.ofNat 100) x.after) ∧
        c.after.accounts.available e.id d.id = 0 := by
  obtain ⟨hany, hall⟩ := (Bool.and_eq_true _ _).mp resumedWithout_resumes
  obtain ⟨c, hc, hresumes⟩ := List.any_eq_true.mp hany
  obtain ⟨log₁, log₂, hlog⟩ := append_of_mem hc
  obtain ⟨candidate, evidence, r, r', hrequest, _, hr, hpaused, hr', hrunning, hleft⟩ :=
    resumes_spec hresumes
  obtain ⟨log₃, p, log₄, e, d, rfl, hp, hsince⟩ :=
    (reachable resumedWithout).pausedBy hlog ⟨r, hr, hpaused⟩
  have hmem : p ∈ (after resumedWithout).log := by
    rw [hlog]
    simp
  obtain ⟨he, hd, _⟩ := pausedBy_calls hp (List.all_eq_true.mp hall p hmem)
  refine ⟨reachable _, _, c, log₂, candidate, evidence, r, r', hlog, hrequest, hr, hpaused, hr',
    hrunning, log₃, p, log₄, e, d, rfl, hp, hsince, ?_⟩
  rw [he, hd]
  exact hleft

end AgentGovernor
