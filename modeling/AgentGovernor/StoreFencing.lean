import AgentGovernor.StoreLifecycle

/-! Worker leases. The token of a run only grows, a lease that left the row never comes back under its
token, and a worker's call commits only under the lease and the token that are stored; so nothing that a
superseded worker sends is ever committed. Heartbeats prolong a lease as long as they present a current copy
of it: what they ask for is compared with that copy and not with the row. -/

namespace AgentGovernor

open Ledger Transaction Engine Sample List

variable {s t : Store} {dep : Deployment} {request : Request} {response : Response} {r r' : Run}

/-- Tokens grow, and under one token the lease can only be cleared. -/
structure Run.Fenced (r r' : Run) : Prop where
  token : r.fencingToken ≤ r'.fencingToken
  lease : r'.fencingToken = r.fencingToken → r'.leaseID = r.leaseID ∨ r'.leaseID = none

theorem Run.Fenced.refl (r : Run) : r.Fenced r := ⟨le_refl _, fun _ => Or.inl rfl⟩

theorem Run.Fenced.trans {a b c : Run} (h : a.Fenced b) (h' : b.Fenced c) : a.Fenced c := by
  refine ⟨h.token.trans h'.token, fun hsame => ?_⟩
  have hab : b.fencingToken = a.fencingToken := le_antisymm (hsame ▸ h'.token) h.token
  rcases h'.lease (hsame.trans hab.symm) with hc | hc
  · rcases h.lease hab with hb | hb
    · exact Or.inl (hc.trans hb)
    · exact Or.inr (hc.trans hb)
  · exact Or.inr hc

theorem nextFencingToken_eq {current fence : Int} (h : nextFencingToken current = some fence) :
    fence = current + 1 := by
  unfold nextFencingToken at h
  split_ifs at h
  exact (Option.some.inj h).symm

theorem RunMove.fenced (h : RunMove dep request response r r') : r.Fenced r' := by
  cases h with
  | claim _ _ fence _ hfence =>
    have hnext := nextFencingToken_eq hfence
    exact ⟨by dsimp only; omega, fun hsame => by dsimp only at hsame; omega⟩
  | heartbeat | signal => exact ⟨le_refl _, fun _ => Or.inl rfl⟩
  | operate _ operation =>
    refine ⟨le_refl _, fun _ => ?_⟩
    dsimp only
    split_ifs
    · exact Or.inr rfl
    · exact Or.inl rfl
  | extend => exact ⟨le_refl _, fun _ => Or.inl rfl⟩
  | cancel | exhaust | timeout => exact ⟨by dsimp only; omega, fun _ => Or.inr rfl⟩

theorem commits_fenced (h : Serves dep request response s t) :
    s.runs.Keeps Run.Fenced t.runs := by
  intro id r hr
  obtain ⟨r', hr', rfl | hmove⟩ := (commits_journals h).run_get hr
  · exact ⟨r', hr', .refl r'⟩
  · exact ⟨r', hr', hmove.fenced⟩

/-! ### What a worker presents -/

/-- The lease that a worker's call presents, and the time at which it does. -/
def Request.Presents (lease : RunLease) (now : Time) : Request → Prop
  | .heartbeatRun presented at' _ _ => presented = lease ∧ at' = now
  | .mutateWorkerRun presented _ _ at' => presented = lease ∧ at' = now
  | _ => False

/-- A worker's call commits only under the lease that is stored and has not expired. -/
theorem commits_holds {lease : RunLease} {now : Time} (hpresents : request.Presents lease now)
    (h : Serves dep request response s t) :
    ∃ r, s.runs.get lease.runID = some r ∧ lease.Holds now.stored r := by
  obtain ⟨_, hexec⟩ := h
  cases request with
  | heartbeatRun presented at' expiresAt eventID =>
    obtain ⟨rfl, rfl⟩ := hpresents
    obtain ⟨_, hbody, _⟩ := exec_respond hexec
    obtain ⟨_, h₁⟩ := exec_bind_require.mp hbody
    obtain ⟨run, _, _, hrun, _⟩ := exec_bind.mp h₁
    obtain ⟨_, hlease, _, hr⟩ := exec_lockLeasedRun_holds hrun
    exact ⟨run, hlease.run ▸ hr, hlease⟩
  | mutateWorkerRun presented operation eventID at' =>
    obtain ⟨rfl, rfl⟩ := hpresents
    obtain ⟨_, hbody, _⟩ := exec_respond hexec
    obtain ⟨run, _, _, hrun, _⟩ := exec_bind.mp hbody.checked
    obtain ⟨_, hlease, _, hr⟩ := exec_lockLeasedRun_holds hrun
    exact ⟨run, hlease.run ▸ hr, hlease⟩
  | _ => exact absurd hpresents id

/-- The commit cleared this lease from its run. -/
def ClearedBy (lease : RunLease) (c : Commit Store Response Request) : Prop :=
  ∃ r r', c.before.runs.get lease.runID = some r ∧ c.after.runs.get lease.runID = some r' ∧
    r.leaseID = some lease.leaseID ∧ r.fencingToken = lease.fencingToken ∧ r'.leaseID = none

/-! ### Over whole runs -/

section History

variable {governor : Governor} {log₁ log₂ : List StoreCommit}
  {c : StoreCommit}

/-- What was stored after an earlier commit is related to what a later one finds. -/
theorem Reachable.fenced_before (h : Reachable dep governor)
    (hlog : governor.log = log₁ ++ c :: log₂) {c' : StoreCommit} (hc' : c' ∈ log₁) :
    c'.before.runs.Keeps Run.Fenced c'.after.runs ∧ c'.after.runs.Keeps Run.Fenced c.before.runs := by
  have hcommit : ∀ x ∈ log₁, x.before.runs.Keeps Run.Fenced x.after.runs := fun x hx =>
    commits_fenced (h.commits (hlog ▸ mem_append_left _ hx))
  have hprefix := (hlog ▸ h.history).before
  exact ⟨hcommit c' hc', hprefix.since (R := fun s t => s.runs.Keeps Run.Fenced t.runs)
    (fun s => .refl Run.Fenced.refl s.runs) (fun _ _ _ hst htu => hst.trans Run.Fenced.trans htu)
    hcommit c' hc'⟩

/-- The tokens that a run had before a commit are at most the one that the commit finds. -/
theorem Reachable.token_before (h : Reachable dep governor) (hlog : governor.log = log₁ ++ c :: log₂)
    {c' : StoreCommit} (hc' : c' ∈ log₁) {id : ID} {x : Run}
    (hx : c'.before.runs.get id = some x ∨ c'.after.runs.get id = some x) :
    ∃ r, c.before.runs.get id = some r ∧ x.fencingToken ≤ r.fencingToken := by
  obtain ⟨hstep, hrest⟩ := h.fenced_before hlog hc'
  have hall : c'.before.runs.Keeps Run.Fenced c.before.runs := hstep.trans Run.Fenced.trans hrest
  rcases hx with hx | hx
  · obtain ⟨r, hr, hfenced⟩ := hall id x hx
    exact ⟨r, hr, hfenced.token⟩
  · obtain ⟨r, hr, hfenced⟩ := hrest id x hx
    exact ⟨r, hr, hfenced.token⟩

/-- A lease that was cleared is never found again under its token. -/
theorem Reachable.cleared_before (h : Reachable dep governor) (hlog : governor.log = log₁ ++ c :: log₂)
    {c' : StoreCommit} (hc' : c' ∈ log₁) {lease : RunLease}
    (hcleared : ClearedBy lease c') (hr : c.before.runs.get lease.runID = some r) :
    ¬(r.leaseID = some lease.leaseID ∧ r.fencingToken = lease.fencingToken) := by
  rintro ⟨hlease, htoken⟩
  obtain ⟨x, x', hx, hx', _, hxtoken, hnone⟩ := hcleared
  obtain ⟨hstep, hrest⟩ := h.fenced_before hlog hc'
  obtain ⟨y, hy, hfenced⟩ := hstep _ x hx
  have hsame : x' = y := Option.some.inj (hx'.symm.trans hy)
  subst hsame
  obtain ⟨z, hz, hfenced'⟩ := hrest _ x' hx'
  have hsame' : r = z := Option.some.inj (hr.symm.trans hz)
  subst hsame'
  -- The token did not move, so the lease is still the one left behind: none.
  have hkept : r.fencingToken = x'.fencingToken := by
    have hle := hfenced.token
    have hle' := hfenced'.token
    omega
  rcases hfenced'.lease hkept with hback | hback <;> simp [hback, hnone] at hlease

/-- A claim returns the token after the one it found, and stores it. -/
theorem commits_claim {claim : RunClaim} {lease : RunLease}
    (h : storeEngine.Commits (program dep) (.claimRun claim) (.leased lease) s t) :
    ∃ r r', s.runs.get lease.runID = some r ∧ lease.fencingToken = r.fencingToken + 1 ∧
      t.runs.get lease.runID = some r' ∧ r'.leaseID = some lease.leaseID ∧
      r'.fencingToken = lease.fencingToken := by
  obtain ⟨_, hexec⟩ := h
  obtain ⟨result, hbody, hresponse⟩ := exec_respond hexec
  cases hresponse
  obtain ⟨r, r', e, _, hadvances⟩ := advances_claimRun hbody
  have hput : t.runs.get r'.id = some r' := by
    rw [hadvances.runs_eq]
    exact Table.get_put_self _ _
  have hget := hadvances.run
  cases hadvances.move with
  | claim _ _ fence _ hfence => exact ⟨r, _, hget, nextFencingToken_eq hfence, hput, rfl, rfl⟩

/-- Over every interleaving, for the commits in their order: a claim returns a token above every token
that the run had before and stores it with its lease; a heartbeat or a worker operation commits only
under the stored lease and token, unexpired at its time, so never under a token below one that the run
had before, nor under a lease that an earlier commit cleared. Only commits change the tenant. -/
theorem leases_fenced {governor : Governor} (h : Reachable dep governor) :
    (∀ log₁ c log₂, governor.log = log₁ ++ c :: log₂ →
      (∀ claim lease, c.request = .claimRun claim → c.response = .leased lease →
        (∃ r, c.after.runs.get lease.runID = some r ∧ r.leaseID = some lease.leaseID ∧
          r.fencingToken = lease.fencingToken) ∧
        (∀ r, c.before.runs.get lease.runID = some r → r.fencingToken < lease.fencingToken) ∧
        ∀ c' ∈ log₁, ∀ r, c'.before.runs.get lease.runID = some r ∨
          c'.after.runs.get lease.runID = some r → r.fencingToken < lease.fencingToken) ∧
      ∀ lease now, c.request.Presents lease now →
        (∃ r, c.before.runs.get lease.runID = some r ∧ lease.Holds now.stored r) ∧
        ∀ c' ∈ log₁, ¬ClearedBy lease c' ∧
          ∀ r, c'.before.runs.get lease.runID = some r ∨ c'.after.runs.get lease.runID = some r →
            r.fencingToken ≤ lease.fencingToken) ∧
    ∀ governor', storeEngine.Step (program dep) governor governor' →
      (governor'.committed = governor.committed ∧ governor'.log = governor.log) ∨
        ∃ c, governor'.log = governor.log ++ [c] ∧ c.before = governor.committed ∧
          c.after = governor'.committed := by
  refine ⟨fun log₁ c log₂ hlog => ?_, fun governor' hstep => ?_⟩
  · have hcommit := h.commits (hlog ▸ mem_append_right _ mem_cons_self)
    refine ⟨fun claim lease hrequest hresponse => ?_, fun lease now hpresents => ?_⟩
    · rw [hrequest, hresponse] at hcommit
      obtain ⟨r, r', hr, hnext, hr', hlease, htoken⟩ := commits_claim hcommit
      refine ⟨⟨r', hr', hlease, htoken⟩, fun x hx => ?_, fun c' hc' x hx => ?_⟩
      · cases hr.symm.trans hx
        omega
      · obtain ⟨y, hy, hle⟩ := h.token_before hlog hc' hx
        cases hr.symm.trans hy
        omega
    · obtain ⟨r, hr, hholds⟩ := commits_holds hpresents hcommit
      refine ⟨⟨r, hr, hholds⟩, fun c' hc' => ⟨fun hcleared => ?_, fun x hx => ?_⟩⟩
      · exact h.cleared_before hlog hc' hcleared hr ⟨hholds.leaseID, hholds.token⟩
      · obtain ⟨y, hy, hle⟩ := h.token_before hlog hc' hx
        cases hr.symm.trans hy
        exact hholds.token ▸ hle
  · rcases hstep.committed with hsame | ⟨_, session, response, _, _, hlog⟩
    · exact Or.inl hsame
    · exact Or.inr ⟨_, hlog, rfl, rfl⟩

end History

/-- The paused run is claimed again; then the first worker sends a heartbeat and a completion. -/
def Sample.fenced : List Request :=
  exhausted.take 12 ++ [.heartbeatRun (lease 100) (instant 415) (instant 1500) (.ofNat 130),
    .mutateWorkerRun (lease 100) .complete (.ofNat 131) (instant 416)] ++ exhausted.drop 12

/-- The tokens of the worker's commits, and the one that completed the run. -/
theorem Sample.fenced_evaluated :
    ((after fenced).log.filterMap fun c => match c.request, c.response with
      | .claimRun _, .leased lease => some lease.fencingToken
      | .heartbeatRun lease _ _ _, _ => some lease.fencingToken
      | .mutateWorkerRun lease _ _ _, _ => some lease.fencingToken
      | _, _ => none) = [1, 1, 3, 3] ∧
    ((after fenced).log.any fun c => match c.request with
      | .mutateWorkerRun lease .complete _ _ => lease.fencingToken = 3
      | _ => false) = true := by
  decide +kernel

theorem leases_fenced_exhausted : ∃ log₁ c log₂ lease now r,
    (after fenced).log = log₁ ++ c :: log₂ ∧ c.request.Presents lease now ∧
    c.before.runs.get lease.runID = some r ∧ lease.Holds now.stored r ∧ r.fencingToken = 3 := by
  obtain ⟨c, hc, hcomplete⟩ := List.any_eq_true.mp fenced_evaluated.2
  obtain ⟨log₁, log₂, hlog⟩ := append_of_mem hc
  split at hcomplete
  · rename_i lease eventID now hrequest
    have hpresents : c.request.Presents lease now := by
      rw [hrequest]
      exact ⟨rfl, rfl⟩
    obtain ⟨⟨r, hr, hholds⟩, _⟩ :=
      ((leases_fenced (reachable fenced)).1 log₁ c log₂ hlog).2 lease now hpresents
    exact ⟨log₁, c, log₂, lease, now, r, hlog, hpresents, hr, hholds,
      hholds.token.trans (of_decide_eq_true hcomplete)⟩
  · cases hcomplete

/-! ### Expiries -/

/-- Under one token an expiry that is stored was stored before and was not later. -/
structure Run.Prolongs (r r' : Run) : Prop where
  token : r.fencingToken ≤ r'.fencingToken
  expiry : r'.fencingToken = r.fencingToken → ∀ e', r'.leaseExpiresAt = some e' →
    ∃ e, r.leaseExpiresAt = some e ∧ e ≤ e'

theorem Run.Prolongs.refl (r : Run) : r.Prolongs r := ⟨le_refl _, fun _ e he => ⟨e, he, le_refl e⟩⟩

theorem Run.Prolongs.trans {a b c : Run} (h : a.Prolongs b) (h' : b.Prolongs c) : a.Prolongs c := by
  refine ⟨h.token.trans h'.token, fun hsame e'' he'' => ?_⟩
  have hab : b.fencingToken = a.fencingToken := le_antisymm (hsame ▸ h'.token) h.token
  obtain ⟨e', he', hle'⟩ := h'.expiry (hsame.trans hab.symm) e'' he''
  obtain ⟨e, he, hle⟩ := h.expiry hab e' he'
  exact ⟨e, he, hle.trans hle'⟩

/-- A heartbeat presents a copy of the lease that is not older than the stored one. -/
def Request.copiesLease (s : Store) : Request → Bool
  | .heartbeatRun lease _ _ _ =>
    (s.runs.get lease.runID).all fun r => r.leaseExpiresAt.all (· ≤ lease.expiresAt.stored)
  | _ => true

/-- A heartbeat asks for more than its copy of the lease has. -/
theorem commits_heartbeat {lease : RunLease} {now expiresAt : Time} {eventID : ID}
    (h : storeEngine.Commits (program dep) (.heartbeatRun lease now expiresAt eventID) response s t) :
    lease.expiresAt.stored ≤ expiresAt.stored := by
  obtain ⟨_, hexec⟩ := h
  obtain ⟨_, hbody, _⟩ := exec_respond hexec
  obtain ⟨_, _, _, hvalid, _⟩ := exec_bind.mp hbody
  obtain ⟨⟨_, _, hlater⟩, _, _⟩ := exec_require.mp hvalid
  have hnanos : lease.expiresAt.nanos < expiresAt.nanos := of_decide_eq_true hlater
  simp only [Time.stored]
  omega

/-- Only a heartbeat stores another expiry under the token that it finds. -/
theorem RunMove.prolongs (hmove : RunMove dep request response r r')
    (hheartbeat : ∀ lease now expiresAt eventID, request = .heartbeatRun lease now expiresAt eventID →
      r.id = lease.runID → ∀ e, r.leaseExpiresAt = some e → e ≤ expiresAt.stored) : r.Prolongs r' := by
  cases hmove with
  | claim _ _ fence _ hfence =>
    have hnext := nextFencingToken_eq hfence
    exact ⟨by dsimp only; omega, fun hsame => by dsimp only at hsame; omega⟩
  | heartbeat lease now expiresAt eventID _ _ hlease =>
    refine ⟨le_refl _, fun _ e' he' => ?_⟩
    obtain ⟨e, he, _⟩ := (Option.any_eq_true _ _).mp hlease.unexpired
    cases he'
    exact ⟨e, he, hheartbeat lease now expiresAt eventID rfl hlease.run e he⟩
  | operate _ operation =>
    refine ⟨le_refl _, fun _ e' he' => ?_⟩
    dsimp only at he'
    split_ifs at he'
    exact ⟨e', he', le_refl e'⟩
  | signal | extend => exact ⟨le_refl _, fun _ e he => ⟨e, he, le_refl e⟩⟩
  | cancel | exhaust | timeout => exact ⟨by dsimp only; omega, fun _ _ he' => by cases he'⟩

theorem commits_prolongs (h : Serves dep request response s t)
    (hcopy : request.copiesLease s = true) : s.runs.Keeps Run.Prolongs t.runs := by
  intro id r hr
  obtain ⟨r', hr', rfl | hmove⟩ := (commits_journals h).run_get hr
  · exact ⟨r', hr', .refl r'⟩
  · refine ⟨r', hr', hmove.prolongs fun lease now expiresAt eventID hrequest hrun e he => ?_⟩
    subst hrequest
    have hasked := commits_heartbeat h
    have hcurrent : e ≤ lease.expiresAt.stored := by
      rw [← Table.key_of_get hr, hrun] at hr
      simpa [Request.copiesLease, hr, he] using hcopy
    exact hcurrent.trans hasked

/-- Whatever is stored before a commit, and at the end, under one fencing token: when the heartbeats from
that commit on present copies of the lease that are not older than the stored one, the expiry of the lease
has not decreased. -/
theorem heartbeats_prolong {governor : Governor} (h : Reachable dep governor)
    {log₁ log₂ : List (Commit Store Response Request)} {c : Commit Store Response Request}
    (hlog : governor.log = log₁ ++ c :: log₂)
    (hcopies : ∀ c' ∈ c :: log₂, c'.request.copiesLease c'.before = true) {id : ID}
    (hr : c.before.runs.get id = some r) (hr' : governor.committed.runs.get id = some r')
    (htoken : r'.fencingToken = r.fencingToken) {e e' : Int}
    (he : r.leaseExpiresAt = some e) (he' : r'.leaseExpiresAt = some e') : e ≤ e' := by
  have hcommit : ∀ x ∈ c :: log₂, x.before.runs.Keeps Run.Prolongs x.after.runs := fun x hx =>
    commits_prolongs (h.commits (hlog ▸ mem_append_right _ hx)) (hcopies x hx)
  have hhistory : storeEngine.History (program dep) Store.empty (log₁ ++ c :: log₂) governor.committed :=
    hlog ▸ h.history
  have hrest : c.after.runs.Keeps Run.Prolongs governor.committed.runs :=
    hhistory.since_commit (R := fun s t => s.runs.Keeps Run.Prolongs t.runs)
      (fun s => .refl Run.Prolongs.refl s.runs) (fun _ _ _ hst htu => hst.trans Run.Prolongs.trans htu)
      fun x hx => hcommit x (mem_cons_of_mem _ hx)
  have hall : c.before.runs.Keeps Run.Prolongs governor.committed.runs :=
    (hcommit c mem_cons_self).trans Run.Prolongs.trans hrest
  obtain ⟨x, hx, hprolongs⟩ := hall id r hr
  cases hx.symm.trans hr'
  obtain ⟨e₀, he₀, hle⟩ := hprolongs.expiry htoken e' he'
  cases he.symm.trans he₀
  exact hle

namespace Sample

/-- A heartbeat prolongs the lease of run 100 to second 1200; the next one, with the copy that the claim
returned, asks for second `expiry`. -/
def heartbeats (copy expiry : Int) : List Request :=
  provision ++ [admitRoot 100 (("max_tool_calls", .int 2) :: limits)] ++ start 100 ++
    [.heartbeatRun (lease 100) (instant 120) (instant 1200) (.ofNat 130),
      .heartbeatRun { lease 100 with expiresAt := instant copy } (instant 130) (instant expiry) (.ofNat 131)]

/-- The commit is a heartbeat that finds and leaves these expiries under the first token. -/
def Moves (expiry expiry' : Int) (c : Commit Store Response Request) : Prop :=
  (∃ r, c.before.runs.get (.ofNat 100) = some r ∧ r.fencingToken = 1 ∧ r.leaseExpiresAt = some expiry) ∧
    ∃ r, c.after.runs.get (.ofNat 100) = some r ∧ r.fencingToken = 1 ∧ r.leaseExpiresAt = some expiry'

instance (expiry expiry' : Int) (c : Commit Store Response Request) : Decidable (Moves expiry expiry' c) :=
  inferInstanceAs (Decidable (_ ∧ _))

theorem heartbeats_current :
    (∃ c ∈ (after (heartbeats 1200 1300)).log, Moves 1000000000 1200000000 c) ∧
      (∃ r, (after (heartbeats 1200 1300)).committed.runs.get (.ofNat 100) = some r ∧ r.fencingToken = 1 ∧
        r.leaseExpiresAt = some 1300000000) ∧
      ∀ c ∈ (after (heartbeats 1200 1300)).log, c.request.copiesLease c.before = true := by
  decide +kernel

theorem heartbeats_stale :
    ∃ c ∈ (after (heartbeats 1000 1100)).log, Moves 1200000000 1100000000 c := by
  decide +kernel

end Sample

theorem heartbeats_prolong_current : ∃ log₁ c log₂ r r' e e',
    (after (heartbeats 1200 1300)).log = log₁ ++ c :: log₂ ∧
    c.before.runs.get (.ofNat 100) = some r ∧
    (after (heartbeats 1200 1300)).committed.runs.get (.ofNat 100) = some r' ∧
    r.leaseExpiresAt = some e ∧ r'.leaseExpiresAt = some e' ∧ e ≤ e' := by
  obtain ⟨⟨c, hc, ⟨r, hr, htoken, he⟩, _⟩, ⟨r', hr', htoken', he'⟩, hcopies⟩ := heartbeats_current
  obtain ⟨log₁, log₂, hlog⟩ := append_of_mem hc
  refine ⟨log₁, c, log₂, r, r', _, _, hlog, hr, hr', he, he', ?_⟩
  refine heartbeats_prolong (reachable _) hlog (fun x hx => hcopies x ?_) hr hr'
    (htoken'.trans htoken.symm) he he'
  rw [hlog]
  exact mem_append_right _ hx

/-- A heartbeat with an old copy of the lease takes a hundred seconds off it. -/
theorem heartbeat_shortens : Reachable deployment (after (heartbeats 1000 1100)) ∧
    ∃ c ∈ (after (heartbeats 1000 1100)).log, ∃ r r' e e',
      c.before.runs.get (.ofNat 100) = some r ∧ c.after.runs.get (.ofNat 100) = some r' ∧
      r'.fencingToken = r.fencingToken ∧ r.leaseExpiresAt = some e ∧ r'.leaseExpiresAt = some e' ∧
      e' < e := by
  obtain ⟨c, hc, ⟨r, hr, htoken, he⟩, r', hr', htoken', he'⟩ := heartbeats_stale
  exact ⟨reachable _, c, hc, r, r', _, _, hr, hr', htoken'.trans htoken.symm, he, he', by decide⟩

end AgentGovernor
