import AgentGovernor.CommitExtension
import AgentGovernor.CommitRegistry
import AgentGovernor.CommitReservation
import AgentGovernor.CommitSettlement
import AgentGovernor.CommitUsage
import AgentGovernor.TransactionReplay

/-! Every commit of the governor is one of a few transitions of its database. From them follow what
every commit keeps and, with the lock discipline, that the commits of any interleaving form a serial
history. -/

namespace AgentGovernor

open Ledger Table Transaction Engine

variable {held held' : List Lock} {s t : Store} {dep : Deployment}

/-! ### Worker operations and provisioning -/

/-- A commit that moves at most a run, a principal, an agent or a version. -/
structure Idles (s t : Store) : Prop where
  runs : RunsWork s.runs t.runs
  store_eq : Store.Evidenced { s with
    principals := t.principals, agents := t.agents, versions := t.versions, runs := t.runs
    idempotency := t.idempotency } t

theorem Idles.refl (s : Store) : Idles s s := ⟨Or.inl rfl, Store.Evidenced.refl s⟩

variable {request : Request} {response : Response}

/-- Only an extension moves a deadline. -/
theorem RunMove.works {r r' : Run} (h : RunMove dep request response r r')
    (hrequest : ∀ candidate evidence, request ≠ .extendResources candidate evidence) : r.Works r' := by
  refine ⟨h.active, h.id_eq, ?_⟩
  cases h with
  | extend candidate _ evidence => exact absurd rfl (hrequest candidate evidence)
  | _ => exact ⟨rfl, rfl, rfl⟩

theorem Advances.idles {r r' : Run} {events : List RunEvent}
    (h : Advances dep request response s t r r' events) (hrest : t.rest = s.rest)
    (hrequest : ∀ candidate evidence, request ≠ .extendResources candidate evidence) : Idles s t := by
  refine ⟨Or.inr ⟨r, r', h.run, h.move.works hrequest, h.runs_eq⟩, t.events, t.signals, t.audits, t.outbox, ?_⟩
  cases s
  cases t
  simp only [Store.rest, Store.mk.injEq] at hrest ⊢
  simp [hrest]

/-! ### Transitions -/

/-- The request asks for this reservation, alone or for a child that it admits. -/
def Request.Reserves (requested : ResourceReservation) (request : Request) : Prop :=
  request = .reserveChildResources requested ∨
    ∃ admission resolution evidence, request = .admitChildRun admission resolution evidence requested

/-- The moves that the commits of a request are made of, with the parent of the envelope they
insert. -/
inductive Moves (dep : Deployment) (request : Request) (held : List Lock) (s t : Store) :
    Option ID → Prop where
  | idle (h : Idles s t) : Moves dep request held s t none
  | admitRun (admission : RunAdmission) (resolution : RunVersionResolution)
      (evidence : RunAdmissionEvidence) (parent : Option ID) (grants : List RootResourceGrant)
      (hrequest : request.Admits admission resolution evidence parent)
      (hgrants : admissionGrants dep admission resolution evidence = .ok grants)
      (h : Admits dep admission parent grants s t) : Moves dep request held s t parent
  | reserve (requested reservation : ResourceReservation) (row : Reservation)
      (hrequest : request.Reserves requested)
      (hvalid : validateAndSortResourceReservation requested = .ok reservation)
      (h : Reserves dep reservation row s t) : Moves dep request held s t none
  | meter (candidate usage : TrustedUsage) (target : MeteringTarget)
      (hrequest : ∃ hint disposition ids, request = .recordTrustedUsage candidate hint disposition ids)
      (hvalid : validateTrustedUsage dep candidate = .ok usage)
      (h : Meters dep usage target s t) : Moves dep request held s t none
  | extend (candidate extension : ResourceExtension) (row : Extension) (e : Envelope)
      (run run' : Run) (hrequest : ∃ evidence, request = .extendResources candidate evidence)
      (hvalid : validateResourceExtension candidate = .ok extension)
      (h : Extends dep extension row e run run' s t) : Moves dep request held s t none
  | close (x : Settlement) (r r' : Reservation) (h : Closes dep x r r' s t)
      (hlocked : .run r.childRunID ∈ held) : Moves dep request held s t none

/-- A commit: one move that links nothing, or the admission of a child and its reservation. -/
inductive Transition (dep : Deployment) (request : Request) (held : List Lock) (s t : Store) :
    Prop where
  | single (h : Moves dep request held s t none)
  | delegate (admission : RunAdmission) (resolution : RunVersionResolution)
      (evidence : RunAdmissionEvidence) (grants : List RootResourceGrant)
      (requested reservation : ResourceReservation) (row : Reservation) (mid : Store)
      (hrequest : request = .admitChildRun admission resolution evidence requested)
      (hgrants : admissionGrants dep admission resolution evidence = .ok grants)
      (hvalid : validateAndSortResourceReservation requested = .ok reservation)
      (h : Delegates dep admission grants reservation row s mid t)

theorem exec_respond {α : Type} {p : Op α} {f : α → Response}
    (h : storeEngine.Exec (p.bind fun a => .pure (f a)) held s response held' t) :
    ∃ a, storeEngine.Exec p held s a held' t ∧ response = f a := by
  obtain ⟨a, _, _, hp, rfl, rfl, rfl⟩ := exec_bind.mp h
  exact ⟨a, hp, rfl⟩

/-- The requests to the registry and to the idempotency records. -/
def Request.desk : Request → Bool
  | .createAgent _ | .updateAgent _ _ | .registerAgentVersion _ => true
  | .recordAgentVersionDecision _ _ _ _ | .acquireIdempotency _ _ _ _ => true
  | .completeIdempotency _ _ _ | .failIdempotency _ _ | .admitRunIdempotently _ _ _ _ _ _ => true
  | _ => false

theorem Advances.serves {r r' : Run} {events : List RunEvent}
    (h : Advances dep request response s t r r' events) (hrest : t.rest = s.rest)
    (hrequest : ∀ candidate evidence, request ≠ .extendResources candidate evidence) :
    Transition dep request held s t ∧ Journals dep request response s t ∧
      (request.desk = false → t.desk = s.desk) :=
  ⟨.single (.idle (h.idles hrest hrequest)), .move r r' events h, fun _ => (congrArg Store.desk hrest :)⟩

/-- Every commit is a transition of the ledgers and a step of the journal of the runs; only the requests to
the registry and to the records write there. -/
theorem exec_program (h : storeEngine.Exec (program dep request) [] s response held t) :
    Transition dep request held s t ∧ Journals dep request response s t ∧
      (request.desk = false → t.desk = s.desk) := by
  cases request with
  | admitRun admission resolution evidence =>
    obtain ⟨_, hexec, _⟩ := exec_respond h
    obtain ⟨⟨e, henters⟩, hdesk, grants, hgrants, hadmits⟩ := exec_admitRun hexec
    exact ⟨.single (.admitRun admission resolution evidence none grants (Or.inl ⟨rfl, rfl⟩) hgrants
      hadmits), .admission admission resolution evidence none e (Or.inl ⟨rfl, rfl⟩) henters, fun _ => hdesk⟩
  | admitChildRun admission resolution evidence requested =>
    obtain ⟨reservation, hexec, _⟩ := exec_respond h
    obtain ⟨⟨e, henters⟩, hdesk, grants, row, mid, hgrants, hvalid, hdelegates⟩ :=
      exec_admitChildRun hexec
    exact ⟨.delegate admission resolution evidence grants requested reservation row mid rfl hgrants
      hvalid hdelegates, .admission admission resolution evidence _ e
        (Or.inr (Or.inr ⟨requested, rfl, rfl⟩)) henters, fun _ => hdesk⟩
  | reserveChildResources requested =>
    obtain ⟨reservation, hexec, _⟩ := exec_respond h
    obtain ⟨hvalid, _, row, hreserves⟩ := exec_reserveChildResources hexec
    exact ⟨.single (.reserve requested reservation row (Or.inl rfl) hvalid hreserves),
      .keep (by rw [hreserves.store_eq]; rfl), fun _ => by rw [hreserves.store_eq]; rfl⟩
  | recordTrustedUsage candidate hint disposition ids =>
    obtain ⟨_, hexec, _⟩ := exec_respond h
    obtain ⟨usage, hvalid, ⟨_, _, _, _, _, _, rfl⟩ | ⟨_, target, hmeters, _, _, hspends⟩⟩ :=
      exec_recordTrustedUsage hexec
    · exact ⟨.single (.idle (Idles.refl _)), .keep rfl, fun _ => rfl⟩
    · exact ⟨.single (.meter candidate usage target ⟨_, _, _, rfl⟩ hvalid hmeters),
        hspends.journals hvalid, fun _ => hmeters.store_eq.desk⟩
  | extendResources candidate evidence =>
    obtain ⟨_, hexec, _⟩ := exec_respond h
    obtain ⟨extension, hvalid, ⟨rfl, _⟩ | ⟨row, e, run, run', hextends, _, hjournals⟩⟩ :=
      exec_extendResources hexec
    · exact ⟨.single (.idle (Idles.refl _)), .keep rfl, fun _ => rfl⟩
    · exact ⟨.single (.extend candidate extension row e run run' ⟨_, rfl⟩ hvalid hextends),
        hjournals response, fun _ => hextends.store_eq.desk⟩
  | settleReservation candidate evidence =>
    obtain ⟨_, hexec, _⟩ := exec_respond h
    obtain ⟨settlement, _, ⟨rfl, _⟩ | ⟨items, r, r', hcloses, _, hlocked, hjournal⟩⟩ :=
      exec_settleReservation hexec
    · exact ⟨.single (.idle (Idles.refl _)), .keep rfl, fun _ => rfl⟩
    · exact ⟨.single (.close _ r r' hcloses hlocked), .keep hjournal, fun _ => hcloses.store_eq.desk⟩
  | reconcileNextReservation request =>
    obtain ⟨_, hexec, _⟩ := exec_respond h
    obtain ⟨_, run, _, r, r', _, hcloses, _, hlocked, _, htimesOut⟩ := exec_reconcileNextReservation hexec
    refine ⟨.single (.close _ r r' hcloses hlocked), ?_, fun _ => hcloses.store_eq.desk⟩
    rcases htimesOut with hkeep | ⟨_, hadvances⟩
    · exact .keep hkeep
    · obtain ⟨run', e, hmoved⟩ := hadvances response
      exact .move run run' [e] hmoved
  | claimRun claim =>
    obtain ⟨_, hexec, rfl⟩ := exec_respond h
    obtain ⟨r, r', e, hrest, hadvances⟩ := advances_claimRun hexec
    exact hadvances.serves hrest nofun
  | heartbeatRun lease now expiresAt eventID =>
    obtain ⟨_, hexec, _⟩ := exec_respond h
    obtain ⟨r, r', e, hrest, hadvances⟩ := advances_heartbeatRun response hexec
    exact hadvances.serves hrest nofun
  | mutateWorkerRun lease operation eventID now =>
    obtain ⟨_, hexec, _⟩ := exec_respond h
    obtain ⟨run, _, _, ⟨_, rfl⟩ | ⟨run', e, hrest, hadvances⟩⟩ := advances_mutateWorkerRun response hexec
    · exact ⟨.single (.idle (Idles.refl _)), .keep rfl, fun _ => rfl⟩
    · exact hadvances.serves hrest nofun
  | cancelRun cancellation evidence =>
    obtain ⟨_, hexec, _⟩ := exec_respond h
    obtain ⟨run, _, _, ⟨_, rfl⟩ | ⟨run', e, hrest, hadvances⟩⟩ := advances_cancelRun response hexec
    · exact ⟨.single (.idle (Idles.refl _)), .keep rfl, fun _ => rfl⟩
    · exact hadvances.serves hrest nofun
  | provisionPrincipal row =>
    obtain ⟨_, hexec, _⟩ := exec_respond h
    obtain ⟨_, _, _, rfl⟩ := Handle.exec_upsert.mp hexec
    exact ⟨.single (.idle ⟨Or.inl rfl, _, _, _, _, rfl⟩), .keep rfl, fun _ => rfl⟩
  | appendRunSignal signal evidence =>
    obtain ⟨event, hexec, _⟩ := exec_respond h
    obtain ⟨run, _, _, _, _, ⟨_, _, _, _, _, _, _, rfl⟩ | ⟨_, hrest, hadvances⟩⟩ :=
      advances_appendRunSignal response hexec
    · exact ⟨.single (.idle (Idles.refl _)), .keep rfl, fun _ => rfl⟩
    · exact hadvances.serves hrest nofun
  | createAgent agent =>
    obtain ⟨_, hexec, _⟩ := exec_respond h
    obtain ⟨_, rfl⟩ := exec_createAgent hexec
    exact ⟨.single (.idle ⟨Or.inl rfl, _, _, _, _, rfl⟩), .keep rfl, nofun⟩
  | updateAgent agent expectedUpdatedAt =>
    obtain ⟨_, hexec, _⟩ := exec_respond h
    obtain ⟨_, _, _, rfl⟩ := exec_updateAgent hexec
    exact ⟨.single (.idle ⟨Or.inl rfl, _, _, _, _, rfl⟩), .keep rfl, nofun⟩
  | registerAgentVersion version =>
    obtain ⟨_, hexec, _⟩ := exec_respond h
    obtain ⟨_, rfl⟩ := exec_registerAgentVersion hexec
    exact ⟨.single (.idle ⟨Or.inl rfl, _, _, _, _, rfl⟩), .keep rfl, nofun⟩
  | recordAgentVersionDecision approval digest auditID outboxID =>
    obtain ⟨_, hexec, _⟩ := exec_respond h
    obtain ⟨_, ⟨_, _, _, _, _, _, _, _, rfl⟩, _, hjournal⟩ := exec_recordAgentVersionDecision hexec
    exact ⟨.single (.idle ⟨Or.inl rfl, _, _, _, _, rfl⟩), .keep hjournal, nofun⟩
  | acquireIdempotency request recordID ownerToken now =>
    obtain ⟨_, hexec, _⟩ := exec_respond h
    obtain ⟨_, _, rfl⟩ | ⟨_, rfl, _⟩ := exec_acquireIdempotency hexec
    · exact ⟨.single (.idle ⟨Or.inl rfl, _, _, _, _, rfl⟩), .keep rfl, nofun⟩
    · exact ⟨.single (.idle (Idles.refl _)), .keep rfl, nofun⟩
  | readContended request =>
    obtain ⟨_, hexec, _⟩ := exec_respond h
    obtain ⟨_, _, rfl⟩ := exec_snapshot.mp hexec
    exact ⟨.single (.idle (Idles.refl _)), .keep rfl, fun _ => rfl⟩
  | completeIdempotency acquisition response now =>
    obtain ⟨_, hexec, _⟩ := exec_respond h
    obtain ⟨_, _, _, _, _, rfl⟩ := exec_completeIdempotency hexec
    exact ⟨.single (.idle ⟨Or.inl rfl, _, _, _, _, rfl⟩), .keep rfl, nofun⟩
  | failIdempotency acquisition now =>
    obtain ⟨_, hexec, _⟩ := exec_respond h
    obtain ⟨_, _, _, rfl⟩ := exec_failIdempotency hexec
    exact ⟨.single (.idle ⟨Or.inl rfl, _, _, _, _, rfl⟩), .keep rfl, nofun⟩
  | admitRunIdempotently admission resolution evidence acquisition response now =>
    obtain ⟨_, hexec, _⟩ := exec_respond h
    obtain ⟨_, mid, _, _, _, _, _, _, hadmit, _, _, _, rfl⟩ := exec_admitRunIdempotently hexec
    obtain ⟨⟨e, henters⟩, _, grants, hgrants, hadmits⟩ := exec_admitRun hadmit
    have hrequest : (Request.admitRunIdempotently admission resolution evidence acquisition response
        now).Admits admission resolution evidence none := Or.inr (Or.inl ⟨_, _, _, rfl, rfl⟩)
    exact ⟨.single (.admitRun admission resolution evidence none grants hrequest hgrants hadmits.recorded),
      .admission admission resolution evidence none e hrequest (henters.frame rfl), nofun⟩

/-! ### What every commit keeps -/

theorem RunsWork.keeps {runs runs' : Table Run.id} (h : RunsWork runs runs') :
    runs.Keeps Run.Keep runs' := by
  intro id r hr
  obtain ⟨r', hr', hkeep, _⟩ := h.get hr
  exact ⟨r', hr', hkeep⟩

theorem Posts.grants_kept {entries : List Entry} (h : Posts entries s.accounts t.accounts) :
    s.grants.Keeps Eq t.grants :=
  fun _ g hg => ⟨g, h.grant_kept hg, rfl⟩

/-- When no reservation changes, none is closed. -/
theorem closed_locked_of_eq (h : t.reservations = s.reservations) :
    ∀ id r r', s.reservations.get id = some r → t.reservations.get id = some r' →
      r' ≠ r → .run r.childRunID ∈ held := by
  intro id r r' hr hr' hne
  rw [h, hr] at hr'
  exact absurd (Option.some.inj hr').symm hne

theorem Idles.keeps (h : Idles s t) : s.Keeps held t where
  runs := h.runs.keeps
  envelopes := .of_eq Envelope.Keep.refl h.store_eq.envelopes
  grants := .of_eq Eq.refl h.store_eq.grants
  reservations := .of_eq Reservation.Keep.refl h.store_eq.reservations
  usage := .of_eq Eq.refl h.store_eq.usage
  extensions := .of_eq Eq.refl h.store_eq.extensions
  settlements := .of_eq Eq.refl h.store_eq.settlements
  closed_locked := closed_locked_of_eq h.store_eq.reservations

variable {admission : RunAdmission} {grants : List RootResourceGrant}

theorem Admits.envelope_none {parent : Option ID}
    (h : Admits dep admission parent grants s t) :
    s.envelopes.get admission.envelopeID = none :=
  get_eq_none_iff.mpr fun e he => (h.envelope_fresh e he).1

theorem Admits.keeps {parent : Option ID}
    (h : Admits dep admission parent grants s t) : s.Keeps held t where
  runs := by
    rw [h.store_eq.runs]
    refine .of_put Run.Keep.refl fun old hold => ?_
    rw [show (admittedRun admission).id = admission.runID from rfl, h.run_fresh] at hold
    cases hold
  envelopes := by
    rw [h.store_eq.envelopes]
    refine .of_put Envelope.Keep.refl fun old hold => ?_
    rw [h.envelope_none] at hold
    cases hold
  grants := h.posts.grants_kept
  reservations := .of_eq Reservation.Keep.refl h.store_eq.reservations
  usage := .of_eq Eq.refl h.store_eq.usage
  extensions := .of_eq Eq.refl h.store_eq.extensions
  settlements := .of_eq Eq.refl h.store_eq.settlements
  closed_locked := closed_locked_of_eq h.store_eq.reservations

section Reserve

variable {reservation : ResourceReservation} {row : Reservation}

theorem Reserves.evidenced (h : Reserves dep reservation row s t) : Store.Evidenced { s with
    reservations := s.reservations.put row, grants := t.grants, balances := t.balances } t :=
  ⟨_, _, _, _, h.store_eq⟩

theorem Reserves.row_id (h : Reserves dep reservation row s t) : row.id = reservation.id := by
  obtain ⟨items, hrow⟩ := h.row_eq
  rw [hrow]
  rfl

theorem Reserves.row_none (h : Reserves dep reservation row s t) : s.reservations.get row.id = none := by
  rw [h.row_id]
  exact get_eq_none_iff.mpr fun x hx => (h.fresh x hx).1

/-- A reservation that was there is as it was. -/
theorem Reserves.get (h : Reserves dep reservation row s t) {id : ID} {r : Reservation}
    (hr : s.reservations.get id = some r) : t.reservations.get id = some r := by
  rw [h.evidenced.reservations, get_put_of_ne]
  · exact hr
  · rintro rfl
    rw [h.row_none] at hr
    cases hr

theorem Reserves.keeps (h : Reserves dep reservation row s t) : s.Keeps held t where
  runs := .of_eq Run.Keep.refl h.evidenced.runs
  envelopes := .of_eq Envelope.Keep.refl h.evidenced.envelopes
  grants := h.posts.grants_kept
  reservations id r hr := ⟨r, h.get hr, Reservation.Keep.refl r⟩
  usage := .of_eq Eq.refl h.evidenced.usage
  extensions := .of_eq Eq.refl h.evidenced.extensions
  settlements := .of_eq Eq.refl h.evidenced.settlements
  closed_locked id r r' hr hr' hne := by
    rw [h.get hr] at hr'
    exact absurd (Option.some.inj hr').symm hne

end Reserve

theorem Meters.usage_none {usage : TrustedUsage} {target : MeteringTarget}
    (h : Meters dep usage target s t) : s.usage.get usage.id = none :=
  get_eq_none_iff.mpr fun u hu => (h.fresh u hu).1

theorem Meters.keeps {usage : TrustedUsage} {target : MeteringTarget}
    (h : Meters dep usage target s t) : s.Keeps held t where
  runs := h.runs.keeps
  envelopes := .of_eq Envelope.Keep.refl h.store_eq.envelopes
  grants := .of_eq Eq.refl h.store_eq.grants
  reservations := .of_eq Reservation.Keep.refl h.store_eq.reservations
  usage := by
    rw [h.store_eq.usage]
    refine .of_put Eq.refl fun old hold => ?_
    rw [show (usageEntry target usage).id = usage.id from rfl, h.usage_none] at hold
    cases hold
  extensions := .of_eq Eq.refl h.store_eq.extensions
  settlements := .of_eq Eq.refl h.store_eq.settlements
  closed_locked := closed_locked_of_eq h.store_eq.reservations

section Extend

variable {extension : ResourceExtension} {row : Extension} {e : Envelope} {run run' : Run}

theorem Extends.row_id (h : Extends dep extension row e run run' s t) : row.id = extension.id := by
  rw [h.row_eq]
  rfl

theorem Extends.row_none (h : Extends dep extension row e run run' s t) :
    s.extensions.get row.id = none := by
  rw [h.row_id]
  exact get_eq_none_iff.mpr fun x hx => (h.fresh x hx).1

theorem Extends.run_get' (h : Extends dep extension row e run run' s t) :
    s.runs.get run'.id = some run := by
  have hid : run.id = extension.runID := key_of_get h.run_get
  rw [h.run_kept.1, hid]
  exact h.run_get

theorem Extends.keeps (h : Extends dep extension row e run run' s t) : s.Keeps held t where
  runs := by
    rw [h.store_eq.runs]
    refine .of_put Run.Keep.refl fun old hold => ?_
    have hsame : run = old := Option.some.inj (h.run_get'.symm.trans hold)
    subst hsame
    exact ⟨fun hterminal => by simp [h.run_active] at hterminal, h.run_kept.2⟩
  envelopes := by
    rw [h.store_eq.envelopes]
    refine .of_put Envelope.Keep.refl fun old hold => ?_
    have hsame : e = old := Option.some.inj (h.envelope.symm.trans hold)
    subst hsame
    rfl
  grants := .of_eq Eq.refl h.store_eq.grants
  reservations := .of_eq Reservation.Keep.refl h.store_eq.reservations
  usage := .of_eq Eq.refl h.store_eq.usage
  extensions := by
    rw [h.store_eq.extensions]
    refine .of_put Eq.refl fun old hold => ?_
    rw [h.row_none] at hold
    cases hold
  settlements := .of_eq Eq.refl h.store_eq.settlements
  closed_locked := closed_locked_of_eq h.store_eq.reservations

end Extend

section Close

variable {x : Settlement} {r r' : Reservation}

theorem Closes.row_id (h : Closes dep x r r' s t) : r'.id = x.reservationID := by
  have hid : r.id = x.reservationID := key_of_get h.reservation
  rw [h.row_eq]
  exact hid

theorem Closes.settlement_none (h : Closes dep x r r' s t) : s.settlements.get x.id = none :=
  get_eq_none_iff.mpr fun y hy => (h.fresh y hy).1

theorem Closes.keeps (h : Closes dep x r r' s t) (hlocked : .run r.childRunID ∈ held) :
    s.Keeps held t where
  runs := h.runs.keeps
  envelopes := .of_eq Envelope.Keep.refl h.store_eq.envelopes
  grants := .of_eq Eq.refl h.store_eq.grants
  reservations := by
    rw [h.store_eq.reservations]
    refine .of_put Reservation.Keep.refl fun old hold => ?_
    rw [h.row_id, h.reservation] at hold
    cases hold
    exact Or.inr ⟨h.opened, h.closed, h.row_eq⟩
  usage := .of_eq Eq.refl h.store_eq.usage
  extensions := .of_eq Eq.refl h.store_eq.extensions
  settlements := by
    rw [h.store_eq.settlements]
    refine .of_put Eq.refl fun old hold => ?_
    rw [h.settlement_none] at hold
    cases hold
  closed_locked id a b ha hb hne := by
    rw [h.store_eq.reservations, get_put] at hb
    split_ifs at hb with hid
    · rw [hid, h.row_id, h.reservation] at ha
      cases ha
      exact hlocked
    · rw [ha] at hb
      exact absurd (Option.some.inj hb).symm hne

end Close

theorem Moves.keeps {link : Option ID} (h : Moves dep request held s t link) : s.Keeps held t := by
  cases h with
  | idle h => exact h.keeps
  | admitRun _ _ _ _ _ _ _ h => exact h.keeps
  | reserve _ _ _ _ _ h => exact h.keeps
  | meter _ _ _ _ _ h => exact h.keeps
  | extend _ _ _ _ _ _ _ _ h => exact h.keeps
  | close _ _ _ h hlocked => exact h.keeps hlocked

/-- The two moves of a child admission. -/
theorem Delegates.moves {resolution : RunVersionResolution}
    {evidence : RunAdmissionEvidence}
    {requested reservation : ResourceReservation} {row : Reservation} {mid : Store}
    (h : Delegates dep admission grants reservation row s mid t) (held : List Lock)
    (hrequest : request = .admitChildRun admission resolution evidence requested)
    (hgrants : admissionGrants dep admission resolution evidence = .ok grants)
    (hvalid : validateAndSortResourceReservation requested = .ok reservation) :
    Moves dep request held s mid (some reservation.parentEnvelopeID) ∧
      Moves dep request held mid t none := by
  have hparent := (validateAndSort_spec hvalid).2.2.1
  refine ⟨.admitRun admission resolution evidence _ grants
    (Or.inr (Or.inr ⟨requested, hrequest, ?_⟩)) hgrants
    h.admits, .reserve requested reservation row (Or.inr ⟨_, _, _, hrequest⟩) hvalid h.reserves⟩
  rw [hparent]

variable {R : Store → Store → Prop}

/-- A relation that moves establish and that composes is established by every commit. -/
theorem Transition.relates
    (hmoves : ∀ s t link, Moves dep request held s t link → R s t)
    (htrans : ∀ s t u, R s t → R t u → R s u) (h : Transition dep request held s t) : R s t := by
  cases h with
  | single h => exact hmoves _ _ _ h
  | delegate admission resolution evidence grants requested reservation row mid hrequest hgrants
      hvalid h =>
    obtain ⟨hadmits, hreserves⟩ := h.moves held hrequest hgrants hvalid
    exact htrans s mid t (hmoves _ _ _ hadmits) (hmoves _ _ _ hreserves)

theorem Transition.keeps (h : Transition dep request held s t) : s.Keeps held t :=
  h.relates (fun _ _ _ hmove => hmove.keeps) fun _ _ _ => Store.Keeps.trans

/-- The governor's transactions keep to their locks and to what commits keep. -/
theorem disciplined_program (dep : Deployment) : storeEngine.Disciplined (program dep) where
  wellLocked := wellLocked_program dep
  promise _ _ _ _ _ h := (exec_program h).1.keeps

variable {governor : Governor}

/-- The commits of a reachable governor are a serial history of transitions. -/
theorem Reachable.history (h : Reachable dep governor) :
    storeEngine.History (program dep) Store.empty governor.log governor.committed :=
  Engine.Reaches.history (disciplined_program dep) h

theorem commits_transition
    (h : Serves dep request response s t) :
    ∃ held, Transition dep request held s t := by
  obtain ⟨held, hexec⟩ := h
  exact ⟨held, (exec_program hexec).1⟩

theorem commits_journals (h : Serves dep request response s t) :
    Journals dep request response s t := by
  obtain ⟨_, hexec⟩ := h
  exact (exec_program hexec).2.1

theorem desk_of_commits (h : Serves dep request response s t) (hdesk : request.desk = false) :
    t.desk = s.desk := by
  obtain ⟨_, hexec⟩ := h
  exact (exec_program hexec).2.2 hdesk

variable {P : Store → Prop}

/-- A property of the empty tenant that every commit keeps holds of every reachable tenant. -/
theorem Reachable.always (hempty : P Store.empty)
    (htransition : ∀ request held s t, Transition dep request held s t → P s → P t)
    (h : Reachable dep governor) :
    P governor.committed ∧ ∀ c ∈ governor.log, P c.before ∧ P c.after ∧
      storeEngine.Commits (program dep) c.request c.response c.before c.after := by
  refine h.history.invariant hempty fun request response s t hcommit => ?_
  obtain ⟨held, h⟩ := commits_transition hcommit
  exact htransition request held s t h

theorem Reachable.commits (h : Reachable dep governor)
    {c : StoreCommit} (hc : c ∈ governor.log) :
    storeEngine.Commits (program dep) c.request c.response c.before c.after :=
  h.history.commits hc

/-- A property of the empty tenant that every move keeps holds of every reachable tenant. -/
theorem Reachable.invariant (hempty : P Store.empty)
    (hmoves : ∀ request held s t link, Moves dep request held s t link → P s → P t)
    (h : Reachable dep governor) :
    P governor.committed ∧ ∀ c ∈ governor.log, P c.before ∧ P c.after ∧
      storeEngine.Commits (program dep) c.request c.response c.before c.after :=
  h.always hempty fun request held _ _ htransition =>
    htransition.relates (R := fun s t => P s → P t) (hmoves request held)
      fun _ _ _ hst htu hs => htu (hst hs)

/-- The later governors. -/
abbrev Later (dep : Deployment) : Governor → Governor → Prop := storeEngine.Later (program dep)

variable {governor' : Governor}

theorem Reachable.later (h : Reachable dep governor)
    (hlater : Later dep governor governor') : Reachable dep governor' :=
  Relation.ReflTransGen.trans h hlater

/-- A preorder that every commit respects relates a tenant to the later ones. -/
theorem Reachable.relates (hrefl : ∀ s, R s s)
    (htrans : ∀ s t u, R s t → R t u → R s u)
    (htransition : ∀ request held s t, Transition dep request held s t → R s t)
    (h : Reachable dep governor)
    (hlater : Later dep governor governor') : R governor.committed governor'.committed := by
  refine Engine.Reaches.relates (disciplined_program dep) hrefl htrans ?_ h hlater
  intro request response s t hcommit
  obtain ⟨held, hc⟩ := commits_transition hcommit
  exact htransition request held s t hc

/-- The rows that record an accepted call are kept for good. -/
structure Store.Records (s t : Store) : Prop where
  usage : s.usage.Keeps Eq t.usage
  extensions : s.extensions.Keeps Eq t.extensions
  settlements : s.settlements.Keeps Eq t.settlements

theorem Store.Records.refl (s : Store) : s.Records s :=
  ⟨.refl Eq.refl _, .refl Eq.refl _, .refl Eq.refl _⟩

theorem Store.Records.trans {u : Store} (h : s.Records t) (h' : t.Records u) : s.Records u :=
  ⟨h.usage.trans Eq.trans h'.usage,
    h.extensions.trans Eq.trans h'.extensions,
    h.settlements.trans Eq.trans h'.settlements⟩

/-- A call that started after some point, and that can only answer in one way once what was recorded at
that point is there, answers in that way. -/
theorem Reachable.answers {Q : Except Failure Response → Prop}
    (h : Reachable dep governor) (hlater : Later dep governor governor')
    {i : Nat} (hidle : governor.sessions i = none)
    (hP : ∀ mid, Reachable dep mid → governor.committed.Records mid.committed →
      mid.committed.Records governor'.committed → P mid.committed)
    {session : Session Store Lock Write Failure Response Request}
    (hsession : governor'.sessions i = some session)
    (hbody : (program dep session.request).Concludes P Q) : session.Answers Q := by
  have hrecords : ∀ {first last : Governor}, Reachable dep first → Later dep first last →
      first.committed.Records last.committed := fun hfrom hto =>
    hfrom.relates Store.Records.refl (fun _ _ _ => Store.Records.trans)
      (fun _ _ _ _ hc => ⟨hc.keeps.usage, hc.keeps.extensions, hc.keeps.settlements⟩) hto
  refine answers_of_later hidle hbody hlater (fun mid hmid hrest => ?_) hsession rfl
  exact hP mid (h.later hmid) (hrecords h hmid) (hrecords (h.later hmid) hrest)

/-- A transitive relation that every commit establishes holds between each commit of a reachable
governor and its tenant. -/
theorem Reachable.since (hrefl : ∀ s, R s s)
    (htrans : ∀ s t u, R s t → R t u → R s u)
    (htransition : ∀ request held s t, Transition dep request held s t → R s t)
    (h : Reachable dep governor) :
    ∀ c ∈ governor.log, R c.after governor.committed := by
  refine h.history.since hrefl htrans fun c hc => ?_
  obtain ⟨held, hc⟩ := commits_transition (h.commits hc)
  exact htransition _ held _ _ hc

end AgentGovernor
