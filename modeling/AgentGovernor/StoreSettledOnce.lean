import AgentGovernor.StoreBalance

/-! Settlement happens once. One commit closes a reservation, moves the balances of its parent and adds
its settlement; the reservation stays as that commit left it, and every later call for it answers from
the settlement or is rejected. -/

namespace AgentGovernor

open Ledger Table Transaction Engine Sample

variable {held : List Lock} {s t : Store} {dep : Deployment} {request : Request} {link : Option ID}

/-! ### The digest of a settlement -/

/-- The identifier comes first in the material and has a fixed length. -/
theorem resourceSettlementDigest_reservation (hsha : Function.Injective dep.sha256) {id id' : ID}
    {state state' : RunState} {ids ids' : List ID}
    (h : resourceSettlementDigest dep id state ids = resourceSettlementDigest dep id' state' ids') :
    id = id' := by
  have hmaterial := congrArg String.toList (Deployment.digest_injective hsha h)
  simp only [settlementMaterial, String.toList_append, List.append_assoc] at hmaterial
  obtain ⟨hid, _⟩ := List.append_inj hmaterial
    (by rw [ID.string_toList_length, ID.string_toList_length])
  exact ID.string_injective (String.toList_inj.mp hid)

/-- The digest of a settlement names its reservation. -/
def Digested (dep : Deployment) (s : Store) : Prop :=
  ∀ x ∈ s.settlements.rows, ∃ state ids,
    x.contentDigest = resourceSettlementDigest dep x.reservationID state ids

theorem Digested.moves (hs : Digested dep s) (h : Moves dep request held s t link) : Digested dep t := by
  intro x hx
  rcases h.settlement_origin (get_of_mem hx) with hold | ⟨_, r, r', hcloses⟩
  · exact hs x (mem_of_get hold)
  · exact hcloses.digest

variable {governor : Governor}

theorem Reachable.digested (h : Reachable dep governor) :
    Digested dep governor.committed ∧ ∀ c ∈ governor.log, Digested dep c.before ∧ Digested dep c.after ∧
      storeEngine.Commits (program dep) c.request c.response c.before c.after :=
  h.invariant (fun _ hx => absurd hx List.not_mem_nil) fun _ _ _ _ _ hmove hs => hs.moves hmove

variable {x y : Settlement}

theorem Settled.settlement_unique (hs : Settled s) (hx : x ∈ s.settlements.rows)
    (hy : y ∈ s.settlements.rows) (h : x.reservationID = y.reservationID) : x = y := by
  have hid := hs.unique x.id y.id x y (get_of_mem hx) (get_of_mem hy) (Or.inl h)
  have hget := get_of_mem hx
  rw [hid, get_of_mem hy] at hget
  exact (Option.some.inj hget).symm

variable {settlement : ResourceSettlement}

/-- A settlement with the digest of a command for its reservation is the settlement of it. -/
theorem Digested.eq_of_digest (hs : Digested dep s) (hsettled : Settled s)
    (hsha : Function.Injective dep.sha256) (hx : x ∈ s.settlements.rows)
    (hy : y ∈ s.settlements.rows)
    (hreservation : settlement.reservationID = x.reservationID)
    (hdigest : y.contentDigest = settlement.digest dep) : y = x := by
  obtain ⟨state, ids, hcontent⟩ := hs y hy
  rw [hcontent] at hdigest
  exact hsettled.settlement_unique hy hx
    ((resourceSettlementDigest_reservation hsha hdigest).trans hreservation)

/-! ### The commit that settles -/

theorem Transition.settlement_origin (h : Transition dep request held s t)
    (hx : x ∈ t.settlements.rows) : x ∈ s.settlements.rows ∨ ∃ r r', Closes dep x r r' s t := by
  cases h with
  | single h =>
    rcases h.settlement_origin (get_of_mem hx) with hold | ⟨_, r, r', hcloses⟩
    · exact Or.inl (mem_of_get hold)
    · exact Or.inr ⟨r, r', hcloses⟩
  | delegate _ _ _ _ _ _ _ mid _ _ _ h =>
    rw [h.reserves.evidenced.settlements, h.admits.store_eq.settlements] at hx
    exact Or.inl hx

/-- The commit closes the open reservation of the settlement, adds the settlement, and moves the balances
of the parent by it and no other balance. -/
structure SettledBy (c : Commit Store Response Request) (x : Settlement) : Prop where
  fresh : ∀ y ∈ c.before.settlements.rows, y.reservationID ≠ x.reservationID
  added : c.after.settlements = c.before.settlements.put x
  moved : ∃ r r', c.before.reservations.get x.reservationID = some r ∧ r.state = .opened ∧
    c.after.reservations.get x.reservationID = some r' ∧ r'.state ≠ .opened ∧
    ∀ e d, c.after.accounts.available e d = c.before.accounts.available e d +
        (if r.parentEnvelopeID = e then x.returned d else 0) ∧
      c.after.accounts.directConsumed e d = c.before.accounts.directConsumed e d +
        (if r.parentEnvelopeID = e then x.consumed d else 0) ∧
      c.after.accounts.allocatedOpen e d = c.before.accounts.allocatedOpen e d -
        (if r.parentEnvelopeID = e then r.reserved d else 0)

theorem Closes.settledBy {c : StoreCommit} {r r' : Reservation}
    (h : Closes dep x r r' c.before c.after) (hdelegated : Delegated dep c.before) : SettledBy c x where
  fresh y hy := (h.fresh y hy).2.1
  added := h.store_eq.settlements
  moved := by
    have hclosed : c.after.reservations.get x.reservationID = some r' := by
      rw [h.store_eq.reservations, ← h.row_id, get_put_self]
    refine ⟨r, r', h.reservation, h.opened, hclosed, h.closed, fun e d => ?_⟩
    obtain ⟨_, havailable, hdirect, hallocated⟩ := h.posts.terms e d
    rw [Settlement.entries, posted_moves] at havailable hdirect hallocated
    have hsum := h.allocated_sum hdelegated d
    refine ⟨havailable, hdirect, ?_⟩
    rw [hallocated, hsum]
    split_ifs <;> omega

/-- One commit settles the reservation; the others add no settlement of it. -/
theorem Reachable.settled_once (h : Reachable dep governor)
    (hx : x ∈ governor.committed.settlements.rows) :
    ∃ log₁ c log₂, governor.log = log₁ ++ c :: log₂ ∧ SettledBy c x ∧
      ∀ c' ∈ log₁ ++ log₂, ∀ y ∈ c'.after.settlements.rows, y.reservationID = x.reservationID →
        y ∈ c'.before.settlements.rows := by
  obtain ⟨hsound, hcommits⟩ := h.sound
  have hsettles : ∀ c ∈ governor.log, ∀ y ∈ c.after.settlements.rows,
      y ∉ c.before.settlements.rows → SettledBy c y := by
    intro c hc y hy hnew
    obtain ⟨held, htransition⟩ := commits_transition (hcommits c hc).2.2
    obtain ⟨r, r', hcloses⟩ := (htransition.settlement_origin hy).resolve_left hnew
    exact hcloses.settledBy (hcommits c hc).1.delegated
  obtain ⟨log₁, c, log₂, hlog, hbefore, hafter, hothers⟩ := h.history.once Store.settlements
    (fun y x => y.reservationID = x.reservationID) rfl
    (fun c hc => (commits_transition (hcommits c hc).2.2).elim fun _ ht => ht.keeps.settlements)
    (fun x hx y hy => hsound.settled.settlement_unique hy hx)
    (fun c hc y hy hnew z hz hsame => (hsettles c hc y hy hnew).fresh z hz hsame.symm) hx
  exact ⟨log₁, c, log₂, hlog, hsettles c (by simp [hlog]) x hafter hbefore, hothers⟩

/-- A closed reservation stays as it is. -/
theorem Transition.closed_kept (h : Transition dep request held s t) {id : ID} {r : Reservation}
    (hr : s.reservations.get id = some r) (hclosed : r.state ≠ .opened) :
    t.reservations.get id = some r := by
  obtain ⟨r', hr', hkeep⟩ := h.keeps.reservations _ _ hr
  rcases hkeep with rfl | ⟨hopened, _⟩
  · exact hr'
  · exact absurd hopened hclosed

/-! ### Later calls -/

/-- What a stored settlement answers. -/
def Settlement.answer (dep : Deployment) (x : Settlement) : ResourceSettlementResult :=
  settlementResult dep x (.ofStored x.settledAt) true

/-- No settlement of another reservation is stored under the key of the command's actor. -/
def KeyFree (s : Store) (settlement : ResourceSettlement) : Prop :=
  ∀ y ∈ s.settlements.rows, y.actorPrincipalID = settlement.actorPrincipalID →
    y.idempotencyKey = settlement.idempotencyKey → y.reservationID = settlement.reservationID

/-- The command has the digest of a settlement of another reservation. -/
def Collides (dep : Deployment) (s : Store) (settlement : ResourceSettlement) : Prop :=
  ∃ y ∈ s.settlements.rows, y.reservationID ≠ settlement.reservationID ∧
    y.contentDigest = settlement.digest dep

/-- How a command for a settled reservation ends: the settlement answers if the digests are the same, and
the command is rejected if they are not or if its actor has used the key. -/
def SettledOutcome (dep : Deployment) (x : Settlement) (s : Store) (settlement : ResourceSettlement)
    (outcome : Except Failure ResourceSettlementResult) : Prop :=
  (settlement.digest dep = x.contentDigest ∧ outcome = .ok (x.answer dep)) ∨
    ((settlement.digest dep ≠ x.contentDigest ∨ ¬KeyFree s settlement) ∧
      ((∃ message, outcome = .error (conflict message)) ∨ Collides dep s settlement))

/-- The databases from a settlement on, up to one. -/
structure Holds (x : Settlement) (final s : Store) : Prop where
  settled : Settled s
  stored : x ∈ s.settlements.rows
  kept : s.settlements.Keeps Eq final.settlements

theorem Holds.mem {final : Store} (h : Holds x final s)
    (hy : y ∈ s.settlements.rows) : y ∈ final.settlements.rows := by
  obtain ⟨y', hy', rfl⟩ := h.kept _ _ (get_of_mem hy)
  exact mem_of_get hy'

section Replay

variable {x : Settlement} {final : Store} {candidate settlement : ResourceSettlement}
  {evidence : ResourceSettlementEvidence}

theorem concludes_loadSettlementResult (hdigest : settlement.digest dep = x.contentDigest) :
    (loadSettlementResult dep x.id (.ofStored x.settledAt) true).Concludes (Holds x final)
      (SettledOutcome dep x final settlement) := by
  refine Tx.Concludes.lock (fun s hs => ⟨x, get_of_mem hs.stored, rfl⟩) fun r hr => ?_
  subst hr
  exact Or.inl ⟨hdigest, rfl⟩

/-- The reservation is closed, and its settlement is the one that is found. -/
theorem concludes_settleFresh (hreservation : settlement.reservationID = x.reservationID) :
    (settleFresh dep settlement evidence).Concludes (Holds x final)
      (SettledOutcome dep x final settlement) := by
  refine Tx.Concludes.bind (R := fun r => ∃ row : Reservation, r = .ok row ∧ row.state ≠ .opened)
    (Tx.Concludes.lock (W := fun row => row.state ≠ .opened) (fun s hs => ?_) fun row hrow =>
      ⟨row, rfl, hrow⟩) (fun row hrow => ?_) fun e he => by obtain ⟨_, he, _⟩ := he; cases he
  · obtain ⟨r, hr, hclosed, _⟩ := hs.settled.reservation _ x (get_of_mem hs.stored)
    exact ⟨r, hreservation ▸ hr, hclosed⟩
  · obtain ⟨_, hok, hclosed⟩ := hrow
    cases hok
    rw [if_pos hclosed]
    refine Tx.Concludes.snapshot fun s hs => ?_
    have hfound : s.settlements.rows.find? (·.reservationID = settlement.reservationID) = some x := by
      cases hfind : s.settlements.rows.find? (·.reservationID = settlement.reservationID) with
      | none => simpa [hreservation] using List.find?_eq_none.mp hfind x hs.stored
      | some y =>
        have hy : y.reservationID = settlement.reservationID := by simpa using List.find?_some hfind
        rw [hs.settled.settlement_unique (List.mem_of_find?_eq_some hfind) hs.stored
          (hy.trans hreservation)]
    refine Tx.Concludes.orThrow (fun y hy => ?_) fun hnone => by rw [hfound] at hnone; cases hnone
    cases hfound.symm.trans hy
    refine Tx.Concludes.require (fun hdigest => ?_) fun hdigest => ?_
    · exact concludes_loadSettlementResult hdigest.symm
    · exact Or.inr ⟨Or.inl (Ne.symm hdigest), Or.inl ⟨_, rfl⟩⟩

theorem concludes_settleReservation (hvalid : validateResourceSettlement candidate = .ok settlement)
    (hscope : settlement.tenantID = dep.tenantID ∧ evidence.valid = true)
    (hreservation : settlement.reservationID = x.reservationID) :
    (settleReservation dep candidate evidence).Concludes (Holds x final)
      (SettledOutcome dep x final settlement) := by
  refine Tx.Concludes.ofExcept (fun _ hok => ?_) fun e he => by rw [hvalid] at he; cases he
  cases hvalid.symm.trans hok
  refine Tx.Concludes.require (fun _ => ?_) fun hinvalid => absurd hscope hinvalid
  refine Tx.Concludes.acquire (Tx.Concludes.snapshot fun s hs => ?_)
  split
  · rename_i y hfind
    have hmem := List.mem_of_find?_eq_some hfind
    have hkey : y.actorPrincipalID = settlement.actorPrincipalID ∧
        y.idempotencyKey = settlement.idempotencyKey := by simpa using List.find?_some hfind
    by_cases hown : y.reservationID = settlement.reservationID
    · cases hs.settled.settlement_unique hmem hs.stored (hown.trans hreservation)
      refine Tx.Concludes.require (fun hdigest => ?_) fun hdigest => ?_
      · exact concludes_loadSettlementResult hdigest.symm
      · exact Or.inr ⟨Or.inl (Ne.symm hdigest), Or.inl ⟨_, rfl⟩⟩
    · -- The key stands for the settlement of another reservation.
      have hused : ¬KeyFree final settlement := fun hfree =>
        hown (hfree y (hs.mem hmem) hkey.1 hkey.2)
      refine Tx.Concludes.require (fun hdigest => ?_) fun hdigest => ?_
      · exact Tx.Concludes.select fun _ _ =>
          Or.inr ⟨Or.inr hused, Or.inr ⟨y, hs.mem hmem, hown, hdigest⟩⟩
      · exact Or.inr ⟨Or.inr hused, Or.inl ⟨_, rfl⟩⟩
  · exact concludes_settleFresh hreservation

end Replay

theorem Digested.not_collides (hs : Digested dep s) (hsha : Function.Injective dep.sha256) :
    ¬Collides dep s settlement := by
  rintro ⟨y, hy, hne, hdigest⟩
  obtain ⟨state, ids, hcontent⟩ := hs y hy
  rw [hcontent] at hdigest
  exact hne (resourceSettlementDigest_reservation hsha hdigest)

/-- What a call that started after the settlement, and that is for its reservation, can answer. -/
theorem Reachable.settlement_answers {governor' : Governor} (h : Reachable dep governor)
    (hx : x ∈ governor.committed.settlements.rows)
    (hlater : Later dep governor governor') {i : Nat} (hidle : governor.sessions i = none)
    {session : Session Store Lock Write Failure Response Request}
    (hsession : governor'.sessions i = some session) {candidate : ResourceSettlement}
    {evidence : ResourceSettlementEvidence}
    (hrequest : session.request = .settleReservation candidate evidence)
    (hvalid : validateResourceSettlement candidate = .ok settlement)
    (hscope : settlement.tenantID = dep.tenantID ∧ evidence.valid = true)
    (hreservation : settlement.reservationID = x.reservationID) :
    session.Answers fun outcome => ∃ result,
      SettledOutcome dep x governor'.committed settlement result ∧ outcome = result.map .settled := by
  refine h.answers (P := Holds x governor'.committed) hlater hidle (fun mid hmid hfrom hto => ?_)
    hsession ?_
  · obtain ⟨x', hx', rfl⟩ := hfrom.settlements _ _ (get_of_mem hx)
    exact ⟨hmid.sound.1.settled, mem_of_get hx', hto.settlements⟩
  · rw [hrequest]
    exact (concludes_settleReservation hvalid hscope hreservation).bind
      (fun result hresult => ⟨_, hresult, rfl⟩) fun e he => ⟨_, he, rfl⟩

/-- A call that started after the settlement, and that is for its reservation, writes nothing. It answers
with the stored amounts if the digests are the same, unless its actor has used the key for another
reservation; it is rejected if the digests are not the same. -/
def LaterSettlesAnswer (dep : Deployment) (governor : Governor) (x : Settlement) : Prop :=
  ∀ (governor' : Governor) (i : Nat) (session : Session Store Lock Write Failure Response Request)
    (candidate settlement : ResourceSettlement) (evidence : ResourceSettlementEvidence),
    Later dep governor governor' → governor.sessions i = none → governor'.sessions i = some session →
    session.request = .settleReservation candidate evidence →
    validateResourceSettlement candidate = .ok settlement →
    settlement.tenantID = dep.tenantID ∧ evidence.valid = true →
    settlement.reservationID = x.reservationID →
    session.buffer = [] ∧
    (settlement.digest dep = x.contentDigest → KeyFree governor'.committed settlement →
      session.Answers (· = .ok (.settled (x.answer dep)))) ∧
    (Function.Injective dep.sha256 → settlement.digest dep ≠ x.contentDigest →
      session.Answers fun outcome => ∃ message, outcome = .error (conflict message))

theorem Reachable.laterSettlesAnswer (h : Reachable dep governor)
    (hx : x ∈ governor.committed.settlements.rows) : LaterSettlesAnswer dep governor x := by
  intro governor' i session candidate settlement evidence hlater hidle hsession hrequest hvalid hscope
    hreservation
  have hanswers := h.settlement_answers hx hlater hidle hsession hrequest hvalid hscope hreservation
  refine ⟨hanswers.buffer, fun hdigest hfree => hanswers.mono ?_, fun hsha hdigest => hanswers.mono ?_⟩
  · rintro _ ⟨result, ⟨_, rfl⟩ | ⟨hdifferent | hused, _⟩, rfl⟩
    · rfl
    · exact absurd hdigest hdifferent
    · exact absurd hfree hused
  · rintro _ ⟨result, ⟨hsame, _⟩ | ⟨_, ⟨message, rfl⟩ | hcollides⟩, rfl⟩
    · exact absurd hsame hdigest
    · exact ⟨message, rfl⟩
    · exact absurd hcollides ((h.later hlater).digested.1.not_collides hsha)

/-- A settlement that commits for a settled reservation changes nothing and returns the stored amounts,
and it has the same digest. -/
theorem commits_settled_replay (hsha : Function.Injective dep.sha256) {candidate : ResourceSettlement}
    {evidence : ResourceSettlementEvidence} {response : Response}
    (h : storeEngine.Commits (program dep) (.settleReservation candidate evidence) response s t)
    (hsettled : Settled s) (hdigested : Digested dep s)
    (hx : x ∈ s.settlements.rows) (hreservation : candidate.reservationID = x.reservationID) :
    t = s ∧ response = .settled (x.answer dep) ∧
      ∃ settlement, validateResourceSettlement candidate = .ok settlement ∧
        settlement.digest dep = x.contentDigest := by
  obtain ⟨held, hexec⟩ := h
  obtain ⟨result, hsettle, rfl⟩ := exec_respond hexec
  obtain ⟨settlement, hvalid, hreplay | ⟨items, r, r', hcloses, _⟩⟩ := exec_settleReservation hsettle
  · obtain ⟨rfl, y, hy, hdigest, rfl, _⟩ := hreplay
    have hsame : settlement.reservationID = x.reservationID :=
      (validateResourceSettlement_spec hvalid).2.2.1.trans hreservation
    have hyx := hdigested.eq_of_digest hsettled hsha hx hy hsame hdigest
    subst hyx
    exact ⟨rfl, rfl, settlement, hvalid, hdigest.symm⟩
  · refine absurd ?_ (hcloses.fresh x hx).2.1
    exact hreservation.symm.trans (validateResourceSettlement_spec hvalid).2.2.1.symm

/-! ### The main result -/

/-- No reservation has two settlements; one commit settles each, and it alone moves the balances of the
parent for it; a closed reservation stays as it was closed; and later calls for a settled reservation,
those that commit as well as those under way, change nothing and answer from its settlement. -/
theorem settlement_exactly_once {governor : Governor} (h : Reachable dep governor) :
    (∀ x ∈ governor.committed.settlements.rows, ∀ y ∈ governor.committed.settlements.rows,
      x.reservationID = y.reservationID → x = y) ∧
    (∀ x ∈ governor.committed.settlements.rows, ∃ log₁ c log₂, governor.log = log₁ ++ c :: log₂ ∧
      SettledBy c x ∧ ∀ c' ∈ log₁ ++ log₂, ∀ y ∈ c'.after.settlements.rows,
        y.reservationID = x.reservationID → y ∈ c'.before.settlements.rows) ∧
    (∀ c ∈ governor.log, ∀ id r, c.after.reservations.get id = some r → r.state ≠ .opened →
      governor.committed.reservations.get id = some r) ∧
    (∀ x ∈ governor.committed.settlements.rows, LaterSettlesAnswer dep governor x) ∧
    (Function.Injective dep.sha256 → ∀ c ∈ governor.log, ∀ candidate evidence,
      c.request = .settleReservation candidate evidence →
      ∀ x ∈ c.before.settlements.rows, candidate.reservationID = x.reservationID →
      c.after = c.before ∧ c.response = .settled (x.answer dep) ∧
        ∃ settlement, validateResourceSettlement candidate = .ok settlement ∧
          settlement.digest dep = x.contentDigest) := by
  refine ⟨fun x hx y hy => h.sound.1.settled.settlement_unique hx hy, fun x hx => h.settled_once hx, ?_,
    fun x hx => h.laterSettlesAnswer hx, fun hsha c hc candidate evidence hrequest x hx => ?_⟩
  · exact h.since (R := fun s t => ∀ id r, s.reservations.get id = some r → r.state ≠ .opened →
        t.reservations.get id = some r) (fun _ _ _ hr _ => hr)
      (fun _ _ _ hst htu id r hr hclosed => htu id r (hst id r hr hclosed) hclosed)
      fun _ _ _ _ hc id r hr hclosed => hc.closed_kept hr hclosed
  · obtain ⟨hbefore, _, hcommit⟩ := h.sound.2 c hc
    rw [hrequest] at hcommit
    exact commits_settled_replay hsha hcommit hbefore.settled (h.digested.2 c hc).1 hx

/-- Two children are settled, each under a key of its own. -/
def Sample.twice : List Request :=
  provision ++ [admitRoot 100 (("max_tool_calls", .int 10) :: limits)] ++ start 100 ++
    [admitChild 200 100 limits 5] ++ start 200 ++ [complete 200, settle 600 200 "first",
    admitChild 300 100 limits 3] ++ start 300 ++ [meter 300 500, complete 300, settle 640 300 "second"]

/-- The content of the second settlement under the key of the first. -/
def Sample.repeated : ResourceSettlement :=
  ⟨.ofNat 700, .ofNat 1, .ofNat 306, .ofNat 7, .ofNat 5, "first", .completed, [], instant 310⟩

def Sample.repeatedEvidence : ResourceSettlementEvidence :=
  ⟨.ofNat 701, .ofNat 702, .ofNat 703, ["done"]⟩

theorem Sample.repeated_valid :
    validateResourceSettlement repeated = .ok repeated ∧
      repeated.reservationID = .ofNat 306 := by
  decide +kernel

theorem Sample.twice_evaluated : ∃ x ∈ (after twice).committed.settlements.rows,
    (x.id, x.reservationID, x.consumed (.ofNat 11), x.returned (.ofNat 11)) =
      (.ofNat 640, .ofNat 306, 2, 1) ∧
    repeated.digest deployment = x.contentDigest ∧
    (storeEngine.run (program deployment (.settleReservation repeated
      repeatedEvidence)) (after twice).committed).map (·.1) =
        .error (conflict "settlement idempotency key was reused with different content") := by
  decide +kernel

theorem settlement_exactly_once_twice : ∃ x, ∃ log₁ c log₂,
    (x.consumed (.ofNat 11), x.returned (.ofNat 11)) = (2, 1) ∧
    (after twice).log = log₁ ++ c :: log₂ ∧ SettledBy c x := by
  obtain ⟨x, hx, hvalues, _⟩ := twice_evaluated
  obtain ⟨log₁, c, log₂, hlog, hsettled, _⟩ :=
    (settlement_exactly_once (reachable twice)).2.1 x hx
  simp only [Prod.mk.injEq] at hvalues
  exact ⟨x, log₁, c, log₂, Prod.ext hvalues.2.2.1 hvalues.2.2.2, hlog, hsettled⟩

/-- The content of a settlement, resubmitted under a key of the actor that stands for another, is
rejected. -/
theorem settled_content_rejected : ∃ governor x settlement evidence message,
    Reachable deployment governor ∧ x ∈ governor.committed.settlements.rows ∧
      validateResourceSettlement settlement = .ok settlement ∧
      settlement.reservationID = x.reservationID ∧
      settlement.digest deployment = x.contentDigest ∧
      (storeEngine.run (program deployment (.settleReservation settlement evidence))
        governor.committed).map (·.1) = .error (conflict message) := by
  obtain ⟨x, hx, hvalues, hdigest, hrun⟩ := twice_evaluated
  obtain ⟨hvalid, hreservation⟩ := repeated_valid
  simp only [Prod.mk.injEq] at hvalues
  exact ⟨_, x, repeated, _, _, reachable twice, hx, hvalid,
    hreservation.trans hvalues.2.1.symm, hdigest, hrun⟩

end AgentGovernor
