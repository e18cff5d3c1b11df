import AgentGovernor.StoreInvariant

/-! The balance rows against the ledger. In every reachable tenant the open allocation of an account is
what its open children reserve, its consumption is what was metered and what settled children consumed,
and the three terms add up to the grant and its extensions. -/

namespace AgentGovernor

open Ledger Table Transaction List

variable {held : List Lock} {s t : Store} {dep : Deployment} {request : Request}
  {link : Option ID}

/-! ### The ledger's side of the equations -/

/-- What the open reservations of an envelope hold of a dimension. -/
def openReserved (s : Store) (e d : ID) : Int :=
  s.reservations.total fun r => if r.parentEnvelopeID = e ∧ r.state = .opened then r.reserved d else 0

/-- What was metered against an account. -/
def metered (s : Store) (e d : ID) : Int :=
  s.usage.total fun u => if u.envelopeID = e ∧ u.dimensionID = d then u.quantityValue else 0

/-- What a settlement charges to an account: its consumption, if its reservation is a closed one of the
envelope. -/
def settledBy (s : Store) (e d : ID) (x : Settlement) : Int :=
  (s.reservations.get x.reservationID).elim 0 fun r =>
    if r.parentEnvelopeID = e ∧ r.state ≠ .opened then x.consumed d else 0

/-- What the closed reservations of an envelope consumed of a dimension. -/
def settledConsumption (s : Store) (e d : ID) : Int := s.settlements.total (settledBy s e d)

/-- The balance rows as the ledger determines them. -/
structure Balanced (s : Store) : Prop where
  allocated : ∀ e d, s.accounts.allocatedOpen e d = openReserved s e d
  consumed : ∀ e d, s.accounts.directConsumed e d = metered s e d + settledConsumption s e d
  conserved : ∀ e d, s.accounts.available e d + s.accounts.directConsumed e d +
    s.accounts.allocatedOpen e d = s.accounts.granted e d + extendedValue s e d

theorem Balanced.empty : Balanced Store.empty := by
  constructor <;> intros <;> rfl

/-- What a move adds to the ledger's sums is what it posts to the terms. -/
structure Agrees (entries : List Entry) (s t : Store) : Prop where
  allocated : ∀ e d, openReserved t e d = openReserved s e d + posted (·.2.2.2) entries e d
  consumed : ∀ e d, metered t e d + settledConsumption t e d =
    metered s e d + settledConsumption s e d + posted (·.2.2.1) entries e d
  extended : ∀ e d, extendedValue t e d + posted (·.1) entries e d =
    extendedValue s e d + posted (·.2.1) entries e d + posted (·.2.2.1) entries e d +
      posted (·.2.2.2) entries e d

variable {entries : List Entry}

theorem Balanced.posts (hs : Balanced s)
    (hposts : Posts entries s.accounts t.accounts) (hagrees : Agrees entries s t) : Balanced t := by
  refine ⟨fun e d => ?_, fun e d => ?_, fun e d => ?_⟩ <;>
    obtain ⟨hgranted, havailable, hdirect, hallocated⟩ := hposts.terms e d
  · have h := hs.allocated e d
    have h' := hagrees.allocated e d
    omega
  · have h := hs.consumed e d
    have h' := hagrees.consumed e d
    omega
  · have h := hs.conserved e d
    have h' := hagrees.extended e d
    omega

/-! ### The ledger under each move -/

variable {x : Settlement}

/-- A settlement charges what it did: its closed reservation stays. -/
theorem Moves.settledBy_eq (h : Moves dep request held s t link) (hs : Settled s)
    (hx : x ∈ s.settlements.rows) (e d : ID) : settledBy t e d x = settledBy s e d x := by
  obtain ⟨r, hr, hclosed, _⟩ := hs.reservation _ x (get_of_mem hx)
  obtain ⟨r', hr', hkeep⟩ := h.keeps.reservations _ r hr
  have hsame : r' = r := by
    rcases hkeep with rfl | ⟨hopen, _⟩
    · rfl
    · exact absurd hopen hclosed
  rw [settledBy, settledBy, hr, hr', hsame]

/-- The consumption that settlements charge is the same when no settlement is added. -/
theorem Moves.settledConsumption_eq (h : Moves dep request held s t link) (hs : Settled s)
    (hsame : t.settlements = s.settlements) (e d : ID) :
    settledConsumption t e d = settledConsumption s e d := by
  rw [settledConsumption, settledConsumption, hsame]
  exact total_congr fun x hx => h.settledBy_eq hs hx e d

/-- Entries whose terms balance leave the conservation equation to the extensions. -/
theorem extended_of_balanced
    (hbalanced : ∀ x ∈ entries, x.terms.2.1 + x.terms.2.2.1 + x.terms.2.2.2 = x.terms.1)
    (hsame : t.extensions = s.extensions) (e d : ID) :
    extendedValue t e d + posted (·.1) entries e d =
      extendedValue s e d + posted (·.2.1) entries e d + posted (·.2.2.1) entries e d +
        posted (·.2.2.2) entries e d := by
  have h := posted_balanced hbalanced e d
  rw [extendedValue, extendedValue, hsame]
  omega

theorem Idles.agrees (h : Idles s t)
    (hsettled : ∀ e d, settledConsumption t e d = settledConsumption s e d) : Agrees [] s t := by
  refine ⟨fun e d => ?_, fun e d => ?_, extended_of_balanced (by simp) h.store_eq.extensions⟩
  · rw [openReserved, openReserved, h.store_eq.reservations, posted_nil, add_zero]
  · rw [hsettled, metered, metered, h.store_eq.usage, posted_nil, add_zero]

/-- Accounts that are only issued have nothing consumed and nothing allocated. -/
theorem posted_issues (h : ∀ x ∈ entries, ∃ e d v, x = .issue e d v)
    (term : Int × Int × Int × Int → Int) (hterm : ∀ v, term (v, v, 0, 0) = 0) (e d : ID) :
    posted term entries e d = 0 := by
  apply sum_eq_zero
  intro n hn
  obtain ⟨x, hx, rfl⟩ := List.mem_map.mp hn
  obtain ⟨e', d', v, rfl⟩ := h x hx
  simp only [Entry.terms, hterm, ite_self]

theorem rootEntries_issue (e : ID) (grants : List RootResourceGrant) :
    ∀ x ∈ rootEntries dep e grants, ∃ e' d v, x = .issue e' d v := by
  intro x hx
  obtain ⟨g, _, hg⟩ := mem_filterMap.mp hx
  obtain ⟨d, _, rfl⟩ := Option.map_eq_some_iff.mp hg
  exact ⟨e, d.id, g.coefficient, rfl⟩

theorem Admits.agrees {admission : RunAdmission} {parent : Option ID} {grants : List RootResourceGrant}
    (h : Admits dep admission parent grants s t)
    (hsettled : ∀ e d, settledConsumption t e d = settledConsumption s e d) :
    Agrees (rootEntries dep admission.envelopeID grants) s t := by
  have hissues : ∀ x ∈ rootEntries dep admission.envelopeID grants, ∃ e d v, x = .issue e d v :=
    rootEntries_issue _ _
  refine ⟨fun e d => ?_, fun e d => ?_, extended_of_balanced ?_ h.store_eq.extensions⟩
  · rw [openReserved, openReserved, h.store_eq.reservations, posted_issues hissues _ (fun _ => rfl), add_zero]
  · rw [hsettled, metered, metered, h.store_eq.usage, posted_issues hissues _ (fun _ => rfl), add_zero]
  · intro x hx
    obtain ⟨e, d, v, rfl⟩ := hissues x hx
    simp [Entry.terms]

theorem Reservation.posted_entries (r : Reservation) (term : Int × Int × Int × Int → Int) (e d : ID) :
    posted term r.entries e d =
      (if r.parentEnvelopeID = e then (r.items.map fun i => if i.dimensionID = d then
        term (0, -i.reservedValue, 0, i.reservedValue) else 0).sum else 0) +
      if r.childEnvelopeID = e then (r.items.map fun i => if i.dimensionID = d then
        term (i.reservedValue, i.reservedValue, 0, 0) else 0).sum else 0 := by
  unfold Reservation.entries
  induction r.items with
  | nil => simp
  | cons i items ih =>
    rw [flatMap_cons, posted_append, ih]
    simp only [posted_cons, posted_nil, Entry.account, Entry.terms, Prod.mk.injEq, map_cons,
      sum_cons]
    by_cases hp : r.parentEnvelopeID = e <;> by_cases hc : r.childEnvelopeID = e <;>
      by_cases hd : i.dimensionID = d <;> simp only [hp, hc, hd, and_true, and_false, if_true,
        if_false] <;> omega

theorem Reserves.agrees {reservation : ResourceReservation} {row : Reservation}
    (h : Reserves dep reservation row s t)
    (hsettled : ∀ e d, settledConsumption t e d = settledConsumption s e d) :
    Agrees row.entries s t := by
  refine ⟨fun e d => ?_, fun e d => ?_, extended_of_balanced ?_ h.evidenced.extensions⟩
  · rw [openReserved, openReserved, h.evidenced.reservations, total_put_of_none _ h.row_none,
      row.posted_entries]
    simp only [h.columns.2.2.2, and_true, Reservation.reserved, ite_self, sum_map_zero,
      add_zero]
  · rw [hsettled, metered, metered, h.evidenced.usage, row.posted_entries]
    simp only [ite_self, sum_map_zero, add_zero]
  · intro x hx
    obtain ⟨i, _, hi⟩ := mem_flatMap.mp hx
    simp only [mem_cons, not_mem_nil, or_false] at hi
    rcases hi with rfl | rfl <;> simp [Entry.terms]

theorem Meters.agrees {usage : TrustedUsage} {target : MeteringTarget}
    (h : Meters dep usage target s t)
    (hsettled : ∀ e d, settledConsumption t e d = settledConsumption s e d) :
    Agrees [.move target.envelopeID target.dimension.id (-usage.quantity.amount.coefficient)
      usage.quantity.amount.coefficient 0] s t := by
  refine ⟨fun e d => ?_, fun e d => ?_, extended_of_balanced ?_ h.store_eq.extensions⟩
  · rw [openReserved, openReserved, h.store_eq.reservations]
    simp [Entry.terms]
  · rw [hsettled, metered, metered, h.store_eq.usage, total_put_of_none _ h.usage_none]
    by_cases hkey : target.envelopeID = e ∧ target.dimension.id = d
    · simp only [posted_cons, posted_nil, Entry.account, Entry.terms, usageEntry, hkey, and_self,
        if_true]
      omega
    · simp only [posted_cons, posted_nil, Entry.account, Entry.terms, Prod.mk.injEq, usageEntry, hkey,
        if_false]
      omega
  · simp [Entry.terms]

theorem Extends.agrees {extension : ResourceExtension} {row : Extension} {e : Envelope} {run run' : Run}
    (h : Extends dep extension row e run run' s t)
    (hsettled : ∀ e d, settledConsumption t e d = settledConsumption s e d) :
    Agrees row.entries s t := by
  refine ⟨fun e d => ?_, fun e d => ?_, fun e d => ?_⟩ <;>
    simp only [Extension.entries, posted_moves, ite_self, sum_map_zero, add_zero]
  · rw [openReserved, openReserved, h.store_eq.reservations]
  · rw [hsettled, metered, metered, h.store_eq.usage]
  · rw [extendedValue, extendedValue, h.store_eq.extensions, total_put_of_none _ h.row_none]
    rfl

variable {r r' : Reservation}

/-- What a close takes out of the open allocations is what the reservation had set aside. -/
theorem Closes.allocated_sum (h : Closes dep x r r' s t)
    (hdelegated : Delegated dep s) (d : ID) :
    (x.items.map fun i => if i.dimensionID = d then -i.reservedValue else 0).sum = -r.reserved d := by
  rw [← h.consumed_add_returned hdelegated d, x.consumed_add_returned]
  induction x.items with
  | nil => rfl
  | cons i items ih =>
    simp only [map_cons, sum_cons, ih]
    split_ifs <;> omega

theorem Closes.agrees (h : Closes dep x r r' s t)
    (hdelegated : Delegated dep s)
    (hsettled : ∀ y ∈ s.settlements.rows, ∀ e d, settledBy t e d y = settledBy s e d y) :
    Agrees (x.entries r.parentEnvelopeID) s t := by
  have hkeep := h.keep.columns
  have hclosed : t.reservations.get x.reservationID = some r' := by
    rw [h.store_eq.reservations, ← h.row_id, get_put_self]
  refine ⟨fun e d => ?_, fun e d => ?_, extended_of_balanced ?_ h.store_eq.extensions⟩
  · have hget : s.reservations.get r'.id = some r := h.row_id ▸ h.reservation
    rw [openReserved, openReserved, h.store_eq.reservations, total_put_of_get _ hget, Settlement.entries,
      posted_moves, h.allocated_sum hdelegated]
    simp only [h.opened, h.closed, and_true, and_false, if_false, add_zero]
    split_ifs <;> omega
  · have hsum : settledConsumption t e d = settledConsumption s e d + settledBy t e d x := by
      rw [settledConsumption, settledConsumption, h.store_eq.settlements,
        total_put_of_none _ h.settlement_none]
      congr 1
      exact total_congr fun y hy => hsettled y hy e d
    rw [hsum, metered, metered, h.store_eq.usage, settledBy, hclosed, Settlement.entries, posted_moves]
    simp only [Option.elim_some, hkeep.2.1, h.closed, ne_eq, not_false_eq_true, and_true,
      Settlement.consumed]
    omega
  · intro y hy
    obtain ⟨i, _, rfl⟩ := List.mem_map.mp hy
    have hi := i.reserved_eq
    simp only [Entry.terms]
    omega

theorem Balanced.moves (hs : Balanced s) (h : Moves dep request held s t link) (hsound : Sound dep s) :
    Balanced t := by
  have hsettled := h.settledConsumption_eq hsound.settled
  have hclosed := fun x hx => h.settledBy_eq hsound.settled (x := x) hx
  cases h with
  | idle h =>
    have hsame : t.accounts = s.accounts := by
      simp only [Store.accounts, h.store_eq.grants, h.store_eq.balances]
    exact hs.posts (hsame ▸ .nil _) (h.agrees (hsettled h.store_eq.settlements))
  | admitRun _ _ _ _ _ _ _ h => exact hs.posts h.posts (h.agrees (hsettled h.store_eq.settlements))
  | reserve _ _ _ _ _ h => exact hs.posts h.posts (h.agrees (hsettled h.evidenced.settlements))
  | meter _ _ _ _ _ h => exact hs.posts h.posts (h.agrees (hsettled h.store_eq.settlements))
  | extend _ _ _ _ _ _ _ _ h => exact hs.posts h.posts (h.agrees (hsettled h.store_eq.settlements))
  | close _ _ _ h _ => exact hs.posts h.posts (h.agrees hsound.delegated hclosed)

variable {governor : Governor}

/-- The tenant and every tenant on the way to it are sound and balanced. -/
theorem Reachable.ledger (h : Reachable dep governor) :
    (Sound dep governor.committed ∧ Balanced governor.committed) ∧
      ∀ c ∈ governor.log, (Sound dep c.before ∧ Balanced c.before) ∧
        (Sound dep c.after ∧ Balanced c.after) ∧
        storeEngine.Commits (program dep) c.request c.response c.before c.after := by
  refine h.invariant (P := fun s => Sound dep s ∧ Balanced s) ⟨Sound.empty, Balanced.empty⟩ ?_
  intro request held s t link hmove ⟨hsound, hbalanced⟩
  exact ⟨hsound.moves hmove, hbalanced.moves hmove hsound⟩

theorem Reachable.balanced (h : Reachable dep governor) :
    Sound dep governor.committed ∧ Balanced governor.committed :=
  h.ledger.1

/-- In every reachable tenant the terms of a balance add up to the grant and its extensions, and
neither a term nor their sum leaves the range of an `int64`. -/
theorem balance_conserved {governor : Governor} (h : Reachable dep governor) {e d : ID} {b : Balance}
    (hb : governor.committed.balances.get (e, d) = some b) :
    ∃ g, governor.committed.grants.get (e, d) = some g ∧
      b.availableValue + b.directConsumedValue + b.allocatedOpenValue =
        g.grantedValue + extendedValue governor.committed e d ∧
      0 ≤ b.availableValue ∧ 0 ≤ b.directConsumedValue ∧ 0 ≤ b.allocatedOpenValue ∧
      b.availableValue ≤ maxInt64 ∧ b.directConsumedValue ≤ maxInt64 ∧
      b.allocatedOpenValue ≤ maxInt64 ∧
      b.availableValue + b.directConsumedValue + b.allocatedOpenValue ≤ maxInt64 := by
  obtain ⟨hsound, hbalanced⟩ := h.balanced
  obtain ⟨g, hg⟩ := hsound.placed.grant _ b hb
  have hconserved := hbalanced.conserved e d
  simp only [Accounts.available, Accounts.directConsumed, Accounts.allocatedOpen, Accounts.granted,
    Store.accounts, column_of_get hb, column_of_get hg] at hconserved
  have havailable := b.available_nonneg
  have hdirect := b.directConsumed_nonneg
  have hallocated := b.allocatedOpen_nonneg
  have hsum := b.sum_le
  exact ⟨g, hg, hconserved, havailable, hdirect, hallocated, by omega, by omega, by omega, hsum⟩

/-! ### A tenant at work -/

namespace Sample

def dimension (n : Nat) (name : String) (resourceClass : ResourceClass) (unit : String) :
    ResourceDimension :=
  ⟨.ofNat n, name, resourceClass, unit, 0, 0, 1000,
    if resourceClass = .consumable then .sum else .maximum⟩

/-- A `jsonb` object of one key as the database prints it: a space after each colon and comma outside
strings. -/
def spaced : Bool → List Char → List Char
  | _, [] => []
  | quoted, '"' :: rest => '"' :: spaced (!quoted) rest
  | true, '\\' :: c :: rest => '\\' :: c :: spaced true rest
  | false, ':' :: rest => ':' :: ' ' :: spaced false rest
  | false, ',' :: rest => ',' :: ' ' :: spaced false rest
  | quoted, c :: rest => c :: spaced quoted rest

/-- A tenant that meters tool calls and tokens; equal texts stand for equal digests. -/
def deployment : Deployment where
  tenantID := .ofNat 1
  dimensions := [dimension 11 "tool_calls" .consumable "calls",
    dimension 12 "tool_calls_per_minute" .structural "calls_per_minute",
    dimension 13 "active_children" .structural "children",
    dimension 14 "total_children" .structural "children",
    dimension 15 "delegation_depth" .structural "levels",
    dimension 16 "llm_tokens" .consumable "tokens"]
  sha256 := id
  validJSONObject text := text.toList.head? = some '\x7b'
  jsonb text := if text.toList.head? = some '\x7b' then some (String.ofList (spaced false text.toList))
    else none
  jsonb_valid text stored h := by
    split_ifs at h with hobject
    cases h
    obtain ⟨rest, hrest⟩ : ∃ rest, text.toList = '\x7b' :: rest := by
      cases htext : text.toList with
      | nil => simp [htext] at hobject
      | cons c rest => exact ⟨rest, by simpa [htext] using hobject⟩
    simp [hrest, spaced]
  tenantID_set := by decide
  dimensions_valid := by decide
  names_nodup := by decide
  ids_nodup := by decide

def instant (seconds : Int) : Time := ⟨1000000000 * seconds, true⟩

def digest : String := "sha256:" ++ String.ofList (List.replicate 64 '0')

/-- The run's envelope has the next identifier. -/
def admission (run : Nat) (deadlineAt : Option Time) : RunAdmission :=
  { runID := .ofNat run, envelopeID := .ofNat (run + 1), tenantID := .ofNat 1, agentID := .ofNat 2
    agentVersionID := .ofNat 3, agentVersionDigest := digest, requestedBy := .ofNat 4
    policyDecisionID := .ofNat 5, state := .admitted, stateVersion := 1, constraints := some []
    deadlineAt := deadlineAt, createdAt := instant 100, updatedAt := instant 100 }

def resolution (run : Nat) (constraints : Constraints) : RunVersionResolution :=
  { runID := .ofNat run, tenantID := .ofNat 1, agentID := .ofNat 2, agentVersionID := .ofNat 3
    approvalID := .ofNat 6, agentContentDigest := digest, policyBundleDigest := digest
    policyActivationVersion := 1, mode := .automatic, invocationDecisionID := .ofNat 5
    selectionDecisionID := .ofNat 0, resolvedConstraints := some constraints
    resolvedAt := instant 100 }

def evidence (run : Nat) : RunAdmissionEvidence :=
  ⟨.ofNat (run + 2), .ofNat (run + 3), .ofNat (run + 4), .ofNat (run + 5), ["allowed"]⟩

/-- Two levels of two children each, five calls a minute. -/
def limits : Constraints :=
  [("max_tool_calls_per_minute", .int 5), ("max_active_children", .int 2),
    ("max_total_children", .int 2), ("max_delegation_depth", .int 2)]

def provision : List Request :=
  [.provisionPrincipal ⟨.ofNat 4, .workload, false⟩, .provisionPrincipal ⟨.ofNat 7, .human, false⟩,
    .provisionPrincipal ⟨.ofNat 8, .system, false⟩,
    .createAgent ⟨.ofNat 2, .ofNat 1, "planner", "", .ofNat 4, .ofNat 7, .low, .active, instant 1,
      instant 1⟩,
    .registerAgentVersion ⟨.ofNat 3, .ofNat 1, .ofNat 2, .ofNat 7, digest, instant 1⟩,
    .recordAgentVersionDecision ⟨.ofNat 6, .ofNat 1, .ofNat 2, .ofNat 0, .ofNat 7, .ofNat 5, .approved,
      "reviewed", "", instant 2⟩ digest (.ofNat 9) (.ofNat 10)]

def admitRoot (run : Nat) (constraints : Constraints) : Request :=
  .admitRun (admission run none) (resolution run constraints) (evidence run)

/-- The reservation of a child has the sixth identifier after its run. -/
def admitChild (run parent : Nat) (constraints : Constraints) (calls : Int) : Request :=
  .admitChildRun (admission run none) (resolution run constraints) (evidence run)
    ⟨.ofNat (run + 6), .ofNat 1, .ofNat (parent + 1), .ofNat (run + 1), .ofNat run,
      [⟨.ofNat 11, calls⟩], none, instant 100⟩

def lease (run : Nat) : RunLease :=
  ⟨.ofNat run, .ofNat 1, .ofNat (run + 7), .ofNat 4, 1, instant 1000⟩

/-- A worker claims the run that nobody has claimed yet, and starts it. -/
def start (run : Nat) : List Request :=
  [.claimRun ⟨.ofNat 1, .ofNat 4, .ofNat (run + 7), instant 110, instant 1000, .ofNat (run + 8), []⟩,
    .mutateWorkerRun (lease run) .start (.ofNat (run + 9)) (instant 110)]

def complete (run : Nat) : Request :=
  .mutateWorkerRun (lease run) .complete (.ofNat (run + 10)) (instant 200)

def meteredCalls : Quantity := ⟨⟨2, 0, by decide⟩, "calls", by decide⟩

def addedCalls : Quantity := ⟨⟨4, 0, by decide⟩, "calls", by decide⟩

/-- Meter two tool calls of a run. -/
def meter (run event : Nat) : Request :=
  .recordTrustedUsage ⟨.ofNat event, .ofNat 1, .ofNat run, .ofNat 4, toString event, "tool_calls",
    meteredCalls, instant 120, instant 120, ""⟩ ⟨"", false⟩ .pause
    ⟨.ofNat (event + 1), .ofNat (event + 2), .ofNat (event + 3)⟩

def settle (settlement run : Nat) (key : String) : Request :=
  .settleReservation ⟨.ofNat settlement, .ofNat 1, .ofNat (run + 6), .ofNat 7, .ofNat 5, key, .completed, [],
    instant 300⟩ ⟨.ofNat (settlement + 1), .ofNat (settlement + 2), .ofNat (settlement + 3), ["done"]⟩

def extend (extension run : Nat) : Request :=
  .extendResources ⟨.ofNat extension, .ofNat 1, .ofNat run, .ofNat 7, .ofNat 5, "more", "manual", "ticket",
    [⟨"tool_calls", addedCalls⟩], 0, instant 400⟩
    ⟨.ofNat (extension + 1), .ofNat (extension + 2), .ofNat (extension + 3), .ofNat (extension + 4), ["ok"]⟩

def story : List Request :=
  provision ++ [admitRoot 100 (("max_tool_calls", .int 10) :: limits)] ++ start 100 ++
    [admitChild 200 100 limits 5] ++ start 200 ++ [meter 200 500, complete 200, settle 600 200 "first",
    admitChild 300 100 limits 3, extend 700 100]

/-- The governor after one session has served the requests. Only the kernel evaluates it. -/
@[irreducible] def after (requests : List Request) : Governor :=
  .idle (storeEngine.serve (program deployment) requests Store.empty []).1
    (storeEngine.serve (program deployment) requests Store.empty []).2

theorem reachable (requests : List Request) : Reachable deployment (after requests) := by
  unfold after
  exact Engine.reaches_serve requests Relation.ReflTransGen.refl

end Sample

theorem Sample.story_balance : ∃ b,
    (Sample.after Sample.story).committed.balances.get (.ofNat 101, .ofNat 11) = some b ∧
    (b.availableValue, b.directConsumedValue, b.allocatedOpenValue) = (9, 2, 3) := by
  have hrow : ((Sample.after Sample.story).committed.balances.get (.ofNat 101, .ofNat 11)).any
      (fun b => (b.availableValue, b.directConsumedValue, b.allocatedOpenValue) = (9, 2, 3)) = true := by
    decide +kernel
  rw [Option.any_eq_true] at hrow
  obtain ⟨b, hb, hterms⟩ := hrow
  exact ⟨b, hb, of_decide_eq_true hterms⟩

theorem balance_conserved_story : ∃ b g,
    (Sample.after Sample.story).committed.balances.get (.ofNat 101, .ofNat 11) = some b ∧
    (Sample.after Sample.story).committed.grants.get (.ofNat 101, .ofNat 11) = some g ∧
    (b.availableValue, b.directConsumedValue, b.allocatedOpenValue) = (9, 2, 3) ∧
    b.availableValue + b.directConsumedValue + b.allocatedOpenValue = g.grantedValue +
      extendedValue (Sample.after Sample.story).committed (.ofNat 101) (.ofNat 11) := by
  obtain ⟨b, hb, hterms⟩ := Sample.story_balance
  obtain ⟨g, hg, hsum, _⟩ := balance_conserved (Sample.reachable Sample.story) hb
  exact ⟨b, g, hb, hg, hterms, hsum⟩

/-- The balances of every reachable tenant are determined by the ledger: open allocation by the open
reservations, consumption by the usage entries and the settlements of closed reservations. -/
theorem balance_recomputable {governor : Governor} (h : Reachable dep governor) (e d : ID) :
    governor.committed.accounts.allocatedOpen e d = openReserved governor.committed e d ∧
      governor.committed.accounts.directConsumed e d =
        metered governor.committed e d + settledConsumption governor.committed e d :=
  ⟨h.balanced.2.allocated e d, h.balanced.2.consumed e d⟩

theorem balance_recomputable_story :
    openReserved (Sample.after Sample.story).committed (.ofNat 101) (.ofNat 11) = 3 ∧
    metered (Sample.after Sample.story).committed (.ofNat 101) (.ofNat 11) +
      settledConsumption (Sample.after Sample.story).committed (.ofNat 101) (.ofNat 11) = 2 := by
  obtain ⟨b, hb, hterms⟩ := Sample.story_balance
  obtain ⟨hallocated, hconsumed⟩ :=
    balance_recomputable (Sample.reachable Sample.story) (.ofNat 101) (.ofNat 11)
  simp only [Prod.mk.injEq] at hterms
  rw [← hallocated, ← hconsumed]
  exact ⟨(column_of_get hb).trans hterms.2.2, (column_of_get hb).trans hterms.2.1⟩

end AgentGovernor
