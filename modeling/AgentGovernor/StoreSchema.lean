import AgentGovernor.DomainAgent
import AgentGovernor.DomainResource
import AgentGovernor.JsonText
import AgentGovernor.LedgerStatement

/-! The tables of one tenant. Item rows are kept with the row they reference: the items of a
reservation, of an extension and of a settlement are lists in it, in insertion order. Instants are
stored in microseconds. Each row says which locks its insert and its updates hold. -/

namespace AgentGovernor

open Ledger Transaction

/-- Row locks by primary key, key locks of unique indexes and transaction-level advisory locks. Only
the lock on an agent version has a shared mode. -/
inductive Lock where
  | principal (id : ID)
  | version (id : ID) (shared : Bool)
  | run (id : ID)
  | envelope (id : ID)
  | balance (envelopeID dimensionID : ID)
  | window (envelopeID dimensionID : ID) (windowStart : Int)
  | reservation (id : ID)
  | usage (id : ID)
  | extension (id : ID)
  | settlement (id : ID)
  | settlementKey (principalID : ID) (key : String)
  | event (id : ID)
  | signal (id : ID)
  | audit (id : ID)
  | outbox (id : ID)
  | advisory (principalID : ID) (key : String)
  | agent (id : ID)
  | idempotency (principalID : ID) (route key : String)
  deriving DecidableEq

namespace Lock

def shared : Lock → Bool
  | .version _ shared => shared
  | _ => false

/-- The lock in its exclusive mode. -/
def exclusive : Lock → Lock
  | .version id _ => .version id false
  | l => l

def conflict (a b : Lock) : Prop := a.exclusive = b.exclusive ∧ ¬(a.shared = true ∧ b.shared = true)

theorem conflict_symm {a b : Lock} (h : a.conflict b) : b.conflict a :=
  ⟨h.1.symm, fun hboth => h.2 hboth.symm⟩

theorem conflict_self {l : Lock} (h : l.shared = false) : l.conflict l :=
  ⟨rfl, fun hboth => by simp [h] at hboth⟩

end Lock

/-! ### Rows -/

inductive PrincipalType where
  | human | workload | gateway | system
  deriving DecidableEq

structure Principal where
  id : ID
  principalType : PrincipalType
  disabled : Bool
  deriving DecidableEq

structure Approval where
  id : ID
  decision : ApprovalDecision
  createdAt : Int
  deriving DecidableEq

/-- An agent version with the history of decisions about it. -/
structure AgentVersion where
  id : ID
  agentID : ID
  contentDigest : String
  createdAt : Int
  approvals : List Approval
  deriving DecidableEq

structure AgentRow where
  id : ID
  name : String
  description : String
  ownerPrincipalID : ID
  sponsorPrincipalID : ID
  riskClass : AgentRiskClass
  status : AgentStatus
  createdAt : Int
  updatedAt : Int
  deriving DecidableEq

structure Run where
  id : ID
  agentID : ID
  agentVersionID : ID
  requestedBy : ID
  state : RunState
  stateVersion : Int
  deadlineAt : Option Int
  leaseID : Option ID
  leaseExpiresAt : Option Int
  fencingToken : Int
  createdAt : Int
  updatedAt : Int
  terminalAt : Option Int
  deriving DecidableEq

/-- The `CHECK`s of `runs`. -/
def Run.check (r : Run) : Bool :=
  0 < r.stateVersion && 0 ≤ r.fencingToken && r.leaseID.isSome = r.leaseExpiresAt.isSome
    && r.createdAt ≤ r.updatedAt && r.terminalAt.all (r.createdAt ≤ ·)
    && r.state.terminal = r.terminalAt.isSome

structure Envelope where
  id : ID
  runID : ID
  parentEnvelopeID : Option ID
  version : Int
  deriving DecidableEq

structure Grant where
  envelopeID : ID
  dimensionID : ID
  grantedValue : Int
  unit : String
  scale : Nat
  deriving DecidableEq

/-- A balance row; its `CHECK`s hold of every value of the type. -/
structure Balance where
  envelopeID : ID
  dimensionID : ID
  availableValue : Int
  directConsumedValue : Int
  allocatedOpenValue : Int
  stateVersion : Int
  updatedAt : Int
  available_nonneg : 0 ≤ availableValue
  directConsumed_nonneg : 0 ≤ directConsumedValue
  allocatedOpen_nonneg : 0 ≤ allocatedOpenValue
  sum_le : availableValue + directConsumedValue + allocatedOpenValue ≤ maxInt64
  deriving DecidableEq

/-- A balance row, unless it violates a `CHECK`. -/
def Balance.check (envelopeID dimensionID : ID) (available direct allocated version updatedAt : Int) :
    Option Balance :=
  if h : 0 ≤ available ∧ 0 ≤ direct ∧ 0 ≤ allocated ∧ available + direct + allocated ≤ maxInt64 then
    some ⟨envelopeID, dimensionID, available, direct, allocated, version, updatedAt, h.1, h.2.1,
      h.2.2.1, h.2.2.2⟩
  else none

inductive ReservationState where
  | opened | settled | expiredSettled | cancelledSettled
  deriving DecidableEq

structure ReservationItem where
  dimensionID : ID
  reservedValue : Int
  unit : String
  scale : Nat
  deriving DecidableEq

structure Reservation where
  id : ID
  parentEnvelopeID : ID
  childEnvelopeID : ID
  childRunID : ID
  state : ReservationState
  expiresAt : Option Int
  createdAt : Int
  settledAt : Option Int
  items : List ReservationItem
  deriving DecidableEq

/-- What the reservation holds of a dimension. -/
def Reservation.reserved (r : Reservation) (dimensionID : ID) : Int :=
  (r.items.map fun i => if i.dimensionID = dimensionID then i.reservedValue else 0).sum

/-- The `CHECK`s of `resource_reservations`. -/
def Reservation.check (r : Reservation) : Bool :=
  r.parentEnvelopeID ≠ r.childEnvelopeID && decide (r.state = .opened) = r.settledAt.isNone
    && r.settledAt.all (r.createdAt ≤ ·) && r.expiresAt.all (r.createdAt < ·)

structure UsageEntry where
  id : ID
  runID : ID
  envelopeID : ID
  dimensionID : ID
  producerID : ID
  sourceEventID : String
  quantityValue : Int
  unit : String
  scale : Nat
  contentDigest : String
  observedAt : Int
  recordedAt : Int
  deriving DecidableEq

structure RateWindow where
  envelopeID : ID
  dimensionID : ID
  windowStart : Int
  usedValue : Int
  updatedAt : Int
  deriving DecidableEq

structure ExtensionItem where
  dimensionID : ID
  addedValue : Int
  priorGrantedValue : Int
  newGrantedValue : Int
  unit : String
  scale : Nat
  deriving DecidableEq

structure Extension where
  id : ID
  runID : ID
  envelopeID : ID
  actorPrincipalID : ID
  idempotencyKey : String
  contentDigest : String
  priorDeadlineAt : Option Int
  newDeadlineAt : Option Int
  priorEnvelopeVersion : Int
  newEnvelopeVersion : Int
  resumedRun : Bool
  createdAt : Int
  items : List ExtensionItem
  deriving DecidableEq

/-- What the extension adds to a dimension. -/
def Extension.added (x : Extension) (dimensionID : ID) : Int :=
  (x.items.map fun i => if i.dimensionID = dimensionID then i.addedValue else 0).sum

/-- A settlement item; its `CHECK`s hold of every value of the type. -/
structure SettlementItem where
  dimensionID : ID
  reservedValue : Int
  consumedValue : Int
  returnedValue : Int
  unit : String
  scale : Nat
  consumed_nonneg : 0 ≤ consumedValue
  returned_nonneg : 0 ≤ returnedValue
  returned_eq : returnedValue = reservedValue - consumedValue
  deriving DecidableEq

inductive SettlementReason where
  | terminal | expired | cancelled | reconciled
  deriving DecidableEq

structure Settlement where
  id : ID
  reservationID : ID
  actorPrincipalID : ID
  idempotencyKey : String
  terminalRunState : RunState
  contentDigest : String
  reason : SettlementReason
  settledAt : Int
  items : List SettlementItem
  deriving DecidableEq

/-- What the settlement records as consumed of a dimension. -/
def Settlement.consumed (x : Settlement) (dimensionID : ID) : Int :=
  (x.items.map fun i => if i.dimensionID = dimensionID then i.consumedValue else 0).sum

/-- What the settlement returned of a dimension. -/
def Settlement.returned (x : Settlement) (dimensionID : ID) : Int :=
  (x.items.map fun i => if i.dimensionID = dimensionID then i.returnedValue else 0).sum

/-- The `CHECK` of `terminal_run_state`. -/
def Settlement.check (x : Settlement) : Bool :=
  [.completed, .failed, .cancelled, .timedOut, .failedBudget].contains x.terminalRunState

/-- A run event; of its payload only the signal that it accepts is kept. -/
structure RunEvent where
  id : ID
  runID : ID
  sequence : Int
  eventType : String
  actorType : RunActor
  actorID : Option ID
  state : RunState
  stateVersion : Int
  occurredAt : Int
  signalID : Option ID := none
  deriving DecidableEq

inductive RunSignalType where
  | cancel | pause | resume | custom
  deriving DecidableEq

structure RunSignal where
  id : ID
  runID : ID
  signalType : RunSignalType
  payload : Json
  idempotencyKey : String
  actorPrincipalID : ID
  createdAt : Int
  deriving DecidableEq

structure AuditEvent where
  id : ID
  principalID : ID
  action : String
  resourceID : String
  occurredAt : Int
  deriving DecidableEq

structure OutboxMessage where
  id : ID
  aggregateID : String
  eventType : String
  occurredAt : Int
  deriving DecidableEq

inductive IdempotencyState where
  | inProgress | completed | failed
  deriving DecidableEq

/-- The response columns; the headers are the text of a `jsonb` value. -/
structure StoredResponse where
  status : Int
  headers : String
  body : List UInt8
  deriving DecidableEq

structure IdempotencyRecord where
  id : ID
  principalID : ID
  route : String
  idempotencyKey : String
  requestHash : String
  state : IdempotencyState
  response : Option StoredResponse
  ownerToken : ID
  lockedUntil : Int
  createdAt : Int
  completedAt : Option Int
  expiresAt : Int
  deriving DecidableEq

/-- The unique key of `idempotency_records`. -/
def IdempotencyRecord.scope (r : IdempotencyRecord) : ID × String × String :=
  (r.principalID, r.route, r.idempotencyKey)

/-- The `CHECK`s of `idempotency_records` that depend on the operation. -/
def IdempotencyRecord.check (r : IdempotencyRecord) : Bool :=
  r.createdAt < r.expiresAt && decide (r.state = .completed) = r.completedAt.isSome
    && decide (r.state = .completed) = r.response.isSome && r.completedAt.all (r.createdAt ≤ ·)

/-! ### Locks of rows -/

instance : Guarded Principal Lock where
  insertLocks p := [.principal p.id]

instance : Guarded AgentVersion Lock where
  insertLocks v := [.version v.id false]

instance : Guarded Run Lock where
  insertLocks r := [.run r.id]

/-- The unique index on the run is the run's lock: the run is inserted in the same transaction. -/
instance : Guarded Envelope Lock where
  insertLocks e := [.envelope e.id, .run e.runID]
  updateLocks e := [.envelope e.id]
  updateLocks_subset _ := by simp

instance : Guarded Grant Lock where
  insertLocks g := [.envelope g.envelopeID]

instance : Guarded Balance Lock where
  insertLocks b := [.balance b.envelopeID b.dimensionID]

/-- A reservation is inserted under the locks of its child run and of its two envelopes. -/
instance : Guarded Reservation Lock where
  insertLocks r := [.reservation r.id, .run r.childRunID, .envelope r.parentEnvelopeID,
    .envelope r.childEnvelopeID]
  updateLocks r := [.reservation r.id]
  updateLocks_subset _ := by simp

instance : Guarded UsageEntry Lock where
  insertLocks u := [.usage u.id, .advisory u.producerID u.sourceEventID, .envelope u.envelopeID]

instance : Guarded RateWindow Lock where
  insertLocks w := [.window w.envelopeID w.dimensionID w.windowStart]

instance : Guarded Extension Lock where
  insertLocks x := [.extension x.id, .advisory x.actorPrincipalID x.idempotencyKey,
    .envelope x.envelopeID]
  updateLocks x := [.extension x.id]
  updateLocks_subset _ := by simp

instance : Guarded Settlement Lock where
  insertLocks x := [.settlement x.id, .settlementKey x.actorPrincipalID x.idempotencyKey,
    .reservation x.reservationID]
  updateLocks x := [.settlement x.id]
  updateLocks_subset _ := by simp

instance : Guarded RunEvent Lock where
  insertLocks e := [.event e.id, .run e.runID]

instance : Guarded RunSignal Lock where
  insertLocks x := [.signal x.id, .run x.runID]

instance : Guarded AuditEvent Lock where
  insertLocks a := [.audit a.id]

instance : Guarded OutboxMessage Lock where
  insertLocks m := [.outbox m.id]

instance : Guarded AgentRow Lock where
  insertLocks a := [.agent a.id]

instance : Guarded IdempotencyRecord Lock where
  insertLocks r := [.idempotency r.principalID r.route r.idempotencyKey]

/-! ### The database -/

structure Store where
  principals : Table Principal.id
  versions : Table AgentVersion.id
  runs : Table Run.id
  envelopes : Table Envelope.id
  grants : Table fun g : Grant => (g.envelopeID, g.dimensionID)
  balances : Table fun b : Balance => (b.envelopeID, b.dimensionID)
  reservations : Table Reservation.id
  usage : Table UsageEntry.id
  windows : Table fun w : RateWindow => (w.envelopeID, w.dimensionID, w.windowStart)
  extensions : Table Extension.id
  settlements : Table Settlement.id
  events : Table RunEvent.id
  signals : Table RunSignal.id
  audits : Table AuditEvent.id
  outbox : Table OutboxMessage.id
  agents : Table AgentRow.id
  idempotency : Table IdempotencyRecord.scope

/-- A tenant in which nothing happened yet. -/
def Store.empty : Store :=
  ⟨.empty, .empty, .empty, .empty, .empty, .empty, .empty, .empty, .empty, .empty, .empty, .empty,
    .empty, .empty, .empty, .empty, .empty⟩

inductive Write where
  | principal (row : Principal)
  | version (row : AgentVersion)
  | run (row : Run)
  | envelope (row : Envelope)
  | grant (row : Grant)
  | balance (row : Balance)
  | reservation (row : Reservation)
  | usage (row : UsageEntry)
  | window (row : RateWindow)
  | extension (row : Extension)
  | settlement (row : Settlement)
  | event (row : RunEvent)
  | signal (row : RunSignal)
  | audit (row : AuditEvent)
  | outbox (row : OutboxMessage)
  | agent (row : AgentRow)
  | idempotency (row : IdempotencyRecord)

def Store.apply : Write → Store → Store
  | .principal row, s => { s with principals := s.principals.put row }
  | .version row, s => { s with versions := s.versions.put row }
  | .run row, s => { s with runs := s.runs.put row }
  | .envelope row, s => { s with envelopes := s.envelopes.put row }
  | .grant row, s => { s with grants := s.grants.put row }
  | .balance row, s => { s with balances := s.balances.put row }
  | .reservation row, s => { s with reservations := s.reservations.put row }
  | .usage row, s => { s with usage := s.usage.put row }
  | .window row, s => { s with windows := s.windows.put row }
  | .extension row, s => { s with extensions := s.extensions.put row }
  | .settlement row, s => { s with settlements := s.settlements.put row }
  | .event row, s => { s with events := s.events.put row }
  | .signal row, s => { s with signals := s.signals.put row }
  | .audit row, s => { s with audits := s.audits.put row }
  | .outbox row, s => { s with outbox := s.outbox.put row }
  | .agent row, s => { s with agents := s.agents.put row }
  | .idempotency row, s => { s with idempotency := s.idempotency.put row }

/-- What a holder of locks may have changed. -/
structure Store.Evolves (held : List Lock) (s t : Store) : Prop where
  principals : s.principals.Evolves held t.principals
  versions : s.versions.Evolves held t.versions
  runs : s.runs.Evolves held t.runs
  envelopes : s.envelopes.Evolves held t.envelopes
  grants : s.grants.Evolves held t.grants
  balances : s.balances.Evolves held t.balances
  reservations : s.reservations.Evolves held t.reservations
  usage : s.usage.Evolves held t.usage
  windows : s.windows.Evolves held t.windows
  extensions : s.extensions.Evolves held t.extensions
  settlements : s.settlements.Evolves held t.settlements
  events : s.events.Evolves held t.events
  signals : s.signals.Evolves held t.signals
  audits : s.audits.Evolves held t.audits
  outbox : s.outbox.Evolves held t.outbox
  agents : s.agents.Evolves held t.agents
  idempotency : s.idempotency.Evolves held t.idempotency

namespace Store.Evolves

variable {held held' : List Lock} {s t u : Store}

theorem refl (held : List Lock) (s : Store) : s.Evolves held s := by
  constructor <;> exact Table.Evolves.refl _ _

theorem trans (h : s.Evolves held t) (h' : t.Evolves held u) : s.Evolves held u where
  principals := h.principals.trans h'.principals
  versions := h.versions.trans h'.versions
  runs := h.runs.trans h'.runs
  envelopes := h.envelopes.trans h'.envelopes
  grants := h.grants.trans h'.grants
  balances := h.balances.trans h'.balances
  reservations := h.reservations.trans h'.reservations
  usage := h.usage.trans h'.usage
  windows := h.windows.trans h'.windows
  extensions := h.extensions.trans h'.extensions
  settlements := h.settlements.trans h'.settlements
  events := h.events.trans h'.events
  signals := h.signals.trans h'.signals
  audits := h.audits.trans h'.audits
  outbox := h.outbox.trans h'.outbox
  agents := h.agents.trans h'.agents
  idempotency := h.idempotency.trans h'.idempotency

theorem mono (hsub : held ⊆ held') (h : s.Evolves held t) : s.Evolves held' t where
  principals := h.principals.mono hsub
  versions := h.versions.mono hsub
  runs := h.runs.mono hsub
  envelopes := h.envelopes.mono hsub
  grants := h.grants.mono hsub
  balances := h.balances.mono hsub
  reservations := h.reservations.mono hsub
  usage := h.usage.mono hsub
  windows := h.windows.mono hsub
  extensions := h.extensions.mono hsub
  settlements := h.settlements.mono hsub
  events := h.events.mono hsub
  signals := h.signals.mono hsub
  audits := h.audits.mono hsub
  outbox := h.outbox.mono hsub
  agents := h.agents.mono hsub
  idempotency := h.idempotency.mono hsub

theorem apply (w : Write) (h : s.Evolves held t) : (s.apply w).Evolves held (t.apply w) := by
  cases w with
  | principal row => exact { h with principals := h.principals.put row }
  | version row => exact { h with versions := h.versions.put row }
  | run row => exact { h with runs := h.runs.put row }
  | envelope row => exact { h with envelopes := h.envelopes.put row }
  | grant row => exact { h with grants := h.grants.put row }
  | balance row => exact { h with balances := h.balances.put row }
  | reservation row => exact { h with reservations := h.reservations.put row }
  | usage row => exact { h with usage := h.usage.put row }
  | window row => exact { h with windows := h.windows.put row }
  | extension row => exact { h with extensions := h.extensions.put row }
  | settlement row => exact { h with settlements := h.settlements.put row }
  | event row => exact { h with events := h.events.put row }
  | signal row => exact { h with signals := h.signals.put row }
  | audit row => exact { h with audits := h.audits.put row }
  | outbox row => exact { h with outbox := h.outbox.put row }
  | agent row => exact { h with agents := h.agents.put row }
  | idempotency row => exact { h with idempotency := h.idempotency.put row }

end Store.Evolves

/-! ### What every commit keeps -/

/-- Only the version of an envelope changes. -/
def Envelope.Keep (e e' : Envelope) : Prop := e' = { e with version := e'.version }

/-- A reservation is closed at most once; nothing else of it changes. -/
def Reservation.Keep (r r' : Reservation) : Prop :=
  r' = r ∨ (r.state = .opened ∧ r'.state ≠ .opened ∧
    r' = { r with state := r'.state, settledAt := r'.settledAt })

/-- A terminal run does not change, and no run changes its identity. -/
def Run.Keep (r r' : Run) : Prop :=
  (r.state.terminal = true → r' = r) ∧ r'.requestedBy = r.requestedBy ∧ r'.createdAt = r.createdAt

theorem Envelope.Keep.refl (e : Envelope) : e.Keep e := rfl

theorem Envelope.Keep.trans {a b c : Envelope} (h : a.Keep b) (h' : b.Keep c) : a.Keep c := by
  unfold Envelope.Keep at h h' ⊢
  rw [h', h]

theorem Reservation.Keep.refl (r : Reservation) : r.Keep r := Or.inl rfl

theorem Reservation.Keep.trans {a b c : Reservation} (h : a.Keep b) (h' : b.Keep c) : a.Keep c := by
  rcases h' with rfl | ⟨hb, hc, heq⟩
  · exact h
  · rcases h with rfl | ⟨_, hb', _⟩
    · exact Or.inr ⟨hb, hc, heq⟩
    · exact absurd hb hb'

theorem Run.Keep.refl (r : Run) : r.Keep r := ⟨fun _ => rfl, rfl, rfl⟩

theorem Run.Keep.trans {a b c : Run} (h : a.Keep b) (h' : b.Keep c) : a.Keep c := by
  obtain ⟨hterminal, hby, hat⟩ := h
  obtain ⟨hterminal', hby', hat'⟩ := h'
  refine ⟨fun ha => ?_, hby'.trans hby, hat'.trans hat⟩
  have hb := hterminal ha
  subst hb
  exact hterminal' ha

/-- What a whole commit keeps: ledger rows and grants are immutable, envelopes keep their place in the
tree, closed reservations and terminal runs stay as they are, and a reservation is closed under the
lock of its child run. -/
structure Store.Keeps (held : List Lock) (s t : Store) : Prop where
  runs : s.runs.Keeps Run.Keep t.runs
  envelopes : s.envelopes.Keeps Envelope.Keep t.envelopes
  grants : s.grants.Keeps Eq t.grants
  reservations : s.reservations.Keeps Reservation.Keep t.reservations
  usage : s.usage.Keeps Eq t.usage
  extensions : s.extensions.Keeps Eq t.extensions
  settlements : s.settlements.Keeps Eq t.settlements
  closed_locked : ∀ id r r', s.reservations.get id = some r → t.reservations.get id = some r' →
    r' ≠ r → .run r.childRunID ∈ held

namespace Store.Keeps

variable {held : List Lock} {s t u : Store}

theorem trans (h : s.Keeps held t) (h' : t.Keeps held u) : s.Keeps held u where
  runs := h.runs.trans Run.Keep.trans h'.runs
  envelopes := h.envelopes.trans Envelope.Keep.trans h'.envelopes
  grants := h.grants.trans Eq.trans h'.grants
  reservations := h.reservations.trans Reservation.Keep.trans h'.reservations
  usage := h.usage.trans Eq.trans h'.usage
  extensions := h.extensions.trans Eq.trans h'.extensions
  settlements := h.settlements.trans Eq.trans h'.settlements
  closed_locked id a c ha hc hne := by
    obtain ⟨b, hb, _⟩ := h.reservations id a ha
    by_cases hab : b = a
    · subst hab
      exact h'.closed_locked id b c hb hc hne
    · exact h.closed_locked id a b ha hb hab

theorem apply (w : Write) (h : s.Keeps held t) : (s.apply w).Keeps held (t.apply w) := by
  cases w with
  | run row => exact { h with runs := h.runs.put Run.Keep.refl row }
  | envelope row => exact { h with envelopes := h.envelopes.put Envelope.Keep.refl row }
  | grant row => exact { h with grants := h.grants.put Eq.refl row }
  | reservation row =>
    refine { h with
      reservations := h.reservations.put Reservation.Keep.refl row
      closed_locked := fun id r r' hr hr' hne => ?_ }
    simp only [Store.apply, Table.get_put] at hr hr'
    split_ifs at hr hr' with hid
    · cases hr
      cases hr'
      exact absurd rfl hne
    · exact h.closed_locked id r r' hr hr' hne
  | usage row => exact { h with usage := h.usage.put Eq.refl row }
  | extension row => exact { h with extensions := h.extensions.put Eq.refl row }
  | settlement row => exact { h with settlements := h.settlements.put Eq.refl row }
  | principal row => exact { h with }
  | version row => exact { h with }
  | balance row => exact { h with }
  | window row => exact { h with }
  | event row => exact { h with }
  | signal row => exact { h with }
  | audit row => exact { h with }
  | outbox row => exact { h with }
  | agent row => exact { h with }
  | idempotency row => exact { h with }

end Store.Keeps

def storeEngine : Engine Store Lock Write where
  apply := Store.apply
  conflict := Lock.conflict
  conflict_symm := Lock.conflict_symm
  guarantee held s t := s.Evolves held t
  guarantee_refl := Store.Evolves.refl
  guarantee_trans := Store.Evolves.trans
  guarantee_mono := Store.Evolves.mono
  guarantee_apply := Store.Evolves.apply
  promise held s t := s.Keeps held t
  promise_apply := Store.Keeps.apply

/-! ### Handles of the tables -/

def principalRows : Handle storeEngine Principal.id where
  table := Store.principals
  write := .principal
  table_write _ _ := rfl
  evolves h := h.principals
  guarantee_write h := { Store.Evolves.refl _ _ with principals := Table.Evolves.of_put h }

def versionRows : Handle storeEngine AgentVersion.id where
  table := Store.versions
  write := .version
  table_write _ _ := rfl
  evolves h := h.versions
  guarantee_write h := { Store.Evolves.refl _ _ with versions := Table.Evolves.of_put h }

def runRows : Handle storeEngine Run.id where
  table := Store.runs
  write := .run
  table_write _ _ := rfl
  evolves h := h.runs
  guarantee_write h := { Store.Evolves.refl _ _ with runs := Table.Evolves.of_put h }

def envelopeRows : Handle storeEngine Envelope.id where
  table := Store.envelopes
  write := .envelope
  table_write _ _ := rfl
  evolves h := h.envelopes
  guarantee_write h := { Store.Evolves.refl _ _ with envelopes := Table.Evolves.of_put h }

def grantRows : Handle storeEngine fun g : Grant => (g.envelopeID, g.dimensionID) where
  table := Store.grants
  write := .grant
  table_write _ _ := rfl
  evolves h := h.grants
  guarantee_write h := { Store.Evolves.refl _ _ with grants := Table.Evolves.of_put h }

def balanceRows : Handle storeEngine fun b : Balance => (b.envelopeID, b.dimensionID) where
  table := Store.balances
  write := .balance
  table_write _ _ := rfl
  evolves h := h.balances
  guarantee_write h := { Store.Evolves.refl _ _ with balances := Table.Evolves.of_put h }

def reservationRows : Handle storeEngine Reservation.id where
  table := Store.reservations
  write := .reservation
  table_write _ _ := rfl
  evolves h := h.reservations
  guarantee_write h := { Store.Evolves.refl _ _ with reservations := Table.Evolves.of_put h }

def usageRows : Handle storeEngine UsageEntry.id where
  table := Store.usage
  write := .usage
  table_write _ _ := rfl
  evolves h := h.usage
  guarantee_write h := { Store.Evolves.refl _ _ with usage := Table.Evolves.of_put h }

def windowRows :
    Handle storeEngine fun w : RateWindow => (w.envelopeID, w.dimensionID, w.windowStart) where
  table := Store.windows
  write := .window
  table_write _ _ := rfl
  evolves h := h.windows
  guarantee_write h := { Store.Evolves.refl _ _ with windows := Table.Evolves.of_put h }

def extensionRows : Handle storeEngine Extension.id where
  table := Store.extensions
  write := .extension
  table_write _ _ := rfl
  evolves h := h.extensions
  guarantee_write h := { Store.Evolves.refl _ _ with extensions := Table.Evolves.of_put h }

def settlementRows : Handle storeEngine Settlement.id where
  table := Store.settlements
  write := .settlement
  table_write _ _ := rfl
  evolves h := h.settlements
  guarantee_write h := { Store.Evolves.refl _ _ with settlements := Table.Evolves.of_put h }

def eventRows : Handle storeEngine RunEvent.id where
  table := Store.events
  write := .event
  table_write _ _ := rfl
  evolves h := h.events
  guarantee_write h := { Store.Evolves.refl _ _ with events := Table.Evolves.of_put h }

def signalRows : Handle storeEngine RunSignal.id where
  table := Store.signals
  write := .signal
  table_write _ _ := rfl
  evolves h := h.signals
  guarantee_write h := { Store.Evolves.refl _ _ with signals := Table.Evolves.of_put h }

def auditRows : Handle storeEngine AuditEvent.id where
  table := Store.audits
  write := .audit
  table_write _ _ := rfl
  evolves h := h.audits
  guarantee_write h := { Store.Evolves.refl _ _ with audits := Table.Evolves.of_put h }

def outboxRows : Handle storeEngine OutboxMessage.id where
  table := Store.outbox
  write := .outbox
  table_write _ _ := rfl
  evolves h := h.outbox
  guarantee_write h := { Store.Evolves.refl _ _ with outbox := Table.Evolves.of_put h }

def agentRows : Handle storeEngine AgentRow.id where
  table := Store.agents
  write := .agent
  table_write _ _ := rfl
  evolves h := h.agents
  guarantee_write h := { Store.Evolves.refl _ _ with agents := Table.Evolves.of_put h }

def idempotencyRows : Handle storeEngine IdempotencyRecord.scope where
  table := Store.idempotency
  write := .idempotency
  table_write _ _ := rfl
  evolves h := h.idempotency
  guarantee_write h := { Store.Evolves.refl _ _ with idempotency := Table.Evolves.of_put h }

end AgentGovernor
