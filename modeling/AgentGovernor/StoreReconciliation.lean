import AgentGovernor.StoreSettlement

/-! Reconciliation: close one terminal orphan or one expired child. Which rows `SKIP LOCKED` passes over
is part of the request, since any row may be locked by somebody else. -/

namespace AgentGovernor

open Ledger Transaction

variable (dep : Deployment)

structure ResourceReconciliationEvidence where
  settlementID : ID
  policyDecisionID : ID
  auditID : ID
  outboxID : ID
  runEventID : ID
  deriving DecidableEq

structure ResourceReconciliation where
  tenantID : ID
  systemPrincipalID : ID
  now : Time
  evidence : ResourceReconciliationEvidence
  skipped : List ID
  deriving DecidableEq

/-- The checks before the transaction; the result is the normalized time. -/
def validateReconciliation (request : ResourceReconciliation) : Except Failure Time :=
  if request.tenantID.isZero ∨ request.systemPrincipalID.isZero ∨
      request.evidence.settlementID.isZero ∨ request.evidence.policyDecisionID.isZero ∨
      request.evidence.auditID.isZero ∨ request.evidence.outboxID.isZero ∨
      request.evidence.runEventID.isZero then
    .error (.plain "resource reconciliation request is invalid")
  else
    match requireUTC request.now with
    | .error _ => .error (.plain "resource reconciliation time is invalid")
    | .ok now =>
      if now.isZero then .error (.plain "resource reconciliation time is invalid") else .ok now

theorem requireUTC_of_validateReconciliation {request : ResourceReconciliation} {now : Time}
    (h : validateReconciliation request = .ok now) : requireUTC request.now = .ok now := by
  unfold validateReconciliation at h
  rw [ite_error_eq_ok] at h
  obtain ⟨_, h⟩ := h
  split at h
  · cases h
  · split_ifs at h
    cases h
    assumption

/-- `ru.state IN ('COMPLETED','FAILED','CANCELLED','TIMED_OUT','FAILED_BUDGET')`. -/
def RunState.orphaned (state : RunState) : Bool :=
  [.completed, .failed, .cancelled, .timedOut, .failedBudget].contains state

/-- The conditions on the two rows that the query locks. -/
def reconcilable (now : Int) (r : Reservation) (run : Run) : Bool :=
  r.state = .opened && (run.state.orphaned || (r.expiresAt.any (· ≤ now)
    && [.admitted, .running, .pausedForBudget].contains run.state))

/-- The key of the `ORDER BY`. -/
def reconciliationOrder (r : Reservation) (run : Run) : Nat × Int × Nat :=
  (if run.state.orphaned then 0 else 1, r.expiresAt.getD r.createdAt, r.id.bits.toNat)

/-- A reservation that the query may return, with its key. -/
def reconciliationCandidate (s : Store) (now : Int) (r : Reservation) :
    Option (Reservation × Nat × Int × Nat) := do
  let run ← s.runs.get r.childRunID
  if reconcilable now r run ∧
      ¬s.balances.rows.any fun b => b.envelopeID = r.childEnvelopeID && b.allocatedOpenValue ≠ 0 then
    some (r, reconciliationOrder r run)
  else none

def systemPrincipal (s : Store) (id : ID) : Bool :=
  (s.principals.get id).any fun p => p.principalType = .system && !p.disabled

/-- The first candidate that is not skipped. -/
def nextReconciliation (request : ResourceReconciliation) (now : Int) (s : Store) :
    Option Reservation :=
  if request.tenantID = dep.tenantID ∧ systemPrincipal s request.systemPrincipalID then
    (((s.reservations.rows.filter fun r => !request.skipped.contains r.id).filterMap
      (reconciliationCandidate s now)).insertionSort fun a b =>
        a.2.1 < b.2.1 ∨ (a.2.1 = b.2.1 ∧ (a.2.2.1 < b.2.2.1 ∨
          (a.2.2.1 = b.2.2.1 ∧ a.2.2.2 ≤ b.2.2.2)))).head?.map (·.1)
  else none

def reconciliationUnavailable : Failure :=
  .plain "no resource reservation is available for reconciliation"

/-- The two rows as they are once locked; a row that no longer satisfies the query is not returned. -/
def claimReconciliation (request : ResourceReconciliation) (now : Int) :
    Op (Reservation × Run) := do
  let found ← Tx.snapshot (nextReconciliation dep request now)
  let candidate ← Tx.orThrow found reconciliationUnavailable
  let r ← reservationRows.lock [.reservation candidate.id] candidate.id (fun r => .ok r)
    reconciliationUnavailable
  let run ← runRows.lock [.run r.childRunID] r.childRunID (fun run => .ok run)
    reconciliationUnavailable
  Tx.require (reconcilable now r run = true) reconciliationUnavailable
  return (r, run)

/-- The lifecycle of an expired run after its timeout. -/
def timeoutTransition (run : Run) (now : Time) : Except Failure RunLifecycle :=
  if run.fencingToken = maxInt64 then .error (conflict "expired run fencing token is exhausted")
  else
    let current : RunLifecycle := ⟨run.state, run.stateVersion, .ofStored run.updatedAt, none⟩
    match current.transition ⟨.timedOut, .system, run.stateVersion, now⟩ with
    | .ok (next, true) => .ok next
    | _ => .error (conflict "expired run cannot be timed out")

def persistTimeout (run : Run) (next : RunLifecycle) (now : Int) : Op Unit :=
  let error := Failure.database "time out expired reservation child"
  runRows.update [.run run.id] run.id
    (fun row =>
      let row' : Run := { row with
        state := .timedOut
        stateVersion := next.version
        updatedAt := now
        terminalAt := some now
        leaseID := none
        leaseExpiresAt := none
        fencingToken := run.fencingToken + 1 }
      if row.stateVersion = run.stateVersion ∧ row'.check then .ok ((), row') else .error error)
    error

def timeOutExpired (request : ResourceReconciliation) (now : Time) (run : Run) : Op Unit := do
  let next ← Tx.ofExcept (timeoutTransition run now)
  persistTimeout run next now.stored
  let sequence ← nextSequence run.id
  let error := Failure.database "append reconciliation timeout event"
  insertEvent
    { id := request.evidence.runEventID, runID := run.id, sequence := sequence
      eventType := "run.timed_out", actorType := .system
      actorID := some request.systemPrincipalID, state := .timedOut, stateVersion := next.version
      occurredAt := now.stored } error
  insertOutbox ⟨request.evidence.runEventID, run.id.string, "run.timed_out", now.stored⟩ error

/-- Only a child that is not terminal yet is timed out. -/
def timeOutWhenExpired (request : ResourceReconciliation) (now : Time) (run : Run) : Op Unit :=
  if run.state.terminal then .pure () else timeOutExpired request now run

def reconciliationClosing (request : ResourceReconciliation) (now : Int) (r : Reservation) (run : Run) :
    Closing :=
  let terminalRunState := if run.state.terminal then run.state else .timedOut
  { settlement :=
      { id := request.evidence.settlementID
        reservationID := r.id
        actorPrincipalID := request.systemPrincipalID
        idempotencyKey := "reconcile:" ++ r.id.string
        terminalRunState := terminalRunState
        contentDigest := resourceSettlementDigest dep r.id terminalRunState []
        reason := if run.state.terminal then .reconciled else .expired
        settledAt := now
        items := [] }
    parentEnvelopeID := r.parentEnvelopeID
    state := if run.state.terminal then .settled else .expiredSettled
    insertError := .database "insert reconciled settlement"
    itemError := .database "insert reconciled settlement item"
    changed := conflict "parent reconciliation balance changed or overflowed"
    closeError := .database "close reconciled reservation" }

def ResourceReconciliation.audit (request : ResourceReconciliation) (reservationID : ID) (now : Time) :
    AuditEvent :=
  ⟨request.evidence.auditID, request.systemPrincipalID, "resources.reconcile", reservationID.string,
    now.stored⟩

def reconcileNextReservation (request : ResourceReconciliation) :
    Op ResourceReconciliationResult := do
  let now ← Tx.ofExcept (validateReconciliation request)
  let claimed ← claimReconciliation dep request now.stored
  timeOutWhenExpired request now claimed.2
  let items ← lockItems dep claimed.1 (conflict "reconciliation reservation has no consumable items")
    (conflict "reconciliation child balance is unsafe")
  close (reconciliationClosing dep request now.stored claimed.1 claimed.2) items
  insertAudit (request.audit claimed.1.id now) (.database "append reconciliation evidence")
  insertOutbox ⟨request.evidence.outboxID, claimed.1.id.string, "resource.reservation.reconciled",
    now.stored⟩ (.database "append reconciliation evidence")
  let settlement ← loadSettlementResult dep request.evidence.settlementID now false
  return ⟨settlement, !claimed.2.state.terminal⟩

end AgentGovernor
