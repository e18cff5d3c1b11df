import AgentGovernor.StoreExtension
import AgentGovernor.StoreIdempotency
import AgentGovernor.StoreReconciliation
import AgentGovernor.StoreRegistry
import AgentGovernor.StoreWorker

/-! The governor as a system: the requests that sessions serve and the transaction of each. Principals
are provisioned elsewhere; here any row of them may be written at any time. -/

namespace AgentGovernor

open Ledger Transaction

inductive Request where
  | admitRun (admission : RunAdmission) (resolution : RunVersionResolution)
      (evidence : RunAdmissionEvidence)
  | admitChildRun (admission : RunAdmission) (resolution : RunVersionResolution)
      (evidence : RunAdmissionEvidence) (reservation : ResourceReservation)
  | reserveChildResources (reservation : ResourceReservation)
  | recordTrustedUsage (usage : TrustedUsage) (hint : ThroughputHint)
      (disposition : ExhaustionDisposition) (ids : ExhaustionIDs)
  | extendResources (extension : ResourceExtension) (evidence : ResourceExtensionEvidence)
  | settleReservation (settlement : ResourceSettlement) (evidence : ResourceSettlementEvidence)
  | reconcileNextReservation (request : ResourceReconciliation)
  | claimRun (claim : RunClaim)
  | heartbeatRun (lease : RunLease) (now expiresAt : Time) (eventID : ID)
  | mutateWorkerRun (lease : RunLease) (operation : WorkerRunOperation) (eventID : ID) (now : Time)
  | cancelRun (cancellation : RunCancellation) (evidence : RunCancellationEvidence)
  | appendRunSignal (signal : RunSignalSubmission) (evidence : RunSignalEvidence)
  | provisionPrincipal (row : Principal)
  | createAgent (agent : Agent)
  | updateAgent (agent : Agent) (expectedUpdatedAt : Time)
  | registerAgentVersion (version : AgentVersionRegistration)
  | recordAgentVersionDecision (approval : AgentVersionApproval) (digest : String)
      (auditID outboxID : ID)
  | acquireIdempotency (request : IdempotencyRequest) (recordID ownerToken : ID) (now : Time)
  | readContended (request : IdempotencyRequest)
  | completeIdempotency (acquisition : IdempotencyAcquisition) (response : StoredResponse) (now : Time)
  | failIdempotency (acquisition : IdempotencyAcquisition) (now : Time)
  | admitRunIdempotently (admission : RunAdmission) (resolution : RunVersionResolution)
      (evidence : RunAdmissionEvidence) (acquisition : IdempotencyAcquisition)
      (response : StoredResponse) (now : Time)

inductive Response where
  | done
  | reserved (reservation : ResourceReservation)
  | metered (receipt : UsageReceipt)
  | extended (result : ResourceExtensionResult)
  | settled (result : ResourceSettlementResult)
  | reconciled (result : ResourceReconciliationResult)
  | leased (lease : RunLease)
  | signalled (event : RunEvent)
  | decided (approval : AgentVersionApproval)
  | acquired (acquisition : Option IdempotencyAcquisition)
  | observed (result : Except Failure IdempotencyAcquisition)
  deriving DecidableEq

def provisionPrincipal (row : Principal) : Op Unit :=
  principalRows.upsert [.principal row.id] row.id fun _ => .ok ((), row)

/-- The transaction of a request. -/
def program (dep : Deployment) : Request → Op Response
  | .admitRun admission resolution evidence =>
    (admitRun dep admission resolution evidence).bind fun _ => .pure .done
  | .admitChildRun admission resolution evidence reservation =>
    (admitChildRun dep admission resolution evidence reservation).bind fun r => .pure (.reserved r)
  | .reserveChildResources reservation =>
    (reserveChildResources dep reservation).bind fun r => .pure (.reserved r)
  | .recordTrustedUsage usage hint disposition ids =>
    (recordTrustedUsage dep usage hint disposition ids).bind fun r => .pure (.metered r)
  | .extendResources extension evidence =>
    (extendResources dep extension evidence).bind fun r => .pure (.extended r)
  | .settleReservation settlement evidence =>
    (settleReservation dep settlement evidence).bind fun r => .pure (.settled r)
  | .reconcileNextReservation request =>
    (reconcileNextReservation dep request).bind fun r => .pure (.reconciled r)
  | .claimRun claim => (claimRun dep claim).bind fun l => .pure (.leased l)
  | .heartbeatRun lease now expiresAt eventID =>
    (heartbeatRun dep lease now expiresAt eventID).bind fun l => .pure (.leased l)
  | .mutateWorkerRun lease operation eventID now =>
    (mutateWorkerRun dep lease operation eventID now).bind fun _ => .pure .done
  | .cancelRun cancellation evidence =>
    (cancelRun dep cancellation evidence).bind fun _ => .pure .done
  | .appendRunSignal signal evidence =>
    (appendRunSignal dep signal evidence).bind fun e => .pure (.signalled e)
  | .provisionPrincipal row => (provisionPrincipal row).bind fun _ => .pure .done
  | .createAgent agent => (createAgent dep agent).bind fun _ => .pure .done
  | .updateAgent agent expectedUpdatedAt =>
    (updateAgent dep agent expectedUpdatedAt).bind fun _ => .pure .done
  | .registerAgentVersion version => (registerAgentVersion dep version).bind fun _ => .pure .done
  | .recordAgentVersionDecision approval digest auditID outboxID =>
    (recordAgentVersionDecision dep approval digest auditID outboxID).bind fun a =>
      .pure (.decided a)
  | .acquireIdempotency request recordID ownerToken now =>
    (acquireIdempotency dep request recordID ownerToken now).bind fun a => .pure (.acquired a)
  | .readContended request => (readContended dep request).bind fun r => .pure (.observed r)
  | .completeIdempotency acquisition response now =>
    (completeIdempotency dep acquisition response now).bind fun _ => .pure .done
  | .failIdempotency acquisition now =>
    (failIdempotency acquisition now).bind fun _ => .pure .done
  | .admitRunIdempotently admission resolution evidence acquisition response now =>
    (admitRunIdempotently dep admission resolution evidence acquisition response now).bind fun _ =>
      .pure .done

/-- The governor's systems: any number of sessions against the tenant's database. -/
abbrev Governor := System Store Lock Write Failure Response Request

abbrev StoreCommit := Commit Store Response Request

/-- The request commits with the response, from the one database to the other. -/
abbrev Serves (dep : Deployment) : Request → Response → Store → Store → Prop :=
  storeEngine.Commits (program dep)

abbrev Served (dep : Deployment) (c : StoreCommit) : Prop :=
  Serves dep c.request c.response c.before c.after

/-- The governors that sessions can lead to from an empty tenant. -/
def Reachable (dep : Deployment) (governor : Governor) : Prop :=
  storeEngine.Reaches (program dep) Store.empty governor

end AgentGovernor
