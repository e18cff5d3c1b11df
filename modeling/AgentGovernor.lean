import AgentGovernor.AdministrationDomain
import AgentGovernor.AdmissionService
import AgentGovernor.ArtifactSignature
import AgentGovernor.AuditTrail
import AgentGovernor.BudgetTree
import AgentGovernor.CommitExtension
import AgentGovernor.CommitReservation
import AgentGovernor.CommitRun
import AgentGovernor.CommitSettlement
import AgentGovernor.CommitUsage
import AgentGovernor.DeliveryChain
import AgentGovernor.DeliveryCompletion
import AgentGovernor.DeliveryEvidence
import AgentGovernor.DeliveryMarks
import AgentGovernor.DeliverySchema
import AgentGovernor.DeliverySystem
import AgentGovernor.DomainCanonical
import AgentGovernor.DomainPrimitives
import AgentGovernor.DomainResource
import AgentGovernor.DomainRun
import AgentGovernor.EventStream
import AgentGovernor.FreshnessEnforcement
import AgentGovernor.FreshnessRace
import AgentGovernor.FreshnessStream
import AgentGovernor.FreshnessTracker
import AgentGovernor.JsonText
import AgentGovernor.LedgerOrder
import AgentGovernor.LedgerStatement
import AgentGovernor.LedgerTable
import AgentGovernor.PolicyConstraints
import AgentGovernor.PolicyContract
import AgentGovernor.PolicyDecision
import AgentGovernor.PolicyRevocation
import AgentGovernor.RevocationCheckpoints
import AgentGovernor.RevocationDelta
import AgentGovernor.RevocationDomain
import AgentGovernor.RevocationGateway
import AgentGovernor.RevocationGovernance
import AgentGovernor.RevocationLog
import AgentGovernor.RevocationRepository
import AgentGovernor.RevocationSchema
import AgentGovernor.RevocationService
import AgentGovernor.RevocationSnapshots
import AgentGovernor.RevocationSystem
import AgentGovernor.RevocationTransition
import AgentGovernor.StoreAccounts
import AgentGovernor.StoreAdmission
import AgentGovernor.StoreAgents
import AgentGovernor.StoreApprovals
import AgentGovernor.StoreAuthority
import AgentGovernor.StoreBalance
import AgentGovernor.StoreCancellation
import AgentGovernor.StoreClosure
import AgentGovernor.StoreCommits
import AgentGovernor.StoreConsumption
import AgentGovernor.StoreDelegation
import AgentGovernor.StoreDiscipline
import AgentGovernor.StoreExhaustion
import AgentGovernor.StoreExtension
import AgentGovernor.StoreExtensionChain
import AgentGovernor.StoreFencing
import AgentGovernor.StoreInvariant
import AgentGovernor.StoreLifecycle
import AgentGovernor.StoreMetering
import AgentGovernor.StoreOwnership
import AgentGovernor.StoreProgress
import AgentGovernor.StoreReconciliation
import AgentGovernor.StoreSchema
import AgentGovernor.StoreSettledOnce
import AgentGovernor.StoreSettlement
import AgentGovernor.StoreSignals
import AgentGovernor.StoreSystem
import AgentGovernor.StoreTimeouts
import AgentGovernor.StoreTopology
import AgentGovernor.StoreTransition
import AgentGovernor.StoreTree
import AgentGovernor.StoreUsage
import AgentGovernor.TransactionProgram
import AgentGovernor.TransactionReplay
import AgentGovernor.TransactionSequence
import AgentGovernor.TransactionSnapshot
import AgentGovernor.TransactionSystem
import AgentGovernor.VersionResolution
import AgentGovernor.WorkerRevocations
