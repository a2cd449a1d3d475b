import GraphInspector.Model.Block

/-!
Recovery strength and the typed faults that cross a worker's boundary.
-/

namespace Kgi

inductive RecoveryMode where
  | resync
  | rebuild
  deriving DecidableEq, Repr

inductive FaultDisposition where
  | retry
  | require (mode : RecoveryMode)
  | fatal
  deriving DecidableEq, Repr

inductive Component where
  | supervisor
  | nodeService
  | storageService
  | resyncEngine
  | blockProcessor
  | orphanManager
  | dependencyResolver
  | vspcProcessor
  | apiService
  deriving DecidableEq, Repr

inductive ServiceKind where
  | node
  | storage
  deriving DecidableEq, Repr

inductive MalformedVspcNotificationReason where
  | removedChainWithoutAddedPath
  | resolvedSourceDiscontinuity
  | selectedParentPathDiscontinuity
  | duplicatePendingTransition
  | contradictoryDestination
  | competingNextMove
  deriving DecidableEq, Repr

def MalformedVspcNotificationReason.debug : MalformedVspcNotificationReason → String
  | .removedChainWithoutAddedPath => "RemovedChainWithoutAddedPath"
  | .resolvedSourceDiscontinuity => "ResolvedSourceDiscontinuity"
  | .selectedParentPathDiscontinuity => "SelectedParentPathDiscontinuity"
  | .duplicatePendingTransition => "DuplicatePendingTransition"
  | .contradictoryDestination => "ContradictoryDestination"
  | .competingNextMove => "CompetingNextMove"

inductive NotificationInputKind where
  | malformedBlockAdded
  | malformedVspcChange (reason : MalformedVspcNotificationReason)
  deriving DecidableEq, Repr

inductive MalformedVspcResponseReason where
  | removedChainWithoutAddedPath
  | nonAdvancingAddedCursor
  | removedSourceMismatch
  | resolvedSourceDiscontinuity
  | selectedParentPathDiscontinuity
  deriving DecidableEq, Repr

def MalformedVspcResponseReason.debug : MalformedVspcResponseReason → String
  | .removedChainWithoutAddedPath => "RemovedChainWithoutAddedPath"
  | .nonAdvancingAddedCursor => "NonAdvancingAddedCursor"
  | .removedSourceMismatch => "RemovedSourceMismatch"
  | .resolvedSourceDiscontinuity => "ResolvedSourceDiscontinuity"
  | .selectedParentPathDiscontinuity => "SelectedParentPathDiscontinuity"

inductive RecoveryInputKind where
  | malformedPruningPointResponse
  | malformedCatchupSinkResponse
  | malformedGetBlock
  | malformedGetBlocks
  | malformedVspcResponse (reason : MalformedVspcResponseReason)
  deriving DecidableEq, Repr

inductive PersistenceFault where
  | definiteFailure
  | retryExhausted
  | ambiguousCommit
  deriving DecidableEq, Repr

inductive ScoreRangeFault where
  | daaScore
  | blueScore
  | boundarySealThreshold
  deriving DecidableEq, Repr

inductive BoundedProcessingState where
  | orphans
  | vspcPending
  deriving DecidableEq, Repr

inductive OwnershipFault where
  | sessionDataEndpointLost
  | managedComponentUnavailable
  | internalControlPathLost
  | unexpectedWorkerTermination
  | invalidLifecycleControl
  deriving DecidableEq, Repr

inductive FaultKind where
  | serviceGenerationLost (service : ServiceKind)
  | rpcRequestFailed
  | storageQueryFailed
  | storageInvariantViolation
  | subscriptionControlFailed
  | sessionContinuityLost
  | notificationInputInvalid (kind : NotificationInputKind)
  | recoveryInputInvalid (kind : RecoveryInputKind)
  | reconciliationFailed
  | materialityViolation
  | dependencyUnavailable
  | boundedStateExhausted (state : BoundedProcessingState)
  | scoreOutOfRange (fault : ScoreRangeFault)
  | persistence (fault : PersistenceFault)
  | ownership (fault : OwnershipFault)
  deriving DecidableEq, Repr

structure ComponentFault where
  source : Component
  disposition : FaultDisposition
  kind : FaultKind
  diagnostic : String
  deriving DecidableEq, Repr

inductive NodeErrorKind where
  | generationLost
  | cancelled
  | blockNotFound
  | rpcRequestFailed
  | subscriptionControlFailed
  | invalidSubscriptionState
  | recoveryInputInvalid (kind : RecoveryInputKind)
  | scoreOutOfRange (fault : ScoreRangeFault)
  | retirementControlUnavailable
  deriving DecidableEq, Repr

structure NodeError where
  kind : NodeErrorKind
  text : String
  deriving DecidableEq, Repr

inductive ProcessingDbErrorKind where
  | generationLost
  | queryFailed
  | invalidStoredState
  | persistence (fault : PersistenceFault)
  | scoreOutOfRange (fault : ScoreRangeFault)
  | serviceUnavailable
  deriving DecidableEq, Repr

structure ProcessingDbError where
  kind : ProcessingDbErrorKind
  text : String
  deriving DecidableEq, Repr

inductive NetworkType where
  | mainnet
  | testnet
  | devnet
  | simnet
  deriving DecidableEq, Repr

structure NetworkId where
  networkType : NetworkType
  suffix : Option Nat
  deriving DecidableEq, Repr

end Kgi
