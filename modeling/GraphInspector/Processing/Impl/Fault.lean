import GraphInspector.Processing.Impl.Dependency

/-!
How the processors classify the errors of their services and channels.
-/

namespace Kgi

open Data

def activeOrLive (isLive : Bool) (active : FaultDisposition) : FaultDisposition :=
  if isLive then .require .resync else active

def storageFault (error : ProcessingDbError) (isLive : Bool) : ComponentFault :=
  let (disposition, kind) : FaultDisposition × FaultKind :=
    match error.kind with
    | .generationLost => (activeOrLive isLive .retry, .serviceGenerationLost .storage)
    | .queryFailed => (activeOrLive isLive .retry, .storageQueryFailed)
    | .invalidStoredState => (.require .rebuild, .storageInvariantViolation)
    | .persistence .definiteFailure => (.fatal, .persistence .definiteFailure)
    | .persistence reason => (activeOrLive isLive .retry, .persistence reason)
    | .scoreOutOfRange reason => (.fatal, .scoreOutOfRange reason)
    | .serviceUnavailable => (.fatal, .ownership .managedComponentUnavailable)
  ⟨.storageService, disposition, kind, error.text⟩

def nodeFault (error : NodeError) (isLive : Bool) (requestedHash : BlockHash) : ComponentFault :=
  let (source, disposition, kind) : Component × FaultDisposition × FaultKind :=
    match error.kind with
    | .generationLost =>
      (.nodeService, activeOrLive isLive .retry, .serviceGenerationLost .node)
    | .cancelled => (.nodeService, .fatal, .ownership .managedComponentUnavailable)
    | .blockNotFound => (.dependencyResolver, .require .rebuild, .dependencyUnavailable)
    | .rpcRequestFailed => (.nodeService, activeOrLive isLive .retry, .rpcRequestFailed)
    | .subscriptionControlFailed =>
      (.nodeService, activeOrLive isLive .retry, .subscriptionControlFailed)
    | .invalidSubscriptionState => (.nodeService, .fatal, .ownership .invalidLifecycleControl)
    | .recoveryInputInvalid kind =>
      (.nodeService, activeOrLive isLive .retry, .recoveryInputInvalid kind)
    | .scoreOutOfRange reason => (.nodeService, .fatal, .scoreOutOfRange reason)
    | .retirementControlUnavailable =>
      (.nodeService, .fatal, .ownership .managedComponentUnavailable)
  ⟨source, disposition, kind, "dependency " ++ requestedHash.toHex ++ ": " ++ error.text⟩

def materialityFault (hash : BlockHash) (diagnostic : String) : ComponentFault :=
  ⟨.blockProcessor, .require .rebuild, .materialityViolation,
    "block " ++ hash.toHex ++ ": " ++ diagnostic⟩

def ownershipFault (source : Component) (kind : OwnershipFault) (diagnostic : String) :
    ComponentFault :=
  ⟨source, .fatal, .ownership kind, diagnostic⟩

def sessionEndpointFault (source : Component) (isLive : Bool) (diagnostic : String) :
    ComponentFault :=
  ⟨source, activeOrLive isLive .retry, .ownership .sessionDataEndpointLost, diagnostic⟩

def boundedSendFault (source : Component) (isLive : Bool) (path : String) :
    TrySendError → ComponentFault
  | .full => ⟨source, .require .resync, .sessionContinuityLost, path ++ " is full"⟩
  | .closed => sessionEndpointFault source isLive (path ++ " is closed")

inductive ChildControlError where
  | commandPathClosed
  | acknowledgementLost
  | workerJoinFailed
  deriving DecidableEq, Repr

def ChildControlError.text : ChildControlError → String
  | .commandPathClosed => "child command path is closed"
  | .acknowledgementLost => "child command acknowledgement was lost"
  | .workerJoinFailed => "child worker task could not be joined"

def childControlFault (source : Component) (error : ChildControlError) (diagnostic : String) :
    ComponentFault :=
  let kind : OwnershipFault :=
    match error with
    | .commandPathClosed => .internalControlPathLost
    | .acknowledgementLost => .internalControlPathLost
    | .workerJoinFailed => .unexpectedWorkerTermination
  ownershipFault source kind (diagnostic ++ ": " ++ error.text)

structure ChildFault where
  source : Component
  kind : ChildFaultKind
  deriving DecidableEq, Repr

def SessionDataPath.debug : SessionDataPath → String
  | .orphanInput => "OrphanInput"
  | .resolverWork => "ResolverWork"
  | .resolution => "Resolution"

def childFault (fault : ChildFault) (isLive : Bool) : ComponentFault :=
  match fault.kind with
  | .orphanCapacityExhausted =>
    ⟨fault.source, .require .resync, .boundedStateExhausted .orphans, "orphan capacity is exhausted"⟩
  | .sessionDataFull path =>
    ⟨fault.source, .require .resync, .sessionContinuityLost,
      "session data path is full: " ++ path.debug⟩
  | .sessionDataEndpointLost path =>
    sessionEndpointFault fault.source isLive
      ("session data endpoint is unavailable: " ++ path.debug)
  | .ownership kind => ownershipFault fault.source kind "child worker ownership failure"
  | .invalidProtocol diagnostic => ownershipFault fault.source .invalidLifecycleControl diagnostic

end Kgi
