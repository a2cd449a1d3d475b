import GraphInspector.Data.Run
import GraphInspector.Processing.Impl.Orphan
import GraphInspector.Processing.Impl.Dependency

/-!
The orphan manager worker and the system it forms with its dependency resolver: the manager handles
messages and feeds the resolver's bounded work queue, the resolver takes work and joins its tasks.
-/

namespace Kgi

open Data

inductive OrphanMessage where
  | addOrphan (block : ValidatedNodeBlock) (missing : List BlockHash)
  | blockPersisted (hash : BlockHash)
  deriving DecidableEq

inductive OrphanManagerState where
  | active
  | faulted
  deriving DecidableEq, Repr

structure OrphanManagerWorker where
  topology : OrphanTopology
  state : OrphanManagerState
  faults : List ChildFaultKind
  /-- The sending ends of the resolver work queue and of the block processor's resolution lane. -/
  work : Queue ResolverWork
  resolution : Queue BlockResolutionEvent
  deriving DecidableEq

namespace OrphanManagerWorker

def new : OrphanManagerWorker :=
  ⟨.empty, .active, [], .new processingDataChannelCapacity, .new processingDataChannelCapacity⟩

def enterFault (worker : OrphanManagerWorker) (kind : ChildFaultKind) : OrphanManagerWorker :=
  match worker.state with
  | .faulted => worker
  | .active => { worker with state := .faulted, faults := worker.faults ++ [kind] }

def sendWork (worker : OrphanManagerWorker) (item : ResolverWork) : OrphanManagerWorker × Bool :=
  match worker.work.trySend item with
  | .ok work => ({ worker with work := work }, true)
  | .error .full => (worker.enterFault (.sessionDataFull .resolverWork), false)
  | .error .closed => (worker.enterFault (.sessionDataEndpointLost .resolverWork), false)

def sendReady (worker : OrphanManagerWorker) (block : ValidatedNodeBlock) :
    OrphanManagerWorker × Bool :=
  match worker.resolution.trySend (.orphanReady block) with
  | .ok resolution => ({ worker with resolution := resolution }, true)
  | .error .full => (worker.enterFault (.sessionDataFull .resolution), false)
  | .error .closed => (worker.enterFault (.sessionDataEndpointLost .resolution), false)

def sendEach {α : Type} (send : OrphanManagerWorker → α → OrphanManagerWorker × Bool) :
    OrphanManagerWorker → List α → OrphanManagerWorker × Bool
  | worker, [] => (worker, true)
  | worker, item :: items =>
    match send worker item with
    | (worker, true) => sendEach send worker items
    | (worker, false) => (worker, false)

def mutate (topology : OrphanTopology) (message : OrphanMessage) :
    OrphanTopology × Except TopologyError TopologyMutation :=
  match message with
  | .addOrphan block missing => topology.addOrphan block missing
  | .blockPersisted hash =>
    let (topology, mutation) := topology.blockPersisted hash
    (topology, .ok mutation)

def handleMessage (worker : OrphanManagerWorker) (message : OrphanMessage) : OrphanManagerWorker :=
  let (topology, mutated) := mutate worker.topology message
  let worker := { worker with topology := topology }
  match mutated with
  | .error .capacityExhausted => worker.enterFault .orphanCapacityExhausted
  | .error .emptyMissingSet =>
    worker.enterFault (.invalidProtocol "orphan admission requires at least one missing reference")
  | .ok mutation =>
    match sendEach sendWork worker (mutation.cancel.map .cancel) with
    | (worker, false) => worker
    | (worker, true) =>
      match sendEach sendReady worker mutation.ready with
      | (worker, false) => worker
      | (worker, true) =>
        let (topology, hashes) := worker.topology.takeResolutionCandidates
        (sendEach sendWork { worker with topology := topology } (hashes.map .resolve)).1

end OrphanManagerWorker

structure OrphanSystem where
  manager : OrphanManagerWorker
  resolver : DependencyResolverWorker
  deriving DecidableEq

/--
What may happen next in the system. The block processor sends messages and drains the resolution
lane, tasks end in any order, and the manager learns of a resolver fault at any later time.
-/
inductive OrphanEvent where
  | message (message : OrphanMessage)
  | resolverWork
  | taskJoined (task : TaskId) (outcome : TaskOutcome)
  | resolutionTaken
  | resolverFaultReceived (kind : ChildFaultKind)
  deriving DecidableEq

namespace OrphanSystem

def new : OrphanSystem := ⟨.new, .new⟩

def step (system : OrphanSystem) (event : OrphanEvent) : Option OrphanSystem :=
  match event with
  | .message message =>
    match system.manager.state with
    | .active => some { system with manager := system.manager.handleMessage message }
    | .faulted => none
  | .resolverWork =>
    if system.resolver.faulted then
      none
    else
      match system.manager.work.tryRecv with
      | none => none
      | some (item, work) =>
        some ⟨{ system.manager with work := work }, system.resolver.handleWork item⟩
  | .taskJoined task outcome =>
    if system.resolver.tasks.contains task then
      let (resolver, resolution) :=
        system.resolver.handleTaskResult system.manager.resolution task outcome
      some ⟨{ system.manager with resolution := resolution }, resolver⟩
    else
      none
  | .resolutionTaken =>
    match system.manager.resolution.tryRecv with
    | none => none
    | some (_, resolution) =>
      some { system with manager := { system.manager with resolution := resolution } }
  | .resolverFaultReceived kind =>
    if kind ∈ system.resolver.faults then
      some { system with manager := system.manager.enterFault kind }
    else
      none

end OrphanSystem

end Kgi
