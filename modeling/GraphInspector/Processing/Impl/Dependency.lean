import GraphInspector.Data.Channel
import GraphInspector.Model.Lifecycle

/-!
The dependency resolver: the worker that fetches missing blocks from the node, one task a hash.
-/

namespace Kgi

open Data

def processingDataChannelCapacity : Nat := 1024

inductive ResolverWork where
  | resolve (hash : BlockHash)
  | cancel (hash : BlockHash)
  deriving DecidableEq, Repr

inductive SessionDataPath where
  | orphanInput
  | resolverWork
  | resolution
  deriving DecidableEq, Repr

inductive ChildFaultKind where
  | orphanCapacityExhausted
  | sessionDataFull (path : SessionDataPath)
  | sessionDataEndpointLost (path : SessionDataPath)
  | ownership (fault : OwnershipFault)
  | invalidProtocol (diagnostic : String)
  deriving DecidableEq, Repr

inductive FullBlockResult where
  | block (block : ValidatedNodeBlock)
  | nodeError (error : NodeError)
  deriving DecidableEq

inductive BlockResolutionEvent where
  | orphanReady (block : ValidatedNodeBlock)
  | dependencyResolved (requestedHash : BlockHash) (result : FullBlockResult)
  deriving DecidableEq

inductive TaskOutcome where
  | completed (result : FullBlockResult)
  | cancelled
  | panicked
  deriving DecidableEq

abbrev TaskId := Nat

structure DependencyResolverWorker where
  /-- Spawned tasks that were not joined yet. -/
  tasks : KeySet TaskId
  tasksByHash : Map BlockHash TaskId
  hashesByTask : Map TaskId BlockHash
  cancelledTasks : KeySet TaskId
  nextTaskId : TaskId
  faulted : Bool
  faults : List ChildFaultKind
  deriving DecidableEq

namespace DependencyResolverWorker

def new : DependencyResolverWorker := ⟨∅, ∅, ∅, ∅, 0, false, []⟩

def duplicateRequest : ChildFaultKind :=
  .invalidProtocol "duplicate dependency resolution request"

def fault (worker : DependencyResolverWorker) (kind : ChildFaultKind) : DependencyResolverWorker :=
  { worker with faulted := true, faults := worker.faults ++ [kind] }

def startResolution (worker : DependencyResolverWorker) (hash : BlockHash) :
    DependencyResolverWorker :=
  if worker.tasksByHash.contains hash then
    worker.fault duplicateRequest
  else
    let task := worker.nextTaskId
    { worker with
      tasks := worker.tasks.insert task
      tasksByHash := worker.tasksByHash.insert hash task
      hashesByTask := worker.hashesByTask.insert task hash
      nextTaskId := task + 1 }

def handleWork (worker : DependencyResolverWorker) (work : ResolverWork) :
    DependencyResolverWorker :=
  match work with
  | .resolve hash => worker.startResolution hash
  | .cancel hash =>
    match worker.tasksByHash[hash]? with
    | none => worker
    | some task => { worker with cancelledTasks := worker.cancelledTasks.insert task }

def handleTaskResult (worker : DependencyResolverWorker) (resolution : Queue BlockResolutionEvent)
    (task : TaskId) (outcome : TaskOutcome) :
    DependencyResolverWorker × Queue BlockResolutionEvent :=
  let cancelled := worker.cancelledTasks.contains task
  let worker := { worker with
    tasks := worker.tasks.erase task, cancelledTasks := worker.cancelledTasks.erase task }
  match worker.hashesByTask[task]? with
  | none =>
    (worker.fault (.invalidProtocol "dependency task completed without tracked hash"), resolution)
  | some hash =>
    let worker := { worker with
      hashesByTask := worker.hashesByTask.erase task
      tasksByHash := worker.tasksByHash.erase hash }
    if cancelled then
      (worker, resolution)
    else
      match outcome with
      | .completed result =>
        if worker.faulted then
          (worker, resolution)
        else
          match resolution.trySend (.dependencyResolved hash result) with
          | .ok resolution => (worker, resolution)
          | .error .full => (worker.fault (.sessionDataFull .resolution), resolution)
          | .error .closed => (worker.fault (.sessionDataEndpointLost .resolution), resolution)
      | .cancelled => (worker, resolution)
      | .panicked => (worker.fault (.ownership .unexpectedWorkerTermination), resolution)

end DependencyResolverWorker

end Kgi
