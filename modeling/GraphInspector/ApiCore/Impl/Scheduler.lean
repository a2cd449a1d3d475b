import GraphInspector.ApiModel.Impl.Graph

/-!
The scheduler of the graph encoding jobs. Each event is one section under the lock of its state, one
completion that a caller runs after it left the lock, or one return of an admitted job to its owner.
-/

namespace Kgi

open Data

def maxGraphEncodingJobs : Nat := 4
def maxQueuedGraphEncodingJobs : Nat := 32
def maxHistoricalEncodingJobs : Nat := 2

inductive GraphEncodingError where
  | serialization
  | uncompressedResponseTooLarge
  | compression
  deriving DecidableEq, Repr

inductive EncodingSchedulerError where
  | admissionSaturated
  | queueTimeout
  | cancelled
  | shuttingDown
  | encoding (error : GraphEncodingError)
  | blockingExecutorFailed
  | workerFailed
  deriving DecidableEq, Repr

inductive BlockingResult (Body : Type) where
  | encoded (result : Except GraphEncodingError Body)
  | executorFailed

inductive JobClass where
  | priority
  | historical
  deriving DecidableEq, Repr

structure QueuedJob where
  id : Nat
  jobClass : JobClass
  deriving DecidableEq, Repr

structure SchedulerState where
  accepting : Bool
  nextId : Nat
  reservations : KeySet Nat
  priorityQueue : List QueuedJob
  historicalQueue : List QueuedJob
  active : Map Nat JobClass
  activeTotal : Nat
  activeHistorical : Nat

namespace SchedulerState

def default : SchedulerState :=
  ⟨true, 0, ∅, [], [], ∅, 0, 0⟩

variable (state : SchedulerState)

def allocateId : Panics (SchedulerState × Nat) := do
  ensure (state.nextId < u64Max) "encoding job IDs do not exhaust u64"
  return ({ state with nextId := state.nextId + 1 }, state.nextId + 1)

def queueOccupancy : Nat :=
  state.reservations.size + state.priorityQueue.length + state.historicalQueue.length

def canStart (jobClass : JobClass) : Bool :=
  state.activeTotal < maxGraphEncodingJobs &&
    (jobClass = .priority || state.activeHistorical < maxHistoricalEncodingJobs)

def queue (job : QueuedJob) : SchedulerState :=
  match job.jobClass with
  | .priority => { state with priorityQueue := state.priorityQueue ++ [job] }
  | .historical => { state with historicalQueue := state.historicalQueue ++ [job] }

def start (job : QueuedJob) : Panics SchedulerState := do
  ensure (state.active[job.id]? = none) "an encoding job starts once"
  return { state with
    active := state.active.insert job.id job.jobClass
    activeTotal := state.activeTotal + 1
    activeHistorical :=
      if job.jobClass = .historical then state.activeHistorical + 1 else state.activeHistorical }

def popNext : Option (QueuedJob × SchedulerState) :=
  match state.priorityQueue with
  | job :: rest => some (job, { state with priorityQueue := rest })
  | [] =>
    if state.activeHistorical < maxHistoricalEncodingJobs then
      match state.historicalQueue with
      | job :: rest => some (job, { state with historicalQueue := rest })
      | [] => none
    else none

end SchedulerState

namespace SchedulerState

def dispatchRounds : Nat → SchedulerState → Panics (SchedulerState × List QueuedJob)
  | 0, state => return (state, [])
  | rounds + 1, state =>
    if state.activeTotal < maxGraphEncodingJobs then
      match state.popNext with
      | none => return (state, [])
      | some (job, state) => do
        let state ← state.start job
        let (state, started) ← dispatchRounds rounds state
        return (state, job :: started)
    else
      return (state, [])

def dispatch (state : SchedulerState) : Panics (SchedulerState × List QueuedJob) :=
  dispatchRounds (maxGraphEncodingJobs - state.activeTotal) state

def removeJob (queue : List QueuedJob) (id : Nat) : Option (List QueuedJob) :=
  (queue.find? fun job => job.id = id).map fun _ => queue.eraseP fun job => job.id = id

def removeQueued (state : SchedulerState) (id : Nat) : Option SchedulerState :=
  match removeJob state.priorityQueue id with
  | some queue => some { state with priorityQueue := queue }
  | none =>
    (removeJob state.historicalQueue id).map fun queue => { state with historicalQueue := queue }

end SchedulerState

inductive JobWait (Body : Type) where
  | timed
  | untimed
  | returned (result : Except EncodingSchedulerError Body)
  | dropped

def JobWait.isWaiting {Body : Type} : JobWait Body → Bool
  | .timed => true
  | .untimed => true
  | _ => false

structure AdmittedJob (Body : Type) where
  job : QueuedJob
  wait : JobWait Body

/--
The scheduler with its workers, the jobs it spawned and admitted in their order, the completions that
callers still have to run and those that went through.
-/
structure EncodingScheduler (Body : Type) where
  state : SchedulerState
  workers : List Nat
  spawned : List QueuedJob
  admitted : List (AdmittedJob Body)
  completing : List (Nat × Except EncodingSchedulerError Body)
  completed : List (Nat × Except EncodingSchedulerError Body)

inductive SchedulerEvent (Body : Type) where
  | reserveHistorical
  | releaseReservation (id : Nat)
  | submit (jobClass : JobClass) (reservation : Option Nat)
  | cancelWait (index : Nat)
  | dropWait (index : Nat)
  | timeoutWait (index : Nat)
  | receive (index : Nat)
  | finish (worker : Nat) (result : BlockingResult Body)
  | beginShutdown
  | complete (index : Nat)

namespace EncodingScheduler

variable {Body : Type}

def new : EncodingScheduler Body :=
  ⟨.default, [], [], [], [], []⟩

variable (scheduler : EncodingScheduler Body)

def reserveHistorical : Panics (EncodingScheduler Body × Except EncodingSchedulerError Nat) := do
  if !scheduler.state.accepting then
    return (scheduler, .error .shuttingDown)
  if maxQueuedGraphEncodingJobs ≤ scheduler.state.queueOccupancy then
    return (scheduler, .error .admissionSaturated)
  let (state, id) ← scheduler.state.allocateId
  ensure (id ∉ state.reservations) "a fresh encoding reservation ID is unique"
  return ({ scheduler with state := { state with reservations := state.reservations.insert id } },
    .ok id)

def releaseReservation (id : Nat) : EncodingScheduler Body :=
  { scheduler with
    state := { scheduler.state with reservations := scheduler.state.reservations.erase id } }

def spawn (started : List QueuedJob) : EncodingScheduler Body :=
  { scheduler with
    workers := scheduler.workers ++ started.map QueuedJob.id
    spawned := scheduler.spawned ++ started }

def admitJob (job : QueuedJob) (reserved : Bool) :
    Panics (EncodingScheduler Body × Except EncodingSchedulerError Unit) := do
  let state := scheduler.state
  if state.canStart job.jobClass && (job.jobClass = .priority || state.priorityQueue.isEmpty) then
    let state ← state.start job
    return ({ { scheduler with state := state }.spawn [job] with
      admitted := scheduler.admitted ++ [⟨job, .untimed⟩] }, .ok ())
  else if !reserved && maxQueuedGraphEncodingJobs ≤ state.queueOccupancy then
    return (scheduler, .error .admissionSaturated)
  else
    return ({ scheduler with
      state := state.queue job
      admitted := scheduler.admitted ++ [⟨job, .timed⟩] }, .ok ())

def submit (jobClass : JobClass) (reservation : Option Nat) :
    Panics (EncodingScheduler Body × Except EncodingSchedulerError Unit) :=
  match reservation with
  | some id =>
    if id ∈ scheduler.state.reservations then
      let released := scheduler.releaseReservation id
      if !released.state.accepting then
        return (released, .error .shuttingDown)
      else released.admitJob ⟨id, jobClass⟩ true
    else return (scheduler, .error .shuttingDown)
  | none =>
    if !scheduler.state.accepting then
      return (scheduler, .error .shuttingDown)
    else do
      let (state, id) ← scheduler.state.allocateId
      { scheduler with state := state }.admitJob ⟨id, jobClass⟩ false

def cancel (id : Nat) (reason : EncodingSchedulerError) : EncodingScheduler Body :=
  match scheduler.state.removeQueued id with
  | some state =>
    { scheduler with
      state := state
      completing := scheduler.completing ++ [(id, .error reason)] }
  | none =>
    match scheduler.state.active[id]? with
    | some _ => { scheduler with completing := scheduler.completing ++ [(id, .error reason)] }
    | none => scheduler

def timeoutQueued (id : Nat) : EncodingScheduler Body × Bool :=
  match scheduler.state.removeQueued id with
  | some state =>
    ({ scheduler with
      state := state
      completing := scheduler.completing ++ [(id, .error .queueTimeout)] }, true)
  | none => (scheduler, false)

def terminal (accepting : Bool) (result : BlockingResult Body) : Except EncodingSchedulerError Body :=
  if accepting then
    match result with
    | .encoded (.ok body) => .ok body
    | .encoded (.error error) => .error (.encoding error)
    | .executorFailed => .error .blockingExecutorFailed
  else .error .shuttingDown

def finish (id : Nat) (result : BlockingResult Body) : Panics (EncodingScheduler Body) := do
  let state := scheduler.state
  let jobClass ← orError state.active[id]? "a completed encoding job is active"
  ensure (0 < state.activeTotal) "active encoding count is positive"
  ensure (jobClass = .priority ∨ 0 < state.activeHistorical) "active historical count is positive"
  let state := { state with
    active := state.active.erase id
    activeTotal := state.activeTotal - 1
    activeHistorical :=
      if jobClass = JobClass.historical then state.activeHistorical - 1 else state.activeHistorical }
  let (state, started) ← state.dispatch
  return { { scheduler with state := state }.spawn started with
    completing := scheduler.completing ++ [(id, terminal scheduler.state.accepting result)] }

def beginShutdown : EncodingScheduler Body :=
  let state := scheduler.state
  if !state.accepting then
    scheduler
  else
    { scheduler with
      state := { state with
        accepting := false
        reservations := ∅
        priorityQueue := []
        historicalQueue := [] }
      completing := scheduler.completing ++
        (state.priorityQueue.map QueuedJob.id ++ state.historicalQueue.map QueuedJob.id ++
          state.active.keys).map fun id => (id, .error .shuttingDown) }

def complete (id : Nat) (result : Except EncodingSchedulerError Body) : EncodingScheduler Body :=
  if id ∈ scheduler.completed.map Prod.fst then scheduler
  else { scheduler with completed := scheduler.completed ++ [(id, result)] }

def setWait (index : Nat) (job : QueuedJob) (wait : JobWait Body) : EncodingScheduler Body :=
  { scheduler with admitted := scheduler.admitted.set index ⟨job, wait⟩ }

def abandon (index : Nat) (wait : JobWait Body) : Option (EncodingScheduler Body) :=
  match scheduler.admitted[index]? with
  | some admitted =>
    if admitted.wait.isWaiting then
      some ((scheduler.cancel admitted.job.id .cancelled).setWait index admitted.job wait)
    else none
  | none => none

def timeoutWait (index : Nat) : Option (EncodingScheduler Body) :=
  match scheduler.admitted[index]? with
  | some ⟨job, .timed⟩ =>
    match scheduler.timeoutQueued job.id with
    | (scheduler, true) => some (scheduler.setWait index job (.returned (.error .queueTimeout)))
    | (scheduler, false) => some (scheduler.setWait index job .untimed)
  | _ => none

def receive (index : Nat) : Option (EncodingScheduler Body) :=
  match scheduler.admitted[index]? with
  | some admitted =>
    if admitted.wait.isWaiting then
      (scheduler.completed.find? fun entry => entry.1 = admitted.job.id).map fun entry =>
        scheduler.setWait index admitted.job (.returned entry.2)
    else none
  | none => none

/--
One event, unless it is not enabled. A panic under the lock leaves the scheduler as it was.
-/
def step (event : SchedulerEvent Body) : Option (EncodingScheduler Body) :=
  match event with
  | .reserveHistorical => scheduler.reserveHistorical.toOption.map Prod.fst
  | .releaseReservation id => some (scheduler.releaseReservation id)
  | .submit jobClass reservation => (scheduler.submit jobClass reservation).toOption.map Prod.fst
  | .cancelWait index => scheduler.abandon index (.returned (.error .cancelled))
  | .dropWait index => scheduler.abandon index .dropped
  | .timeoutWait index => scheduler.timeoutWait index
  | .receive index => scheduler.receive index
  | .finish worker result =>
    match scheduler.workers[worker]? with
    | some id =>
      ({ scheduler with workers := scheduler.workers.eraseIdx worker }.finish id result).toOption
    | none => none
  | .beginShutdown => some scheduler.beginShutdown
  | .complete index =>
    match scheduler.completing[index]? with
    | some (id, result) =>
      some ({ scheduler with completing := scheduler.completing.eraseIdx index }.complete id result)
    | none => none

end EncodingScheduler

end Kgi
