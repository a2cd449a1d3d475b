import GraphInspector.Processing.Impl.Fault
import GraphInspector.Processing.Impl.OrphanManager
import GraphInspector.Storage.Impl.Materialization

/-!
The block processor of one session: the phases of its run, the admission of blocks from its three lanes,
and what it announces. The database, the channels and the orphan manager answer as they like, and the
lanes are served in any order.
-/

namespace Kgi

open Data

inductive SealPhase where
  | preSeal (sealBlueScore : Nat)
  | postSeal
  deriving DecidableEq, Repr

inductive RunStage where
  | synchronizing (phase : SealPhase)
  | catchup (knownIdLowerBound : CompactId)
  | live
  deriving DecidableEq, Repr

namespace RunStage

def isLive : RunStage → Bool
  | .live => true
  | _ => false

def acceptsNotifications : RunStage → Bool
  | .synchronizing _ => false
  | .catchup _ => true
  | .live => true

def permitsOrphans : RunStage → Bool
  | .synchronizing _ => false
  | .catchup _ => true
  | .live => true

def sealPhase : RunStage → SealPhase
  | .synchronizing phase => phase
  | .catchup _ => .postSeal
  | .live => .postSeal

end RunStage

inductive BlockSource where
  | resolution
  | notification
  | synthetic
  deriving DecidableEq, Repr

structure SourceBits where
  bits : UInt8
  deriving DecidableEq, Repr

namespace SourceBits

def default : SourceBits := ⟨0⟩

def notification : UInt8 := 1

def synthetic : UInt8 := 2

def ofSource : BlockSource → SourceBits
  | .resolution => ⟨0⟩
  | .notification => ⟨notification⟩
  | .synthetic => ⟨synthetic⟩

def contains (bits : SourceBits) (source : BlockSource) : Bool :=
  (ofSource source).bits != 0 && bits.bits &&& (ofSource source).bits != 0

def insert (bits : SourceBits) (source : BlockSource) : SourceBits :=
  ⟨bits.bits ||| (ofSource source).bits⟩

def overlaps (bits : SourceBits) : Bool :=
  bits.bits == synthetic ||| notification

end SourceBits

inductive BlockProcessorRun where
  | inert (mode : RecoveryMode)
  | active (stage : RunStage) (sources : Map BlockHash SourceBits)
      (emitBoundarySealedOnStart : Bool)

structure GenerationBinding where
  networkId : NetworkId
  genesisHash : BlockHash
  deriving DecidableEq, Repr

structure BlockProcessorInitialization where
  anchor : MaterializedSyncAnchor
  boundarySealBlueScore : Nat
  deriving DecidableEq, Repr

inductive MaterializeBlockError where
  | database (error : ProcessingDbError)
  | incomingBoundaryIdentity (hash : BlockHash)
  | nonMaterializedReferences (missing identityOnly : List BlockHash)
  deriving DecidableEq, Repr

inductive GraphUpdateOfferOutcome where
  | suppressedAwaitingCatchup
  | enqueued
  | gapReported
  deriving DecidableEq, Repr

inductive GraphUpdateProducerError where
  | receiverClosed
  deriving DecidableEq, Repr

inductive BlockDisposition where
  | persisted
  | orphaned
  deriving DecidableEq, Repr

inductive BlockProcessorEffect where
  | ppBoundarySealed
  | fault (fault : ComponentFault)
  | materialized (block : ValidatedNodeBlock) (policy : ReferencePolicy)
      (outcome : Except MaterializeBlockError MaterializeBlockOutcome)
  | offered (committed : BlockCommitted)
  | persisted (block : PersistedBlock)
  | orphanMessage (message : OrphanMessage)

structure BlockAnswers where
  presence : Except ProcessingDbError BlockPresence
  materialization : Except MaterializeBlockError MaterializeBlockOutcome
  offer : Except GraphUpdateProducerError GraphUpdateOfferOutcome
  persistedInput : Except TrySendError Unit
  orphanInput : Except TrySendError Unit
  eventPathOpen : Bool
  orphanShutdown : Except ChildControlError Unit

structure BlockProcessorWorker where
  rpc : GenerationBinding
  db : GenerationBinding
  run : BlockProcessorRun
  faulted : Bool
  overlap : Bool
  orphan : Bool
  /-- The processor owns its worker until the start and the worker task runs until a shutdown. -/
  started : Bool
  stopped : Bool
  initialization : Option BlockProcessorInitialization
  trace : List BlockProcessorEffect

/--
What is handled next. The answers that are not asked for are ignored.
-/
inductive BlockProcessorInput where
  | initializeRun (initialization : BlockProcessorInitialization)
  | start (eventPathOpen : Bool)
  | catchup (knownIdLowerBound : CompactId) (orphanShutdown : Except ChildControlError Unit)
  | live (orphanShutdown : Except ChildControlError Unit)
  | shutdown
  | commandPathClosed (orphanShutdown : Except ChildControlError Unit)
  | childFault (fault : Option ChildFault) (orphanShutdown : Except ChildControlError Unit)
  | resolution (event : Option BlockResolutionEvent) (answers : BlockAnswers)
  | notification (block : ValidatedNodeBlock) (answers : BlockAnswers)
  | synthetic (block : ValidatedNodeBlock) (answers : BlockAnswers)

namespace BlockProcessorWorker

def new (mode : RecoveryMode) (rpc db : GenerationBinding) : BlockProcessorWorker where
  rpc := rpc
  db := db
  run := .inert mode
  faulted := false
  overlap := false
  orphan := true
  started := false
  stopped := false
  initialization := none
  trace := []

def emit (worker : BlockProcessorWorker) (effect : BlockProcessorEffect) : BlockProcessorWorker :=
  { worker with trace := worker.trace ++ [effect] }

def invalidLifecycle (diagnostic : String) : ComponentFault :=
  ownershipFault .blockProcessor .invalidLifecycleControl diagnostic

def milestonePathClosed : ComponentFault :=
  ownershipFault .blockProcessor .internalControlPathLost "BlockProcessor milestone path closed"

def isLive (worker : BlockProcessorWorker) : Bool :=
  match worker.run with
  | .inert _ => false
  | .active stage _ _ => stage.isLive

def initializeRun (worker : BlockProcessorWorker) (initialization : BlockProcessorInitialization) :
    Except ComponentFault BlockProcessorWorker :=
  match worker.run with
  | .active _ _ _ =>
    .error (invalidLifecycle "BlockProcessor initialization requires an inert worker")
  | .inert mode =>
    if worker.faulted then
      .error (invalidLifecycle "BlockProcessor initialization requires an inert worker")
    else if worker.rpc.networkId ≠ worker.db.networkId ∨ worker.rpc.genesisHash ≠ worker.db.genesisHash ∨
        initialization.anchor.blueScore > maxBlueScore then
      .error (invalidLifecycle "BlockProcessor generations or anchor are inconsistent")
    else if mode = .resync ∧
        initialization.anchor.blueScore < initialization.boundarySealBlueScore then
      .error (invalidLifecycle "Resync anchor is below the sealed boundary")
    else
      let genesis := initialization.anchor.point.hash = worker.db.genesisHash
      if mode = .rebuild ∧ genesis ∧
          (initialization.anchor.blueScore ≠ 0 ∨ initialization.boundarySealBlueScore ≠ 0) then
        .error (invalidLifecycle "Genesis Rebuild requires zero blue scores")
      else
        let phase : SealPhase :=
          if mode = .rebuild ∧ ¬ genesis then
            .preSeal initialization.boundarySealBlueScore
          else
            .postSeal
        .ok { worker with
          run := .active (.synchronizing phase) ∅ (mode = .rebuild ∧ genesis)
          initialization := some initialization }

def startup (worker : BlockProcessorWorker) (eventPathOpen : Bool) : BlockProcessorWorker :=
  match worker.run with
  | .inert _ => worker
  | .active _ _ emitBoundarySealedOnStart =>
    if emitBoundarySealedOnStart then
      if eventPathOpen then worker.emit .ppBoundarySealed else { worker with faulted := true }
    else
      worker

def enterFault (worker : BlockProcessorWorker) (fault : ComponentFault)
    (orphanShutdown : Except ChildControlError Unit) : BlockProcessorWorker :=
  if worker.faulted then
    worker
  else
    let reported := { worker with faulted := true }.emit (.fault fault)
    if worker.orphan then
      match orphanShutdown with
      | .ok _ => { reported with orphan := false }
      | .error error =>
        { reported with orphan := false }.emit
          (.fault (childControlFault .orphanManager error "OrphanManager fault barrier"))
    else
      reported

def catchup (worker : BlockProcessorWorker) (knownIdLowerBound : CompactId)
    (orphanShutdown : Except ChildControlError Unit) : BlockProcessorWorker :=
  match worker.run with
  | .active (.synchronizing .postSeal) _ emitBoundarySealedOnStart =>
    { worker with
      run := .active (.catchup knownIdLowerBound) ∅ emitBoundarySealedOnStart
      overlap := false }
  | _ =>
    worker.enterFault (invalidLifecycle "Catchup requires active PostSeal synchronization")
      orphanShutdown

def live (worker : BlockProcessorWorker) (orphanShutdown : Except ChildControlError Unit) :
    BlockProcessorWorker :=
  match worker.run with
  | .active (.catchup _) sources emitBoundarySealedOnStart =>
    { worker with run := .active .live sources emitBoundarySealedOnStart }
  | _ => worker.enterFault (invalidLifecycle "Live requires active Catchup") orphanShutdown

def shutdownWorker (worker : BlockProcessorWorker) : BlockProcessorWorker :=
  { worker with overlap := false, orphan := false, stopped := true }

def reportCommandPathLoss (worker : BlockProcessorWorker)
    (orphanShutdown : Except ChildControlError Unit) : BlockProcessorWorker :=
  match worker.run with
  | .inert _ => worker
  | .active _ _ _ =>
    worker.enterFault
      (ownershipFault .blockProcessor .internalControlPathLost
        "BlockProcessor command path closed while the worker was active")
      orphanShutdown

def deliverPersisted (worker : BlockProcessorWorker) (block : ValidatedNodeBlock) (id : CompactId)
    (answers : BlockAnswers) : BlockProcessorWorker × Option ComponentFault :=
  let persisted : PersistedBlock := ⟨⟨⟨block.blueWork, block.hash⟩, id⟩, block.selectedParent⟩
  let (worker, firstFault) :=
    match answers.persistedInput with
    | .ok _ => (worker.emit (.persisted persisted), none)
    | .error error =>
      (worker, some (boundedSendFault .blockProcessor worker.isLive
        "VspcProcessor persisted-block input" error))
  match answers.orphanInput with
  | .ok _ => (worker.emit (.orphanMessage (.blockPersisted block.hash)), firstFault)
  | .error error =>
    (worker, some (firstFault.getD
      (boundedSendFault .blockProcessor worker.isLive "OrphanManager input" error)))

def delivered : BlockProcessorWorker × Option ComponentFault →
    BlockProcessorWorker × Except ComponentFault BlockDisposition
  | (worker, none) => (worker, .ok .persisted)
  | (worker, some fault) => (worker, .error fault)

def isSealing (stage : RunStage) (block : ValidatedNodeBlock) : Bool :=
  match stage with
  | .synchronizing (.preSeal sealBlueScore) => sealBlueScore ≤ block.blueScore
  | _ => false

def isPreSeal (stage : RunStage) : Bool :=
  match stage.sealPhase with
  | .preSeal _ => true
  | .postSeal => false

def referencePolicy (stage : RunStage) (block : ValidatedNodeBlock) : ReferencePolicy :=
  if isPreSeal stage ∧ ¬ isSealing stage block then .allowBoundaryIdentities else .requireMaterialized

def offerSuppressed : Except GraphUpdateProducerError GraphUpdateOfferOutcome → Bool
  | .ok .suppressedAwaitingCatchup => true
  | .ok .enqueued => false
  | .ok .gapReported => false
  | .error .receiverClosed => true

def announceSealed (worker : BlockProcessorWorker) (sources : Map BlockHash SourceBits)
    (emitBoundarySealedOnStart : Bool) (answers : BlockAnswers)
    (deliveryFault : Option ComponentFault) :
    BlockProcessorWorker × Except ComponentFault BlockDisposition :=
  let worker := { worker with
    run := .active (.synchronizing .postSeal) sources emitBoundarySealedOnStart }
  if answers.eventPathOpen then
    delivered (worker.emit .ppBoundarySealed, deliveryFault)
  else
    (worker, .error milestonePathClosed)

def finishInserted (worker : BlockProcessorWorker) (stage : RunStage)
    (sources : Map BlockHash SourceBits) (emitBoundarySealedOnStart : Bool)
    (block : ValidatedNodeBlock) (committed : BlockCommitted) (answers : BlockAnswers) :
    BlockProcessorWorker × Except ComponentFault BlockDisposition :=
  let worker := worker.emit (.offered committed)
  if isPreSeal stage ∧ ¬ offerSuppressed answers.offer then
    (worker, .error (ownershipFault .blockProcessor .invalidLifecycleControl
      "Pre-Catchup graph update was not suppressed"))
  else
    let (worker, deliveryFault) := worker.deliverPersisted block committed.id answers
    if isSealing stage block then
      worker.announceSealed sources emitBoundarySealedOnStart answers deliveryFault
    else
      delivered (worker, deliveryFault)

def admitOrphan (worker : BlockProcessorWorker) (stage : RunStage) (block : ValidatedNodeBlock)
    (missing : List BlockHash) (answers : BlockAnswers) :
    BlockProcessorWorker × Except ComponentFault BlockDisposition :=
  if stage.permitsOrphans then
    match answers.orphanInput with
    | .ok _ => (worker.emit (.orphanMessage (.addOrphan block missing)), .ok .orphaned)
    | .error error =>
      (worker, .error (boundedSendFault .blockProcessor worker.isLive "OrphanManager input" error))
  else
    (worker, .error ⟨.blockProcessor, .require .resync, .reconciliationFailed,
      "strict pre-Catchup block has absent references"⟩)

def materialize (worker : BlockProcessorWorker) (stage : RunStage) (sources : Map BlockHash SourceBits)
    (emitBoundarySealedOnStart : Bool) (block : ValidatedNodeBlock) (answers : BlockAnswers) :
    BlockProcessorWorker × Except ComponentFault BlockDisposition :=
  let worker :=
    worker.emit (.materialized block (referencePolicy stage block) answers.materialization)
  match answers.materialization with
  | .ok (.alreadyMaterialized id _) => delivered (worker.deliverPersisted block id answers)
  | .ok (.inserted committed) =>
    worker.finishInserted stage sources emitBoundarySealedOnStart block committed answers
  | .error (.incomingBoundaryIdentity hash) =>
    (worker, .error (materialityFault hash "incoming block is a boundary identity"))
  | .error (.nonMaterializedReferences missing identityOnly) =>
    if identityOnly ≠ [] then
      (worker, .error (materialityFault block.hash
        ("block references include " ++ toString identityOnly.length ++ " boundary identities and " ++
          toString missing.length ++ " absent hashes")))
    else
      worker.admitOrphan stage block missing answers
  | .error (.database error) => (worker, .error (storageFault error worker.isLive))

def admitBlock (worker : BlockProcessorWorker) (stage : RunStage) (sources : Map BlockHash SourceBits)
    (emitBoundarySealedOnStart : Bool) (block : ValidatedNodeBlock) (presence : BlockPresence)
    (answers : BlockAnswers) : BlockProcessorWorker × Except ComponentFault BlockDisposition :=
  match presence with
  | .boundaryIdentity _ =>
    (worker, .error (materialityFault block.hash "incoming block is a boundary identity"))
  | .materialized id _ => delivered (worker.deliverPersisted block id answers)
  | .absent => worker.materialize stage sources emitBoundarySealedOnStart block answers

def recordSource (worker : BlockProcessorWorker) (hash : BlockHash) (source : BlockSource) :
    BlockProcessorWorker :=
  match worker.run with
  | .active (.catchup knownIdLowerBound) sources emitBoundarySealedOnStart =>
    if source = .resolution then
      worker
    else
      let bits := (sources[hash]?.getD .default).insert source
      { worker with
        run := .active (.catchup knownIdLowerBound) (sources.insert hash bits) emitBoundarySealedOnStart
        overlap := worker.overlap || bits.overlaps }
  | _ => worker

def isRepeated (stage : RunStage) (sources : Map BlockHash SourceBits) (hash : BlockHash)
    (presence : BlockPresence) (source : BlockSource) : Bool :=
  source = .notification &&
    ((match stage, presence with
      | .catchup knownIdLowerBound, .boundaryIdentity id => decide (id < knownIdLowerBound)
      | .catchup knownIdLowerBound, .materialized id _ => decide (id < knownIdLowerBound)
      | _, _ => false) ||
      (sources[hash]?.getD .default).contains source)

def settle (worker : BlockProcessorWorker) (block : ValidatedNodeBlock) (source : BlockSource)
    (answers : BlockAnswers) : Except ComponentFault BlockDisposition → BlockProcessorWorker
  | .ok _ => worker.recordSource block.hash source
  | .error fault => worker.enterFault fault answers.orphanShutdown

def handleBlock (worker : BlockProcessorWorker) (block : ValidatedNodeBlock) (source : BlockSource)
    (answers : BlockAnswers) : BlockProcessorWorker :=
  match worker.run with
  | .inert _ => worker
  | .active stage sources emitBoundarySealedOnStart =>
    if source = .notification ∧ ¬ stage.acceptsNotifications then
      worker
    else
      match answers.presence with
      | .error error => worker.enterFault (storageFault error worker.isLive) answers.orphanShutdown
      | .ok presence =>
        if isRepeated stage sources block.hash presence source then
          worker
        else
          let (worker, result) :=
            worker.admitBlock stage sources emitBoundarySealedOnStart block presence answers
          worker.settle block source answers result

def handleResolution (worker : BlockProcessorWorker) (event : BlockResolutionEvent)
    (answers : BlockAnswers) : BlockProcessorWorker :=
  match event with
  | .orphanReady block => worker.handleBlock block .resolution answers
  | .dependencyResolved requestedHash (.block block) =>
    if block.hash ≠ requestedHash then
      worker.enterFault
        (ownershipFault .dependencyResolver .invalidLifecycleControl
          "DependencyResolver returned a different block hash")
        answers.orphanShutdown
    else
      worker.handleBlock block .resolution answers
  | .dependencyResolved requestedHash (.nodeError error) =>
    worker.enterFault (nodeFault error worker.isLive requestedHash) answers.orphanShutdown

def handleChildFault (worker : BlockProcessorWorker) (fault : Option ChildFault)
    (orphanShutdown : Except ChildControlError Unit) : BlockProcessorWorker :=
  match fault with
  | some fault => worker.enterFault (childFault fault worker.isLive) orphanShutdown
  | none =>
    worker.enterFault
      (ownershipFault .orphanManager .unexpectedWorkerTermination "OrphanManager fault path closed")
      orphanShutdown

def resolutionClosed (worker : BlockProcessorWorker)
    (orphanShutdown : Except ChildControlError Unit) : BlockProcessorWorker :=
  worker.enterFault
    (sessionEndpointFault .orphanManager worker.isLive "block-resolution endpoint closed")
    orphanShutdown

def running (worker : BlockProcessorWorker) : Bool :=
  worker.started && !worker.stopped

def serves (worker : BlockProcessorWorker) : Bool :=
  match worker.run with
  | .inert _ => false
  | .active _ _ _ => !worker.faulted

def command (worker next : BlockProcessorWorker) : Option BlockProcessorWorker :=
  if worker.running then some next else none

def serve (worker next : BlockProcessorWorker) : Option BlockProcessorWorker :=
  worker.command (if worker.serves then next else worker)

def step (worker : BlockProcessorWorker) : BlockProcessorInput → Option BlockProcessorWorker
  | .initializeRun initialization =>
    if worker.started then none
    else
      match worker.initializeRun initialization with
      | .error _ => some worker
      | .ok worker => some worker
  | .start eventPathOpen =>
    if worker.started then none else some { worker.startup eventPathOpen with started := true }
  | .catchup knownIdLowerBound orphanShutdown =>
    worker.command (worker.catchup knownIdLowerBound orphanShutdown)
  | .live orphanShutdown => worker.command (worker.live orphanShutdown)
  | .shutdown => worker.command worker.shutdownWorker
  | .commandPathClosed orphanShutdown =>
    worker.command (worker.reportCommandPathLoss orphanShutdown).shutdownWorker
  | .childFault fault orphanShutdown => worker.serve (worker.handleChildFault fault orphanShutdown)
  | .resolution (some event) answers => worker.serve (worker.handleResolution event answers)
  | .resolution none answers => worker.serve (worker.resolutionClosed answers.orphanShutdown)
  | .notification block answers => worker.serve (worker.handleBlock block .notification answers)
  | .synthetic block answers => worker.serve (worker.handleBlock block .synthetic answers)

end BlockProcessorWorker

end Kgi
