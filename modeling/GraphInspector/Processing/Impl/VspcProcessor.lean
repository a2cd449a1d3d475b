import GraphInspector.Data.Multimap
import GraphInspector.Data.Run
import GraphInspector.Processing.Impl.Fault
import GraphInspector.Storage.Impl.Vspc

/-!
The VSPC processor of one session: its history of persisted blocks, the indexes of its pending changes, and
the choice of the next action. Synthetic changes are committed in order, and notified changes are filtered
during Catchup and committed in Live.
-/

namespace Kgi

open Data

def maxPendingVspcChanges : Nat := 1024

inductive VspcPhase where
  | synchronizing
  | catchup (syntheticSinkLowerBound : VspcPoint)
  | live
  deriving DecidableEq, Repr

def VspcPhase.isLive : VspcPhase → Bool
  | .live => true
  | _ => false

inductive CandidateSource where
  | synthetic
  | notification
  deriving DecidableEq, Repr

abbrev PendingId := Nat

structure PendingCandidate where
  source : CandidateSource
  change : VspcChange
  destination : BlockHash
  missing : KeySet BlockHash
  resolvedDestinationOrder : Option ConsensusOrder
  overlapCredited : Bool

structure MaterializedHistory where
  byHash : Map BlockHash PersistedBlock
  byOrder : Map ConsensusOrder BlockHash

namespace MaterializedHistory

def insert (history : MaterializedHistory) (persisted : PersistedBlock) : MaterializedHistory :=
  if history.byHash.contains persisted.point.hash then
    history
  else
    ⟨history.byHash.insert persisted.point.hash persisted,
      history.byOrder.insert persisted.point.order persisted.point.hash⟩

def new (anchor : MaterializedSyncAnchor) : MaterializedHistory :=
  insert ⟨∅, ∅⟩ ⟨anchor.point, anchor.selectedParent⟩

def remove (history : MaterializedHistory) (order : ConsensusOrder) : MaterializedHistory :=
  match history.byOrder[order]? with
  | none => history
  | some hash => ⟨history.byHash.erase hash, history.byOrder.erase order⟩

def pruneBelow (history : MaterializedHistory) (sink : VspcPoint) : MaterializedHistory :=
  ((history.byOrder.toList.map Prod.fst).filter fun order => order < sink.order).foldl remove history

end MaterializedHistory

structure VspcState where
  phase : VspcPhase
  committedSink : VspcPoint
  history : MaterializedHistory
  nextPendingId : PendingId
  pending : Map PendingId PendingCandidate
  missingToPending : Multimap BlockHash PendingId
  notificationByDestination : Map BlockHash PendingId
  resolvedNotifications : Map ConsensusOrder PendingId
  syntheticFifo : List PendingId

inductive DriveAction where
  | discard (id : PendingId) (overlap : Bool)
  | normalizeCrossing (id : PendingId) (suffix : List BlockHash)
  | markOverlap (id : PendingId)
  | commit (id : PendingId)
  | competingNotifications
  | syntheticSourceMismatch
  deriving DecidableEq, Repr

namespace VspcState

def new (anchor : MaterializedSyncAnchor) : VspcState where
  phase := .synchronizing
  committedSink := anchor.point
  history := .new anchor
  nextPendingId := 0
  pending := ∅
  missingToPending := ∅
  notificationByDestination := ∅
  resolvedNotifications := ∅
  syntheticFifo := []

def unlink (state : VspcState) (id : PendingId) (candidate : PendingCandidate) : VspcState :=
  { state with
    missingToPending := candidate.missing.toList.foldl
      (fun waiters hash => Multimap.remove waiters hash id) state.missingToPending }

def unresolve (state : VspcState) (order : Option ConsensusOrder) : VspcState :=
  match order with
  | some order => { state with resolvedNotifications := state.resolvedNotifications.erase order }
  | none => state

def removeCandidate (state : VspcState) (id : PendingId) : VspcState :=
  match state.pending[id]? with
  | none => state
  | some candidate =>
    let state := { state with pending := state.pending.erase id }.unlink id candidate
    if candidate.source = .notification then
      { state with
        notificationByDestination := state.notificationByDestination.erase candidate.destination
        }.unresolve candidate.resolvedDestinationOrder
    else
      { state with syntheticFifo := state.syntheticFifo.filter fun pending => pending ≠ id }

def clearSynthetic (state : VspcState) : VspcState :=
  state.syntheticFifo.foldl removeCandidate state

def neededHistory (history : MaterializedHistory) (change : VspcChange) : List BlockHash :=
  change.added.getLast?.toList ++
    match change.removed.head? with
    | some source => [source]
    | none =>
      change.added ++ (change.added.head?.bind fun first =>
        history.byHash[first]?.map PersistedBlock.selectedParent).toList

def requiredHistory (state : VspcState) (change : VspcChange) : KeySet BlockHash :=
  KeySet.ofElems ((neededHistory state.history change).filter fun hash =>
    !state.history.byHash.contains hash)

def endpoints (state : VspcState) (change : VspcChange) : Option (VspcPoint × VspcPoint) := do
  let destinationHash ← change.added.getLast?
  let destination ← state.history.byHash[destinationHash]?
  let sourceHash ←
    match change.removed.head? with
    | some source => some source
    | none => do
      let first ← state.history.byHash[(← change.added.head?)]?
      some first.selectedParent
  let source ← state.history.byHash[sourceHash]?
  some (source.point, destination.point)

def refreshCandidate (state : VspcState) (id : PendingId) : VspcState :=
  match state.pending[id]? with
  | none => state
  | some candidate =>
    let unlinked := { state with pending := state.pending.erase id }.unlink id candidate
    let unlinked :=
      if candidate.source = .notification then unlinked.unresolve candidate.resolvedDestinationOrder
      else unlinked
    let missing := state.requiredHistory candidate.change
    let order := state.history.byHash[candidate.destination]?.map fun block => block.point.order
    { unlinked with
      pending := state.pending.insert id
        { candidate with missing := missing, resolvedDestinationOrder := order }
      missingToPending := missing.toList.foldl
        (fun waiters hash => Multimap.add waiters hash id) unlinked.missingToPending
      resolvedNotifications :=
        if candidate.source = .notification then
          match order with
          | some order => unlinked.resolvedNotifications.insert order id
          | none => unlinked.resolvedNotifications
        else
          unlinked.resolvedNotifications }

def refreshAll (state : VspcState) (ids : List PendingId) : VspcState :=
  ids.foldl refreshCandidate state

def pruneHistory (state : VspcState) : VspcState :=
  let pruned := { state with history := state.history.pruneBelow state.committedSink }
  pruned.refreshAll (pruned.pending.toList.map Prod.fst)

def persist (state : VspcState) (persisted : PersistedBlock) : VspcState :=
  if state.history.byHash.contains persisted.point.hash then
    state
  else
    let inserted := { state with history := state.history.insert persisted }
    inserted.refreshAll (Multimap.bucket state.missingToPending persisted.point.hash)

def admitChange (state : VspcState) (change : VspcChange) (destination : BlockHash)
    (source : CandidateSource) : VspcState :=
  let id := state.nextPendingId
  let admitted := { state with
    nextPendingId := id + 1
    pending := state.pending.insert id ⟨source, change, destination, ∅, none, false⟩ }
  let indexed :=
    match source with
    | .synthetic => { admitted with syntheticFifo := admitted.syntheticFifo ++ [id] }
    | .notification =>
      { admitted with
        notificationByDestination := admitted.notificationByDestination.insert destination id }
  indexed.refreshCandidate id

def suffixAfter (hash : BlockHash) (path : List BlockHash) : List BlockHash :=
  (path.dropWhile fun other => other ≠ hash).tail

def startsAtSink (state : VspcState) (change : VspcChange) : Bool :=
  (state.endpoints change).any fun endpoints => endpoints.1 = state.committedSink

def catchupAction (state : VspcState) (syntheticSinkLowerBound : VspcPoint)
    (entry : ConsensusOrder × PendingId) : Option DriveAction :=
  let (order, id) := entry
  match state.pending[id]? with
  | none => none
  | some candidate =>
    if order < syntheticSinkLowerBound.order then
      some (.discard id false)
    else if order ≤ state.committedSink.order then
      some (.discard id true)
    else if suffixAfter state.committedSink.hash candidate.change.added ≠ [] then
      some (.normalizeCrossing id (suffixAfter state.committedSink.hash candidate.change.added))
    else if !candidate.overlapCredited && state.startsAtSink candidate.change then
      some (.markOverlap id)
    else
      none

def liveAction (state : VspcState) : Option DriveAction :=
  let entries := state.resolvedNotifications.toList
  match entries.find? fun entry => entry.1 ≤ state.committedSink.order with
  | some (_, id) => some (.discard id false)
  | none =>
    match (entries.map Prod.snd).filter fun id =>
        state.pending[id]?.any fun candidate => state.startsAtSink candidate.change with
    | [] => none
    | [id] => some (.commit id)
    | _ => some .competingNotifications

def phaseAction (state : VspcState) : Option DriveAction :=
  match state.phase with
  | .synchronizing => none
  | .catchup syntheticSinkLowerBound =>
    state.resolvedNotifications.toList.findSome? (state.catchupAction syntheticSinkLowerBound)
  | .live => state.liveAction

def nextAction (state : VspcState) : Option DriveAction :=
  match state.syntheticFifo.head?.bind fun id =>
      (state.pending[id]?.filter fun candidate => candidate.missing.isEmpty).map (id, ·) with
  | some (id, candidate) =>
    (state.endpoints candidate.change).map fun (source, _) =>
      if source = state.committedSink then .commit id else .syntheticSourceMismatch
  | none => state.phaseAction

end VspcState

inductive VspcApplyError where
  | database (error : ProcessingDbError)
  | sourceDiscontinuity
  | memberNotMaterialized (id : CompactId)
  | pathDiscontinuity (conflict : VspcPathConflict)
  deriving DecidableEq, Repr

inductive ResolveMaterializedIdsError where
  | database (error : ProcessingDbError)
  | nonMaterialized (missing identityOnly : List BlockHash)
  deriving DecidableEq, Repr

structure VspcAnswers where
  resolution : Except ResolveMaterializedIdsError (List CompactId)
  apply : Except VspcApplyError VspcCommitOutcome
  attribution : Option (Except NodeError ValidatedNodeBlock)

structure PreparedCandidate where
  source : CandidateSource
  hashes : VspcChange
  ready : ReadyVspcChange
  deriving DecidableEq, Repr

inductive VspcPathAttribution where
  | storedParentConflict
  | candidatePathConflict
  | storedAndCandidateConflict
  | attributionBlockUnavailable
  deriving DecidableEq, Repr

namespace VspcFault

def invalidLifecycle (diagnostic : String) : ComponentFault :=
  ownershipFault .vspcProcessor .invalidLifecycleControl diagnostic

def malformedNotification (reason : MalformedVspcNotificationReason) (mode : RecoveryMode) :
    ComponentFault :=
  ⟨.vspcProcessor, .require mode, .notificationInputInvalid (.malformedVspcChange reason),
    "malformed VSPC notification: " ++ reason.debug⟩

def malformedSynthetic (reason : MalformedVspcResponseReason) : ComponentFault :=
  ⟨.vspcProcessor, .retry, .recoveryInputInvalid (.malformedVspcResponse reason),
    "malformed synthetic VSPC response: " ++ reason.debug⟩

def malformedChange (source : CandidateSource) (reason : MalformedVspcNotificationReason) :
    ComponentFault :=
  match source with
  | .synthetic => malformedSynthetic .removedChainWithoutAddedPath
  | .notification => malformedNotification reason .resync

def sourceDiscontinuity : CandidateSource → ComponentFault
  | .synthetic => malformedSynthetic .resolvedSourceDiscontinuity
  | .notification => malformedNotification .resolvedSourceDiscontinuity .resync

def pendingExhausted : ComponentFault :=
  ⟨.vspcProcessor, .require .resync, .boundedStateExhausted .vspcPending,
    "VSPC pending capacity is exhausted"⟩

def memberNotMaterialized (id : CompactId) : ComponentFault :=
  ⟨.vspcProcessor, .require .rebuild, .materialityViolation,
    "VSPC member " ++ toString id ++ " is not materialized"⟩

def nonMaterialized (missing identityOnly : List BlockHash) : ComponentFault :=
  ⟨.vspcProcessor, .require .rebuild, .materialityViolation,
    "VSPC chain contains " ++ toString missing.length ++ " absent and " ++
      toString identityOnly.length ++ " boundary-only members"⟩

def attribution (source : CandidateSource) (attribution : VspcPathAttribution) : ComponentFault :=
  match source, attribution with
  | _, .storedParentConflict =>
    ⟨.vspcProcessor, .require .rebuild, .reconciliationFailed,
      "stored VSPC selected parent conflicts with the current node"⟩
  | .synthetic, .candidatePathConflict => malformedSynthetic .selectedParentPathDiscontinuity
  | .synthetic, .storedAndCandidateConflict =>
    { malformedSynthetic .selectedParentPathDiscontinuity with disposition := .require .rebuild }
  | .synthetic, .attributionBlockUnavailable => malformedSynthetic .selectedParentPathDiscontinuity
  | .notification, .storedAndCandidateConflict =>
    malformedNotification .selectedParentPathDiscontinuity .rebuild
  | .notification, _ => malformedNotification .selectedParentPathDiscontinuity .resync

def nodeOperation (error : NodeError) (isLive : Bool) (hash : BlockHash) : ComponentFault :=
  { nodeFault error isLive hash with
    source := .nodeService
    diagnostic := "VSPC attribution block " ++ hash.toHex ++ ": " ++ error.text }

end VspcFault

inductive VspcProcessorRun where
  | inert (mode : RecoveryMode)
  | active (state : VspcState)

inductive VspcProcessorEffect where
  | fault (fault : ComponentFault)
  /-- A persisted block reached the history. -/
  | delivered (block : PersistedBlock)
  | applied (phase : VspcPhase) (ready : ReadyVspcChange) (hashes : VspcChange)
  | offered (update : VspcCommitted)
  deriving DecidableEq, Repr

structure VspcProcessorWorker where
  run : VspcProcessorRun
  faulted : Bool
  overlap : Bool
  started : Bool
  stopped : Bool
  /-- The last action was cut short, so the lanes are served once. -/
  deferred : Bool
  anchor : Option MaterializedSyncAnchor
  trace : List VspcProcessorEffect

inductive VspcProcessorInput where
  | initializeRun (anchor : MaterializedSyncAnchor)
  | start
  | catchup (syntheticSinkLowerBound : VspcPoint)
  | live
  | shutdown
  | commandPathClosed
  | drive (answers : VspcAnswers)
  | persisted (block : Option PersistedBlock)
  | synthetic (change : VspcChange)
  | notification (change : VspcChange)

namespace VspcProcessorWorker

def new (mode : RecoveryMode) : VspcProcessorWorker where
  run := .inert mode
  faulted := false
  overlap := false
  started := false
  stopped := false
  deferred := false
  anchor := none
  trace := []

def emit (worker : VspcProcessorWorker) (effect : VspcProcessorEffect) : VspcProcessorWorker :=
  { worker with trace := worker.trace ++ [effect] }

def enterFault (worker : VspcProcessorWorker) (fault : ComponentFault) : VspcProcessorWorker :=
  if worker.faulted then worker else { worker with faulted := true }.emit (.fault fault)

def initializeRun (worker : VspcProcessorWorker) (anchor : MaterializedSyncAnchor) :
    Except ComponentFault VspcProcessorWorker :=
  match worker.run with
  | .active _ =>
    .error (VspcFault.invalidLifecycle "VspcProcessor initialization requires an inert worker")
  | .inert _ =>
    if worker.faulted then
      .error (VspcFault.invalidLifecycle "VspcProcessor initialization requires an inert worker")
    else
      .ok { worker with run := .active (.new anchor), overlap := false, anchor := some anchor }

def catchup (worker : VspcProcessorWorker) (syntheticSinkLowerBound : VspcPoint) :
    VspcProcessorWorker :=
  let invalid := worker.enterFault (VspcFault.invalidLifecycle "Catchup requires active synchronization")
  match worker.run with
  | .inert _ => invalid
  | .active state =>
    if state.phase = .synchronizing then
      { worker with
        run := .active { state with phase := .catchup syntheticSinkLowerBound }
        overlap := false }
    else
      invalid

def live (worker : VspcProcessorWorker) : VspcProcessorWorker :=
  let invalid := worker.enterFault (VspcFault.invalidLifecycle "Live requires active Catchup")
  match worker.run with
  | .inert _ => invalid
  | .active state =>
    match state.phase with
    | .catchup _ =>
      { worker with run := .active { state.clearSynthetic with phase := .live }.pruneHistory }
    | _ => invalid

def reportCommandPathLoss (worker : VspcProcessorWorker) : VspcProcessorWorker :=
  match worker.run with
  | .inert _ => worker
  | .active _ =>
    worker.enterFault (ownershipFault .vspcProcessor .internalControlPathLost
      "VspcProcessor command path closed while the worker was active")

def handlePersisted (worker : VspcProcessorWorker) (state : VspcState) (persisted : PersistedBlock) :
    VspcProcessorWorker :=
  { worker with run := .active (state.persist persisted) }.emit (.delivered persisted)

def handleChange (worker : VspcProcessorWorker) (state : VspcState) (change : VspcChange)
    (source : CandidateSource) : VspcProcessorWorker :=
  match change.added.getLast? with
  | none => worker.enterFault (VspcFault.malformedChange source .removedChainWithoutAddedPath)
  | some destination =>
    if source = .notification ∧ state.phase = .synchronizing then
      worker
    else if source = .synthetic ∧ state.phase = .live then
      worker
    else
      match (if source = .notification then state.notificationByDestination[destination]? else none) with
      | some existing =>
        let reason : MalformedVspcNotificationReason :=
          if state.pending[existing]?.any fun candidate => candidate.change = change then
            .duplicatePendingTransition
          else
            .contradictoryDestination
        worker.enterFault (VspcFault.malformedNotification reason .resync)
      | none =>
        if state.pending.size = maxPendingVspcChanges then
          worker.enterFault VspcFault.pendingExhausted
        else
          { worker with run := .active (state.admitChange change destination source) }

def resolveMembers (state : VspcState) (change : VspcChange) (answers : VspcAnswers) :
    Except ComponentFault (Option (List CompactId × List CompactId)) :=
  if change.removed = [] then
    match change.added.mapM fun hash => state.history.byHash[hash]?.map fun block => block.point.id with
    | some added => .ok (some ([], added))
    | none => .error (VspcFault.invalidLifecycle "added-only VSPC readiness lacks member history")
  else
    match answers.resolution with
    | .error (.database error) => .error (storageFault error state.phase.isLive)
    | .error (.nonMaterialized missing identityOnly) =>
      .error (VspcFault.nonMaterialized missing identityOnly)
    | .ok ids =>
      let byHash := (firstOccurrences (change.removed ++ change.added)).zip ids
      let resolve := fun hashes : List BlockHash => hashes.mapM fun hash => byHash.lookup hash
      .ok do pure (← resolve change.removed, ← resolve change.added)

def prepareCandidate (state : VspcState) (candidate : PendingCandidate) (answers : VspcAnswers) :
    Except ComponentFault (Option PreparedCandidate) :=
  match state.endpoints candidate.change with
  | none =>
    .error (VspcFault.invalidLifecycle "VSPC candidate became actionable without endpoint history")
  | some (source, destination) =>
    (resolveMembers state candidate.change answers).map fun members =>
      members.map fun (removed, added) =>
        ⟨candidate.source, candidate.change, ⟨source, destination, removed, added⟩⟩

def finishCommit (worker : VspcProcessorWorker) (state : VspcState) (id : PendingId)
    (prepared : PreparedCandidate) (outcome : VspcCommitOutcome) : VspcProcessorWorker :=
  let committed := { state with committedSink := outcome.destination }.removeCandidate id
  let pruned :=
    match committed.phase with
    | .catchup _ => committed
    | _ => committed.pruneHistory
  ({ worker with run := .active pruned }.emit
    (.applied state.phase prepared.ready prepared.hashes)).emit
    (.offered ⟨prepared.ready.source.hash, outcome.destination.hash, prepared.hashes.removed,
      prepared.hashes.added, outcome.levelSnapshots⟩)

def attributePath (state : VspcState) (source : CandidateSource) (conflict : VspcPathConflict) :
    Option (Except NodeError ValidatedNodeBlock) → Option ComponentFault
  | none => none
  | some (.ok block) =>
    some (VspcFault.attribution source
      (if block.selectedParent = conflict.expectedParent then .storedParentConflict
        else if block.selectedParent = conflict.storedParent then .candidatePathConflict
        else .storedAndCandidateConflict))
  | some (.error error) =>
    if error.kind = .blockNotFound then
      some (VspcFault.attribution source .attributionBlockUnavailable)
    else
      some (VspcFault.nodeOperation error state.phase.isLive conflict.child)

def commitCandidate (worker : VspcProcessorWorker) (state : VspcState) (id : PendingId)
    (answers : VspcAnswers) : Option VspcProcessorWorker := do
  let candidate ← state.pending[id]?
  match prepareCandidate state candidate answers with
  | .error fault => some (worker.enterFault fault)
  | .ok none => none
  | .ok (some prepared) =>
    match answers.apply with
    | .ok outcome =>
      if outcome.destination = prepared.ready.destination then
        some (worker.finishCommit state id prepared outcome)
      else
        none
    | .error (.database error) => some (worker.enterFault (storageFault error state.phase.isLive))
    | .error .sourceDiscontinuity =>
      some (worker.enterFault (VspcFault.sourceDiscontinuity prepared.source))
    | .error (.memberNotMaterialized id) =>
      some (worker.enterFault (VspcFault.memberNotMaterialized id))
    | .error (.pathDiscontinuity conflict) =>
      match attributePath state prepared.source conflict answers.attribution with
      | some fault => some (worker.enterFault fault)
      | none => some { worker with deferred := true }

def drive (worker : VspcProcessorWorker) (state : VspcState) (answers : VspcAnswers) :
    DriveAction → Option VspcProcessorWorker
  | .discard id overlap =>
    some { worker with
      run := .active (state.removeCandidate id)
      overlap := worker.overlap || overlap }
  | .normalizeCrossing id suffix =>
    let normalized := { state with
      pending := state.pending.modify id fun candidate =>
        { candidate with change := ⟨[], suffix⟩, overlapCredited := true } }
    some { worker with run := .active (normalized.refreshCandidate id), overlap := true }
  | .markOverlap id =>
    some { worker with
      run := .active { state with
        pending := state.pending.modify id fun candidate => { candidate with overlapCredited := true } }
      overlap := true }
  | .commit id => worker.commitCandidate state id answers
  | .competingNotifications =>
    some (worker.enterFault (VspcFault.malformedNotification .competingNextMove .resync))
  | .syntheticSourceMismatch =>
    some (worker.enterFault (VspcFault.malformedSynthetic .resolvedSourceDiscontinuity))

def running (worker : VspcProcessorWorker) : Bool :=
  worker.started && !worker.stopped

def command (worker next : VspcProcessorWorker) : Option VspcProcessorWorker :=
  if worker.running then some { next with deferred := false } else none

/--
A lane is served when the processor has nothing to do on its own. The lanes of a worker that is inert or
faulted are drained without effect.
-/
def serve (worker : VspcProcessorWorker) (handle : VspcState → VspcProcessorWorker) :
    Option VspcProcessorWorker :=
  if worker.running then
    match worker.run with
    | .inert _ => some worker
    | .active state =>
      if worker.faulted then
        some worker
      else if worker.deferred ∨ state.nextAction = none then
        some { handle state with deferred := false }
      else
        none
  else
    none

def step (worker : VspcProcessorWorker) : VspcProcessorInput → Option VspcProcessorWorker
  | .initializeRun anchor =>
    if worker.started then none
    else
      match worker.initializeRun anchor with
      | .error _ => some worker
      | .ok worker => some worker
  | .start => if worker.started then none else some { worker with started := true }
  | .catchup syntheticSinkLowerBound => worker.command (worker.catchup syntheticSinkLowerBound)
  | .live => worker.command worker.live
  | .shutdown => worker.command { worker with stopped := true }
  | .commandPathClosed => worker.command { worker.reportCommandPathLoss with stopped := true }
  | .drive answers =>
    match worker.run with
    | .inert _ => none
    | .active state =>
      if worker.running ∧ ¬ worker.faulted ∧ ¬ worker.deferred then
        state.nextAction.bind (worker.drive state answers)
      else
        none
  | .persisted (some block) => worker.serve fun state => worker.handlePersisted state block
  | .persisted none =>
    worker.serve fun state =>
      worker.enterFault (sessionEndpointFault .vspcProcessor state.phase.isLive
        "persisted-block input is closed")
  | .synthetic change => worker.serve fun state => worker.handleChange state change .synthetic
  | .notification change => worker.serve fun state => worker.handleChange state change .notification

end VspcProcessorWorker

end Kgi
