import GraphInspector.ApiCore.Impl.Cache
import GraphInspector.ApiCore.Impl.Lineage

/-!
One publication with the requests and the cache jobs that work on it. A step is one section under the
cache lock, one section under the core lock, or one access to the state of a job. A request that keeps
the core read lock over several cache sections stays in a state that holds the core, and updates wait
until no request does. A panic ends the request in which it happens.
-/

namespace Kgi

open Data

structure CanonicalDeltaRequest where
  head : GraphDeltaTargetCapture
  selected : DeltaRevisionRange
  activeInterval : Nat
  deriving DecidableEq, Repr

inductive DeltaRequest where
  | captured (head : GraphDeltaTargetCapture) (sourceRevision activeInterval : Nat)
  | lookingUp (request : CanonicalDeltaRequest) (reentry : Bool)
  | sizing (request : CanonicalDeltaRequest) (currentTarget : Option Nat)
  | resolving (request : CanonicalDeltaRequest) (access : CacheAccess CachedDelta)
  | resolved (request : CanonicalDeltaRequest) (candidate : CachedDelta)
  | responded (response : CanonicalDeltaResponse)
  | panicked (message : String)
  deriving DecidableEq, Repr

namespace DeltaRequest

def holdsCore : DeltaRequest → Bool
  | .captured .. | .lookingUp .. | .sizing .. => true
  | .resolving .. | .resolved .. | .responded .. | .panicked .. => false

def ofPanics (request : Panics DeltaRequest) : DeltaRequest :=
  match request with
  | .ok request => request
  | .error message => .panicked message

end DeltaRequest

inductive HeadSnapshotCondition where
  | unconditional
  | any
  | tags (validators : List HeadEtag)
  deriving DecidableEq, Repr

def HeadSnapshotCondition.matches (condition : HeadSnapshotCondition) (etag : HeadEtag) : Bool :=
  match condition with
  | .unconditional => false
  | .any => true
  | .tags validators => validators.contains etag

inductive HeadSnapshotOutcome where
  | complete (snapshot : CachedHeadSnapshot)
  | notModified (etag : HeadEtag)
  | failed (error : CacheWaitError)
  deriving DecidableEq, Repr

inductive HeadRequest where
  | selecting (depth : Nat) (condition : HeadSnapshotCondition)
  | lookingUp (depth : Nat) (condition : HeadSnapshotCondition) (boundary : HeadEligibilityBoundary)
  | electing (depth : Nat) (condition : HeadSnapshotCondition) (boundary : HeadEligibilityBoundary)
  | resolving (depth : Nat) (condition : HeadSnapshotCondition)
      (access : CacheAccess CachedHeadSnapshot)
  | resolved (depth : Nat) (condition : HeadSnapshotCondition) (candidate : CachedHeadSnapshot)
  | responded (outcome : HeadSnapshotOutcome)
  | panicked (message : String)
  deriving DecidableEq, Repr

namespace HeadRequest

def holdsCore : HeadRequest → Bool
  | .lookingUp .. | .electing .. => true
  | .selecting .. | .resolving .. | .resolved .. | .responded .. | .panicked .. => false

def ofPanics (request : Panics HeadRequest) : HeadRequest :=
  match request with
  | .ok request => request
  | .error message => .panicked message

end HeadRequest

/--
The task of a delta job builds the value, installs the result in the cache and then tells the waiters.
-/
inductive DeltaJobTask where
  | building
  | installed (result : Except CacheBuildError CachedDelta)
  | finished

structure DeltaJob where
  sourceRevision : Nat
  value : CachedDelta
  state : CacheJobState CachedDelta
  task : DeltaJobTask

def DeltaJob.pending (sourceRevision : Nat) (value : CachedDelta) : DeltaJob :=
  ⟨sourceRevision, value, .pending, .building⟩

structure HeadTierCapture where
  publicationId : Nat
  revision : Nat
  revisionTimestampMs : Nat
  extent : LevelExtent
  deriving DecidableEq, Repr

/--
The task of a Head job encodes its capture and checks that the candidate is still eligible; if it is not,
the tier is captured again.
-/
inductive HeadJobTask where
  | encoding (capture : HeadTierCapture)
  | checking (candidate : CachedHeadSnapshot)
  | recapturing
  | built (result : Except CacheBuildError CachedHeadSnapshot)
  | installed (result : Except CacheBuildError CachedHeadSnapshot)
  | finished

structure HeadJob where
  depth : Nat
  state : CacheJobState CachedHeadSnapshot
  task : HeadJobTask

structure GraphPublication where
  publicationId : Nat
  state : GraphPublicationState
  core : GraphPublicationCore
  cache : GraphCacheState
  deltaJobs : List DeltaJob
  headJobs : List HeadJob
  deltaRequests : List DeltaRequest
  headRequests : List HeadRequest

/--
What a request, a job or the runtime does next. `client` is the answer of the client registry for a
request with a client identifier.
-/
inductive PublicationEvent where
  | transitionLive
  | transitionStale
  | update (update : OriginalUpdate) (revisionTimestampMs : Nat)
  | selectDelta (sourceRevision : Nat) (activeInterval : ActiveDeltaInterval) (client : Option Bool)
  | pruneDeltas (request : Nat) (client : Option Bool)
  | lookupDelta (request : Nat)
  | electDelta (request : Nat)
  | resolveDelta (request : Nat) (cancelled : Bool)
  | deliverDelta (request : Nat) (client : Option Bool)
  | finishDelta (job : Nat) (failure : Option CacheBuildError)
  | completeDelta (job : Nat)
  | requestHead (depth : Nat) (condition : HeadSnapshotCondition)
  | selectHead (request : Nat) (cancelled : Bool)
  | lookupHead (request : Nat)
  | electHead (request : Nat)
  | resolveHead (request : Nat) (cancelled : Bool)
  | admitHead (request : Nat)
  | encodeHead (job : Nat)
  | checkHead (job : Nat)
  | recaptureHead (job : Nat)
  | failHead (job : Nat) (error : CacheBuildError)
  | finishHead (job : Nat)
  | completeHead (job : Nat)

structure SizedDelta where
  firstRevisionTimestampMs : Nat
  value : CachedDelta
  deriving DecidableEq, Repr

def sizeFitting (request : CanonicalDeltaRequest)
    (fitting : Except GraphHistoryRangeError (Option GraphHistoryFittingRange)) :
    Panics (Except GraphHistoryRangeError (Option SizedDelta)) :=
  match fitting with
  | .error error => return .error error
  | .ok fitting => do
    let fitting ← orError fitting "a retained replayable atomic boundary fits the delta soft limit"
    let first ← orError fitting.entries.head? "a forward fitting history range is nonempty"
    let firstRevisionTimestampMs := first.delta.revisionTimestampMs
    ensure (firstRevisionTimestampMs ≤ request.head.revisionTimestampMs)
      "a selected delta source does not postdate its captured Head"
    if deltaCacheMaxAgeMs ≤ request.head.revisionTimestampMs - firstRevisionTimestampMs then
      return .ok none
    let _ ← fitting.estimatedRawBytes
    return .ok (some ⟨firstRevisionTimestampMs,
      ⟨first.delta.fromRevisionId, fitting.targetRevision, fitting.shortened⟩⟩)

def sizeCanonicalDelta (history : GraphHistory) (request : CanonicalDeltaRequest)
    (currentTarget : Option Nat) : Panics (Except GraphHistoryRangeError (Option SizedDelta)) := do
  let sourceRevision := request.selected.sourceRevision
  let ladder ← DeltaTargetLadder.new sourceRevision request.head.revision currentTarget
    request.activeInterval
  let candidateTargets ← ladder.fittingTargets request.selected
  let fitting ← history.fittingRange sourceRevision candidateTargets
    fun estimatedRawBytes => estimatedRawBytes < softDeltaEstimatedBytes
  sizeFitting request fitting

namespace GraphPublication

def new (publicationId : Nat) (initialState : GraphPublicationState) (core : GraphPublicationCore) :
    GraphPublication :=
  ⟨publicationId, initialState, core, ⟨∅, ∅⟩, [], [], [], []⟩

variable (publication : GraphPublication)

def captureDeltaTarget : GraphDeltaTargetCapture where
  publicationId := publication.publicationId
  state := publication.state
  revision := publication.core.view.currentRevisionId
  revisionTimestampMs := publication.core.view.currentRevisionTimestampMs
  headLevel := publication.core.view.highLevel
  replayFloorRevision := publication.core.history.replayFloorRevision

def headEligibilityBoundary : HeadEligibilityBoundary where
  headRevisionTimestampMs := publication.core.view.currentRevisionTimestampMs
  replayFloorRevision := publication.core.history.replayFloorRevision
  oldestAvailableRevision := publication.core.history.oldestAvailableRevision

def headTierExtent (depth : Nat) : Panics LevelExtent :=
  let view := publication.core.view
  match LevelExtent.new (max (view.highLevel - (depth - 1)) view.lowLevel) view.highLevel with
  | .ok extent => return extent
  | .error _ => .error "a positive Head tier produces a valid contained extent"

def captureHeadTier (depth : Nat) : Panics HeadTierCapture := do
  let extent ← publication.headTierExtent depth
  return ⟨publication.publicationId, publication.core.view.currentRevisionId,
    publication.core.view.currentRevisionTimestampMs, extent⟩

def coreIsFree : Bool :=
  publication.deltaRequests.all (fun request => !request.holdsCore) &&
    publication.headRequests.all fun request => !request.holdsCore

def setDeltaRequest (index : Nat) (request : DeltaRequest) : GraphPublication :=
  { publication with deltaRequests := publication.deltaRequests.set index request }

def setHeadRequest (index : Nat) (request : HeadRequest) : GraphPublication :=
  { publication with headRequests := publication.headRequests.set index request }

def setDeltas (deltas : DeltaCache) : GraphPublication :=
  { publication with cache := { publication.cache with deltas := deltas } }

def setHeads (heads : HeadCache) : GraphPublication :=
  { publication with cache := { publication.cache with heads := heads } }

def selectDelta (sourceRevision activeInterval : Nat) (client : Option Bool) : DeltaRequest :=
  if publication.captureDeltaTarget.revision < sourceRevision then
    .responded .invalidFutureCursor
  else if client = some false then
    .responded .clientRegistrationRequired
  else
    .captured publication.captureDeltaTarget sourceRevision activeInterval

def selectTarget (head : GraphDeltaTargetCapture) (sourceRevision activeInterval : Nat)
    (client : Option Bool) : Panics DeltaRequest := do
  if sourceRevision = head.revision then
    return .responded (← completeDeltaSuccess head .upToDate sourceRevision client activeInterval)
  if sourceRevision < head.replayFloorRevision then
    return .responded (.freshViewRequired .deltaReplayBarrier)
  let ladder ← DeltaTargetLadder.new sourceRevision head.revision none activeInterval
  match ← ladder.select head.state with
  | .waitForWakeup _ =>
    return .responded
      (← completeDeltaSuccess head .waitForWakeup sourceRevision client activeInterval)
  | .range selected => return .lookingUp ⟨head, selected, activeInterval⟩ false

def pruneDeltas (index : Nat) (head : GraphDeltaTargetCapture) (sourceRevision activeInterval : Nat)
    (client : Option Bool) : GraphPublication :=
  match publication.cache.deltas.pruneExpired head.revisionTimestampMs with
  | .error message => publication.setDeltaRequest index (.panicked message)
  | .ok deltas => (publication.setDeltas deltas).setDeltaRequest index
      (.ofPanics (selectTarget head sourceRevision activeInterval client))

def lookupDelta (index : Nat) (request : CanonicalDeltaRequest) : GraphPublication :=
  match publication.cache.deltas.lookup request.selected.sourceRevision
      request.selected.targetRevision request.head.revisionTimestampMs with
  | .error message => publication.setDeltaRequest index (.panicked message)
  | .ok (deltas, .completed value) =>
    (publication.setDeltas deltas).setDeltaRequest index (.resolving request (.completed value))
  | .ok (deltas, .running job) =>
    (publication.setDeltas deltas).setDeltaRequest index (.resolving request (.job job))
  | .ok (deltas, .constructionRequired currentTarget) =>
    (publication.setDeltas deltas).setDeltaRequest index (.sizing request currentTarget)

def electDelta (index : Nat) (request : CanonicalDeltaRequest) (currentTarget : Option Nat) :
    GraphPublication :=
  match sizeCanonicalDelta publication.core.history request currentTarget with
  | .error message => publication.setDeltaRequest index (.panicked message)
  | .ok (.error error) => publication.setDeltaRequest index
      (.ofPanics (do return .responded (.freshViewRequired (← deltaHistoryErrorReason error))))
  | .ok (.ok none) => publication.setDeltaRequest index
      (.responded (.freshViewRequired .deltaSourceExpired))
  | .ok (.ok (some sized)) =>
    let sourceRevision := request.selected.sourceRevision
    let (deltas, access, elected) := publication.cache.deltas.elect sourceRevision
      sized.firstRevisionTimestampMs sized.value.toRevisionId sized.value.sizeLimited
      publication.deltaJobs.length
    let jobs := if elected then
        publication.deltaJobs ++ [.pending sourceRevision sized.value]
      else
        publication.deltaJobs
    { publication.setDeltas deltas with deltaJobs := jobs }.setDeltaRequest index
      (.resolving request access)

def resolveDelta (request : CanonicalDeltaRequest) (access : CacheAccess CachedDelta)
    (cancelled : Bool) : Option DeltaRequest :=
  match access with
  | .completed value => some (.resolved request value)
  | .job job =>
    match publication.deltaJobs[job]? with
    | none => none
    | some job =>
      match job.state.outcome with
      | none => if cancelled then some (.responded (.failed .cancelled)) else none
      | some (.ok value) => some (.resolved request value)
      | some (.error (.invalidatedByReplayFloor _)) =>
        some (.responded (.freshViewRequired .deltaReplayBarrier))
      | some (.error error) => some (.responded (.failed error))

def admitCachedDelta (candidate : CachedDelta) (activeInterval : Nat) (client : Option Bool) :
    Panics CanonicalDeltaResponse := do
  let deliveryHead := publication.captureDeltaTarget
  ensure (candidate.toRevisionId ≤ deliveryHead.revision)
    "an admitted cached delta does not pass its delivery Head"
  if candidate.fromRevisionId < deliveryHead.replayFloorRevision then
    return .freshViewRequired .deltaReplayBarrier
  let returnedRevision := candidate.toRevisionId
  let outcome := if returnedRevision = deliveryHead.revision then
      CanonicalDeltaSuccess.complete candidate
    else
      .partialPrefix candidate
  completeDeltaSuccess deliveryHead outcome returnedRevision client activeInterval

def reenterDelta (request : CanonicalDeltaRequest) : Panics DeltaRequest := do
  let selected := request.selected
  ensure (request.head.publicationId = publication.publicationId)
    "delta target belongs to this publication"
  ensure (selected.sourceRevision < selected.targetRevision)
    "delta reentry retains a forward request target"
  ensure (selected.targetRevision ≤ request.head.revision)
    "delta reentry target does not exceed its captured Head"
  ensure (request.head.revision ≤ publication.core.view.currentRevisionId)
    "a publication Head does not retreat behind a retained delta request"
  return .lookingUp request true

def deliverDelta (request : CanonicalDeltaRequest) (candidate : CachedDelta) (client : Option Bool) :
    DeltaRequest :=
  if candidate.isAdequateFor request.selected.targetRevision then
    .ofPanics (do
      return .responded
        (← publication.admitCachedDelta candidate request.activeInterval client))
  else
    .ofPanics (publication.reenterDelta request)

def invalidateDeltaJob : Nat → List DeltaJob → Nat → Panics (List DeltaJob) :=
  CacheJobState.invalidateJob DeltaJob.state fun job state => { job with state := state }

def invalidateHeadJob : Nat → List HeadJob → Nat → Panics (List HeadJob) :=
  CacheJobState.invalidateJob HeadJob.state fun job state => { job with state := state }

def invalidateReplayFloor (replayFloorRevision : Nat) : Panics GraphPublication := do
  let (deltas, deltaIndexes) :=
    publication.cache.deltas.detachBeforeReplayFloor replayFloorRevision
  let (heads, headIndexes) := publication.cache.heads.detachBeforeReplayFloor replayFloorRevision
  let deltaJobs ←
    deltaIndexes.foldlM (invalidateDeltaJob replayFloorRevision) publication.deltaJobs
  let headJobs ← headIndexes.foldlM (invalidateHeadJob replayFloorRevision) publication.headJobs
  return { publication with cache := ⟨deltas, heads⟩, deltaJobs := deltaJobs, headJobs := headJobs }

def applyOriginalUpdate (update : OriginalUpdate) (revisionTimestampMs : Nat) :
    Panics GraphPublication := do
  ensure (publication.state ≠ .stale) "a Stale publication is not mutated"
  let (core, outcome) ← AppliedLineageUpdate.apply publication.core update revisionTimestampMs
    estimateRawDeltaBytes
  let publication := { publication with core := core }
  match outcome with
  | .error _ => return publication
  | .ok none => return publication
  | .ok (some applied) =>
    match applied.replayFloorAdvance with
    | none => return publication
    | some replayFloorRevision => publication.invalidateReplayFloor replayFloorRevision

def buildResult (job : DeltaJob) (failure : Option CacheBuildError) :
    Except CacheBuildError CachedDelta :=
  match failure with
  | none => .ok job.value
  | some error => .error error

def finishDelta (index : Nat) (job : DeltaJob) (result : Except CacheBuildError CachedDelta) :
    Panics GraphPublication := do
  let deltas ← publication.cache.deltas.finish job.sourceRevision index result
  return { publication.setDeltas deltas with
    deltaJobs := publication.deltaJobs.set index { job with task := .installed result } }

def completeDelta (index : Nat) (job : DeltaJob) (result : Except CacheBuildError CachedDelta) :
    Panics GraphPublication := do
  let state ← job.state.finish result
  return { publication with
    deltaJobs := publication.deltaJobs.set index { job with state := state, task := .finished } }

def lookupHead (index depth : Nat) (condition : HeadSnapshotCondition)
    (boundary : HeadEligibilityBoundary) : GraphPublication :=
  match publication.cache.heads.lookup depth boundary with
  | .error message => publication.setHeadRequest index (.panicked message)
  | .ok (heads, .completed value) => (publication.setHeads heads).setHeadRequest index
      (.resolving depth condition (.completed value))
  | .ok (heads, .running job) => (publication.setHeads heads).setHeadRequest index
      (.resolving depth condition (.job job))
  | .ok (heads, .constructionRequired) => (publication.setHeads heads).setHeadRequest index
      (.ofPanics (do
        let extent ← publication.headTierExtent depth
        let etag : HeadEtag :=
          ⟨publication.publicationId, publication.core.view.currentRevisionId, extent⟩
        if condition.matches etag then
          return .responded (.notModified etag)
        else
          return .electing depth condition boundary))

def electHead (index depth : Nat) (condition : HeadSnapshotCondition)
    (boundary : HeadEligibilityBoundary) : GraphPublication :=
  match publication.cache.heads.elect depth boundary publication.headJobs.length with
  | .error message => publication.setHeadRequest index (.panicked message)
  | .ok (heads, access, false) =>
    (publication.setHeads heads).setHeadRequest index (.resolving depth condition access)
  | .ok (heads, access, true) =>
    match publication.captureHeadTier depth with
    | .error message => (publication.setHeads heads).setHeadRequest index (.panicked message)
    | .ok capture =>
      { publication.setHeads heads with
        headJobs := publication.headJobs ++ [HeadJob.mk depth .pending (.encoding capture)] }.setHeadRequest
          index (.resolving depth condition access)

def resolveHead (depth : Nat) (condition : HeadSnapshotCondition)
    (access : CacheAccess CachedHeadSnapshot) (cancelled : Bool) : Option HeadRequest :=
  match access with
  | .completed value => some (.resolved depth condition value)
  | .job job =>
    match publication.headJobs[job]? with
    | none => none
    | some job =>
      match job.state.outcome with
      | none => if cancelled then some (.responded (.failed .cancelled)) else none
      | some (.ok value) => some (.resolved depth condition value)
      | some (.error (.invalidatedByReplayFloor _)) => some (.selecting depth condition)
      | some (.error error) => some (.responded (.failed error))

def admitHead (depth : Nat) (condition : HeadSnapshotCondition) (candidate : CachedHeadSnapshot) :
    HeadRequest :=
  if candidate.revision < publication.core.history.replayFloorRevision then
    .selecting depth condition
  else if condition.matches candidate.etag then
    .responded (.notModified candidate.etag)
  else
    .responded (.complete candidate)

def setHeadJob (index : Nat) (job : HeadJob) : GraphPublication :=
  { publication with headJobs := publication.headJobs.set index job }

def encodedHead (depth : Nat) (capture : HeadTierCapture) : CachedHeadSnapshot :=
  ⟨depth, capture.revision, capture.revisionTimestampMs, capture.extent,
    ⟨capture.publicationId, capture.revision, capture.extent⟩, rfl⟩

def checkHead (index : Nat) (job : HeadJob) (candidate : CachedHeadSnapshot) :
    Panics GraphPublication := do
  if ← publication.headEligibilityBoundary.admits candidate then
    return publication.setHeadJob index { job with task := .built (.ok candidate) }
  else
    return publication.setHeadJob index { job with task := .recapturing }

def recaptureHead (index : Nat) (job : HeadJob) : Panics GraphPublication := do
  let capture ← publication.captureHeadTier job.depth
  return publication.setHeadJob index { job with task := .encoding capture }

def finishHead (index : Nat) (job : HeadJob) (result : Except CacheBuildError CachedHeadSnapshot) :
    Panics GraphPublication := do
  let heads ← publication.cache.heads.finish job.depth index result
  return (publication.setHeads heads).setHeadJob index { job with task := .installed result }

def completeHead (index : Nat) (job : HeadJob) (result : Except CacheBuildError CachedHeadSnapshot) :
    Panics GraphPublication := do
  let state ← job.state.finish result
  return publication.setHeadJob index { job with state := state, task := .finished }

/--
One step. An event that does not apply in the state is refused.
-/
def step (event : PublicationEvent) : Option GraphPublication :=
  match event with
  | .transitionLive =>
    if publication.coreIsFree ∧ publication.state = .synchronizing then
      some { publication with state := .live }
    else
      none
  | .transitionStale =>
    if publication.coreIsFree then some { publication with state := .stale } else none
  | .update update revisionTimestampMs =>
    -- the clock of the publication does not run backwards
    if publication.coreIsFree ∧
        publication.core.view.currentRevisionTimestampMs ≤ revisionTimestampMs then
      (publication.applyOriginalUpdate update revisionTimestampMs).toOption
    else
      none
  | .selectDelta sourceRevision activeInterval client =>
    some { publication with
      deltaRequests := publication.deltaRequests ++
        [publication.selectDelta sourceRevision activeInterval.value client] }
  | .pruneDeltas index client =>
    match publication.deltaRequests[index]? with
    | some (.captured head sourceRevision activeInterval) =>
      some (publication.pruneDeltas index head sourceRevision activeInterval client)
    | _ => none
  | .lookupDelta index =>
    match publication.deltaRequests[index]? with
    | some (.lookingUp request _) => some (publication.lookupDelta index request)
    | _ => none
  | .electDelta index =>
    match publication.deltaRequests[index]? with
    | some (.sizing request currentTarget) => some (publication.electDelta index request currentTarget)
    | _ => none
  | .resolveDelta index cancelled =>
    match publication.deltaRequests[index]? with
    | some (.resolving request access) =>
      (publication.resolveDelta request access cancelled).map (publication.setDeltaRequest index)
    | _ => none
  | .deliverDelta index client =>
    match publication.deltaRequests[index]? with
    | some (.resolved request candidate) =>
      some (publication.setDeltaRequest index (publication.deliverDelta request candidate client))
    | _ => none
  | .finishDelta index failure =>
    match publication.deltaJobs[index]? with
    | some job =>
      match job.task with
      | .building => (publication.finishDelta index job (buildResult job failure)).toOption
      | _ => none
    | none => none
  | .completeDelta index =>
    match publication.deltaJobs[index]? with
    | some job =>
      match job.task with
      | .installed result => (publication.completeDelta index job result).toOption
      | _ => none
    | none => none
  | .requestHead depth condition =>
    if depth ∈ cachedHeadWindowDepths then
      some { publication with
        headRequests := publication.headRequests ++ [.selecting depth condition] }
    else
      none
  | .selectHead index cancelled =>
    match publication.headRequests[index]? with
    | some (.selecting depth condition) =>
      some (publication.setHeadRequest index
        (if cancelled then .responded (.failed .cancelled)
          else .lookingUp depth condition publication.headEligibilityBoundary))
    | _ => none
  | .lookupHead index =>
    match publication.headRequests[index]? with
    | some (.lookingUp depth condition boundary) =>
      some (publication.lookupHead index depth condition boundary)
    | _ => none
  | .electHead index =>
    match publication.headRequests[index]? with
    | some (.electing depth condition boundary) =>
      some (publication.electHead index depth condition boundary)
    | _ => none
  | .resolveHead index cancelled =>
    match publication.headRequests[index]? with
    | some (.resolving depth condition access) =>
      (publication.resolveHead depth condition access cancelled).map
        (publication.setHeadRequest index)
    | _ => none
  | .admitHead index =>
    match publication.headRequests[index]? with
    | some (.resolved depth condition candidate) =>
      some (publication.setHeadRequest index (publication.admitHead depth condition candidate))
    | _ => none
  | .encodeHead index =>
    match publication.headJobs[index]? with
    | some job =>
      match job.task with
      | .encoding capture => some (publication.setHeadJob index
          { job with task := .checking (encodedHead job.depth capture) })
      | _ => none
    | none => none
  | .checkHead index =>
    match publication.headJobs[index]? with
    | some job =>
      match job.task with
      | .checking candidate => (publication.checkHead index job candidate).toOption
      | _ => none
    | none => none
  | .recaptureHead index =>
    match publication.headJobs[index]? with
    | some job =>
      match job.task with
      | .recapturing => (publication.recaptureHead index job).toOption
      | _ => none
    | none => none
  | .failHead index error =>
    match publication.headJobs[index]? with
    | some job =>
      match job.task with
      | .encoding _ | .checking _ | .recapturing =>
        some (publication.setHeadJob index { job with task := .built (.error error) })
      | _ => none
    | none => none
  | .finishHead index =>
    match publication.headJobs[index]? with
    | some job =>
      match job.task with
      | .built result => (publication.finishHead index job result).toOption
      | _ => none
    | none => none
  | .completeHead index =>
    match publication.headJobs[index]? with
    | some job =>
      match job.task with
      | .installed result => (publication.completeHead index job result).toOption
      | _ => none
    | none => none

end GraphPublication

end Kgi
