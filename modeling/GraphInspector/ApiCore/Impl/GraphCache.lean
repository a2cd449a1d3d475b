import GraphInspector.ApiCore.Impl.Publication

/-!
The response cache by itself, with the shared jobs that are or were registered in its slots. Each event is
one section under the cache lock or one access to the state of a job; the arguments of a section are
whatever its caller passes.
-/

namespace Kgi

open Data

inductive HeadCacheTask where
  | building
  | installed (result : Except CacheBuildError CachedHeadSnapshot)
  | finished

structure HeadCacheJob where
  depth : Nat
  state : CacheJobState CachedHeadSnapshot
  task : HeadCacheTask

def HeadCacheJob.pending (depth : Nat) : HeadCacheJob :=
  ⟨depth, .pending, .building⟩

structure GraphCache where
  deltas : DeltaCache
  heads : HeadCache
  deltaJobs : List DeltaJob
  headJobs : List HeadCacheJob

inductive GraphCacheEvent where
  | pruneDeltas (headRevisionTimestampMs : Nat)
  | lookupDelta (sourceRevision targetRevision headRevisionTimestampMs : Nat)
  | electDelta (sourceRevision firstRevisionTimestampMs targetRevision : Nat) (sizeLimited : Bool)
  | finishDelta (job : Nat) (failure : Option CacheBuildError)
  | completeDelta (job : Nat)
  | lookupHead (depth : Nat) (boundary : HeadEligibilityBoundary)
  | electHead (depth : Nat) (boundary : HeadEligibilityBoundary)
  | finishHead (job : Nat) (result : Except CacheBuildError CachedHeadSnapshot)
  | completeHead (job : Nat)
  | invalidateReplayFloor (replayFloorRevision : Nat)

namespace GraphCache

def new : GraphCache := ⟨∅, ∅, [], []⟩

variable (cache : GraphCache)

def pruneDeltas (headRevisionTimestampMs : Nat) : GraphCache :=
  match cache.deltas.pruneExpired headRevisionTimestampMs with
  | .error _ => cache
  | .ok deltas => { cache with deltas := deltas }

def lookupDelta (sourceRevision targetRevision headRevisionTimestampMs : Nat) : GraphCache :=
  match cache.deltas.lookup sourceRevision targetRevision headRevisionTimestampMs with
  | .error _ => cache
  | .ok (deltas, _) => { cache with deltas := deltas }

def electDelta (sourceRevision firstRevisionTimestampMs targetRevision : Nat) (sizeLimited : Bool) :
    GraphCache :=
  let (deltas, _, elected) := cache.deltas.elect sourceRevision firstRevisionTimestampMs targetRevision
    sizeLimited cache.deltaJobs.length
  let jobs := if elected then
      cache.deltaJobs ++
        [.pending sourceRevision ⟨sourceRevision, targetRevision, sizeLimited⟩]
    else
      cache.deltaJobs
  { cache with deltas := deltas, deltaJobs := jobs }

def finishDelta (index : Nat) (job : DeltaJob) (result : Except CacheBuildError CachedDelta) :
    Panics GraphCache := do
  let deltas ← cache.deltas.finish job.sourceRevision index result
  return { cache with
    deltas := deltas
    deltaJobs := cache.deltaJobs.set index { job with task := .installed result } }

def completeDelta (index : Nat) (job : DeltaJob) (result : Except CacheBuildError CachedDelta) :
    Panics GraphCache := do
  let state ← job.state.finish result
  return { cache with
    deltaJobs := cache.deltaJobs.set index { job with state := state, task := .finished } }

def lookupHead (depth : Nat) (boundary : HeadEligibilityBoundary) : GraphCache :=
  match cache.heads.lookup depth boundary with
  | .error _ => cache
  | .ok (heads, _) => { cache with heads := heads }

def electHead (depth : Nat) (boundary : HeadEligibilityBoundary) : GraphCache :=
  match cache.heads.elect depth boundary cache.headJobs.length with
  | .error _ => cache
  | .ok (heads, _, false) => { cache with heads := heads }
  | .ok (heads, _, true) =>
    { cache with heads := heads, headJobs := cache.headJobs ++ [.pending depth] }

def finishHead (index : Nat) (job : HeadCacheJob)
    (result : Except CacheBuildError CachedHeadSnapshot) : Panics GraphCache := do
  let heads ← cache.heads.finish job.depth index result
  return { cache with
    heads := heads
    headJobs := cache.headJobs.set index { job with task := .installed result } }

def completeHead (index : Nat) (job : HeadCacheJob)
    (result : Except CacheBuildError CachedHeadSnapshot) : Panics GraphCache := do
  let state ← job.state.finish result
  return { cache with
    headJobs := cache.headJobs.set index { job with state := state, task := .finished } }

def invalidateHeadJob : Nat → List HeadCacheJob → Nat → Panics (List HeadCacheJob) :=
  CacheJobState.invalidateJob HeadCacheJob.state fun job state => { job with state := state }

def invalidateReplayFloor (replayFloorRevision : Nat) : Panics GraphCache := do
  let (deltas, deltaIndexes) := cache.deltas.detachBeforeReplayFloor replayFloorRevision
  let (heads, headIndexes) := cache.heads.detachBeforeReplayFloor replayFloorRevision
  let deltaJobs ← deltaIndexes.foldlM
    (GraphPublication.invalidateDeltaJob replayFloorRevision) cache.deltaJobs
  let headJobs ← headIndexes.foldlM (invalidateHeadJob replayFloorRevision) cache.headJobs
  return ⟨deltas, heads, deltaJobs, headJobs⟩

def servesTier (job : HeadCacheJob) (result : Except CacheBuildError CachedHeadSnapshot) : Bool :=
  match result with
  | .ok value => value.depth = job.depth
  | .error _ => true

def step (event : GraphCacheEvent) : Option GraphCache :=
  match event with
  | .pruneDeltas headRevisionTimestampMs => some (cache.pruneDeltas headRevisionTimestampMs)
  | .lookupDelta sourceRevision targetRevision headRevisionTimestampMs =>
    some (cache.lookupDelta sourceRevision targetRevision headRevisionTimestampMs)
  | .electDelta sourceRevision firstRevisionTimestampMs targetRevision sizeLimited =>
    some (cache.electDelta sourceRevision firstRevisionTimestampMs targetRevision sizeLimited)
  | .finishDelta index failure =>
    match cache.deltaJobs[index]? with
    | some job =>
      match job.task with
      | .building =>
        (cache.finishDelta index job (GraphPublication.buildResult job failure)).toOption
      | _ => none
    | none => none
  | .completeDelta index =>
    match cache.deltaJobs[index]? with
    | some job =>
      match job.task with
      | .installed result => (cache.completeDelta index job result).toOption
      | _ => none
    | none => none
  | .lookupHead depth boundary =>
    if depth ∈ cachedHeadWindowDepths then some (cache.lookupHead depth boundary) else none
  | .electHead depth boundary =>
    if depth ∈ cachedHeadWindowDepths then some (cache.electHead depth boundary) else none
  | .finishHead index result =>
    match cache.headJobs[index]? with
    | some job =>
      match job.task with
      | .building =>
        if servesTier job result then (cache.finishHead index job result).toOption else none
      | _ => none
    | none => none
  | .completeHead index =>
    match cache.headJobs[index]? with
    | some job =>
      match job.task with
      | .installed result => (cache.completeHead index job result).toOption
      | _ => none
    | none => none
  | .invalidateReplayFloor replayFloorRevision =>
    (cache.invalidateReplayFloor replayFloorRevision).toOption

end GraphCache

end Kgi
