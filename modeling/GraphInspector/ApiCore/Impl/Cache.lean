import GraphInspector.ApiCore.Impl.Delta

/-!
The response cache of one publication. Delta slots are keyed by source revision and Head slots by depth;
a slot holds a completed value, the job that builds one, or both. Jobs are named by numbers.
-/

namespace Kgi

open Data

def deltaCacheMaxAgeMs : Nat := 300000

def cachedHeadSnapshotMaxAgeMs : Nat := 90000

def cachedHeadWindowDepths : List Nat := [20, 50, 100, 150, 200, 250]

structure HeadEtag where
  publicationId : Nat
  revision : Nat
  extent : LevelExtent
  deriving DecidableEq, Repr

structure CachedHeadSnapshot where
  depth : Nat
  revision : Nat
  revisionTimestampMs : Nat
  extent : LevelExtent
  etag : HeadEtag
  etag_revision : etag.revision = revision
  deriving DecidableEq, Repr

structure HeadEligibilityBoundary where
  headRevisionTimestampMs : Nat
  replayFloorRevision : Nat
  oldestAvailableRevision : Nat
  deriving DecidableEq, Repr

def HeadEligibilityBoundary.admits (boundary : HeadEligibilityBoundary)
    (snapshot : CachedHeadSnapshot) : Panics Bool := do
  ensure (snapshot.revisionTimestampMs ≤ boundary.headRevisionTimestampMs)
    "a cached Head snapshot does not postdate its publication Head"
  let ageMs := boundary.headRevisionTimestampMs - snapshot.revisionTimestampMs
  return boundary.replayFloorRevision ≤ snapshot.revision &&
    boundary.oldestAvailableRevision ≤ snapshot.revision && ageMs < cachedHeadSnapshotMaxAgeMs

inductive CacheAccess (α : Type) where
  | completed (value : α)
  | job (job : Nat)
  deriving DecidableEq, Repr

structure RunningDeltaJob where
  targetRevision : Nat
  sizeLimited : Bool
  job : Nat
  deriving DecidableEq, Repr

structure DeltaCacheSlot where
  firstRevisionTimestampMs : Nat
  completed : Option CachedDelta
  running : Option RunningDeltaJob
  deriving DecidableEq, Repr

inductive DeltaCacheLookup where
  | completed (value : CachedDelta)
  | running (job : Nat)
  | constructionRequired (currentTarget : Option Nat)
  deriving DecidableEq, Repr

abbrev DeltaCache := Map Nat DeltaCacheSlot

namespace DeltaCache

def isExpired (slot : DeltaCacheSlot) (headRevisionTimestampMs : Nat) : Panics Bool := do
  ensure (slot.firstRevisionTimestampMs ≤ headRevisionTimestampMs)
    "a delta source timestamp does not postdate its publication Head"
  return deltaCacheMaxAgeMs ≤ headRevisionTimestampMs - slot.firstRevisionTimestampMs

def rangeFrom (cache : DeltaCache) (revision : Nat) : Option (Nat × DeltaCacheSlot) :=
  cache.toList.find? fun entry => revision ≤ entry.1

def splitOff (cache : DeltaCache) (revision : Nat) : DeltaCache × DeltaCache :=
  (cache.filter fun source _ => source < revision, cache.filter fun source _ => revision ≤ source)

def searchRetained (cache : DeltaCache) (headRevisionTimestampMs : Nat) :
    (rounds : Nat) → (expired retained : Nat) → Panics Nat
  | 0, _, retained => return retained
  | rounds + 1, expired, retained => do
    if retained - expired ≤ 1 then
      return retained
    let midpoint := expired + (retained - expired) / 2
    let (_, candidate) ← orError (cache.rangeFrom midpoint)
      "the binary-search midpoint does not exceed the last source"
    if ← isExpired candidate headRevisionTimestampMs then
      searchRetained cache headRevisionTimestampMs rounds midpoint retained
    else
      searchRetained cache headRevisionTimestampMs rounds expired midpoint

def pruneExpired (cache : DeltaCache) (headRevisionTimestampMs : Nat) : Panics DeltaCache :=
  match cache.toList.head? with
  | none => return cache
  | some (firstSource, firstSlot) => do
    if !(← isExpired firstSlot headRevisionTimestampMs) then
      return cache
    let (lastSource, lastSlot) ← orError cache.toList.getLast?
      "a cache with a first slot has a last slot"
    if ← isExpired lastSlot headRevisionTimestampMs then
      return ∅
    let retained ← searchRetained cache headRevisionTimestampMs (lastSource - firstSource)
      firstSource lastSource
    let (firstRetainedSource, _) ← orError (cache.rangeFrom retained)
      "an unexpired suffix has a first source"
    return (cache.splitOff firstRetainedSource).2

def lookup (cache : DeltaCache) (sourceRevision targetRevision headRevisionTimestampMs : Nat) :
    Panics (DeltaCache × DeltaCacheLookup) := do
  let cache ← cache.pruneExpired headRevisionTimestampMs
  match cache[sourceRevision]? with
  | none => return (cache, .constructionRequired none)
  | some slot =>
    match slot.completed.filter fun completed => completed.isAdequateFor targetRevision with
    | some completed => return (cache, .completed completed)
    | none =>
      match slot.running with
      | some running => return (cache, .running running.job)
      | none => return (cache, .constructionRequired (slot.completed.map CachedDelta.toRevisionId))

def elect (cache : DeltaCache)
    (sourceRevision firstRevisionTimestampMs targetRevision : Nat) (sizeLimited : Bool) (job : Nat) :
    DeltaCache × CacheAccess CachedDelta × Bool :=
  match cache[sourceRevision]? with
  | some slot =>
    match slot.completed.filter fun completed =>
        sizeLimited && completed.toRevisionId = targetRevision && !completed.sizeLimited with
    | some completed =>
      let reclassified := { completed with sizeLimited := true }
      (cache.insert sourceRevision { slot with completed := some reclassified },
        .completed reclassified, false)
    | none =>
      match slot.completed.filter fun completed => completed.isAdequateFor targetRevision with
      | some completed => (cache, .completed completed, false)
      | none =>
        match slot.running with
        | some running => (cache, .job running.job, false)
        | none =>
          (cache.insert sourceRevision
            { slot with running := some ⟨targetRevision, sizeLimited, job⟩ }, .job job, true)
  | none =>
    (cache.insert sourceRevision
      ⟨firstRevisionTimestampMs, none, some ⟨targetRevision, sizeLimited, job⟩⟩, .job job, true)

def completedAfter (slot : DeltaCacheSlot) (running : RunningDeltaJob) (sourceRevision : Nat)
    (result : Except CacheBuildError CachedDelta) : Panics (Option CachedDelta) :=
  match result with
  | .error _ => return slot.completed
  | .ok value => do
    ensure (value.fromRevisionId = sourceRevision)
      "a completed delta remains keyed by its captured source"
    ensure (value.toRevisionId = running.targetRevision)
      "a completed delta reaches its elected target"
    ensure (value.sizeLimited = running.sizeLimited)
      "a completed delta preserves its elected size classification"
    if slot.completed.all fun completed => completed.toRevisionId < value.toRevisionId then
      return some value
    else
      return slot.completed

def finish (cache : DeltaCache) (sourceRevision job : Nat)
    (result : Except CacheBuildError CachedDelta) : Panics DeltaCache :=
  match cache[sourceRevision]? with
  | none => return cache
  | some slot =>
    match slot.running.filter fun running => running.job = job with
    | none => return cache
    | some running => do
      match ← completedAfter slot running sourceRevision result with
      | none => return cache.erase sourceRevision
      | some completed =>
        return cache.insert sourceRevision ⟨slot.firstRevisionTimestampMs, some completed, none⟩

def detachBeforeReplayFloor (cache : DeltaCache) (replayFloorRevision : Nat) :
    DeltaCache × List Nat :=
  let (expired, retained) := cache.splitOff replayFloorRevision
  (retained, expired.toList.filterMap fun entry => entry.2.running.map RunningDeltaJob.job)

end DeltaCache

structure HeadCacheSlot where
  completed : Option CachedHeadSnapshot
  running : Option Nat
  deriving DecidableEq, Repr

inductive HeadCacheLookup where
  | completed (value : CachedHeadSnapshot)
  | running (job : Nat)
  | constructionRequired
  deriving DecidableEq, Repr

abbrev HeadCache := Map Nat HeadCacheSlot

namespace HeadCache

def admitted (slot : HeadCacheSlot) (boundary : HeadEligibilityBoundary) :
    Panics (Option CachedHeadSnapshot) :=
  match slot.completed with
  | none => return none
  | some completed => do
    if ← boundary.admits completed then return some completed else return none

def lookup (cache : HeadCache) (depth : Nat) (boundary : HeadEligibilityBoundary) :
    Panics (HeadCache × HeadCacheLookup) :=
  match cache[depth]? with
  | none => return (cache, .constructionRequired)
  | some slot => do
    match ← admitted slot boundary with
    | some completed => return (cache, .completed completed)
    | none =>
      match slot.running with
      | some job => return (cache.insert depth ⟨none, some job⟩, .running job)
      | none => return (cache.erase depth, .constructionRequired)

def elect (cache : HeadCache) (depth : Nat) (boundary : HeadEligibilityBoundary) (job : Nat) :
    Panics (HeadCache × CacheAccess CachedHeadSnapshot × Bool) := do
  let slot := cache[depth]?.getD ⟨none, none⟩
  match ← admitted slot boundary with
  | some completed => return (cache.insert depth slot, .completed completed, false)
  | none =>
    match slot.running with
    | some running => return (cache.insert depth ⟨none, some running⟩, .job running, false)
    | none => return (cache.insert depth ⟨none, some job⟩, .job job, true)

def completedAfter (slot : HeadCacheSlot) (depth : Nat)
    (result : Except CacheBuildError CachedHeadSnapshot) : Panics (Option CachedHeadSnapshot) :=
  match result with
  | .error _ => return slot.completed
  | .ok value => do
    ensure (value.depth = depth) "a completed Head snapshot remains keyed by its derived tier"
    return some value

def finish (cache : HeadCache) (depth job : Nat)
    (result : Except CacheBuildError CachedHeadSnapshot) : Panics HeadCache :=
  match cache[depth]? with
  | none => return cache
  | some slot =>
    match slot.running.filter fun running => running = job with
    | none => return cache
    | some _ => do
      match ← completedAfter slot depth result with
      | none => return cache.erase depth
      | some completed => return cache.insert depth ⟨some completed, none⟩

def detachBeforeReplayFloor (cache : HeadCache) (replayFloorRevision : Nat) : HeadCache × List Nat :=
  (Map.mapEntries cache fun _ slot =>
    (slot.completed.filter fun value => replayFloorRevision ≤ value.revision).map fun value =>
      ⟨some value, none⟩,
    cache.toList.filterMap fun entry => entry.2.running)

end HeadCache

structure GraphCacheState where
  deltas : DeltaCache
  heads : HeadCache

inductive CacheJobState (α : Type) where
  | pending
  | complete (result : Except CacheBuildError α)
  | invalidatedByReplayFloor (replayFloorRevision : Nat)

namespace CacheJobState

variable {α : Type}

def outcome (state : CacheJobState α) : Option (Except CacheWaitError α) :=
  match state with
  | .pending => none
  | .complete (.ok value) => some (.ok value)
  | .complete (.error error) => some (.error (.build error))
  | .invalidatedByReplayFloor replayFloorRevision =>
    some (.error (.invalidatedByReplayFloor replayFloorRevision))

def finish (state : CacheJobState α) (result : Except CacheBuildError α) : Panics (CacheJobState α) :=
  match state with
  | .pending => return .complete result
  | .invalidatedByReplayFloor replayFloorRevision =>
    return .invalidatedByReplayFloor replayFloorRevision
  | .complete _ => .error "a cache job has exactly one ordinary completion"

def invalidateByReplayFloor (state : CacheJobState α) (replayFloorRevision : Nat) :
    Panics (CacheJobState α) :=
  match state with
  | .pending => return .invalidatedByReplayFloor replayFloorRevision
  | .complete _ | .invalidatedByReplayFloor _ =>
    .error "a running cache slot contains a pending job during replay-floor invalidation"

def invalidateJob {J : Type} (state : J → CacheJobState α) (settle : J → CacheJobState α → J)
    (replayFloorRevision : Nat) (jobs : List J) (index : Nat) : Panics (List J) := do
  let job ← orError jobs[index]? "a running cache slot names its job"
  let settled ← (state job).invalidateByReplayFloor replayFloorRevision
  return jobs.set index (settle job settled)

end CacheJobState

end Kgi
