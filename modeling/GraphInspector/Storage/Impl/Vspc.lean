import GraphInspector.Storage.Impl.Materialization

/-!
The atomic transaction of one ready VSPC transition: source and path validation, membership, merge-set
colors and the scores of the affected levels.
-/

namespace Kgi

open Data

structure VspcPathConflictIds where
  child : CompactId
  expectedParent : CompactId
  storedParent : CompactId
  deriving DecidableEq, Repr

structure VspcPathConflict where
  child : BlockHash
  expectedParent : BlockHash
  storedParent : BlockHash
  deriving DecidableEq, Repr

inductive VspcSemanticError where
  | sourceDiscontinuity
  | memberNotMaterialized (id : CompactId)
  | pathDiscontinuity (conflict : VspcPathConflict)
  deriving DecidableEq, Repr

inductive ApplyVspcChangeError where
  | serviceUnavailable (diagnostic : String)
  | failed (error : TransactionAttemptError VspcSemanticError)
  deriving DecidableEq, Repr

structure VspcCommitOutcome where
  destination : VspcPoint
  levelSnapshots : List LevelCommitted
  deriving DecidableEq, Repr

structure VspcAttemptSuccess where
  outcome : VspcCommitOutcome
  memberCacheUpdates : List (CompactId × CachedMaterializedBlock)
  mergeSetCacheUpdates : List (CompactId × CachedMergeSets)

abbrev VspcAttempt (α : Type) := Except (TransactionAttemptError VspcSemanticError) α

def loadCurrentSink (database : Database) (caches : ProcessingCacheDomains) :
    VspcAttempt (CompactId × BlockHash) :=
  match caches.vspcSink with
  | some sink => .ok (sink.id, sink.hash)
  | none =>
    orError database.queryVspcSink
      (.storage (.invalidMetadata "database has no committed VSPC sink"))

def distinctMemberIds (change : ReadyVspcChange) : List CompactId :=
  firstOccurrences (change.removed ++ change.added)

def loadThroughCache {V : Type} (cached stored : CompactId → Option V) (ids : List CompactId) :
    Map CompactId V × List (CompactId × V) :=
  let misses := ids.filter fun id => (cached id).isNone
  let seeded := ids.foldl (fun values id => Map.insertSome values id (cached id)) ∅
  (misses.foldl (fun values id => Map.insertSome values id (stored id)) seeded,
    misses.filterMap fun id => (stored id).map fun value => (id, value))

def loadMembers (database : Database) (caches : ProcessingCacheDomains) (ids : List CompactId) :
    Map CompactId CachedMaterializedBlock × List (CompactId × CachedMaterializedBlock) :=
  loadThroughCache (fun id => caches.materializedBlocks[id]?)
    (fun id => (database.blocks[id]?).map BlockRow.cached) ids

def pathConflict (members : Map CompactId CachedMaterializedBlock) (child expectedParent : CompactId) :
    VspcAttempt (Option VspcPathConflictIds) := do
  let stored ← expect members[child]? "every direct VSPC member was loaded"
  pure (if stored.selectedParentId ≠ expectedParent then
    some ⟨child, expectedParent, stored.selectedParentId⟩ else none)

def firstConflict (members : Map CompactId CachedMaterializedBlock) :
    List (CompactId × CompactId) → VspcAttempt (Option VspcPathConflictIds)
  | [] => .ok none
  | (child, expectedParent) :: pairs => do
    match ← pathConflict members child expectedParent with
    | some conflict => .ok (some conflict)
    | none => firstConflict members pairs

def firstPathConflict (change : ReadyVspcChange)
    (members : Map CompactId CachedMaterializedBlock) :
    VspcAttempt (Option VspcPathConflictIds) := do
  let child ← expect change.added.head? "index out of bounds"
  if change.removed = [] then
    pathConflict members child change.source.id
  else
    match ← firstConflict members (windows change.removed) with
    | some conflict => .ok (some conflict)
    | none =>
      let last ← expect change.removed.getLast? "the removed path is nonempty"
      let stored ← expect members[last]? "every direct VSPC member was loaded"
      match ← pathConflict members child stored.selectedParentId with
      | some conflict => .ok (some conflict)
      | none => firstConflict members ((windows change.added).map Prod.swap)

def resolvePathConflict (database : Database) (conflict : VspcPathConflictIds) :
    VspcAttempt VspcPathConflict := do
  let resolve := fun id : CompactId =>
    orError database.identifiers.keys[id]?
      (.storage (.invalidMetadata "VSPC path-conflict evidence is incomplete"))
  let child ← resolve conflict.child
  let expectedParent ← resolve conflict.expectedParent
  let storedParent ← resolve conflict.storedParent
  pure ⟨child, expectedParent, storedParent⟩

def loadMergeSets (database : Database) (caches : ProcessingCacheDomains) (added : List CompactId) :
    VspcAttempt (Map CompactId CachedMergeSets × List (CompactId × CachedMergeSets)) := do
  let ids := firstOccurrences added
  let loaded := loadThroughCache (fun id => caches.mergeSets[id]?)
    (fun id => (database.blocks[id]?).map BlockRow.mergeSets) ids
  ensure (loaded.1.size = ids.length)
    (.storage (.invalidMetadata "materialized added block has no persisted merge sets"))
  pure loaded

def applyMembership (blocks : Map CompactId BlockRow) (removed added : List CompactId) :
    Map CompactId BlockRow :=
  let unmarked := removed.foldl
    (fun (blocks : Map CompactId BlockRow) id =>
      blocks.modify id fun row => { row with isInVspc := false, color := .gray }) blocks
  added.foldl
    (fun (blocks : Map CompactId BlockRow) id =>
      blocks.modify id fun row => { row with isInVspc := true }) unmarked

def finalColors (mergeSets : List CachedMergeSets) : Map CompactId BlockColor :=
  mergeSets.foldl
    (fun colors sets =>
      let colors := sets.blue.foldl
        (fun (colors : Map CompactId BlockColor) id => colors.insert id .blue) colors
      sets.red.foldl (fun (colors : Map CompactId BlockColor) id => colors.insert id .red) colors)
    ∅

def applyMergeSetColors (blocks : Map CompactId BlockRow) (added : List CompactId)
    (mergeSets : Map CompactId CachedMergeSets) : VspcAttempt (Map CompactId BlockRow) := do
  let sets ← added.mapM fun id =>
    expect mergeSets[id]? "every added block has immutable merge sets"
  pure <| (finalColors sets).toList.foldl
    (fun (blocks : Map CompactId BlockRow) entry =>
      blocks.modify entry.1 fun row => { row with color := entry.2 }) blocks

def vspcScore (blocks : Map CompactId BlockRow) (level : Nat) : VspcAttempt Nat :=
  match blocks.toList.filter (fun entry => entry.2.coordinate.level = level && entry.2.isInVspc) with
  | [] => .ok noVspcDaaScore
  | [entry] => .ok entry.2.daaScore
  | _ => .error (.storage .definiteFailure)

def updateLevelScores (blocks : Map CompactId BlockRow) (rows : Map Nat LevelRow)
    (levels : List Nat) : VspcAttempt (Map Nat LevelRow × List LevelCommitted) := do
  let levels := (KeySet.ofElems levels).toList
  let updates ← (levels.filter fun level => rows.contains level).mapM fun level => do
    let score ← vspcScore blocks level
    pure (level, score)
  let rows := updates.foldl
    (fun (rows : Map Nat LevelRow) update =>
      rows.modify update.1 fun row => { row with daaScore := update.2 }) rows
  let snapshots ← loadLevelSnapshots rows levels "affected VSPC block has no level-state row"
  pure (rows, snapshots)

def applyValidatedChange (database : Database) (caches : ProcessingCacheDomains)
    (change : ReadyVspcChange)
    (loaded : Map CompactId CachedMaterializedBlock × List (CompactId × CachedMaterializedBlock)) :
    VspcAttempt (Database × VspcAttemptSuccess) := do
  let (mergeSets, mergeSetCacheUpdates) ← loadMergeSets database caches change.added
  let blocks := applyMembership database.blocks change.removed change.added
  let blocks ← applyMergeSetColors blocks change.added mergeSets
  let affected ← (distinctMemberIds change).mapM fun id =>
    expect loaded.1[id]? "every VSPC member was proven materialized"
  let (levels, levelSnapshots) ← updateLevelScores blocks database.levels
    (affected.map fun member => member.coordinate.level)
  pure ({ database with blocks := blocks, levels := levels },
    { outcome := ⟨change.destination, levelSnapshots⟩
      memberCacheUpdates := loaded.2
      mergeSetCacheUpdates := mergeSetCacheUpdates })

def vspcAttempt (database : Database) (caches : ProcessingCacheDomains) (change : ReadyVspcChange) :
    VspcAttempt (Database × VspcAttemptSuccess) := do
  let currentSink ← loadCurrentSink database caches
  ensure (currentSink = (change.source.id, change.source.hash)) (.semantic .sourceDiscontinuity)
  let loaded := loadMembers database caches (distinctMemberIds change)
  match (change.removed ++ change.added).find? fun id => !loaded.1.contains id with
  | some id => .error (.semantic (.memberNotMaterialized id))
  | none =>
    ensure (∀ id ∈ change.removed.head?, id = change.source.id) (.semantic .sourceDiscontinuity)
    match ← firstPathConflict change loaded.1 with
    | some ids =>
      let conflict ← resolvePathConflict database ids
      .error (.semantic (.pathDiscontinuity conflict))
    | none => applyValidatedChange database caches change loaded

def ProcessingCacheDomains.publishVspc (caches : ProcessingCacheDomains)
    (success : VspcAttemptSuccess) : ProcessingCacheDomains :=
  let caches := success.memberCacheUpdates.foldl
    (fun caches update => caches.publishMaterializedBlock update.1 update.2) caches
  let caches := success.mergeSetCacheUpdates.foldl
    (fun caches update => caches.publishMergeSets update.1 update.2) caches
  caches.publishVspcSink ⟨success.outcome.destination.id, success.outcome.destination.hash⟩

def Storage.applyVspcChange (storage : Storage) (change : ReadyVspcChange) :
    Except ApplyVspcChangeError (Storage × VspcCommitOutcome) :=
  if change.added = [] then
    .error (.serviceUnavailable "a ready VSPC change must contain an added path")
  else
    match vspcAttempt storage.database storage.caches change with
    | .error error => .error (.failed error)
    | .ok (database, success) =>
      .ok (⟨database, storage.caches.publishVspc success⟩, success.outcome)

end Kgi
