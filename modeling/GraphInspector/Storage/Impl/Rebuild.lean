import GraphInspector.Data.Run
import GraphInspector.Storage.Impl.Vspc

/-!
The rebuild of a generation from a pruning point, and the system that runs on the rebuilt generation:
materializations and VSPC transitions that commit one after the other, caches that drop entries at any
time, and an identity sequence that loses the numbers of rolled back transactions.
-/

namespace Kgi

open Data

abbrev RebuildAttempt (α : Type) := Except (TransactionAttemptError Empty) α

/--
The hashes a rebuild interns before the pruning point's own hash. The exact Genesis has empty
relationship vectors, so its synthetic selected parent is interned explicitly.
-/
def rebuildReferences (block : ValidatedNodeBlock) (genesisHash : BlockHash) : List BlockHash :=
  firstOccurrences (block.redMergeSet ++ block.blueMergeSet ++ block.directParents) ++
    if block.hash = genesisHash then [block.selectedParent] else []

def rebuildIdentity (identifiers : Interner BlockHash) (hash : BlockHash) :
    RebuildAttempt CompactId :=
  orError identifiers.ids[hash]?
    (.storage (.internalFailure "Rebuild reference identity was not interned"))

def Storage.performRebuild (block : ValidatedNodeBlock) (genesisHash : BlockHash) :
    RebuildAttempt (Storage × MaterializedSyncAnchor) := do
  let daaScore ← daaScoreToSql block.daaScore
  let blueScore ← blueScoreToSql block.blueScore
  let universal := rebuildReferences block genesisHash ++ [block.hash]
  let identifiers ← orError (Interner.empty.insertAll universal) (.storage .definiteFailure)
  let ownId ← rebuildIdentity identifiers block.hash
  let selectedParentId ← rebuildIdentity identifiers block.selectedParent
  let blueIds ← block.blueMergeSet.mapM (rebuildIdentity identifiers)
  let redIds ← block.redMergeSet.mapM (rebuildIdentity identifiers)
  let parentIds ← block.directParents.mapM (rebuildIdentity identifiers)
  let coordinate ← expect (BlockCoordinate.new 1 0) "Rebuild pruning point uses level one"
  let row : BlockRow :=
    { timestamp := block.timestamp
      daaScore := daaScore
      coordinate := coordinate
      selectedParentId := selectedParentId
      color := .gray
      isInVspc := true
      blueMergeSet := blueIds
      redMergeSet := redIds }
  let database := { Database.empty with
    identifiers := identifiers
    levels := (∅ : Map Nat LevelRow).insert 1 ⟨1, daaScore⟩
    dbPpBlueScore := blueScore }
  let database := database.insertBlockAndParents ownId row (parentIds.map fun id => (id, none))
  let caches := { ProcessingCacheDomains.new with
    identities := universal.foldl
      (fun identities hash => Map.insertSome identities hash
        ((identifiers.ids[hash]?).map fun id => ⟨id, hash = block.hash⟩)) ∅ }
  let caches := caches.publishMaterializedBlock ownId row.cached
  let caches := caches.publishMergeSets ownId row.mergeSets
  let caches := caches.publishVspcSink ⟨ownId, block.hash⟩
  pure (⟨database, caches⟩,
    ⟨⟨⟨block.blueWork, block.hash⟩, ownId⟩, block.selectedParent, block.blueScore⟩)

structure Eviction where
  identities : List BlockHash
  materializedBlocks : List CompactId
  mergeSets : List CompactId
  vspcSink : Bool
  deriving DecidableEq, Repr

def ProcessingCacheDomains.evict (caches : ProcessingCacheDomains) (eviction : Eviction) :
    ProcessingCacheDomains where
  identities := eviction.identities.foldl (fun m hash => m.erase hash) caches.identities
  materializedBlocks :=
    eviction.materializedBlocks.foldl (fun m id => m.erase id) caches.materializedBlocks
  mergeSets := eviction.mergeSets.foldl (fun m id => m.erase id) caches.mergeSets
  vspcSink := if eviction.vspcSink then none else caches.vspcSink

inductive StorageEvent where
  | materialize (block : ValidatedNodeBlock) (policy : ReferencePolicy)
  | applyVspc (change : ReadyVspcChange)
  | evict (eviction : Eviction)
  | sequenceAdvanced (count : Nat)
  deriving DecidableEq

namespace Storage

def step (storage : Storage) (event : StorageEvent) : Storage :=
  match event with
  | .materialize block policy =>
    match storage.materializeBlock block policy with
    | .ok (storage, _) => storage
    | .error _ => storage
  | .applyVspc change =>
    match storage.applyVspcChange change with
    | .ok (storage, _) => storage
    | .error _ => storage
  | .evict eviction => { storage with caches := storage.caches.evict eviction }
  | .sequenceAdvanced count =>
    { storage with database := { storage.database with
        identifiers := storage.database.identifiers.skip count } }

end Storage

end Kgi
