import GraphInspector.Storage.Impl.Database

/-!
Materialization of one validated block: identity lookup and interning, coordinate allocation, row
insertion and the committed projection of the new block.
-/

namespace Kgi

open Data

inductive ReferencePolicy where
  | allowBoundaryIdentities
  | requireMaterialized
  deriving DecidableEq, Repr

inductive MaterializeBlockOutcome where
  | inserted (committed : BlockCommitted)
  | alreadyMaterialized (id : CompactId) (coordinate : BlockCoordinate)
  deriving DecidableEq, Repr

inductive MaterializeSemanticError where
  | incomingBoundaryIdentity (hash : BlockHash)
  | nonMaterializedReferences (missing identityOnly : List BlockHash)
  deriving DecidableEq, Repr

structure PreparedBlock where
  block : ValidatedNodeBlock
  selectedParentIndex : Nat
  /-- Every referenced hash once, in first occurrence order. -/
  references : List BlockHash
  deriving DecidableEq

namespace PreparedBlock

def new (block : ValidatedNodeBlock) :
    Except (TransactionAttemptError MaterializeSemanticError) PreparedBlock := do
  let selectedParentIndex ←
    expect ((block.directParents.idxOf? block.selectedParent).filter fun index => index < 2 ^ 32)
      "ValidatedNodeBlock selected parent has a representable canonical index"
  pure ⟨block, selectedParentIndex,
    firstOccurrences (block.redMergeSet ++ block.blueMergeSet ++ block.directParents)⟩

def universal (prepared : PreparedBlock) : List BlockHash :=
  prepared.references ++ [prepared.block.hash]

end PreparedBlock

structure StoredIdentity where
  id : CompactId
  block : Option CachedMaterializedBlock
  deriving DecidableEq, Repr

def StoredIdentity.coordinate (identity : StoredIdentity) : Option BlockCoordinate :=
  identity.block.map CachedMaterializedBlock.coordinate

structure MaterializeAttemptSuccess where
  outcome : MaterializeBlockOutcome
  cacheUpdates : List (BlockHash × StoredIdentity)
  mergeSets : Option (CompactId × CachedMergeSets)

structure LoadedIdentities where
  values : Map BlockHash StoredIdentity
  cacheMisses : List BlockHash

def Database.storedIdentity (database : Database) (hash : BlockHash) : Option StoredIdentity :=
  (database.identifiers.ids[hash]?).map fun id => ⟨id, (database.blocks[id]?).map BlockRow.cached⟩

def ProcessingCacheDomains.storedIdentity (caches : ProcessingCacheDomains) (hash : BlockHash) :
    Option StoredIdentity :=
  match caches.identities[hash]? with
  | none => none
  | some identity =>
    if identity.materialized then
      (caches.materializedBlocks[identity.id]?).map fun block => ⟨identity.id, some block⟩
    else
      some ⟨identity.id, none⟩

def seedIdentitiesFromCache (caches : ProcessingCacheDomains) (hashes : List BlockHash) :
    LoadedIdentities where
  values := hashes.foldl (fun values hash => Map.insertSome values hash (caches.storedIdentity hash)) ∅
  cacheMisses := hashes.filter fun hash => (caches.storedIdentity hash).isNone

def loadIdentities (database : Database) (caches : ProcessingCacheDomains)
    (hashes : List BlockHash) : LoadedIdentities :=
  let seeded := seedIdentitiesFromCache caches hashes
  { seeded with
    values := seeded.cacheMisses.foldl
      (fun values hash => Map.insertSome values hash (database.storedIdentity hash)) seeded.values }

def internMissingIdentities (identifiers : Interner BlockHash) (loaded : LoadedIdentities) :
    Except (TransactionAttemptError MaterializeSemanticError)
      (Interner BlockHash × Map BlockHash StoredIdentity) := do
  let missing := loaded.cacheMisses.filter fun hash => !loaded.values.contains hash
  let identifiers ← orError (identifiers.insertAll missing) (.storage .definiteFailure)
  let values := missing.foldl
    (fun values hash =>
      Map.insertSome values hash ((identifiers.ids[hash]?).map fun id => ⟨id, none⟩))
    loaded.values
  pure (identifiers, values)

def deriveLevel (parents : List StoredIdentity) :
    Except (TransactionAttemptError MaterializeSemanticError) Nat :=
  match (parents.filterMap fun parent => parent.coordinate.map BlockCoordinate.level).max? with
  | none => .ok 1
  | some level =>
    if level + 1 < 2 ^ 32 then .ok (level + 1) else .error (.panic "derived block level fits u32")

def growLevel (row : Option LevelRow) :
    Except (TransactionAttemptError MaterializeSemanticError) LevelRow :=
  match row with
  | none => .ok ⟨1, noVspcDaaScore⟩
  | some row =>
    if row.size < maxLevelSize then
      .ok { row with size := row.size + 1 }
    else
      .error (.panic "materialized level size fits u16")

def allocateCoordinate (levels : Map Nat LevelRow) (level : Nat) :
    Except (TransactionAttemptError MaterializeSemanticError)
      (Map Nat LevelRow × BlockCoordinate) := do
  let row ← growLevel levels[level]?
  let coordinate ← expect (BlockCoordinate.new level (row.size - 1))
    "allocated block coordinate is valid"
  pure (levels.insert level row, coordinate)

def loadLevelSnapshots {S : Type} (rows : Map Nat LevelRow) (levels : List Nat)
    (diagnostic : String) : Except (TransactionAttemptError S) (List LevelCommitted) :=
  (KeySet.ofElems levels).toList.mapM fun level =>
    orError ((rows[level]?).map fun row => ⟨level, row.size, decodeLevelDaaScore row.daaScore⟩)
      (.storage (.invalidMetadata diagnostic))

def insertPreparedBlock (database : Database) (prepared : PreparedBlock) (daaScore : Nat)
    (loaded : LoadedIdentities) :
    Except (TransactionAttemptError MaterializeSemanticError)
      (Database × MaterializeAttemptSuccess) := do
  let (identifiers, identities) ← internMissingIdentities database.identifiers loaded
  let parents ← prepared.block.directParents.mapM fun hash =>
    expect identities[hash]? "every direct parent was resolved"
  let level ← deriveLevel parents
  let (levels, coordinate) ← allocateCoordinate database.levels level
  let selectedParent ← expect identities[prepared.block.selectedParent]? "selected parent was resolved"
  let own ← expect identities[prepared.block.hash]? "the incoming block identity was interned"
  let identities := identities.insert prepared.block.hash
    { own with block := some ⟨coordinate, selectedParent.id⟩ }
  let blue ← prepared.block.blueMergeSet.mapM fun hash =>
    expect identities[hash]? "blue merge-set identity was resolved"
  let red ← prepared.block.redMergeSet.mapM fun hash =>
    expect identities[hash]? "red merge-set identity was resolved"
  let row : BlockRow :=
    { timestamp := prepared.block.timestamp
      daaScore := daaScore
      coordinate := coordinate
      selectedParentId := selectedParent.id
      color := .gray
      isInVspc := false
      blueMergeSet := blue.map StoredIdentity.id
      redMergeSet := red.map StoredIdentity.id }
  let database := { database with identifiers := identifiers, levels := levels }
  let database := database.insertBlockAndParents own.id row
    (parents.map fun parent => (parent.id, parent.coordinate))
  let levelSnapshots ← loadLevelSnapshots levels
    (level :: parents.filterMap fun parent => parent.coordinate.map BlockCoordinate.level)
    "materialized parent level has no level-state row"
  let cacheUpdates ← loaded.cacheMisses.mapM fun hash =>
    expect ((identities[hash]?).map fun identity => (hash, identity))
      "every universal identity was resolved"
  pure (database,
    { outcome := .inserted
        { id := own.id
          hash := prepared.block.hash
          coordinate := coordinate
          timestamp := prepared.block.timestamp
          daaScore := prepared.block.daaScore
          selectedParentIndex := some prepared.selectedParentIndex
          directParents := (prepared.block.directParents.zip parents).map fun parent =>
            ⟨parent.1, parent.2.coordinate⟩
          blueMergeSet := prepared.block.blueMergeSet
          redMergeSet := prepared.block.redMergeSet
          color := .gray
          isInVspc := false
          levelSnapshots := levelSnapshots }
      cacheUpdates := cacheUpdates
      mergeSets := some (own.id, row.mergeSets) })

def materializeLoaded (database : Database) (loaded : LoadedIdentities) (prepared : PreparedBlock)
    (daaScore : Nat) (policy : ReferencePolicy) :
    Except (TransactionAttemptError MaterializeSemanticError)
      (Database × MaterializeAttemptSuccess) :=
  match loaded.values[prepared.block.hash]? with
  | some own =>
    match own.coordinate with
    | some coordinate =>
      .ok (database,
        { outcome := .alreadyMaterialized own.id coordinate
          cacheUpdates := (loaded.cacheMisses.filter fun hash => hash = prepared.block.hash).map
            fun hash => (hash, own)
          mergeSets := none })
    | none => .error (.semantic (.incomingBoundaryIdentity prepared.block.hash))
  | none =>
    let missing := prepared.references.filter fun hash => loaded.values[hash]?.isNone
    let identityOnly := prepared.references.filter fun hash =>
      loaded.values[hash]?.any fun identity => identity.block.isNone
    if policy = .requireMaterialized ∧ (missing ≠ [] ∨ identityOnly ≠ []) then
      .error (.semantic (.nonMaterializedReferences missing identityOnly))
    else
      insertPreparedBlock database prepared daaScore loaded

def materializeAttempt (database : Database) (caches : ProcessingCacheDomains)
    (prepared : PreparedBlock) (daaScore : Nat) (policy : ReferencePolicy) :
    Except (TransactionAttemptError MaterializeSemanticError)
      (Database × MaterializeAttemptSuccess) :=
  materializeLoaded database (loadIdentities database caches prepared.universal) prepared daaScore policy

namespace ProcessingCacheDomains

def publishStoredIdentity (caches : ProcessingCacheDomains) (update : BlockHash × StoredIdentity) :
    ProcessingCacheDomains :=
  let caches := caches.publishIdentity update.1 ⟨update.2.id, update.2.block.isSome⟩
  match update.2.block with
  | some block => caches.publishMaterializedBlock update.2.id block
  | none => caches

def publishMaterialization (caches : ProcessingCacheDomains)
    (success : MaterializeAttemptSuccess) : ProcessingCacheDomains :=
  let caches := success.cacheUpdates.foldl publishStoredIdentity caches
  match success.mergeSets with
  | some (id, mergeSets) => caches.publishMergeSets id mergeSets
  | none => caches

end ProcessingCacheDomains

def Storage.materializeBlock (storage : Storage) (block : ValidatedNodeBlock)
    (policy : ReferencePolicy) :
    Except (TransactionAttemptError MaterializeSemanticError)
      (Storage × MaterializeBlockOutcome) := do
  let prepared ← PreparedBlock.new block
  let daaScore ← daaScoreToSql block.daaScore
  let (database, success) ←
    materializeAttempt storage.database storage.caches prepared daaScore policy
  pure (⟨database, storage.caches.publishMaterialization success⟩, success.outcome)

end Kgi
