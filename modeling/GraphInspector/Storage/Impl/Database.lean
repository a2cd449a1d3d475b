import GraphInspector.Data.Interner
import GraphInspector.Data.Outcome
import GraphInspector.Data.Sequence
import GraphInspector.Model.Lifecycle

/-!
The processing schema of one database generation and the caches that storage keeps in front of it.
-/

namespace Kgi

open Data

/--
The stored DAA score of a level without a VSPC block, `i64::MAX`.
-/
def noVspcDaaScore : Nat := 2 ^ 63 - 1

structure LevelRow where
  size : Nat
  daaScore : Nat
  deriving DecidableEq, Repr

structure BlockRow where
  timestamp : Timestamp
  daaScore : Nat
  coordinate : BlockCoordinate
  selectedParentId : CompactId
  color : BlockColor
  isInVspc : Bool
  blueMergeSet : List CompactId
  redMergeSet : List CompactId
  deriving DecidableEq, Repr

/--
A row of the parents table. The parent coordinate is absent for a boundary identity, which the table
stores as level zero.
-/
structure ParentRow where
  childCoordinate : BlockCoordinate
  parentCoordinate : Option BlockCoordinate
  deriving DecidableEq, Repr

/--
The tables of one generation. `parents` has the child and the parent identifier as its key.
-/
structure Database where
  identifiers : Interner BlockHash
  levels : Map Nat LevelRow
  blocks : Map CompactId BlockRow
  parents : Map CompactId (Map CompactId ParentRow)
  dbPpBlueScore : Nat

structure CachedIdentity where
  id : CompactId
  materialized : Bool
  deriving DecidableEq, Repr

structure CachedMaterializedBlock where
  coordinate : BlockCoordinate
  selectedParentId : CompactId
  deriving DecidableEq, Repr

structure CachedMergeSets where
  blue : List CompactId
  red : List CompactId
  deriving DecidableEq, Repr

structure CachedVspcSink where
  id : CompactId
  hash : BlockHash
  deriving DecidableEq, Repr

structure ProcessingCacheDomains where
  identities : Map BlockHash CachedIdentity
  materializedBlocks : Map CompactId CachedMaterializedBlock
  mergeSets : Map CompactId CachedMergeSets
  vspcSink : Option CachedVspcSink
  deriving DecidableEq

structure Storage where
  database : Database
  caches : ProcessingCacheDomains

inductive StorageError where
  | scoreOutOfRange (fault : ScoreRangeFault)
  | invalidMetadata (diagnostic : String)
  | internalFailure (diagnostic : String)
  /-- A statement the database refuses, such as a unique violation. -/
  | definiteFailure
  deriving DecidableEq, Repr

inductive TransactionAttemptError (S : Type) where
  | semantic (error : S)
  | storage (error : StorageError)
  | panic (message : String)
  deriving DecidableEq, Repr

def daaScoreToSql {S : Type} (score : Nat) : Except (TransactionAttemptError S) Nat :=
  if score > maxDaaScore then .error (.storage (.scoreOutOfRange .daaScore)) else .ok score

def blueScoreToSql {S : Type} (score : Nat) : Except (TransactionAttemptError S) Nat :=
  if score > maxBlueScore then .error (.storage (.scoreOutOfRange .blueScore)) else .ok score

def expect {S α : Type} (value : Option α) (message : String) :
    Except (TransactionAttemptError S) α :=
  orError value (.panic message)

def decodeLevelDaaScore (raw : Nat) : Option Nat :=
  if raw = noVspcDaaScore then none else some raw

namespace BlockRow

def cached (row : BlockRow) : CachedMaterializedBlock :=
  ⟨row.coordinate, row.selectedParentId⟩

def mergeSets (row : BlockRow) : CachedMergeSets :=
  ⟨row.blueMergeSet, row.redMergeSet⟩

end BlockRow

namespace Database

def empty : Database where
  identifiers := .empty
  levels := ∅
  blocks := ∅
  parents := ∅
  dbPpBlueScore := 0

def insertBlockAndParents (database : Database) (id : CompactId) (block : BlockRow)
    (parents : List (CompactId × Option BlockCoordinate)) : Database :=
  let rows := parents.foldl
    (fun (rows : Map CompactId ParentRow) parent =>
      rows.insert parent.1 ⟨block.coordinate, parent.2⟩) ∅
  { database with
    blocks := database.blocks.insert id block
    parents := database.parents.insert id rows }

def queryVspcSink (database : Database) : Option (CompactId × BlockHash) :=
  match (database.blocks.toList.filter (fun entry => entry.2.isInVspc)).getLast? with
  | none => none
  | some (id, _) => (database.identifiers.keys[id]?).map fun hash => (id, hash)

end Database

namespace ProcessingCacheDomains

def new : ProcessingCacheDomains := ⟨∅, ∅, ∅, none⟩

def publishIdentity (caches : ProcessingCacheDomains) (hash : BlockHash)
    (identity : CachedIdentity) : ProcessingCacheDomains :=
  { caches with identities := caches.identities.insert hash identity }

def publishMaterializedBlock (caches : ProcessingCacheDomains) (id : CompactId)
    (block : CachedMaterializedBlock) : ProcessingCacheDomains :=
  { caches with materializedBlocks := caches.materializedBlocks.insert id block }

def publishMergeSets (caches : ProcessingCacheDomains) (id : CompactId)
    (mergeSets : CachedMergeSets) : ProcessingCacheDomains :=
  { caches with mergeSets := caches.mergeSets.insert id mergeSets }

def publishVspcSink (caches : ProcessingCacheDomains) (sink : CachedVspcSink) :
    ProcessingCacheDomains :=
  { caches with vspcSink := some sink }

end ProcessingCacheDomains

end Kgi
