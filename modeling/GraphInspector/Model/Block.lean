import GraphInspector.Data.Map
import Mathlib.Data.Prod.Lex

/-!
The shared vocabulary of the `kgi-model` crate: identities, coordinates, consensus order, normalized node
blocks and committed graph updates.
-/

namespace Kgi

/--
A 32 byte block hash. Hashes are compared as big endian byte strings.
-/
abbrev BlockHash := Fin (2 ^ 256)

instance BlockHash.neZero : NeZero (2 ^ 256) := ⟨by decide⟩

instance : Std.TransOrd BlockHash := inferInstance

instance : Std.LawfulEqOrd BlockHash := inferInstance

instance : LawfulBEq BlockHash := inferInstance

def BlockHash.toHex (hash : BlockHash) : String :=
  String.ofList ((List.range 64).map fun index => Nat.digitChar (hash / 16 ^ (63 - index) % 16))

/--
A database-local block identifier. The identity sequence of the database starts at one.
-/
abbrev CompactId := Nat

abbrev Timestamp := Nat

def u64Max : Nat := 2 ^ 64 - 1

/--
Highest DAA score representable by KGI, `i64::MAX - 1`.
-/
def maxDaaScore : Nat := 2 ^ 63 - 2

def maxBlueScore : Nat := 2 ^ 63 - 1

/--
Greatest positive number of blocks in one graph level, `u16::MAX`.
-/
def maxLevelSize : Nat := 65535

def maxLevelSlot : Nat := maxLevelSize - 1

inductive BlockColor where
  | gray
  | blue
  | red
  deriving DecidableEq, Repr

structure BlockCoordinate where
  level : Nat
  slot : Nat
  level_pos : 0 < level
  level_lt : level < 2 ^ 32
  slot_le : slot ≤ maxLevelSlot
  deriving DecidableEq, Repr

namespace BlockCoordinate

def new (level slot : Nat) : Option BlockCoordinate :=
  if h : 0 < level ∧ level < 2 ^ 32 ∧ slot ≤ maxLevelSlot then
    some ⟨level, slot, h.1, h.2.1, h.2.2⟩
  else
    none

def root : BlockCoordinate := ⟨1, 0, by decide, by decide, by decide⟩

def child : BlockCoordinate := ⟨2, 0, by decide, by decide, by decide⟩

def grandchild : BlockCoordinate := ⟨3, 0, by decide, by decide, by decide⟩

@[ext]
theorem ext {a b : BlockCoordinate} (hlevel : a.level = b.level) (hslot : a.slot = b.slot) :
    a = b := by
  rcases a with ⟨l, s, _, _, _⟩
  rcases b with ⟨l', s', _, _, _⟩
  simp only at hlevel hslot
  subst hlevel hslot
  rfl

end BlockCoordinate

inductive BlockPresence where
  | absent
  | boundaryIdentity (id : CompactId)
  | materialized (id : CompactId) (coordinate : BlockCoordinate)
  deriving DecidableEq, Repr

structure ConsensusOrder where
  blueWork : Nat
  hash : BlockHash
  deriving DecidableEq, Repr

instance : LinearOrder ConsensusOrder :=
  LinearOrder.lift' (fun order => toLex (order.blueWork, order.hash)) <| by
    rintro ⟨work, hash⟩ ⟨work', hash'⟩ h
    simpa using h

instance : Std.TransOrd ConsensusOrder := inferInstance

instance : Std.LawfulEqOrd ConsensusOrder where
  eq_of_compare h := compare_eq_iff_eq.mp h

structure VspcPoint where
  order : ConsensusOrder
  id : CompactId
  deriving DecidableEq, Repr

def VspcPoint.hash (point : VspcPoint) : BlockHash :=
  point.order.hash

/--
A normalized full node block with independently canonical relationship vectors. Its own hash is
absent from every relationship vector. The selected parent is a direct parent, except for the exact
Genesis, whose selected parent is the synthetic origin.
-/
structure ValidatedNodeBlock where
  hash : BlockHash
  selectedParent : BlockHash
  directParents : List BlockHash
  blueMergeSet : List BlockHash
  redMergeSet : List BlockHash
  timestamp : Timestamp
  daaScore : Nat
  blueScore : Nat
  blueWork : Nat
  nodup_directParents : directParents.Nodup
  nodup_blueMergeSet : blueMergeSet.Nodup
  nodup_redMergeSet : redMergeSet.Nodup
  hash_not_mem : hash ∉ redMergeSet ++ blueMergeSet ++ directParents
  hash_ne_selectedParent : hash ≠ selectedParent
  deriving DecidableEq

def ValidatedNodeBlock.ofParent (hash parent : BlockHash) (h : hash ≠ parent) :
    ValidatedNodeBlock where
  hash := hash
  selectedParent := parent
  directParents := [parent]
  blueMergeSet := [parent]
  redMergeSet := []
  timestamp := 0
  daaScore := 0
  blueScore := 0
  blueWork := 0
  nodup_directParents := List.nodup_singleton parent
  nodup_blueMergeSet := List.nodup_singleton parent
  nodup_redMergeSet := List.nodup_nil
  hash_not_mem := by simpa using h
  hash_ne_selectedParent := h

structure MaterializedSyncAnchor where
  point : VspcPoint
  selectedParent : BlockHash
  blueScore : Nat
  deriving DecidableEq, Repr

structure PersistedBlock where
  point : VspcPoint
  selectedParent : BlockHash
  deriving DecidableEq, Repr

structure ParentCommitted where
  hash : BlockHash
  coordinate : Option BlockCoordinate
  deriving DecidableEq, Repr

structure LevelCommitted where
  level : Nat
  size : Nat
  daaScore : Option Nat
  deriving DecidableEq, Repr

structure BlockCommitted where
  id : CompactId
  hash : BlockHash
  coordinate : BlockCoordinate
  timestamp : Timestamp
  daaScore : Nat
  selectedParentIndex : Option Nat
  directParents : List ParentCommitted
  blueMergeSet : List BlockHash
  redMergeSet : List BlockHash
  color : BlockColor
  isInVspc : Bool
  levelSnapshots : List LevelCommitted
  deriving DecidableEq, Repr

structure VspcCommitted where
  source : BlockHash
  destination : BlockHash
  removed : List BlockHash
  added : List BlockHash
  levelSnapshots : List LevelCommitted
  deriving DecidableEq, Repr

inductive GraphUpdate where
  | catchup
  | blockCommitted (committed : BlockCommitted)
  | vspcCommitted (committed : VspcCommitted)
  | live
  deriving DecidableEq, Repr

structure VspcChange where
  removed : List BlockHash
  added : List BlockHash
  deriving DecidableEq, Repr

structure ReadyVspcChange where
  source : VspcPoint
  destination : VspcPoint
  removed : List CompactId
  added : List CompactId
  deriving DecidableEq, Repr

end Kgi
