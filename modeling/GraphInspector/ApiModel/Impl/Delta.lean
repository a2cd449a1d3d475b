import GraphInspector.Data.Journal
import GraphInspector.Data.Multimap
import GraphInspector.Data.Outcome
import GraphInspector.Model.Block

/-!
The values a graph projection retains, and canonical deltas between two revisions of a projection.
-/

namespace Kgi

open Data

structure Level where
  size : Nat
  daaScore : Option Nat
  deriving DecidableEq, Repr

structure EdgeId where
  parent : BlockHash
  child : BlockHash
  deriving DecidableEq, Repr

instance : Ord EdgeId where
  compare := compareLex (compareOn EdgeId.parent) (compareOn EdgeId.child)

instance : Std.TransOrd EdgeId :=
  inferInstanceAs (Std.TransCmp (compareLex (compareOn EdgeId.parent) (compareOn EdgeId.child)))

instance : Std.LawfulEqOrd EdgeId where
  eq_of_compare := by
    rintro ⟨parent, child⟩ ⟨parent', child'⟩ h
    simp only [compare, compareLex, compareOn, Ordering.then_eq_eq] at h
    rw [EdgeId.mk.injEq]
    exact ⟨compare_eq_iff_eq.mp h.1, compare_eq_iff_eq.mp h.2⟩

structure GraphEdge where
  id : EdgeId
  parentCoordinate : BlockCoordinate
  childCoordinate : BlockCoordinate
  deriving DecidableEq, Repr

structure GraphBlock where
  hash : BlockHash
  coordinate : BlockCoordinate
  timestamp : Timestamp
  daaScore : Nat
  selectedParentIndex : Option Nat
  directParents : List BlockHash
  blueMergeSet : List BlockHash
  redMergeSet : List BlockHash
  color : BlockColor
  isInVspc : Bool
  deriving DecidableEq, Repr

structure LevelChange where
  level : Nat
  before : Option Level
  after : Option Level
  deriving DecidableEq, Repr

structure FieldChange (α : Type) where
  before : α
  after : α
  deriving DecidableEq, Repr

inductive GraphDeltaCreationError where
  | nonForwardRevision (fromRevisionId toRevisionId : Nat)
  | zeroHeadLevel
  deriving DecidableEq, Repr

structure GraphDelta where
  fromRevisionId : Nat
  toRevisionId : Nat
  revisionTimestampMs : Nat
  headLevel : Nat
  blockChanges : Map BlockHash (Option GraphBlock)
  edgeChanges : Map EdgeId (Option GraphEdge)
  levelChanges : List LevelChange
  isInVspcChanges : Map BlockHash (FieldChange Bool)
  colorChanges : Map BlockHash (FieldChange BlockColor)
  forward : fromRevisionId < toRevisionId
  headLevel_pos : 0 < headLevel

def GraphDelta.new (fromRevisionId toRevisionId revisionTimestampMs headLevel : Nat)
    (blockChanges : Map BlockHash (Option GraphBlock)) (edgeChanges : Map EdgeId (Option GraphEdge))
    (levelChanges : List LevelChange) (isInVspcChanges : Map BlockHash (FieldChange Bool))
    (colorChanges : Map BlockHash (FieldChange BlockColor)) :
    Except GraphDeltaCreationError GraphDelta :=
  if hforward : toRevisionId ≤ fromRevisionId then
    .error (.nonForwardRevision fromRevisionId toRevisionId)
  else if hhead : headLevel = 0 then
    .error .zeroHeadLevel
  else
    .ok ⟨fromRevisionId, toRevisionId, revisionTimestampMs, headLevel, blockChanges, edgeChanges,
      levelChanges, isInVspcChanges, colorChanges, Nat.lt_of_not_le hforward, Nat.pos_of_ne_zero hhead⟩

end Kgi
