import GraphInspector.ApiModel.Impl.Delta

/-!
A canonical graph view: the retained blocks, edges and levels of an extent, with indexes and usage counts
derived from them. A view advances by committed updates, which yield deltas, and by deltas.
-/

namespace Kgi

open Data

abbrev Panics (α : Type) := Except String α

inductive LevelExtentError where
  | invalidBounds (lowLevel highLevel : Nat)
  deriving DecidableEq, Repr

@[ext]
structure LevelExtent where
  lowLevel : Nat
  highLevel : Nat
  low_pos : 0 < lowLevel
  low_le_high : lowLevel ≤ highLevel
  deriving Repr

instance : DecidableEq LevelExtent := fun _ _ => decidable_of_iff _ LevelExtent.ext_iff.symm

namespace LevelExtent

def upTo (level : Nat) : LevelExtent :=
  ⟨1, level + 1, Nat.one_pos, Nat.le_add_left 1 level⟩

def new (lowLevel highLevel : Nat) : Except LevelExtentError LevelExtent :=
  if h : lowLevel = 0 ∨ lowLevel > highLevel then
    .error (.invalidBounds lowLevel highLevel)
  else
    .ok ⟨lowLevel, highLevel, by omega, by omega⟩

def depth (extent : LevelExtent) : Nat :=
  extent.highLevel - extent.lowLevel + 1

def containsLevel (extent : LevelExtent) (level : Nat) : Bool :=
  extent.lowLevel ≤ level && level ≤ extent.highLevel

def intersectsSpan (extent : LevelExtent) (parentLevel childLevel : Nat) : Bool :=
  childLevel ≥ extent.lowLevel && parentLevel ≤ extent.highLevel

end LevelExtent

inductive TrackingPolicy where
  | head
  | fixed
  | frozen
  deriving DecidableEq, Repr

structure StoredLevel where
  value : Level
  usageCount : Nat
  deriving DecidableEq, Repr

inductive GraphViewUpdateError where
  | frozen
  deriving DecidableEq, Repr

inductive GraphDeltaApplyError where
  | frozen
  | revisionMismatch (viewRevision deltaFrom : Nat)
  deriving DecidableEq, Repr

structure GraphView where
  maxDepth : Nat
  extent : LevelExtent
  currentRevisionId : Nat
  currentRevisionTimestampMs : Nat
  trackingPolicy : TrackingPolicy
  levels : Map Nat StoredLevel
  blocks : Map BlockHash GraphBlock
  edges : Map EdgeId GraphEdge
  blockHashesByLevel : Multimap Nat BlockHash
  edgeParentsByChild : Multimap BlockHash BlockHash
  edgeIdsBySpan : NestedMultimap Nat Nat EdgeId

def indexBlocksByLevel (blocks : Map BlockHash GraphBlock) : Multimap Nat BlockHash :=
  blocks.toList.foldl (fun index entry => Multimap.add index entry.2.coordinate.level entry.1) ∅

def indexEdgeParentsByChild (edges : Map EdgeId GraphEdge) : Multimap BlockHash BlockHash :=
  edges.toList.foldl (fun index entry => Multimap.add index entry.1.child entry.1.parent) ∅

def indexEdgesBySpan (edges : Map EdgeId GraphEdge) : NestedMultimap Nat Nat EdgeId :=
  edges.toList.foldl
    (fun index entry => NestedMultimap.add index entry.2.childCoordinate.level
      entry.2.parentCoordinate.level entry.1) ∅

def graphBlockFromCommitted (committed : BlockCommitted) : GraphBlock where
  hash := committed.hash
  coordinate := committed.coordinate
  timestamp := committed.timestamp
  daaScore := committed.daaScore
  selectedParentIndex := committed.selectedParentIndex
  directParents := committed.directParents.map ParentCommitted.hash
  blueMergeSet := committed.blueMergeSet
  redMergeSet := committed.redMergeSet
  color := committed.color
  isInVspc := committed.isInVspc

namespace GraphView

def lowLevel (view : GraphView) : Nat :=
  view.extent.lowLevel

def highLevel (view : GraphView) : Nat :=
  view.extent.highLevel

def incrementUsage (missing : String) (view : GraphView) (parentLevel : Nat) : Panics GraphView :=
  match view.levels[parentLevel]? with
  | none => .error missing
  | some stored =>
    if stored.usageCount < u64Max then
      .ok { view with
        levels := view.levels.insert parentLevel { stored with usageCount := stored.usageCount + 1 } }
    else
      .error "retained edge usage fits u64"

def incrementParentUsage (view : GraphView) (parentLevel : Nat) : Panics GraphView :=
  incrementUsage "a coherent graph contains every edge parent level" view parentLevel

def decrementParentUsage (view : GraphView) (parentLevel : Nat) : Panics GraphView :=
  match view.levels[parentLevel]? with
  | none => .error "a coherent graph contains every edge parent level"
  | some stored =>
    if 0 < stored.usageCount then
      .ok { view with
        levels := view.levels.insert parentLevel { stored with usageCount := stored.usageCount - 1 } }
    else
      .error "retained parent usage is positive"

def fromDatabaseProjection (maxDepth : Nat) (extent : LevelExtent) (trackingPolicy : TrackingPolicy)
    (levels : Map Nat Level) (blocks : Map BlockHash GraphBlock) (edges : Map EdgeId GraphEdge) :
    Panics GraphView := do
  ensure (0 < maxDepth) "a graph view has positive maximum depth"
  ensure (extent.depth ≤ maxDepth) "a graph view extent fits its maximum depth"
  let view : GraphView :=
    { maxDepth := maxDepth
      extent := extent
      currentRevisionId := 0
      currentRevisionTimestampMs := 0
      trackingPolicy := trackingPolicy
      levels := Map.mapEntries levels fun _ value => some ⟨value, 0⟩
      blocks := blocks
      edges := edges
      blockHashesByLevel := indexBlocksByLevel blocks
      edgeParentsByChild := indexEdgeParentsByChild edges
      edgeIdsBySpan := indexEdgesBySpan edges }
  (edges.toList.map fun entry => entry.2.parentCoordinate.level).foldlM incrementParentUsage view

def indexEdge (view : GraphView) (edge : GraphEdge) : GraphView :=
  { view with
    edgeParentsByChild := Multimap.add view.edgeParentsByChild edge.id.child edge.id.parent
    edgeIdsBySpan := NestedMultimap.add view.edgeIdsBySpan edge.childCoordinate.level
      edge.parentCoordinate.level edge.id }

def unindexEdge (view : GraphView) (edge : GraphEdge) : GraphView :=
  { view with
    edgeParentsByChild := Multimap.remove view.edgeParentsByChild edge.id.child edge.id.parent
    edgeIdsBySpan := NestedMultimap.remove view.edgeIdsBySpan edge.childCoordinate.level
      edge.parentCoordinate.level edge.id }

end GraphView

end Kgi
