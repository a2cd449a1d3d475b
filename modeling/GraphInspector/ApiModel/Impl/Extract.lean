import GraphInspector.ApiModel.Impl.Graph

/-!
Extraction of a frozen view over a contained extent.
-/

namespace Kgi

open Data

inductive GraphViewExtractError where
  | outsideSourceExtent
  deriving DecidableEq, Repr

def LevelExtent.containsExtent (extent other : LevelExtent) : Bool :=
  extent.lowLevel ≤ other.lowLevel && other.highLevel ≤ extent.highLevel

def LevelExtent.levels (extent : LevelExtent) : List Nat :=
  List.range' extent.lowLevel extent.depth

namespace GraphView

def selectedHashes (view : GraphView) (extent : LevelExtent) : List BlockHash :=
  (view.blockHashesByLevel.toList.filter fun entry => extent.containsLevel entry.1).flatMap fun entry =>
    entry.2.toList

def selectedEdgeIds (view : GraphView) (extent : LevelExtent) : List EdgeId :=
  (view.edgeIdsBySpan.toList.filter fun entry => extent.lowLevel ≤ entry.1).flatMap fun entry =>
    (entry.2.toList.filter fun entry => entry.1 ≤ extent.highLevel).flatMap fun entry =>
      entry.2.toList

def collect {K V : Type} [Ord K] [Std.TransOrd K] (source : Map K V) (missing : String) (keys : List K) :
    Panics (Map K V) :=
  keys.foldlM (fun (collected : Map K V) key => do
    let value ← orError source[key]? missing
    return collected.insert key value) ∅

def selectSubviewGraph (view : GraphView) (extent : LevelExtent) :
    Panics (Map BlockHash GraphBlock × Map EdgeId GraphEdge) := do
  let blocks ← collect view.blocks "an indexed block exists" (view.selectedHashes extent)
  let edges ← collect view.edges "an indexed edge exists" (view.selectedEdgeIds extent)
  return (blocks, edges)

def insertSourceLevel (view : GraphView) (target : Map Nat StoredLevel) (level : Nat) :
    Panics (Map Nat StoredLevel) :=
  if target.contains level then
    .ok target
  else
    match view.levels[level]? with
    | none => .error "a coherent graph contains every nominal and edge endpoint level"
    | some stored => .ok (target.insert level ⟨stored.value, 0⟩)

def extractSubview (view : GraphView) (extent : LevelExtent) :
    Panics (Except GraphViewExtractError GraphView) := do
  if !view.extent.containsExtent extent then
    return .error .outsideSourceExtent
  let (blocks, edges) ← view.selectSubviewGraph extent
  let selectedLevels ← extent.levels.foldlM view.insertSourceLevel ∅
  let selectedLevels ← (edges.toList.flatMap fun entry =>
    [entry.2.parentCoordinate.level, entry.2.childCoordinate.level]).foldlM view.insertSourceLevel
      selectedLevels
  let extracted : GraphView :=
    { maxDepth := extent.depth
      extent := extent
      currentRevisionId := view.currentRevisionId
      currentRevisionTimestampMs := view.currentRevisionTimestampMs
      trackingPolicy := .frozen
      levels := selectedLevels
      blocks := blocks
      edges := edges
      blockHashesByLevel := indexBlocksByLevel blocks
      edgeParentsByChild := indexEdgeParentsByChild edges
      edgeIdsBySpan := indexEdgesBySpan edges }
  let extracted ←
    (edges.toList.map fun entry => entry.2.parentCoordinate.level).foldlM incrementParentUsage extracted
  return .ok extracted

end GraphView

end Kgi
