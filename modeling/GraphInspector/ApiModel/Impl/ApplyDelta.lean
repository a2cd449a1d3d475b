import GraphInspector.ApiModel.Impl.Graph

/-!
Application of one canonical delta to a view at the delta's source revision.
-/

namespace Kgi

open Data

namespace GraphView

def applyBlockUpsert (view : GraphView) (hash : BlockHash) (block : GraphBlock) : GraphView :=
  let level := block.coordinate.level
  let index :=
    match view.blocks[hash]? with
    | none => view.blockHashesByLevel
    | some previous =>
      if previous.coordinate.level ≠ level then
        Multimap.remove view.blockHashesByLevel previous.coordinate.level hash
      else
        view.blockHashesByLevel
  { view with
    blocks := view.blocks.insert hash block
    blockHashesByLevel := Multimap.add index level hash }

def applyBlockRemoval (view : GraphView) (hash : BlockHash) : GraphView :=
  match view.blocks[hash]? with
  | none => view
  | some block =>
    { view with
      blocks := view.blocks.erase hash
      blockHashesByLevel := Multimap.remove view.blockHashesByLevel block.coordinate.level hash }

def applyBlockChange (view : GraphView) (entry : BlockHash × Option GraphBlock) : GraphView :=
  match entry.2 with
  | some block => view.applyBlockUpsert entry.1 block
  | none => view.applyBlockRemoval entry.1

structure EdgeProgress where
  view : GraphView
  usageDecrements : List Nat
  usageIncrements : List Nat

def applyEdgeChange (progress : EdgeProgress) (entry : EdgeId × Option GraphEdge) : EdgeProgress :=
  let previous := progress.view.edges[entry.1]?
  let view := { progress.view with edges := Map.put progress.view.edges entry.1 entry.2 }
  if previous = entry.2 then
    { progress with view := view }
  else
    let (view, usageDecrements) :=
      match previous with
      | some previous =>
        (view.unindexEdge previous, progress.usageDecrements ++ [previous.parentCoordinate.level])
      | none => (view, progress.usageDecrements)
    let (view, usageIncrements) :=
      match entry.2 with
      | some edge => (view.indexEdge edge, progress.usageIncrements ++ [edge.parentCoordinate.level])
      | none => (view, progress.usageIncrements)
    ⟨view, usageDecrements, usageIncrements⟩

def applyLevelChange (view : GraphView) (change : LevelChange) : GraphView :=
  match change.after with
  | some value =>
    { view with levels := view.levels.alter change.level fun stored =>
        match stored with
        | some stored => some { stored with value := value }
        | none => some ⟨value, 0⟩ }
  | none => { view with levels := view.levels.erase change.level }

def applyUsageDecrement (view : GraphView) (level : Nat) : Panics GraphView :=
  match view.levels[level]? with
  | none => .ok view
  | some stored =>
    if 0 < stored.usageCount then
      .ok { view with
        levels := view.levels.insert level { stored with usageCount := stored.usageCount - 1 } }
    else
      .error "canonical delta edge removal has retained usage"

def applyUsageIncrement (view : GraphView) (level : Nat) : Panics GraphView :=
  incrementUsage "canonical delta edge addition has a retained parent level" view level

def applyMembershipChange (view : GraphView) (entry : BlockHash × FieldChange Bool) : GraphView :=
  { view with blocks := view.blocks.modify entry.1 fun block =>
      { block with isInVspc := entry.2.after } }

def applyColorChange (view : GraphView) (entry : BlockHash × FieldChange BlockColor) : GraphView :=
  { view with blocks := view.blocks.modify entry.1 fun block =>
      { block with color := entry.2.after } }

def headExtent (maxDepth headLevel : Nat) (message : String) : Panics LevelExtent :=
  match LevelExtent.new (max (headLevel - (maxDepth - 1)) 1) headLevel with
  | .ok extent => .ok extent
  | .error _ => .error message

def applyDeltaContents (view : GraphView) (delta : GraphDelta) : Panics GraphView := do
  let view := delta.blockChanges.toList.foldl applyBlockChange view
  let progress := delta.edgeChanges.toList.foldl applyEdgeChange ⟨view, [], []⟩
  let view := delta.levelChanges.foldl applyLevelChange progress.view
  let view ← progress.usageDecrements.foldlM applyUsageDecrement view
  let view ← progress.usageIncrements.foldlM applyUsageIncrement view
  let view := delta.isInVspcChanges.toList.foldl applyMembershipChange view
  pure (delta.colorChanges.toList.foldl applyColorChange view)

def applyDelta (view : GraphView) (delta : GraphDelta) :
    Panics (GraphView × Except GraphDeltaApplyError Unit) := do
  if view.trackingPolicy = .frozen then
    return (view, .error .frozen)
  if view.currentRevisionId ≠ delta.fromRevisionId then
    let error := .revisionMismatch view.currentRevisionId delta.fromRevisionId
    if view.trackingPolicy = .fixed then
      return ({ view with trackingPolicy := .frozen }, .error error)
    return (view, .error error)
  let view ← view.applyDeltaContents delta
  let extent ←
    if view.trackingPolicy = .head then
      headExtent view.maxDepth delta.headLevel "delta lineage Head level is positive"
    else
      pure view.extent
  return ({ view with
    extent := extent
    currentRevisionId := delta.toRevisionId
    currentRevisionTimestampMs := delta.revisionTimestampMs }, .ok ())

end GraphView

end Kgi
