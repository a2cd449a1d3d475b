import GraphInspector.ApiModel.Impl.ApplyDelta

/-!
Committed updates of a Head or Fixed view. The mutation records the values from before the update, from
which the visible delta is derived. A Fixed view keeps its bounds, and freezes once the Head view has left
them or lacks the merge sets a transition needs.
-/

namespace Kgi

open Data

structure GraphMutation where
  blocks : Journal BlockHash (Option GraphBlock)
  edges : Journal EdgeId (Option GraphEdge)
  levels : Journal Nat (Option Level)
  isInVspc : Journal BlockHash Bool
  colors : Journal BlockHash BlockColor

structure GraphChanges where
  blocks : Map BlockHash (Option GraphBlock)
  edges : Map EdgeId (Option GraphEdge)
  levels : List LevelChange
  isInVspc : Map BlockHash (FieldChange Bool)
  colors : Map BlockHash (FieldChange BlockColor)

namespace GraphMutation

def default : GraphMutation := ⟨∅, ∅, ∅, ∅, ∅⟩

def fieldChanges {α : Type} [DecidableEq α] (captured : Journal BlockHash α)
    (blocks : Map BlockHash GraphBlock) (field : GraphBlock → α) : Map BlockHash (FieldChange α) :=
  Map.mapEntries captured fun hash before =>
    (blocks[hash]?).bind fun block =>
      if before ≠ field block then some ⟨before, field block⟩ else none

def finish (mutation : GraphMutation) (view : GraphView) : GraphChanges where
  blocks := Journal.changes id (fun hash => view.blocks[hash]?) mutation.blocks
  edges := Journal.changes id (fun id => view.edges[id]?) mutation.edges
  levels := mutation.levels.toList.filterMap fun entry =>
    let after := (view.levels[entry.1]?).map StoredLevel.value
    if entry.2 ≠ after then some ⟨entry.1, entry.2, after⟩ else none
  isInVspc := fieldChanges mutation.isInVspc view.blocks GraphBlock.isInVspc
  colors := fieldChanges mutation.colors view.blocks GraphBlock.color

end GraphMutation

def GraphChanges.isEmpty (changes : GraphChanges) : Bool :=
  changes.blocks.isEmpty && changes.edges.isEmpty && changes.levels.isEmpty &&
    changes.isInVspc.isEmpty && changes.colors.isEmpty

namespace GraphView

structure Progress where
  view : GraphView
  mutation : GraphMutation

def finishMutation (progress : Progress) (revisionTimestampMs : Nat) :
    Panics (GraphView × Option GraphDelta) := do
  let view := progress.view
  let changes := progress.mutation.finish view
  if changes.isEmpty then
    return (view, none)
  let nextRevision ←
    if view.currentRevisionId < u64Max then pure (view.currentRevisionId + 1)
    else .error "graph revision fits u64"
  match GraphDelta.new view.currentRevisionId nextRevision revisionTimestampMs view.highLevel
    changes.blocks changes.edges changes.levels changes.isInVspc changes.colors with
  | .error _ => .error "graph mutation constructs a forward delta with a positive Head level"
  | .ok delta =>
    return ({ view with
      currentRevisionId := nextRevision
      currentRevisionTimestampMs := revisionTimestampMs }, some delta)

def insertBlock (view : GraphView) (block : GraphBlock) : Panics GraphView :=
  match view.blocks[block.hash]? with
  | some _ => .error "BlockCommitted is emitted only for a newly materialized block"
  | none => .ok { view with
      blocks := view.blocks.insert block.hash block
      blockHashesByLevel := Multimap.add view.blockHashesByLevel block.coordinate.level block.hash }

def projectBlock (progress : Progress) (committed : BlockCommitted) (targetExtent : LevelExtent) :
    Panics Progress := do
  let block := graphBlockFromCommitted committed
  if targetExtent.containsLevel block.coordinate.level then
    let mutation := { progress.mutation with
      blocks := progress.mutation.blocks.capture block.hash progress.view.blocks[block.hash]? }
    let view ← progress.view.insertBlock block
    return ⟨view, mutation⟩
  else
    return progress

def retainedEdges (committed : BlockCommitted) (targetExtent : LevelExtent) : List GraphEdge :=
  (committed.directParents.filterMap fun parent =>
    parent.coordinate.map fun coordinate =>
      ⟨⟨parent.hash, committed.hash⟩, coordinate, committed.coordinate⟩).filter fun edge =>
    targetExtent.intersectsSpan edge.parentCoordinate.level edge.childCoordinate.level

def applyMaterializationSnapshot (view : GraphView) (snapshot : LevelCommitted) : GraphView :=
  { view with levels := view.levels.alter snapshot.level fun stored =>
      match stored with
      | some stored => some { stored with value := { stored.value with size := snapshot.size } }
      | none => some ⟨⟨snapshot.size, snapshot.daaScore⟩, 0⟩ }

def projectSnapshot (targetExtent : LevelExtent) (retainedEndpointLevels : List Nat)
    (progress : Progress) (snapshot : LevelCommitted) : Progress :=
  let stored := progress.view.levels[snapshot.level]?
  let retainedExternal := stored.any fun stored => 0 < stored.usageCount
  if targetExtent.containsLevel snapshot.level || retainedExternal ||
      retainedEndpointLevels.contains snapshot.level then
    ⟨progress.view.applyMaterializationSnapshot snapshot,
      { progress.mutation with
        levels := progress.mutation.levels.capture snapshot.level (stored.map StoredLevel.value) }⟩
  else
    progress

def projectEdge (progress : Progress) (edge : GraphEdge) : Panics Progress := do
  let mutation := { progress.mutation with
    edges := progress.mutation.edges.capture edge.id progress.view.edges[edge.id]? }
  match progress.view.edges[edge.id]? with
  | some existing =>
    ensure (existing = edge) "one edge identity has immutable endpoint coordinates"
    return ⟨progress.view, mutation⟩
  | none =>
    let view := { progress.view with edges := progress.view.edges.insert edge.id edge }
    let view ← (view.indexEdge edge).incrementParentUsage edge.parentCoordinate.level
    return ⟨view, mutation⟩

def applyBlockProjection (progress : Progress) (committed : BlockCommitted)
    (targetExtent : LevelExtent) : Panics Progress := do
  let progress ← projectBlock progress committed targetExtent
  let edges := retainedEdges committed targetExtent
  let endpointLevels := edges.flatMap fun edge =>
    [edge.parentCoordinate.level, edge.childCoordinate.level]
  let progress :=
    committed.levelSnapshots.foldl (projectSnapshot targetExtent endpointLevels) progress
  edges.foldlM projectEdge progress

def pruneBlock (progress : Progress) (hash : BlockHash) : Panics Progress := do
  let block ← orError progress.view.blocks[hash]? "an indexed block exists"
  return ⟨{ progress.view with blocks := progress.view.blocks.erase hash },
    { progress.mutation with blocks := progress.mutation.blocks.capture hash (some block) }⟩

def pruneEdge (progress : Progress) (id : EdgeId) : Panics Progress := do
  let edge ← orError progress.view.edges[id]? "a selected retained edge exists"
  let mutation := { progress.mutation with
    edges := progress.mutation.edges.capture id (some edge) }
  let view := { progress.view with edges := progress.view.edges.erase id }
  let view ← (view.unindexEdge edge).decrementParentUsage edge.parentCoordinate.level
  return ⟨view, mutation⟩

def pruneLevel (progress : Progress) (level : Nat) : Panics Progress := do
  let stored ← orError progress.view.levels[level]? "a selected retained level exists"
  return ⟨{ progress.view with levels := progress.view.levels.erase level },
    { progress.mutation with levels := progress.mutation.levels.capture level (some stored.value) }⟩

def prunedBlockLevels (view : GraphView) (lowLevel : Nat) : List Nat :=
  (view.blockHashesByLevel.toList.map Prod.fst).filter fun level => level < lowLevel

def prunedLevels (view : GraphView) (lowLevel : Nat) : List Nat :=
  (view.levels.toList.filter fun entry => entry.1 < lowLevel && entry.2.usageCount = 0).map Prod.fst

def prune (progress : Progress) (lowLevel : Nat) : Panics Progress := do
  let levels := prunedBlockLevels progress.view lowLevel
  let blocks := levels.flatMap (Multimap.bucket progress.view.blockHashesByLevel)
  let view := { progress.view with
    blockHashesByLevel := levels.foldl (fun index level => index.erase level)
      progress.view.blockHashesByLevel }
  let progress ← blocks.foldlM pruneBlock ⟨view, progress.mutation⟩
  let edges := blocks.flatMap fun child =>
    (Multimap.bucket progress.view.edgeParentsByChild child).map fun parent => ⟨parent, child⟩
  let progress ← edges.foldlM pruneEdge progress
  (prunedLevels progress.view lowLevel).foldlM pruneLevel progress

def applyHeadBlockCommitted (view : GraphView) (committed : BlockCommitted)
    (revisionTimestampMs : Nat) :
    Panics (GraphView × Except GraphViewUpdateError (Option GraphDelta)) := do
  if view.trackingPolicy = .frozen then
    return (view, .error .frozen)
  ensure (view.trackingPolicy = .head) "head mutation requires a Head graph view"
  let targetExtent ← headExtent view.maxDepth (max view.highLevel committed.coordinate.level)
    "derived Head extent is positive and ordered"
  let progress ← applyBlockProjection ⟨view, .default⟩ committed targetExtent
  let progress ← prune progress targetExtent.lowLevel
  let (view, delta) ← finishMutation
    { progress with view := { progress.view with extent := targetExtent } } revisionTimestampMs
  return (view, .ok delta)

def unmarkBlock (progress : Progress) (hash : BlockHash) : Progress :=
  match progress.view.blocks[hash]? with
  | none => progress
  | some block =>
    ⟨{ progress.view with
        blocks := progress.view.blocks.insert hash { block with isInVspc := false, color := .gray } },
      { progress.mutation with
        isInVspc := progress.mutation.isInVspc.capture hash block.isInVspc
        colors := progress.mutation.colors.capture hash block.color }⟩

def markBlock (progress : Progress) (hash : BlockHash) : Progress :=
  match progress.view.blocks[hash]? with
  | none => progress
  | some block =>
    ⟨{ progress.view with
        blocks := progress.view.blocks.insert hash { block with isInVspc := true } },
      { progress.mutation with
        isInVspc := progress.mutation.isInVspc.capture hash block.isInVspc }⟩

def colorBlock (color : BlockColor) (progress : Progress) (hash : BlockHash) : Progress :=
  match progress.view.blocks[hash]? with
  | none => progress
  | some block =>
    ⟨{ progress.view with
        blocks := progress.view.blocks.insert hash { block with color := color } },
      { progress.mutation with
        colors := progress.mutation.colors.capture hash block.color }⟩

structure VspcProjectionMetadata where
  blueMergeSet : List BlockHash
  redMergeSet : List BlockHash

def VspcProjectionMetadata.ofBlock (block : GraphBlock) : VspcProjectionMetadata :=
  ⟨block.blueMergeSet, block.redMergeSet⟩

def colorMergeSets (progress : Progress) (metadata : VspcProjectionMetadata) : Progress :=
  metadata.redMergeSet.foldl (colorBlock .red)
    (metadata.blueMergeSet.foldl (colorBlock .blue) progress)

def scoreLevel (progress : Progress) (snapshot : LevelCommitted) : Progress :=
  match progress.view.levels[snapshot.level]? with
  | none => progress
  | some stored =>
    ⟨{ progress.view with
        levels := progress.view.levels.insert snapshot.level
          { stored with value := { stored.value with daaScore := snapshot.daaScore } } },
      { progress.mutation with
        levels := progress.mutation.levels.capture snapshot.level (some stored.value) }⟩

def applyVspcProjection (view : GraphView) (committed : VspcCommitted)
    (addedMetadata : List VspcProjectionMetadata) : Progress :=
  let progress := committed.removed.foldl unmarkBlock ⟨view, .default⟩
  let progress := committed.added.foldl markBlock progress
  let progress := addedMetadata.foldl colorMergeSets progress
  committed.levelSnapshots.foldl scoreLevel progress

def applyHeadVspcCommitted (view : GraphView) (committed : VspcCommitted)
    (revisionTimestampMs : Nat) :
    Panics (GraphView × Except GraphViewUpdateError (Option GraphDelta)) := do
  if view.trackingPolicy = .frozen then
    return (view, .error .frozen)
  ensure (view.trackingPolicy = .head) "head mutation requires a Head graph view"
  let addedMetadata := committed.added.filterMap fun hash =>
    (view.blocks[hash]?).map VspcProjectionMetadata.ofBlock
  let (view, delta) ←
    finishMutation (applyVspcProjection view committed addedMetadata) revisionTimestampMs
  return (view, .ok delta)

end GraphView

inductive OriginalUpdate where
  | block (committed : BlockCommitted)
  | vspc (committed : VspcCommitted)
  deriving DecidableEq, Repr

def OriginalUpdate.apply (update : OriginalUpdate) (view : GraphView) (revisionTimestampMs : Nat) :
    Panics (GraphView × Except GraphViewUpdateError (Option GraphDelta)) :=
  match update with
  | .block committed => view.applyHeadBlockCommitted committed revisionTimestampMs
  | .vspc committed => view.applyHeadVspcCommitted committed revisionTimestampMs

def LevelExtent.overlaps (extent other : LevelExtent) : Bool :=
  extent.lowLevel ≤ other.highLevel && other.lowLevel ≤ extent.highLevel

namespace GraphView

def applyFixedBlockCommitted (view : GraphView) (committed : BlockCommitted) (head : GraphView)
    (revisionTimestampMs : Nat) :
    Panics (GraphView × Except GraphViewUpdateError (Option GraphDelta)) := do
  if view.trackingPolicy = .frozen then
    return (view, .error .frozen)
  ensure (view.trackingPolicy = .fixed) "fixed mutation requires a Fixed graph view"
  ensure (head.trackingPolicy = .head) "fixed mutation requires post-update Head context"
  if !view.extent.overlaps head.extent then
    return ({ view with trackingPolicy := .frozen }, .ok none)
  let progress ← applyBlockProjection ⟨view, .default⟩ committed view.extent
  let (view, delta) ← finishMutation progress revisionTimestampMs
  return (view, .ok delta)

def fixedMetadata (view head : GraphView) (hash : BlockHash) : Option VspcProjectionMetadata :=
  (view.blocks[hash]?.or head.blocks[hash]?).map VspcProjectionMetadata.ofBlock

def applyFixedVspcCommitted (view : GraphView) (committed : VspcCommitted) (head : GraphView)
    (revisionTimestampMs : Nat) :
    Panics (GraphView × Except GraphViewUpdateError (Option GraphDelta)) := do
  if view.trackingPolicy = .frozen then
    return (view, .error .frozen)
  ensure (view.trackingPolicy = .fixed) "fixed mutation requires a Fixed graph view"
  ensure (head.trackingPolicy = .head) "fixed mutation requires post-update Head context"
  if !view.extent.overlaps head.extent then
    return ({ view with trackingPolicy := .frozen }, .ok none)
  match committed.added.mapM (view.fixedMetadata head) with
  | none => return ({ view with trackingPolicy := .frozen }, .ok none)
  | some addedMetadata =>
    let (view, delta) ←
      finishMutation (applyVspcProjection view committed addedMetadata) revisionTimestampMs
    return (view, .ok delta)

end GraphView

def OriginalUpdate.applyFixed (update : OriginalUpdate) (view head : GraphView)
    (revisionTimestampMs : Nat) :
    Panics (GraphView × Except GraphViewUpdateError (Option GraphDelta)) :=
  match update with
  | .block committed => view.applyFixedBlockCommitted committed head revisionTimestampMs
  | .vspc committed => view.applyFixedVspcCommitted committed head revisionTimestampMs

end Kgi
