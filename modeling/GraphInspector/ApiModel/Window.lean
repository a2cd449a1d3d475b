import GraphInspector.ApiModel.Lemmas.View

/-!
A window of a graph: its blocks, edges and levels as functions, without indexes, usage counts and
revisions. Committed updates act on windows directly.
-/

namespace Kgi

open Data

@[ext]
structure Window where
  blocks : BlockHash → Option GraphBlock
  edges : EdgeId → Option GraphEdge
  levels : Nat → Option Level

namespace Window

def Used (window : Window) (level : Nat) : Prop :=
  ∃ id edge, window.edges id = some edge ∧ edge.parentCoordinate.level = level

def insertBlock (window : Window) (block : GraphBlock) : Window :=
  { window with blocks := Function.update window.blocks block.hash (some block) }

def insertEdge (window : Window) (edge : GraphEdge) : Window :=
  { window with edges := Function.update window.edges edge.id (some edge) }

def modifyBlock (f : GraphBlock → GraphBlock) (window : Window) (hash : BlockHash) : Window :=
  { window with blocks := Function.update window.blocks hash ((window.blocks hash).map f) }

open Classical in
noncomputable def takeSnapshot (extent : LevelExtent) (endpointLevels : List Nat) (window : Window)
    (snapshot : LevelCommitted) : Window :=
  if extent.containsLevel snapshot.level ∨ window.Used snapshot.level ∨
      snapshot.level ∈ endpointLevels then
    { window with
      levels := Function.update window.levels snapshot.level (some ⟨snapshot.size,
        (window.levels snapshot.level).elim snapshot.daaScore Level.daaScore⟩) }
  else
    window

open Classical in
noncomputable def pruneEdges (lowLevel : Nat) (window : Window) (id : EdgeId) : Option GraphEdge :=
  if ∃ child, window.blocks id.child = some child ∧ child.coordinate.level < lowLevel then none
  else window.edges id

open Classical in
/--
Removes the blocks below the low level, the edges of which they are the child, and the levels below the
low level that no edge uses any more.
-/
noncomputable def prune (lowLevel : Nat) (window : Window) : Window where
  blocks hash := (window.blocks hash).filter fun block => lowLevel ≤ block.coordinate.level
  edges := window.pruneEdges lowLevel
  levels level :=
    if level < lowLevel ∧
        ¬ ∃ id edge, window.pruneEdges lowLevel id = some edge ∧ edge.parentCoordinate.level = level then
      none
    else
      window.levels level

def endpointLevels (edges : List GraphEdge) : List Nat :=
  edges.flatMap fun edge => [edge.parentCoordinate.level, edge.childCoordinate.level]

noncomputable def projectBlock (extent : LevelExtent) (committed : BlockCommitted) (window : Window) :
    Window :=
  let edges := GraphView.retainedEdges committed extent
  let window :=
    if extent.containsLevel committed.coordinate.level then
      window.insertBlock (graphBlockFromCommitted committed)
    else window
  edges.foldl insertEdge
    (committed.levelSnapshots.foldl (takeSnapshot extent (endpointLevels edges)) window)

noncomputable def commitBlock (extent : LevelExtent) (committed : BlockCommitted) (window : Window) :
    Window :=
  (window.projectBlock extent committed).prune extent.lowLevel

def unmark (block : GraphBlock) : GraphBlock :=
  { block with isInVspc := false, color := .gray }

def mark (block : GraphBlock) : GraphBlock :=
  { block with isInVspc := true }

def paint (color : BlockColor) (block : GraphBlock) : GraphBlock :=
  { block with color := color }

def paintMergeSets (window : Window) (metadata : GraphView.VspcProjectionMetadata) : Window :=
  metadata.redMergeSet.foldl (modifyBlock (paint .red))
    (metadata.blueMergeSet.foldl (modifyBlock (paint .blue)) window)

def scoreLevel (window : Window) (snapshot : LevelCommitted) : Window :=
  { window with
    levels := Function.update window.levels snapshot.level
      ((window.levels snapshot.level).map fun level => { level with daaScore := snapshot.daaScore }) }

def projectVspc (committed : VspcCommitted) (metadata : List GraphView.VspcProjectionMetadata)
    (window : Window) : Window :=
  let window := committed.removed.foldl (modifyBlock unmark) window
  let window := committed.added.foldl (modifyBlock mark) window
  committed.levelSnapshots.foldl scoreLevel (metadata.foldl paintMergeSets window)

def commitVspc (committed : VspcCommitted) (window : Window) : Window :=
  window.projectVspc committed (committed.added.filterMap fun hash =>
    (window.blocks hash).map GraphView.VspcProjectionMetadata.ofBlock)

open Classical in
/--
The part of the window over an extent: its blocks, the edges whose span meets it, and its levels with those
of the edges' endpoints.
-/
noncomputable def select (extent : LevelExtent) (window : Window) : Window where
  blocks hash := (window.blocks hash).filter fun block => extent.containsLevel block.coordinate.level
  edges id := (window.edges id).filter fun edge =>
    extent.intersectsSpan edge.parentCoordinate.level edge.childCoordinate.level
  levels level :=
    if extent.containsLevel level = true ∨ ∃ id edge, window.edges id = some edge ∧
        extent.intersectsSpan edge.parentCoordinate.level edge.childCoordinate.level = true ∧
        (edge.parentCoordinate.level = level ∨ edge.childCoordinate.level = level) then
      window.levels level
    else
      none

theorem foldl_takeSnapshot (extent : LevelExtent) (levels : List Nat)
    (snapshots : List LevelCommitted) (window : Window) :
    (snapshots.foldl (takeSnapshot extent levels) window).blocks = window.blocks ∧
      (snapshots.foldl (takeSnapshot extent levels) window).edges = window.edges := by
  induction snapshots generalizing window with
  | nil => exact ⟨rfl, rfl⟩
  | cons snapshot snapshots ih =>
    rw [List.foldl_cons, (ih _).1, (ih _).2]
    unfold takeSnapshot
    split
    . exact ⟨rfl, rfl⟩
    . exact ⟨rfl, rfl⟩

theorem foldl_insertEdge (edges : List GraphEdge) (window : Window) :
    (edges.foldl insertEdge window).blocks = window.blocks ∧
      (edges.foldl insertEdge window).levels = window.levels := by
  induction edges generalizing window with
  | nil => exact ⟨rfl, rfl⟩
  | cons edge edges ih =>
    rw [List.foldl_cons, (ih _).1, (ih _).2]
    exact ⟨rfl, rfl⟩

theorem commitBlock_blocks (extent : LevelExtent) (committed : BlockCommitted) (window : Window)
    (hash : BlockHash) :
    (window.commitBlock extent committed).blocks hash
      =
    ((if extent.containsLevel committed.coordinate.level ∧ hash = committed.hash then
        some (graphBlockFromCommitted committed)
      else window.blocks hash)).filter fun block => extent.lowLevel ≤ block.coordinate.level := by
  unfold commitBlock prune projectBlock
  dsimp only
  rw [(foldl_insertEdge _ _).1, (foldl_takeSnapshot _ _ _ _).1]
  congr 1
  by_cases hcontains : extent.containsLevel committed.coordinate.level = true
  . rw [if_pos hcontains]
    unfold insertBlock
    dsimp only
    rw [Function.update_apply]
    by_cases hhash : hash = committed.hash
    . exact (if_pos hhash).trans (if_pos ⟨hcontains, hhash⟩).symm
    . exact (if_neg hhash).trans (if_neg fun h => hhash h.2).symm
  . rw [if_neg hcontains, if_neg fun h => hcontains h.1]

end Window

namespace GraphView

def window (view : GraphView) : Window where
  blocks hash := view.blocks[hash]?
  edges id := view.edges[id]?
  levels := view.levelValue

theorem Derived.used_iff {view : GraphView} (h : view.Derived) (level : Nat) :
    view.window.Used level ↔
      ∃ stored : StoredLevel, view.levels[level]? = some stored ∧ 0 < stored.usageCount := by
  constructor
  . rintro ⟨id, edge, hedge, rfl⟩
    exact h.usage.usage_pos hedge
  . rintro ⟨stored, hstored, hpos⟩
    rw [h.usage.usage level stored hstored, UsageExact.edgeUsage_pos_iff] at hpos
    exact hpos

theorem window_ext {v w : GraphView} (hblocks : v.blocks = w.blocks) (hedges : v.edges = w.edges)
    (hlevels : ∀ level, v.levelValue level = w.levelValue level) : v.window = w.window := by
  unfold window
  rw [hblocks, hedges, funext hlevels]

end GraphView

end Kgi
