import GraphInspector.ApiModel.Impl.Extract
import GraphInspector.ApiModel.Lemmas.Replay

/-!
An extracted view shows the part of the window over the extent, with indexes and usage counts of its own.
-/

namespace Kgi

open Data

theorem Window.select_select {wide narrow : LevelExtent} (h : wide.containsExtent narrow = true)
    (window : Window) :
    ((window.select wide).select narrow).blocks = (window.select narrow).blocks ∧
      ((window.select wide).select narrow).edges = (window.select narrow).edges ∧
      ∀ level, (window.select narrow).levels level = window.levels level →
        (window.select wide).levels level = window.levels level := by
  unfold select LevelExtent.containsLevel LevelExtent.intersectsSpan
  simp only [LevelExtent.containsExtent, Bool.and_eq_true, decide_eq_true_eq] at h
  refine ⟨?_, ?_, ?_⟩
  . funext hash
    dsimp only
    rw [Option.filter_filter]
    congr 1
    funext block
    grind
  . funext id
    dsimp only
    rw [Option.filter_filter]
    congr 1
    funext edge
    grind
  . intro level hlevel
    grind

namespace GraphView

section Select

variable {view : GraphView} {extent : LevelExtent}

theorem foldlM_collect {K V : Type} [DecidableEq K] [Ord K] [Std.TransOrd K] [Std.LawfulEqOrd K]
    {source : Map K V} {missing : String} {keys : List K} (collected : Map K V)
    (hkeys : ∀ key ∈ keys, ∃ value, source[key]? = some value) :
    ∃ result : Map K V, keys.foldlM (fun (collected : Map K V) key => do
        let value ← orError source[key]? missing
        return collected.insert key value) collected = .ok result ∧
      ∀ key : K, result[key]? = if key ∈ keys then source[key]? else collected[key]? := by
  induction keys generalizing collected with
  | nil => exact ⟨collected, rfl, fun key => by simp⟩
  | cons first keys ih =>
    obtain ⟨value, hvalue⟩ := hkeys first List.mem_cons_self
    obtain ⟨result, hresult, hget⟩ := ih (collected.insert first value)
      fun key hkey => hkeys key (List.mem_cons_of_mem _ hkey)
    refine ⟨result, ?_, ?_⟩
    . rw [List.foldlM_cons, hvalue]
      exact hresult
    . intro key
      rw [hget key, Map.get_insert]
      by_cases hfirst : first = key
      . subst hfirst
        simp [hvalue]
      . simp [hfirst, Ne.symm hfirst]

theorem collect_eq_ok {K V : Type} [DecidableEq K] [Ord K] [Std.TransOrd K] [Std.LawfulEqOrd K]
    {source : Map K V} {keys : List K} (missing : String)
    (hkeys : ∀ key ∈ keys, ∃ value, source[key]? = some value) :
    ∃ result, collect source missing keys = .ok result ∧
      ∀ key : K, result[key]? = if key ∈ keys then source[key]? else none := by
  obtain ⟨result, hresult, hget⟩ := foldlM_collect ∅ hkeys
  refine ⟨result, hresult, ?_⟩
  intro key
  rw [hget key, Std.ExtTreeMap.getElem?_empty]

theorem mem_selectedHashes (h : view.Derived) (hash : BlockHash) :
    hash ∈ view.selectedHashes extent ↔
      ∃ block, view.blocks[hash]? = some block ∧ extent.containsLevel block.coordinate.level = true := by
  have hholds := h.blocks.holds
  unfold selectedHashes
  rw [List.mem_flatMap]
  constructor
  . rintro ⟨⟨level, hashes⟩, hentry, hmem⟩
    obtain ⟨hentry, hcontains⟩ := List.mem_filter.mp hentry
    obtain ⟨block, hblock, rfl⟩ := (hholds level hash).mp
      ⟨hashes, (Map.mem_toList _ _ _).mp hentry, Std.ExtTreeSet.mem_toList.mp hmem⟩
    exact ⟨block, hblock, hcontains⟩
  . rintro ⟨block, hblock, hcontains⟩
    obtain ⟨hashes, hbucket, hmem⟩ := (hholds block.coordinate.level hash).mpr ⟨block, hblock, rfl⟩
    refine ⟨(block.coordinate.level, hashes), ?_, Std.ExtTreeSet.mem_toList.mpr hmem⟩
    exact List.mem_filter.mpr ⟨(Map.mem_toList _ _ _).mpr hbucket, hcontains⟩

theorem mem_selectedEdgeIds (h : view.Derived) (id : EdgeId) :
    id ∈ view.selectedEdgeIds extent ↔ ∃ edge, view.edges[id]? = some edge ∧
      extent.intersectsSpan edge.parentCoordinate.level edge.childCoordinate.level = true := by
  have hspans := h.edges.spans
  unfold selectedEdgeIds LevelExtent.intersectsSpan
  rw [List.mem_flatMap]
  constructor
  . rintro ⟨⟨childLevel, parents⟩, hentry, hmem⟩
    obtain ⟨hentry, hlow⟩ := List.mem_filter.mp hentry
    obtain ⟨⟨parentLevel, ids⟩, hinner, hid⟩ := List.mem_flatMap.mp hmem
    obtain ⟨hinner, hhigh⟩ := List.mem_filter.mp hinner
    obtain ⟨edge, hedge, rfl, rfl⟩ := (hspans childLevel parentLevel id).mp
      ⟨parents, (Map.mem_toList _ _ _).mp hentry, ids, (Map.mem_toList _ _ _).mp hinner,
        Std.ExtTreeSet.mem_toList.mp hid⟩
    exact ⟨edge, hedge, Bool.and_eq_true_iff.mpr ⟨hlow, hhigh⟩⟩
  . rintro ⟨edge, hedge, hspan⟩
    obtain ⟨hlow, hhigh⟩ := Bool.and_eq_true_iff.mp hspan
    obtain ⟨parents, hentry, ids, hinner, hid⟩ :=
      (hspans edge.childCoordinate.level edge.parentCoordinate.level id).mpr ⟨edge, hedge, rfl, rfl⟩
    refine ⟨(edge.childCoordinate.level, parents), ?_, List.mem_flatMap.mpr
      ⟨(edge.parentCoordinate.level, ids), ?_, Std.ExtTreeSet.mem_toList.mpr hid⟩⟩
    . exact List.mem_filter.mpr ⟨(Map.mem_toList _ _ _).mpr hentry, hlow⟩
    . exact List.mem_filter.mpr ⟨(Map.mem_toList _ _ _).mpr hinner, hhigh⟩

theorem selectSubviewGraph_eq_ok (h : view.Derived) (extent : LevelExtent) :
    ∃ blocks edges, view.selectSubviewGraph extent = .ok (blocks, edges) ∧
      (∀ hash : BlockHash, blocks[hash]? = (view.window.select extent).blocks hash) ∧
      ∀ id : EdgeId, edges[id]? = (view.window.select extent).edges id := by
  obtain ⟨blocks, hblocks, hgetBlock⟩ := collect_eq_ok "an indexed block exists" (fun hash hmem => by
    obtain ⟨block, hblock, -⟩ := (mem_selectedHashes h hash).mp hmem
    exact ⟨block, hblock⟩ : ∀ hash ∈ view.selectedHashes extent, ∃ block, view.blocks[hash]? = some block)
  obtain ⟨edges, hedges, hgetEdge⟩ := collect_eq_ok "an indexed edge exists" (fun id hmem => by
    obtain ⟨edge, hedge, -⟩ := (mem_selectedEdgeIds h id).mp hmem
    exact ⟨edge, hedge⟩ : ∀ id ∈ view.selectedEdgeIds extent, ∃ edge, view.edges[id]? = some edge)
  refine ⟨blocks, edges, ?_, ?_, ?_⟩
  . unfold selectSubviewGraph
    rw [hblocks, ok_bind, hedges]
    rfl
  . intro hash
    rw [hgetBlock]
    unfold Window.select window
    dsimp only
    cases hblock : view.blocks[hash]? with
    | none => simp
    | some block =>
      rw [Option.filter_some, if_congr (mem_selectedHashes h hash) rfl rfl, hblock]
      simp
  . intro id
    rw [hgetEdge]
    unfold Window.select window
    dsimp only
    cases hedge : view.edges[id]? with
    | none => simp
    | some edge =>
      rw [Option.filter_some, if_congr (mem_selectedEdgeIds h id) rfl rfl, hedge]
      simp

end Select

section Levels

variable {view : GraphView} {target result : Map Nat StoredLevel}

def uncounted (view : GraphView) (level : Nat) : Option StoredLevel :=
  view.levels[level]?.map fun stored => ⟨stored.value, 0⟩

theorem insertSourceLevel_eq_ok {level : Nat}
    (htarget : ∀ (level : Nat) (stored : StoredLevel), target[level]? = some stored →
      view.uncounted level = some stored) (hok : view.insertSourceLevel target level = .ok result) :
    (∃ stored, view.levels[level]? = some stored) ∧
      ∀ other : Nat, result[other]? = if level = other then view.uncounted other else target[other]? := by
  unfold insertSourceLevel at hok
  split at hok
  . next hcontains =>
    cases hok
    obtain ⟨stored, hstored⟩ := (Map.contains_iff _ _).mp hcontains
    have hsource := htarget level stored hstored
    obtain ⟨found, hfound, -⟩ := Option.map_eq_some_iff.mp hsource
    refine ⟨⟨found, hfound⟩, ?_⟩
    intro other
    split
    . next heq => rw [← heq, hstored, hsource]
    . rfl
  . split at hok
    . cases hok
    . next stored hstored =>
      cases hok
      refine ⟨⟨stored, hstored⟩, ?_⟩
      intro other
      rw [Map.get_insert]
      split
      . next heq =>
        unfold uncounted
        rw [← heq, hstored]
        rfl
      . rfl

theorem foldlM_insertSourceLevel_eq_ok {levels : List Nat}
    (htarget : ∀ (level : Nat) (stored : StoredLevel), target[level]? = some stored →
      view.uncounted level = some stored)
    (hok : levels.foldlM view.insertSourceLevel target = .ok result) :
    (∀ level ∈ levels, ∃ stored, view.levels[level]? = some stored) ∧
      ∀ other : Nat, result[other]? = if other ∈ levels then view.uncounted other else target[other]? := by
  induction levels generalizing target with
  | nil =>
    cases hok
    exact ⟨by simp, by simp⟩
  | cons level levels ih =>
    rw [List.foldlM_cons, bind_eq_ok] at hok
    obtain ⟨middle, hstep, hok⟩ := hok
    obtain ⟨hpresent, hget⟩ := insertSourceLevel_eq_ok htarget hstep
    obtain ⟨hrest, hget'⟩ := ih (by
      intro other stored hstored
      rw [hget] at hstored
      split at hstored
      . exact hstored
      . exact htarget other stored hstored) hok
    refine ⟨List.forall_mem_cons.mpr ⟨hpresent, hrest⟩, ?_⟩
    intro other
    rw [hget', hget]
    by_cases heq : level = other
    . simp [heq]
    . simp [heq, Ne.symm heq]

end Levels

theorem mem_levels_iff (extent : LevelExtent) (level : Nat) :
    level ∈ extent.levels ↔ extent.containsLevel level = true := by
  have hle := extent.low_le_high
  unfold LevelExtent.levels LevelExtent.depth LevelExtent.containsLevel
  rw [List.mem_range'_1, Bool.and_eq_true, decide_eq_true_eq, decide_eq_true_eq]
  omega

section Extract

variable {view sub : GraphView} {extent : LevelExtent}

structure Extracted (view : GraphView) (extent : LevelExtent) (sub : GraphView) : Prop where
  derived : sub.Derived
  maxDepth : sub.maxDepth = extent.depth
  extent_eq : sub.extent = extent
  revision : sub.currentRevisionId = view.currentRevisionId
  timestamp : sub.currentRevisionTimestampMs = view.currentRevisionTimestampMs
  policy : sub.trackingPolicy = .frozen
  window : sub.window = view.window.select extent

def selectedLevels (extent : LevelExtent) (edges : Map EdgeId GraphEdge) : List Nat :=
  extent.levels ++ edges.toList.flatMap fun entry =>
    [entry.2.parentCoordinate.level, entry.2.childCoordinate.level]

theorem mem_selectedLevels {edges : Map EdgeId GraphEdge}
    (hedges : ∀ id : EdgeId, edges[id]? = (view.window.select extent).edges id) (level : Nat) :
    level ∈ selectedLevels extent edges ↔ extent.containsLevel level = true ∨
      ∃ id edge, view.window.edges id = some edge ∧
        extent.intersectsSpan edge.parentCoordinate.level edge.childCoordinate.level = true ∧
        (edge.parentCoordinate.level = level ∨ edge.childCoordinate.level = level) := by
  unfold selectedLevels
  rw [List.mem_append, mem_levels_iff, List.mem_flatMap]
  apply or_congr Iff.rfl
  constructor
  . rintro ⟨⟨id, edge⟩, hentry, hlevel⟩
    rw [Map.mem_toList, hedges] at hentry
    obtain ⟨hedge, hspan⟩ := Option.filter_eq_some_iff.mp hentry
    refine ⟨id, edge, hedge, hspan, ?_⟩
    simpa [eq_comm] using hlevel
  . rintro ⟨id, edge, hedge, hspan, hlevel⟩
    refine ⟨(id, edge), ?_, by simpa [eq_comm] using hlevel⟩
    rw [Map.mem_toList, hedges]
    exact Option.filter_eq_some_iff.mpr ⟨hedge, hspan⟩

def extractedView (view : GraphView) (extent : LevelExtent) (levels : Map Nat StoredLevel)
    (blocks : Map BlockHash GraphBlock) (edges : Map EdgeId GraphEdge) : GraphView where
  maxDepth := extent.depth
  extent := extent
  currentRevisionId := view.currentRevisionId
  currentRevisionTimestampMs := view.currentRevisionTimestampMs
  trackingPolicy := .frozen
  levels := levels
  blocks := blocks
  edges := edges
  blockHashesByLevel := indexBlocksByLevel blocks
  edgeParentsByChild := indexEdgeParentsByChild edges
  edgeIdsBySpan := indexEdgesBySpan edges

theorem extractSubview_eq {blocks : Map BlockHash GraphBlock} {edges : Map EdgeId GraphEdge}
    (hcontains : view.extent.containsExtent extent = true)
    (hselect : view.selectSubviewGraph extent = .ok (blocks, edges)) :
    view.extractSubview extent = (do
      let levels ← (selectedLevels extent edges).foldlM view.insertSourceLevel ∅
      let counted ← (edges.toList.map fun entry => entry.2.parentCoordinate.level).foldlM
        incrementParentUsage (view.extractedView extent levels blocks edges)
      return .ok counted) := by
  unfold extractSubview selectedLevels
  rw [hcontains, hselect, ok_bind, List.foldlM_append, bind_assoc]
  rfl

theorem usage_of_row {levels : Map Nat StoredLevel} {selected : List Nat}
    (hrow : ∀ level : Nat, levels[level]? = if level ∈ selected then view.uncounted level
      else (∅ : Map Nat StoredLevel)[level]?) (level : Nat) (stored : StoredLevel)
    (hstored : levels[level]? = some stored) : stored.usageCount = 0 := by
  rw [hrow] at hstored
  split at hstored
  . obtain ⟨found, -, rfl⟩ := Option.map_eq_some_iff.mp hstored
    rfl
  . simp at hstored

theorem extractSubview_eq_ok (h : view.Derived) (hok : view.extractSubview extent = .ok (.ok sub)) :
    view.extent.containsExtent extent = true ∧ Extracted view extent sub ∧
      ∀ level, extent.containsLevel level = true → ∃ stored, view.levels[level]? = some stored := by
  obtain ⟨blocks, edges, hselect, hblocks, hedges⟩ := selectSubviewGraph_eq_ok h extent
  have hcontains : view.extent.containsExtent extent = true := by
    by_contra hcontains
    unfold extractSubview at hok
    rw [Bool.not_eq_true] at hcontains
    rw [hcontains] at hok
    cases hok
  rw [extractSubview_eq hcontains hselect] at hok
  obtain ⟨levels, hlevels, hok⟩ := bind_eq_ok.mp hok
  obtain ⟨counted, hcounted, hok⟩ := bind_eq_ok.mp hok
  cases hok
  obtain ⟨hpresent, hrow⟩ := foldlM_insertSourceLevel_eq_ok (by simp) hlevels
  have hkeyed : ∀ (id : EdgeId) (edge : GraphEdge), edges[id]? = some edge → edge.id = id := by
    intro id edge hedge
    rw [hedges] at hedge
    exact h.edges.keyed id edge (Option.filter_eq_some_iff.mp hedge).1
  obtain ⟨counts, rfl, hderived, hvalue⟩ := countEdges_eq_ok
    (indexBlocksByLevel_indexed blocks) (indexEdges_indexed hkeyed) (usage_of_row hrow) hcounted
  refine ⟨hcontains, ⟨hderived, rfl, rfl, rfl, rfl, rfl, ?_⟩, ?_⟩
  . apply Window.ext
    . exact funext hblocks
    . exact funext hedges
    . funext level
      refine (hvalue level).trans ?_
      unfold levelValue Window.select extractedView
      dsimp only
      rw [hrow]
      have hselected := mem_selectedLevels hedges level
      by_cases hmem : level ∈ selectedLevels extent edges
      . rw [if_pos hmem, if_pos (hselected.mp hmem)]
        unfold uncounted
        rw [Option.map_map]
        rfl
      . rw [if_neg hmem, if_neg (mt hselected.mpr hmem), Std.ExtTreeMap.getElem?_empty]
        rfl
  . intro level hlevel
    exact hpresent level ((mem_selectedLevels hedges level).mpr (Or.inl hlevel))

end Extract

end GraphView

end Kgi
