import GraphInspector.ApiModel.Lemmas.Update
import GraphInspector.Data.Run

/-!
Head views over whole runs.
-/

namespace Kgi

open Data

namespace GraphView

section Projection

variable {maxDepth : Nat} {extent : LevelExtent} {levels : Map Nat Level}
variable {blocks : Map BlockHash GraphBlock} {edges : Map EdgeId GraphEdge} {view : GraphView}

theorem indexBlocksByLevel_indexed (blocks : Map BlockHash GraphBlock) :
    BlocksIndexed blocks (indexBlocksByLevel blocks) := by
  unfold indexBlocksByLevel
  constructor
  . intro level hash
    rw [Multimap.holds_foldl_add blocks.toList (fun entry => entry.2.coordinate.level) Prod.fst]
    constructor
    . rintro (⟨⟨hash', block⟩, hmem, rfl, rfl⟩ | hempty)
      . rw [Map.mem_toList] at hmem
        exact ⟨block, hmem, rfl⟩
      . exact absurd hempty (Multimap.not_holds_empty _ _)
    . rintro ⟨block, hblock, rfl⟩
      exact Or.inl ⟨(hash, block), (Map.mem_toList _ _ _).mpr hblock, rfl, rfl⟩
  . apply Multimap.noEmpty_foldl_add
    exact Multimap.noEmpty_empty

theorem indexEdges_indexed (hkeyed : ∀ (id : EdgeId) (edge : GraphEdge), edges[id]? = some edge →
    edge.id = id) :
    EdgesIndexed edges (indexEdgeParentsByChild edges) (indexEdgesBySpan edges) := by
  unfold indexEdgeParentsByChild indexEdgesBySpan
  constructor
  case keyed => exact hkeyed
  case parents =>
    intro child parent
    rw [Multimap.holds_foldl_add edges.toList (fun entry => entry.1.child) fun entry => entry.1.parent]
    constructor
    . rintro (⟨⟨id, edge⟩, hmem, rfl, rfl⟩ | hempty)
      . rw [Map.mem_toList] at hmem
        exact ⟨edge, hmem⟩
      . exact absurd hempty (Multimap.not_holds_empty _ _)
    . rintro ⟨edge, hedge⟩
      exact Or.inl ⟨(_, edge), (Map.mem_toList _ _ _).mpr hedge, rfl, rfl⟩
  case parents_noEmpty =>
    apply Multimap.noEmpty_foldl_add
    exact Multimap.noEmpty_empty
  case spans =>
    intro childLevel parentLevel id
    rw [NestedMultimap.holds_foldl_add edges.toList (fun entry => entry.2.childCoordinate.level)
      (fun entry => entry.2.parentCoordinate.level) Prod.fst]
    constructor
    . rintro (⟨⟨id', edge⟩, hmem, rfl, rfl, rfl⟩ | hempty)
      . rw [Map.mem_toList] at hmem
        exact ⟨edge, hmem, rfl, rfl⟩
      . exact absurd hempty (NestedMultimap.not_holds_empty _ _ _)
    . rintro ⟨edge, hedge, rfl, rfl⟩
      exact Or.inl ⟨(id, edge), (Map.mem_toList _ _ _).mpr hedge, rfl, rfl, rfl⟩
  case spans_noEmpty =>
    apply NestedMultimap.noEmpty_foldl_add
    exact NestedMultimap.noEmpty_empty

theorem count_parentLevels (edges : Map EdgeId GraphEdge) (level : Nat) :
    (edges.toList.map fun entry => entry.2.parentCoordinate.level).count level
      = edgeUsage edges level := by
  unfold edgeUsage
  rw [Map.count_eq_countP, List.count, List.countP_map]
  apply List.countP_congr
  intro entry _
  simp

theorem countEdges_eq_ok {view view' : GraphView}
    (hblocks : BlocksIndexed view.blocks view.blockHashesByLevel)
    (hedges : EdgesIndexed view.edges view.edgeParentsByChild view.edgeIdsBySpan)
    (hzero : ∀ (level : Nat) (stored : StoredLevel), view.levels[level]? = some stored →
      stored.usageCount = 0)
    (hok : (view.edges.toList.map fun entry => entry.2.parentCoordinate.level).foldlM
      incrementParentUsage view = .ok view') :
    ∃ levels, view' = { view with levels := levels } ∧ view'.Derived ∧
      ∀ level, view'.levelValue level = view.levelValue level := by
  obtain ⟨hpresent, hbound⟩ := foldlM_incrementUsage_eq_ok hok
  simp only [count_parentLevels] at hbound
  have hcount : ∀ (level : Nat) (stored : StoredLevel), view.levels[level]? = some stored →
      stored.usageCount + edgeUsage view.edges level ≤ u64Max := by
    intro level stored hstored
    exact hbound level stored hstored (hzero level stored hstored ▸ Nat.zero_le _)
  obtain ⟨levels, hfold, hlevels⟩ := foldlM_incrementUsage
    "a coherent graph contains every edge parent level"
    (view.edges.toList.map fun entry => entry.2.parentCoordinate.level) view hpresent
    (by simpa only [count_parentLevels] using hcount)
  simp only [count_parentLevels] at hlevels
  have hview : view' = { view with levels := levels } := Except.ok.inj (hok.symm.trans hfold)
  have hvalue : ∀ level, view'.levelValue level = view.levelValue level := by
    intro level
    rw [hview]
    unfold levelValue
    rw [hlevels, Option.map_map]
    rfl
  have husage : UsageExact levels view.edges := by
    constructor
    case usage =>
      intro level stored hstored
      rw [hlevels, Option.map_eq_some_iff] at hstored
      obtain ⟨before, hbefore, rfl⟩ := hstored
      rw [hzero level before hbefore, Nat.zero_add]
    case present =>
      intro id edge hedge
      obtain ⟨stored, hstored⟩ := hpresent edge.parentCoordinate.level
        (List.mem_map.mpr ⟨(id, edge), (Map.mem_toList _ _ _).mpr hedge, rfl⟩)
      rw [hlevels, hstored]
      exact ⟨_, rfl⟩
    case bounded =>
      intro level stored hstored
      rw [hlevels, Option.map_eq_some_iff] at hstored
      obtain ⟨before, hbefore, rfl⟩ := hstored
      exact hcount level before hbefore
  refine ⟨levels, hview, ?_, hvalue⟩
  rw [hview]
  exact ⟨hblocks, hedges, husage⟩

def projectedLevels (levels : Map Nat Level) : Map Nat StoredLevel :=
  Map.mapEntries levels fun _ value => some ⟨value, 0⟩

theorem get_projectedLevels (levels : Map Nat Level) (level : Nat) :
    (projectedLevels levels)[level]? = levels[level]?.map fun value => ⟨value, 0⟩ := by
  unfold projectedLevels
  rw [Map.get_mapEntries]
  cases levels[level]? with
  | none => rfl
  | some value => rfl

def projectedView (maxDepth : Nat) (extent : LevelExtent) (policy : TrackingPolicy)
    (levels : Map Nat StoredLevel) (blocks : Map BlockHash GraphBlock)
    (edges : Map EdgeId GraphEdge) : GraphView where
  maxDepth := maxDepth
  extent := extent
  currentRevisionId := 0
  currentRevisionTimestampMs := 0
  trackingPolicy := policy
  levels := levels
  blocks := blocks
  edges := edges
  blockHashesByLevel := indexBlocksByLevel blocks
  edgeParentsByChild := indexEdgeParentsByChild edges
  edgeIdsBySpan := indexEdgesBySpan edges

theorem fromDatabaseProjection_eq (hdepth : 0 < maxDepth) (hextent : extent.depth ≤ maxDepth)
    (policy : TrackingPolicy) (blocks : Map BlockHash GraphBlock)
    (hkeyed : ∀ (id : EdgeId) (edge : GraphEdge), edges[id]? = some edge → edge.id = id)
    (hpresent : ∀ (id : EdgeId) (edge : GraphEdge), edges[id]? = some edge →
      ∃ value, levels[edge.parentCoordinate.level]? = some value)
    (hbound : ∀ level, edgeUsage edges level ≤ u64Max) :
    ∃ view, fromDatabaseProjection maxDepth extent policy levels blocks edges = .ok view ∧
      view.Derived ∧ view.maxDepth = maxDepth ∧ view.extent = extent ∧
      view.currentRevisionId = 0 ∧ view.currentRevisionTimestampMs = 0 ∧
      view.trackingPolicy = policy ∧
      view.window = ⟨fun hash => blocks[hash]?, fun id => edges[id]?, fun level => levels[level]?⟩ := by
  obtain ⟨levels', hfold, hlevels⟩ := foldlM_incrementUsage
    "a coherent graph contains every edge parent level"
    (edges.toList.map fun entry => entry.2.parentCoordinate.level)
    (projectedView maxDepth extent policy (projectedLevels levels) blocks edges)
    (by
      intro level hmem
      rw [List.mem_map] at hmem
      obtain ⟨⟨id, edge⟩, hedge, rfl⟩ := hmem
      rw [Map.mem_toList] at hedge
      obtain ⟨value, hvalue⟩ := hpresent id edge hedge
      unfold projectedView
      rw [get_projectedLevels, hvalue]
      exact ⟨_, rfl⟩)
    (by
      intro level stored hstored
      unfold projectedView at hstored
      rw [get_projectedLevels, Option.map_eq_some_iff] at hstored
      obtain ⟨value, _, rfl⟩ := hstored
      rw [count_parentLevels, Nat.zero_add]
      exact hbound level)
  unfold projectedView at hlevels
  simp only [get_projectedLevels, count_parentLevels, Option.map_map] at hlevels
  refine ⟨projectedView maxDepth extent policy levels' blocks edges, ?_,
    ⟨indexBlocksByLevel_indexed blocks, indexEdges_indexed hkeyed, ?_⟩, rfl, rfl, rfl, rfl, rfl, ?_⟩
  . unfold fromDatabaseProjection ensure
    rw [if_pos hdepth, if_pos hextent]
    exact hfold
  . constructor
    . intro level stored hstored
      unfold projectedView at hstored
      rw [hlevels, Option.map_eq_some_iff] at hstored
      obtain ⟨value, _, rfl⟩ := hstored
      exact Nat.zero_add _
    . intro id edge hedge
      obtain ⟨value, hvalue⟩ := hpresent id edge hedge
      unfold projectedView
      rw [hlevels, hvalue]
      exact ⟨_, rfl⟩
    . intro level stored hstored
      unfold projectedView at hstored
      rw [hlevels, Option.map_eq_some_iff] at hstored
      obtain ⟨value, _, rfl⟩ := hstored
      dsimp only [Function.comp]
      rw [Nat.zero_add]
      exact hbound level
  . apply Window.ext
    . rfl
    . rfl
    . funext level
      unfold window levelValue projectedView
      dsimp only
      rw [hlevels, Option.map_map]
      cases levels[level]? with
      | none => rfl
      | some value => rfl

theorem fromDatabaseProjection_eq_ok {policy : TrackingPolicy}
    (hkeyed : ∀ (id : EdgeId) (edge : GraphEdge), edges[id]? = some edge → edge.id = id)
    (hok : fromDatabaseProjection maxDepth extent policy levels blocks edges = .ok view) :
    0 < maxDepth ∧ view.Derived ∧ view.maxDepth = maxDepth ∧ view.extent = extent ∧
      view.currentRevisionId = 0 ∧ view.currentRevisionTimestampMs = 0 ∧
      view.trackingPolicy = policy ∧
      view.window = ⟨fun hash => blocks[hash]?, fun id => edges[id]?, fun level => levels[level]?⟩ := by
  have hok' := hok
  unfold fromDatabaseProjection at hok'
  simp only [bind_eq_ok, ensure_eq_ok] at hok'
  obtain ⟨_, hdepth, _, hextent, hfold⟩ := hok'
  obtain ⟨hpresent, hbound⟩ := foldlM_incrementUsage_eq_ok hfold
  have hlevels : ∀ level : Nat, (Map.mapEntries levels fun _ value => some (⟨value, 0⟩ : StoredLevel))[level]?
      = levels[level]?.map fun value => ⟨value, 0⟩ := get_projectedLevels levels
  simp only [hlevels, count_parentLevels] at hpresent hbound
  have hparent : ∀ (id : EdgeId) (edge : GraphEdge), edges[id]? = some edge →
      ∃ value, levels[edge.parentCoordinate.level]? = some value := by
    intro id edge hedge
    obtain ⟨stored, hstored⟩ := hpresent edge.parentCoordinate.level
      (List.mem_map.mpr ⟨(id, edge), (Map.mem_toList _ _ _).mpr hedge, rfl⟩)
    rw [Option.map_eq_some_iff] at hstored
    obtain ⟨value, hvalue, _⟩ := hstored
    exact ⟨value, hvalue⟩
  obtain ⟨view', hok', hview'⟩ := fromDatabaseProjection_eq hdepth hextent policy blocks hkeyed hparent
    (by
      intro level
      by_cases hused : 0 < edgeUsage edges level
      . rw [UsageExact.edgeUsage_pos_iff] at hused
        obtain ⟨id, edge, hedge, rfl⟩ := hused
        obtain ⟨value, hvalue⟩ := hparent id edge hedge
        have hle := hbound edge.parentCoordinate.level ⟨value, 0⟩ (by rw [hvalue]; rfl)
          (Nat.zero_le _)
        omega
      . omega)
  rw [hok, Except.ok.injEq] at hok'
  subst hok'
  exact ⟨hdepth, hview'⟩

end Projection

section Run

variable {view view' : GraphView}

theorem apply_eq_ok {update : OriginalUpdate} {revisionTimestampMs : Nat}
    {outcome : Except GraphViewUpdateError (Option GraphDelta)} (h : view.Head)
    (hok : update.apply view revisionTimestampMs = .ok (view', outcome)) :
    ∃ delta, outcome = .ok delta ∧ view'.Head ∧ Emits view view' delta := by
  cases update with
  | block committed =>
    obtain ⟨_, delta, houtcome, _, hhead, _, _, hemits⟩ := applyHeadBlockCommitted_eq_ok h hok
    exact ⟨delta, houtcome, hhead, hemits⟩
  | vspc committed =>
    obtain ⟨delta, houtcome, hhead, _, _, hemits⟩ := applyHeadVspcCommitted_eq_ok h hok
    exact ⟨delta, houtcome, hhead, hemits⟩

def advance (view : GraphView) (event : OriginalUpdate × Nat) : Option GraphView :=
  match event.1.apply view event.2 with
  | .ok (view', .ok _) => some view'
  | .ok (_, .error _) => none
  | .error _ => none

variable {event : OriginalUpdate × Nat}

theorem apply_of_advance (hstep : view.advance event = some view') :
    ∃ delta, event.1.apply view event.2 = .ok (view', .ok delta) := by
  unfold advance at hstep
  split at hstep
  . next next delta hok =>
    cases hstep
    exact ⟨delta, hok⟩
  . cases hstep
  . cases hstep

theorem advance_head (h : view.Head) (hstep : view.advance event = some view') : view'.Head := by
  obtain ⟨delta, hok⟩ := apply_of_advance hstep
  obtain ⟨_, _, hhead, _⟩ := apply_eq_ok h hok
  exact hhead

theorem run_head {events : List (OriginalUpdate × Nat)} (h : view.Head)
    (hrun : run advance view events = some view') : view'.Head := by
  apply run.invariant _ h hrun
  intro view event view' hview hstep
  exact advance_head hview hstep

theorem fromDatabaseProjection_head {maxDepth : Nat} {extent : LevelExtent} {levels : Map Nat Level}
    {blocks : Map BlockHash GraphBlock} {edges : Map EdgeId GraphEdge}
    (hkeyed : ∀ (id : EdgeId) (edge : GraphEdge), edges[id]? = some edge → edge.id = id)
    (hlow : extent.lowLevel = max 1 (extent.highLevel + 1 - maxDepth))
    (hok : fromDatabaseProjection maxDepth extent .head levels blocks edges = .ok view) :
    view.Head := by
  obtain ⟨hpos, hderived, hdepth, hextent, _, _, hpolicy, _⟩ :=
    fromDatabaseProjection_eq_ok hkeyed hok
  refine ⟨hderived, ?_, hpolicy⟩
  unfold HeadShaped
  rw [hextent, hdepth, hlow]
  omega

theorem Emits.eq_none_iff {delta : Option GraphDelta} (h : Emits view view' delta) :
    delta = none ↔ view'.blocks = view.blocks ∧ view'.edges = view.edges ∧
      ∀ level, view'.levelValue level = view.levelValue level := by
  cases h with
  | unchanged hsame => simp [hsame]
  | changed delta hwindow hrevision hconnects =>
    constructor
    . intro h
      cases h
    . rintro ⟨hblocks, hedges, hlevels⟩
      exact absurd (window_ext hblocks hedges hlevels) hwindow

theorem Emits.replays {delta : GraphDelta} (h : Emits view view' (some delta)) (hview : view.Head)
    (hview' : view'.Head) : view.applyDelta delta = .ok (view', .ok ()) := by
  cases h with
  | changed _ hwindow hrevision hconnects => exact applyDelta_eq_ok hview.derived hview'.derived hconnects

/--
A Head update yields the delta that replays it, or none exactly when it keeps the view.
-/
theorem update_replays {maxDepth : Nat} {extent : LevelExtent} {levels : Map Nat Level}
    {blocks : Map BlockHash GraphBlock} {edges : Map EdgeId GraphEdge} {seed : GraphView}
    {events : List (OriginalUpdate × Nat)} {update : OriginalUpdate} {revisionTimestampMs : Nat}
    {outcome : Except GraphViewUpdateError (Option GraphDelta)}
    (hkeyed : ∀ (id : EdgeId) (edge : GraphEdge), edges[id]? = some edge → edge.id = id)
    (hlow : extent.lowLevel = max 1 (extent.highLevel + 1 - maxDepth))
    (hseed : fromDatabaseProjection maxDepth extent .head levels blocks edges = .ok seed)
    (hrun : run advance seed events = some view)
    (hok : update.apply view revisionTimestampMs = .ok (view', outcome)) :
    ∃ delta, outcome = .ok delta ∧
      (∀ delta', delta = some delta' → view.applyDelta delta' = .ok (view', .ok ())) ∧
      (delta = none ↔ view'.blocks = view.blocks ∧ view'.edges = view.edges ∧
        ∀ level, view'.levelValue level = view.levelValue level) ∧
      (delta = none → view' = view) := by
  have hview := run_head (fromDatabaseProjection_head hkeyed hlow hseed) hrun
  obtain ⟨delta, houtcome, hview', hemits⟩ := apply_eq_ok hview hok
  refine ⟨delta, houtcome, ?_, hemits.eq_none_iff, ?_⟩
  . rintro delta' rfl
    exact hemits.replays hview hview'
  . rintro rfl
    cases hemits with
    | unchanged hsame => exact hsame

def smallProjection : Panics GraphView :=
  fromDatabaseProjection 2 (.upTo 1) .head
    (((∅ : Map Nat Level).insert 1 ⟨1, some 0⟩).insert 2 ⟨1, none⟩)
    (((∅ : Map BlockHash GraphBlock).insert 1
      ⟨1, .root, 0, 0, none, [], [], [], .blue, true⟩).insert 2
      ⟨2, .child, 1, 1, some 0, [1], [1], [], .gray, false⟩)
    ((∅ : Map EdgeId GraphEdge).insert ⟨1, 2⟩
      ⟨⟨1, 2⟩, .root, .child⟩)

theorem smallEdges_keyed (id : EdgeId) (edge : GraphEdge) (h : ((∅ : Map EdgeId GraphEdge).insert ⟨1, 2⟩
    ⟨⟨1, 2⟩, .root, .child⟩)[id]? = some edge) : edge.id = id := by
  rw [Map.get_insert] at h
  split at h
  . next heq =>
    cases h
    exact heq
  . simp at h

def smallVspc : OriginalUpdate :=
  .vspc ⟨1, 2, [], [2], [⟨2, 1, some 1⟩]⟩

def smallBlock : OriginalUpdate :=
  .block ⟨3, 3, .grandchild, 2, 2, some 0,
    [⟨2, some .child⟩], [2], [], .gray, false,
    [⟨2, 1, some 1⟩, ⟨3, 1, none⟩]⟩

theorem update_replays_moved_window :
    ∃ seed view view' : GraphView, ∃ delta : GraphDelta,
      smallProjection = .ok seed ∧ run advance seed [(smallVspc, 10)] = some view ∧
      smallBlock.apply view 20 = .ok (view', .ok (some delta)) ∧
      view.applyDelta delta = .ok (view', .ok ()) := by
  have hobserved : (smallProjection.toOption.bind fun seed =>
      (run advance seed [(smallVspc, 10)]).bind fun view =>
        (smallBlock.apply view 20).toOption.bind fun result =>
          result.2.toOption.bind fun delta => delta.map fun _ => ()) = some () := by
    decide +kernel
  simp only [Option.bind_eq_some_iff, Option.map_eq_some_iff, toOption_eq_some] at hobserved
  obtain ⟨seed, hseed, view, hrun, ⟨view', outcome⟩, hok, emitted, houtcome, delta, hdelta, _⟩ :=
    hobserved
  subst houtcome hdelta
  obtain ⟨_, houtcome, hreplay, _⟩ := update_replays smallEdges_keyed (by decide) hseed hrun hok
  cases houtcome
  exact ⟨seed, view, view', delta, hseed, hrun, hok, hreplay delta rfl⟩

end Run

end GraphView

end Kgi
