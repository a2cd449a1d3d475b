import GraphInspector.ApiModel.Lemmas.Extract
import GraphInspector.ApiModel.Lemmas.Lineage

/-!
Whatever is done with a view, its indexes and usage counts are those of its blocks and edges.
-/

namespace Kgi

open Data

namespace GraphView

open Progress

variable {message : String} {update : OriginalUpdate} {delta : GraphDelta}
  {outcome : Except GraphViewUpdateError (Option GraphDelta)}

def rebuilt (view : GraphView) : GraphView :=
  { view with
    levels := view.levels.map fun level stored =>
      { stored with usageCount := edgeUsage view.edges level }
    blockHashesByLevel := indexBlocksByLevel view.blocks
    edgeParentsByChild := indexEdgeParentsByChild view.edges
    edgeIdsBySpan := indexEdgesBySpan view.edges }

theorem Derived.rebuilt_eq {view : GraphView} (h : view.Derived) : view.rebuilt = view := by
  have hlevels : ∀ level : Nat, view.rebuilt.levels[level]? = view.levels[level]? := by
    intro level
    unfold rebuilt
    rw [Std.ExtTreeMap.getElem?_map]
    cases hstored : view.levels[level]? with
    | none => rfl
    | some stored =>
      rw [Option.map_some, ← h.usage.usage level stored hstored]
  have hrebuilt : view.rebuilt.Derived := by
    refine ⟨indexBlocksByLevel_indexed view.blocks, indexEdges_indexed h.edges.keyed, ?_⟩
    rw [Std.ExtTreeMap.ext_getElem? hlevels]
    exact h.usage
  apply hrebuilt.ext h rfl rfl rfl rfl rfl rfl rfl
  intro level
  unfold levelValue
  rw [hlevels]

/-!
What an update does to the edges and levels of a view.
-/

structure Relinks (delta : GraphDelta) (source target : GraphView) : Prop where
  edges : ∀ id : EdgeId, target.edges[id]? = delta.edgeChanges[id]?.getD source.edges[id]?
  levels : LevelsChanged delta.levelChanges source.levelValue target.levelValue

structure Mirrors (view source : GraphView) : Prop where
  edges : view.edges = source.edges
  levels : view.levelValue = source.levelValue

def Relinked (source target : GraphView) : Option GraphDelta → Prop
  | none => Mirrors target source
  | some delta => Relinks delta source target

variable {view view' source target : GraphView} {progress : Progress} {revisionTimestampMs : Nat}

theorem Progress.Tracked.setExtent (h : Tracked view progress) (extent : LevelExtent) :
    Tracked view { progress with view := { progress.view with extent := extent } } where
  lineage := h.lineage.congr rfl rfl rfl rfl
  derived := ⟨h.derived.blocks, h.derived.edges, h.derived.usage⟩
  edges := h.edges
  levels := h.levels

theorem finishMutation_relinked {delta : Option GraphDelta} (htracked : Tracked view progress)
    (hrecorded : Recorded view progress (progress.mutation.finish progress.view))
    (hok : finishMutation progress revisionTimestampMs = .ok (view', delta)) :
    view'.Derived ∧ ∀ delta', (.ok delta : Except GraphViewUpdateError (Option GraphDelta)) = .ok delta' →
      Relinked view view' delta' := by
  suffices h : view'.Derived ∧ Relinked view view' delta by
    refine ⟨h.1, fun delta' hdelta => ?_⟩
    cases hdelta
    exact h.2
  unfold finishMutation at hok
  dsimp only at hok
  split at hok
  . next hempty =>
    cases hok
    have hwindow := hrecorded.isEmpty_iff.mp hempty
    refine ⟨hrecorded.derived, ?_, ?_⟩
    . exact Std.ExtTreeMap.ext_getElem? fun id => congrFun (congrArg Window.edges hwindow) id
    . exact congrArg Window.levels hwindow
  . split at hok
    . obtain ⟨nextRevision, -, hok⟩ := bind_eq_ok.mp hok
      split at hok
      . cases hok
      . next delta' hnew =>
        cases hok
        unfold GraphDelta.new at hnew
        split at hnew
        . cases hnew
        . split at hnew
          . cases hnew
          . cases hnew
            have hderived := hrecorded.derived
            exact ⟨⟨hderived.blocks, hderived.edges, hderived.usage⟩, hrecorded.edges,
              htracked.levelsChanged⟩
    . obtain ⟨nextRevision, habsurd, -⟩ := bind_eq_ok.mp hok
      cases habsurd

theorem apply_relinked (h : view.Derived)
    (hok : update.apply view revisionTimestampMs = .ok (view', outcome)) :
    view'.Derived ∧ ∀ delta, outcome = .ok delta → Relinked view view' delta := by
  cases update with
  | block committed =>
    unfold OriginalUpdate.apply applyHeadBlockCommitted at hok
    dsimp only at hok
    split at hok
    . cases hok
      exact ⟨h, fun delta hdelta => by cases hdelta⟩
    . simp only [bind_eq_ok, pure_eq_ok, Prod.mk.injEq] at hok
      obtain ⟨_, _, extent, _, middle, hprojection, pruned, hprune, ⟨result, delta⟩, hfinish, rfl, rfl⟩ := hok
      obtain ⟨progress, hprune', htracked, -, -⟩ := applyBlockProjection_eq_ok h hprojection
      rw [hprune, Except.ok.injEq] at hprune'
      subst hprune'
      exact finishMutation_relinked (htracked.toTracked.setExtent extent)
        (htracked.recorded.setExtent extent) hfinish
  | vspc committed =>
    unfold OriginalUpdate.apply applyHeadVspcCommitted at hok
    dsimp only at hok
    split at hok
    . cases hok
      exact ⟨h, fun delta hdelta => by cases hdelta⟩
    . simp only [bind_eq_ok, pure_eq_ok, Prod.mk.injEq] at hok
      obtain ⟨_, _, ⟨result, delta⟩, hfinish, rfl, rfl⟩ := hok
      obtain ⟨htracked, -⟩ := applyVspcProjection_tracked h committed
      exact finishMutation_relinked htracked.toTracked htracked.recorded hfinish

theorem applyFixed_relinked {head : GraphView} (h : view.Derived)
    (hok : update.applyFixed view head revisionTimestampMs = .ok (view', outcome)) :
    view'.Derived ∧ ∀ delta, outcome = .ok delta → Relinked view view' delta := by
  -- A view that freezes keeps its contents.
  have hfrozen : Derived { view with trackingPolicy := .frozen } ∧ ∀ delta,
      (.ok none : Except GraphViewUpdateError (Option GraphDelta)) = .ok delta →
      Relinked view { view with trackingPolicy := .frozen } delta := by
    refine ⟨⟨h.blocks, h.edges, h.usage⟩, fun delta hdelta => ?_⟩
    cases hdelta
    exact ⟨rfl, rfl⟩
  cases update with
  | block committed =>
    unfold OriginalUpdate.applyFixed applyFixedBlockCommitted at hok
    dsimp only at hok
    split at hok
    . cases hok
      exact ⟨h, fun delta hdelta => by cases hdelta⟩
    . simp only [bind_eq_ok] at hok
      obtain ⟨_, _, _, _, hok⟩ := hok
      split at hok
      . cases hok
        exact hfrozen
      . simp only [bind_eq_ok, pure_eq_ok, Prod.mk.injEq] at hok
        obtain ⟨progress, hprojection, ⟨result, delta⟩, hfinish, rfl, rfl⟩ := hok
        obtain ⟨htracked, -, -⟩ := applyBlockProjection_tracked h hprojection
        exact finishMutation_relinked htracked.toTracked htracked.recorded hfinish
  | vspc committed =>
    unfold OriginalUpdate.applyFixed applyFixedVspcCommitted at hok
    dsimp only at hok
    split at hok
    . cases hok
      exact ⟨h, fun delta hdelta => by cases hdelta⟩
    . simp only [bind_eq_ok] at hok
      obtain ⟨_, _, _, _, hok⟩ := hok
      split at hok
      . cases hok
        exact hfrozen
      . split at hok
        . cases hok
          exact hfrozen
        . next metadata _ =>
          simp only [bind_eq_ok, pure_eq_ok, Prod.mk.injEq] at hok
          obtain ⟨⟨result, delta⟩, hfinish, rfl, rfl⟩ := hok
          obtain ⟨htracked, -⟩ := applyVspcProjection_metadata h committed metadata
          exact finishMutation_relinked htracked.toTracked htracked.recorded hfinish

/-!
The deltas of a lineage.
-/

inductive Updates (view view' : GraphView) (delta : Option GraphDelta) : Prop where
  | head (update : OriginalUpdate) (revisionTimestampMs : Nat)
      (hok : update.apply view revisionTimestampMs = .ok (view', .ok delta)) : Updates view view' delta
  | fixed (update : OriginalUpdate) (head : GraphView) (revisionTimestampMs : Nat)
      (hok : update.applyFixed view head revisionTimestampMs = .ok (view', .ok delta)) :
      Updates view view' delta

inductive Descends : GraphView → GraphDelta → GraphView → Prop where
  | emitted {view view' : GraphView} {delta : GraphDelta} (h : Updates view view' (some delta)) :
      Descends view delta view'
  | silentBefore {view middle view' : GraphView} {delta : GraphDelta} (h : Updates view middle none)
      (h' : Descends middle delta view') : Descends view delta view'
  | silentAfter {view middle view' : GraphView} {delta : GraphDelta} (h : Descends view delta middle)
      (h' : Updates middle view' none) : Descends view delta view'
  | composed {view middle view' : GraphView} {first second delta : GraphDelta}
      (h : Descends view first middle) (h' : Descends middle second view')
      (hcompose : first.compose second = .ok (.ok delta)) : Descends view delta view'

theorem Updates.relinked {delta : Option GraphDelta} (h : Updates view view' delta) (hview : view.Derived) :
    view'.Derived ∧ Relinked view view' delta := by
  cases h with
  | head update revisionTimestampMs hok =>
    obtain ⟨hderived, hrelinked⟩ := apply_relinked hview hok
    exact ⟨hderived, hrelinked delta rfl⟩
  | fixed update head revisionTimestampMs hok =>
    obtain ⟨hderived, hrelinked⟩ := applyFixed_relinked hview hok
    exact ⟨hderived, hrelinked delta rfl⟩

theorem Relinks.compose {middle : GraphView} {first second delta : GraphDelta}
    (h : Relinks first view middle) (h' : Relinks second middle view')
    (hcompose : first.compose second = .ok (.ok delta)) : Relinks delta view view' := by
  have hrevision : first.toRevisionId = second.fromRevisionId := by
    by_contra hne
    unfold GraphDelta.compose at hcompose
    rw [if_pos hne] at hcompose
    cases hcompose
  rw [GraphDelta.compose_eq_ok hrevision] at hcompose
  cases hcompose
  constructor
  case edges =>
    intro id
    rw [h'.edges, h.edges]
    rw [Map.get_extend]
    cases second.edgeChanges[id]? with
    | none => rfl
    | some change => rfl
  case levels => exact composeLevelChanges_changed h.levels h'.levels

theorem Relinks.of_mirrors (h : Relinks delta source target) (hsource : Mirrors view source)
    (htarget : Mirrors view' target) : Relinks delta view view' := by
  constructor
  case edges =>
    intro id
    rw [htarget.edges, hsource.edges]
    exact h.edges id
  case levels =>
    rw [htarget.levels, hsource.levels]
    exact h.levels

theorem Descends.relinks (h : Descends view delta view') (hview : view.Derived) :
    view'.Derived ∧ Relinks delta view view' := by
  induction h with
  | emitted h => exact h.relinked hview
  | silentBefore h h' ih =>
    obtain ⟨hmiddle, hsame⟩ := h.relinked hview
    obtain ⟨hderived, hrelinks⟩ := ih hmiddle
    exact ⟨hderived, hrelinks.of_mirrors ⟨hsame.edges.symm, hsame.levels.symm⟩ ⟨rfl, rfl⟩⟩
  | silentAfter h h' ih =>
    obtain ⟨hmiddle, hrelinks⟩ := ih hview
    obtain ⟨hderived, hsame⟩ := h'.relinked hmiddle
    exact ⟨hderived, hrelinks.of_mirrors ⟨rfl, rfl⟩ hsame⟩
  | composed h h' hcompose ih ih' =>
    obtain ⟨hmiddle, hfirst⟩ := ih hview
    obtain ⟨hderived, hsecond⟩ := ih' hmiddle
    exact ⟨hderived, hfirst.compose hsecond hcompose⟩

theorem Relinks.rewires (h : Relinks delta source target) : Rewires delta source target where
  edges := h.edges
  levels_nodup := h.levels.nodup
  levels change hchange := (h.levels.changed change hchange).2.symm
  levels_other := h.levels.kept

theorem Descends.applyDelta_isOk (h : Descends source delta target) (hsource : source.Derived)
    (hview : view.Derived) (hmirrors : Mirrors view source) :
    ∃ view' outcome, view.applyDelta delta = .ok (view', outcome) ∧ view'.Derived := by
  obtain ⟨htarget, hrelinks⟩ := h.relinks hsource
  have hrewires := (hrelinks.of_mirrors hmirrors ⟨rfl, rfl⟩).rewires
  obtain ⟨next, hcontents, hderived, -⟩ := applyDeltaContents_of_rewires hview htarget hrewires
  obtain ⟨extent, hextent⟩ : ∃ extent, headExtent next.maxDepth delta.headLevel
      "delta lineage Head level is positive" = .ok extent := by
    have hpos := delta.headLevel_pos
    refine ⟨⟨max (delta.headLevel - (next.maxDepth - 1)) 1, delta.headLevel, by omega, by omega⟩, ?_⟩
    rw [headExtent_eq_ok_iff]
    exact ⟨rfl, rfl⟩
  unfold applyDelta
  split
  . exact ⟨view, _, rfl, hview⟩
  . split
    . split
      . exact ⟨_, _, rfl, hview.blocks, hview.edges, hview.usage⟩
      . exact ⟨view, _, rfl, hview⟩
    . rw [hcontents, ok_bind]
      split
      . rw [hextent]
        exact ⟨_, _, rfl, hderived.blocks, hderived.edges, hderived.usage⟩
      . exact ⟨_, _, rfl, hderived.blocks, hderived.edges, hderived.usage⟩

/-!
The panics that no operation on such a view reaches.
-/

def indexPanics : List String :=
  ["an indexed block exists", "an indexed edge exists", "a selected retained edge exists",
    "a selected retained level exists", "retained parent usage is positive",
    "canonical delta edge removal has retained usage"]

theorem incrementParentUsage_error {level : Nat} (h : view.incrementParentUsage level = .error message) :
    message ∉ indexPanics := by
  unfold incrementParentUsage incrementUsage at h
  split at h
  . cases h
    decide
  . split at h
    . cases h
    . cases h
      decide

theorem projectEdge_error {edge : GraphEdge} (h : projectEdge progress edge = .error message) :
    message ∉ indexPanics := by
  unfold projectEdge at h
  split at h
  . obtain h | ⟨_, _, h⟩ := bind_eq_error.mp h
    . obtain ⟨-, rfl⟩ := ensure_eq_error.mp h
      decide
    . cases h
  . obtain h | ⟨_, _, h⟩ := bind_eq_error.mp h
    . exact incrementParentUsage_error h
    . cases h

theorem applyBlockProjection_error {committed : BlockCommitted} {extent : LevelExtent}
    (h : applyBlockProjection progress committed extent = .error message) : message ∉ indexPanics := by
  obtain h | ⟨_, _, h⟩ := bind_eq_error.mp h
  . unfold projectBlock at h
    dsimp only at h
    split at h
    . obtain h | ⟨_, _, h⟩ := bind_eq_error.mp h
      . unfold insertBlock at h
        split at h
        . cases h
          decide
        . cases h
      . cases h
    . cases h
  . exact foldlM_eq_error (fun _ _ _ h => projectEdge_error h) h

theorem finishMutation_error (h : finishMutation progress revisionTimestampMs = .error message) :
    message ∉ indexPanics := by
  unfold finishMutation at h
  dsimp only at h
  split at h
  . cases h
  . split at h
    . obtain h | ⟨_, _, h⟩ := bind_eq_error.mp h
      . cases h
      . split at h
        . cases h
          decide
        . cases h
    . obtain h | ⟨_, h', _⟩ := bind_eq_error.mp h
      . cases h
        decide
      . cases h'

theorem apply_error (hview : view.Derived) (h : update.apply view revisionTimestampMs = .error message) :
    message ∉ indexPanics := by
  cases update with
  | block committed =>
    unfold OriginalUpdate.apply applyHeadBlockCommitted at h
    dsimp only at h
    split at h
    . cases h
    . obtain h | ⟨_, -, h⟩ := bind_eq_error.mp h
      . obtain ⟨-, rfl⟩ := ensure_eq_error.mp h
        decide
      . obtain h | ⟨extent, -, h⟩ := bind_eq_error.mp h
        . unfold headExtent at h
          split at h
          . cases h
          . cases h
            decide
        . obtain h | ⟨middle, hmiddle, h⟩ := bind_eq_error.mp h
          . exact applyBlockProjection_error h
          . obtain ⟨pruned, hprune, -⟩ := applyBlockProjection_eq_ok hview hmiddle
            rw [hprune, ok_bind] at h
            obtain h | ⟨_, -, h⟩ := bind_eq_error.mp h
            . exact finishMutation_error h
            . cases h
  | vspc committed =>
    unfold OriginalUpdate.apply applyHeadVspcCommitted at h
    dsimp only at h
    split at h
    . cases h
    . obtain h | ⟨_, -, h⟩ := bind_eq_error.mp h
      . obtain ⟨-, rfl⟩ := ensure_eq_error.mp h
        decide
      . obtain h | ⟨_, -, h⟩ := bind_eq_error.mp h
        . exact finishMutation_error h
        . cases h

theorem applyFixed_error {head : GraphView}
    (h : update.applyFixed view head revisionTimestampMs = .error message) : message ∉ indexPanics := by
  cases update with
  | block committed =>
    unfold OriginalUpdate.applyFixed applyFixedBlockCommitted at h
    dsimp only at h
    split at h
    . cases h
    . obtain h | ⟨_, -, h⟩ := bind_eq_error.mp h
      . obtain ⟨-, rfl⟩ := ensure_eq_error.mp h
        decide
      . obtain h | ⟨_, -, h⟩ := bind_eq_error.mp h
        . obtain ⟨-, rfl⟩ := ensure_eq_error.mp h
          decide
        . split at h
          . cases h
          . obtain h | ⟨_, -, h⟩ := bind_eq_error.mp h
            . exact applyBlockProjection_error h
            . obtain h | ⟨_, -, h⟩ := bind_eq_error.mp h
              . exact finishMutation_error h
              . cases h
  | vspc committed =>
    unfold OriginalUpdate.applyFixed applyFixedVspcCommitted at h
    dsimp only at h
    split at h
    . cases h
    . obtain h | ⟨_, -, h⟩ := bind_eq_error.mp h
      . obtain ⟨-, rfl⟩ := ensure_eq_error.mp h
        decide
      . obtain h | ⟨_, -, h⟩ := bind_eq_error.mp h
        . obtain ⟨-, rfl⟩ := ensure_eq_error.mp h
          decide
        . split at h
          . cases h
          . split at h
            . cases h
            . obtain h | ⟨_, -, h⟩ := bind_eq_error.mp h
              . exact finishMutation_error h
              . cases h

theorem insertSourceLevel_error {levels : Map Nat StoredLevel} {level : Nat}
    (h : view.insertSourceLevel levels level = .error message) : message ∉ indexPanics := by
  unfold insertSourceLevel at h
  split at h
  . cases h
  . split at h
    . cases h
      decide
    . cases h

theorem extractSubview_error {extent : LevelExtent} (hview : view.Derived)
    (h : view.extractSubview extent = .error message) : message ∉ indexPanics := by
  obtain ⟨blocks, edges, hselect, -⟩ := selectSubviewGraph_eq_ok hview extent
  cases hcontains : view.extent.containsExtent extent with
  | false =>
    unfold extractSubview at h
    rw [hcontains] at h
    cases h
  | true =>
    rw [extractSubview_eq hcontains hselect] at h
    obtain h | ⟨levels, -, h⟩ := bind_eq_error.mp h
    . exact foldlM_eq_error (fun _ _ _ h => insertSourceLevel_error h) h
    . obtain h | ⟨_, -, h⟩ := bind_eq_error.mp h
      . exact foldlM_eq_error (fun _ _ _ h => incrementParentUsage_error h) h
      . cases h

/--
The views that a coherent projection leads to by committed updates, deltas of their lineage and extractions.
A projection is coherent if its edges stand under their own identities and have their parent levels. A view
takes the deltas of a lineage that starts at a view with its edges and levels.
-/
inductive Reached : GraphView → Prop where
  | projected {maxDepth : Nat} {extent : LevelExtent} {policy : TrackingPolicy} {levels : Map Nat Level}
      {blocks : Map BlockHash GraphBlock} {edges : Map EdgeId GraphEdge} {view : GraphView}
      (hkeyed : ∀ (id : EdgeId) (edge : GraphEdge), edges[id]? = some edge → edge.id = id)
      (hok : fromDatabaseProjection maxDepth extent policy levels blocks edges = .ok view) : Reached view
  | head {view view' : GraphView} {outcome : Except GraphViewUpdateError (Option GraphDelta)}
      (h : Reached view) (update : OriginalUpdate) (revisionTimestampMs : Nat)
      (hok : update.apply view revisionTimestampMs = .ok (view', outcome)) : Reached view'
  | fixed {view view' : GraphView} {outcome : Except GraphViewUpdateError (Option GraphDelta)}
      (h : Reached view) (update : OriginalUpdate) (head : GraphView) (revisionTimestampMs : Nat)
      (hok : update.applyFixed view head revisionTimestampMs = .ok (view', outcome)) : Reached view'
  | delta {view view' source target : GraphView} {delta : GraphDelta}
      {outcome : Except GraphDeltaApplyError Unit} (h : Reached view) (hsource : Reached source)
      (hmirrors : Mirrors view source) (hdelta : Descends source delta target)
      (hok : view.applyDelta delta = .ok (view', outcome)) : Reached view'
  | extract {view sub : GraphView} {extent : LevelExtent} (h : Reached view)
      (hok : view.extractSubview extent = .ok (.ok sub)) : Reached sub

theorem Reached.derived (h : Reached view) : view.Derived := by
  induction h with
  | projected hkeyed hok => exact (fromDatabaseProjection_eq_ok hkeyed hok).2.1
  | head h update revisionTimestampMs hok ih => exact (apply_relinked ih hok).1
  | fixed h update head revisionTimestampMs hok ih => exact (applyFixed_relinked ih hok).1
  | delta h hsource hmirrors hdelta hok ih ihsource =>
    obtain ⟨next, outcome, hok', hderived⟩ := hdelta.applyDelta_isOk ihsource ih hmirrors
    rw [hok] at hok'
    cases hok'
    exact hderived
  | extract h hok ih => exact (extractSubview_eq_ok ih hok).2.1.derived

/--
A view that a coherent projection leads to has the indexes and usage counts that its blocks and edges give,
without empty buckets. No operation on it finds an index that leads nowhere or a usage count of zero: pruning
never panics, nor does a delta of the lineage.
-/
theorem indexes_exact (h : Reached view) :
    view.rebuilt = view ∧ Multimap.NoEmpty view.blockHashesByLevel ∧
      Multimap.NoEmpty view.edgeParentsByChild ∧ NestedMultimap.NoEmpty view.edgeIdsBySpan ∧
      (∀ update revisionTimestampMs message,
        OriginalUpdate.apply update view revisionTimestampMs = .error message → message ∉ indexPanics) ∧
      (∀ update head revisionTimestampMs message,
        OriginalUpdate.applyFixed update view head revisionTimestampMs = .error message →
        message ∉ indexPanics) ∧
      (∀ extent message, view.extractSubview extent = .error message → message ∉ indexPanics) ∧
      (∀ committed extent progress, applyBlockProjection ⟨view, .default⟩ committed extent = .ok progress →
        ∃ pruned, prune progress extent.lowLevel = .ok pruned) ∧
      ∀ source delta target, Reached source → Mirrors view source → Descends source delta target →
        ∃ result, view.applyDelta delta = .ok result := by
  have hderived := h.derived
  refine ⟨hderived.rebuilt_eq, hderived.blocks.noEmpty, hderived.edges.parents_noEmpty,
    hderived.edges.spans_noEmpty, ?_, ?_, ?_, ?_, ?_⟩
  . exact fun update revisionTimestampMs message => apply_error hderived
  . exact fun update head revisionTimestampMs message => applyFixed_error
  . exact fun extent message => extractSubview_error hderived
  . intro committed extent progress hok
    obtain ⟨pruned, hprune, -⟩ := applyBlockProjection_eq_ok hderived hok
    exact ⟨pruned, hprune⟩
  . intro source delta target hsource hmirrors hdelta
    obtain ⟨view', outcome, hok, -⟩ := hdelta.applyDelta_isOk hsource.derived hderived hmirrors
    exact ⟨_, hok⟩

/--
A view that took a delta of its lineage, and a part of it.
-/
theorem indexes_exact_small :
    ∃ seed view sub : GraphView, ∃ delta : GraphDelta, smallProjection = .ok seed ∧
      smallBlock.apply seed 10 = .ok (view, .ok (some delta)) ∧
      view.extractSubview ⟨3, 3, by decide, by decide⟩ = .ok (.ok sub) ∧
      (∃ result, seed.applyDelta delta = .ok result) ∧ view.rebuilt = view ∧ sub.rebuilt = sub := by
  have hobserved : (smallProjection.toOption.bind fun seed =>
      (smallBlock.apply seed 10).toOption.bind fun result =>
        result.2.toOption.bind fun delta => delta.bind fun _ =>
          (result.1.extractSubview ⟨3, 3, by decide, by decide⟩).toOption.bind fun sub =>
            sub.toOption.map fun _ => ()) = some () := by
    decide +kernel
  simp only [Option.bind_eq_some_iff, Option.map_eq_some_iff, toOption_eq_some] at hobserved
  obtain ⟨seed, hseed, ⟨view, outcome⟩, hok, emitted, houtcome, delta, hdelta, extracted, hextract, sub,
    hsub, -⟩ := hobserved
  subst houtcome hdelta hsub
  have hreached : Reached seed := .projected smallEdges_keyed hseed
  have hview : Reached view := .head hreached smallBlock 10 hok
  obtain ⟨-, -, -, -, -, -, -, -, hreplays⟩ := indexes_exact hreached
  exact ⟨seed, view, sub, delta, hseed, hok, hextract,
    hreplays seed delta view hreached ⟨rfl, rfl⟩ (.emitted (.head smallBlock 10 hok)),
    (indexes_exact hview).1, (indexes_exact (.extract hview hextract)).1⟩

/--
Extracting from an extracted view is extracting from the view it came from, panics included.
-/
theorem extractSubview_nested {sub : GraphView} {wide narrow : LevelExtent} (h : Reached view)
    (hok : view.extractSubview wide = .ok (.ok sub)) (hnarrow : wide.containsExtent narrow = true) :
    sub.extractSubview narrow = view.extractSubview narrow := by
  obtain ⟨hcontains, hsub, _⟩ := extractSubview_eq_ok h.derived hok
  obtain ⟨blocks, edges, hselect, hblocks, hedges⟩ := selectSubviewGraph_eq_ok h.derived narrow
  obtain ⟨blocks', edges', hselect', hblocks', hedges'⟩ :=
    selectSubviewGraph_eq_ok hsub.derived narrow
  obtain ⟨hsameBlocks, hsameEdges, hsameLevels⟩ := Window.select_select hnarrow view.window
  rw [hsub.window, hsameBlocks] at hblocks'
  rw [hsub.window, hsameEdges] at hedges'
  cases Std.ExtTreeMap.ext_getElem? fun {hash} => (hblocks' hash).trans (hblocks hash).symm
  cases Std.ExtTreeMap.ext_getElem? fun {id} => (hedges' id).trans (hedges id).symm
  -- Both take the same levels, and the extraction over `wide` kept their values.
  have hsource : ∀ level ∈ selectedLevels narrow edges, ∀ target,
      sub.insertSourceLevel target level = view.insertSourceLevel target level := by
    intro level hlevel target
    have hvalue : sub.levelValue level = view.levelValue level := by
      rw [levelValue_eq_of_window_eq hsub.window]
      exact hsameLevels level (if_pos ((mem_selectedLevels hedges level).mp hlevel))
    unfold levelValue at hvalue
    unfold insertSourceLevel
    grind
  have hview : sub.extractedView narrow = view.extractedView narrow := by
    unfold extractedView
    rw [hsub.revision, hsub.timestamp]
  rw [extractSubview_eq (by rw [hsub.extent_eq]; exact hnarrow) hselect', foldlM_congr hsource, hview]
  refine (extractSubview_eq ?_ hselect).symm
  simp only [LevelExtent.containsExtent, Bool.and_eq_true, decide_eq_true_eq] at hcontains hnarrow ⊢
  omega

theorem extractSubview_nested_small :
    ∃ seed sub : GraphView, smallProjection = .ok seed ∧
      seed.extractSubview (.upTo 1) = .ok (.ok sub) ∧
      sub.extractSubview (.upTo 0) = seed.extractSubview (.upTo 0) := by
  have hobserved : (smallProjection.toOption.bind fun seed =>
      (seed.extractSubview (.upTo 1)).toOption.bind Except.toOption).isSome := by
    decide +kernel
  simp only [Option.isSome_iff_exists, Option.bind_eq_some_iff, toOption_eq_some] at hobserved
  obtain ⟨sub, seed, hseed, _, hextract, rfl⟩ := hobserved
  exact ⟨seed, sub, hseed, hextract,
    extractSubview_nested (.projected smallEdges_keyed hseed) hextract (by decide)⟩

end GraphView

end Kgi
