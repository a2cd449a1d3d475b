import GraphInspector.ApiModel.Lemmas.Prune
import GraphInspector.ApiModel.Lemmas.VspcProjection

/-!
Updates of a Head view act on its window as the updates of windows do, and the delta they yield replays
them.
-/

namespace Kgi

open Data

namespace GraphView

open Progress

variable {outcome : Except GraphViewUpdateError (Option GraphDelta)} {committed : BlockCommitted}
  {progress : Progress} {extent : LevelExtent}

structure Head (view : GraphView) : Prop where
  derived : view.Derived
  shaped : view.HeadShaped
  policy : view.trackingPolicy = .head

inductive Emits (view view' : GraphView) : Option GraphDelta → Prop where
  | unchanged (hsame : view' = view) : Emits view view' none
  | changed (delta : GraphDelta) (hwindow : view'.window ≠ view.window)
      (hrevision : view'.currentRevisionId = view.currentRevisionId + 1)
      (hconnects : Connects delta view view') : Emits view view' (some delta)

variable {view view' : GraphView} {revisionTimestampMs : Nat}

theorem Progress.Recorded.setExtent
    (h : Recorded view progress (progress.mutation.finish progress.view)) (extent : LevelExtent) :
    Recorded view { progress with view := { progress.view with extent := extent } }
      (progress.mutation.finish { progress.view with extent := extent }) where
  lineage := h.lineage.congr rfl rfl rfl rfl
  derived := ⟨h.derived.blocks, h.derived.edges, h.derived.usage⟩
  blocks := h.blocks
  blocks_isEmpty := h.blocks_isEmpty
  edges := h.edges
  edges_isEmpty := h.edges_isEmpty
  levels_nodup := h.levels_nodup
  levels := h.levels
  levels_other := h.levels_other
  levels_isEmpty := h.levels_isEmpty

theorem finishMutation_emits (progress : Progress) {delta : Option GraphDelta} (h : view.Head)
    (hrecorded : Recorded view progress (progress.mutation.finish progress.view))
    (hshaped : progress.view.HeadShaped)
    (hextent : progress.view.window = view.window → progress.view.extent = view.extent)
    (hok : finishMutation progress revisionTimestampMs = .ok (view', delta)) :
    view'.Head ∧ view'.extent = progress.view.extent ∧ view'.window = progress.view.window ∧
      Emits view view' delta := by
  have hpolicy : progress.view.trackingPolicy = .head := hrecorded.lineage.policy.trans h.policy
  obtain ⟨rfl, rfl, hsame⟩ | ⟨hne, rfl, delta', rfl, hconnects⟩ :=
    finishMutation_eq_ok hrecorded h.policy hshaped hok
  . have heq : progress.view = view :=
      hrecorded.lineage.eq (hextent hsame) hsame hrecorded.derived h.derived
    exact ⟨⟨hrecorded.derived, hshaped, hpolicy⟩, rfl, rfl, .unchanged heq⟩
  . refine ⟨⟨?_, hshaped, hpolicy⟩, rfl, rfl, .changed delta' hne ?_ hconnects⟩
    . exact ⟨hrecorded.derived.blocks, hrecorded.derived.edges, hrecorded.derived.usage⟩
    . exact congrArg (· + 1) hrecorded.lineage.revision

theorem applyBlockProjection_tracked (h : view.Derived)
    (hok : applyBlockProjection ⟨view, .default⟩ committed extent = .ok progress) :
    BlocksTracked view progress ∧ progress.view.window = view.window.projectBlock extent committed ∧
      (extent.containsLevel committed.coordinate.level = true →
        view.blocks[committed.hash]? = none) := by
  unfold applyBlockProjection at hok
  rw [bind_eq_ok] at hok
  obtain ⟨first, hblock, hok⟩ := hok
  obtain ⟨hfirst, hwindow₁, hnew⟩ := projectBlock_eq_ok (BlocksTracked.default h) hblock
  obtain ⟨hsecond, hwindow₂⟩ := foldl_projectSnapshot_tracked hfirst extent
    (Window.endpointLevels (retainedEdges committed extent)) committed.levelSnapshots
  obtain ⟨hthird, hwindow₃⟩ := foldlM_projectEdge_eq_ok hsecond hok
  refine ⟨hthird, ?_, hnew⟩
  rw [hwindow₃, hwindow₂, hwindow₁]
  rfl

theorem applyBlockProjection_eq_ok (h : view.Derived)
    (hok : applyBlockProjection ⟨view, .default⟩ committed extent = .ok progress) :
    ∃ progress', prune progress extent.lowLevel = .ok progress' ∧ BlocksTracked view progress' ∧
      progress'.view.window = view.window.commitBlock extent committed ∧
      (extent.containsLevel committed.coordinate.level = true →
        view.blocks[committed.hash]? = none) := by
  obtain ⟨hprojected, hwindow, hnew⟩ := applyBlockProjection_tracked h hok
  obtain ⟨progress', hprune, htracked, hwindow'⟩ := prune_eq_ok hprojected extent.lowLevel
  refine ⟨progress', hprune, htracked, ?_, hnew⟩
  rw [hwindow', hwindow]
  rfl

theorem Head.extent_eq_of_window_eq (h : view.Head)
    (hhigh : extent.highLevel = max view.highLevel committed.coordinate.level)
    (hlow : extent.lowLevel = max (extent.highLevel - (view.maxDepth - 1)) 1)
    (hnew : extent.containsLevel committed.coordinate.level = true →
      view.blocks[committed.hash]? = none)
    (hsame : view.window.commitBlock extent committed = view.window) :
    extent = view.extent := by
  have hle : committed.coordinate.level ≤ view.highLevel := by
    rw [← Nat.not_lt]
    intro hlt
    have hcontains : extent.lowLevel ≤ committed.coordinate.level ∧
        committed.coordinate.level ≤ extent.highLevel := by
      have := extent.low_le_high
      omega
    have hcontains' : extent.containsLevel committed.coordinate.level = true := by
      unfold LevelExtent.containsLevel
      simp [hcontains]
    have hblock := congrArg (fun window => Window.blocks window committed.hash) hsame
    rw [Window.commitBlock_blocks, if_pos ⟨hcontains', rfl⟩, Option.filter_some] at hblock
    have habsent : view.window.blocks committed.hash = none := hnew hcontains'
    rw [habsent, if_pos] at hblock
    . cases hblock
    . exact decide_eq_true hcontains.1
  have hshaped := h.shaped
  unfold highLevel at hhigh hle
  rw [Nat.max_eq_left hle] at hhigh
  rw [hhigh, ← hshaped] at hlow
  obtain ⟨low, high, hpos, hle⟩ := extent
  subst hhigh hlow
  rfl

structure BlockProjected (view view' : GraphView) (committed : BlockCommitted)
    (revisionTimestampMs : Nat) (extent : LevelExtent) (progress : Progress)
    (delta : Option GraphDelta) : Prop where
  high : extent.highLevel = max view.highLevel committed.coordinate.level
  low : extent.lowLevel = max (extent.highLevel - (view.maxDepth - 1)) 1
  tracked : BlocksTracked view progress
  new : extent.containsLevel committed.coordinate.level = true → view.blocks[committed.hash]? = none
  finished : finishMutation { progress with view := { progress.view with extent := extent } }
    revisionTimestampMs = .ok (view', delta)
  head : view'.Head
  extent_eq : view'.extent = extent
  window : view'.window = view.window.commitBlock extent committed
  window_eq : view'.window = progress.view.window
  emits : Emits view view' delta

theorem applyHeadBlockCommitted_projected (h : view.Head)
    (hok : view.applyHeadBlockCommitted committed revisionTimestampMs = .ok (view', outcome)) :
    ∃ extent progress delta, outcome = .ok delta ∧
      BlockProjected view view' committed revisionTimestampMs extent progress delta := by
  unfold applyHeadBlockCommitted at hok
  rw [if_neg (by rw [h.policy]; decide)] at hok
  simp only [bind_eq_ok, ensure_eq_ok, pure_eq_ok] at hok
  obtain ⟨_, _, extent, hextent, middle, hprojection, pruned, hprune, ⟨result, delta⟩, hfinish, hok⟩ :=
    hok
  rw [headExtent_eq_ok_iff] at hextent
  obtain ⟨hhigh, hlow⟩ := hextent
  rw [← hhigh] at hlow
  obtain ⟨progress, hprune', htracked, hwindow, hnew⟩ :=
    applyBlockProjection_eq_ok h.derived hprojection
  rw [hprune, Except.ok.injEq] at hprune'
  subst hprune'
  rw [Prod.mk.injEq] at hok
  obtain ⟨rfl, rfl⟩ := hok
  have hdepth : pruned.view.maxDepth = view.maxDepth := htracked.lineage.maxDepth
  obtain ⟨hhead, hextent', hwindow', hemits⟩ := finishMutation_emits
    { pruned with view := { pruned.view with extent := extent } } h
    (htracked.recorded.setExtent extent)
    (by
      unfold HeadShaped
      rw [hdepth]
      exact hlow)
    (fun hsame => h.extent_eq_of_window_eq hhigh hlow hnew (hwindow.symm.trans hsame))
    hfinish
  exact ⟨extent, pruned, delta, rfl, hhigh, hlow, htracked, hnew, hfinish, hhead, hextent',
    hwindow'.trans hwindow, hwindow', hemits⟩

theorem applyHeadBlockCommitted_eq_ok (h : view.Head)
    (hok : view.applyHeadBlockCommitted committed revisionTimestampMs = .ok (view', outcome)) :
    ∃ extent delta, outcome = .ok delta ∧
      extent.highLevel = max view.highLevel committed.coordinate.level ∧
      view'.Head ∧ view'.extent = extent ∧
      view'.window = view.window.commitBlock extent committed ∧ Emits view view' delta := by
  obtain ⟨extent, progress, delta, houtcome, hprojected⟩ := applyHeadBlockCommitted_projected h hok
  exact ⟨extent, delta, houtcome, hprojected.high, hprojected.head, hprojected.extent_eq,
    hprojected.window, hprojected.emits⟩

structure VspcProjected (view view' : GraphView) (committed : VspcCommitted)
    (revisionTimestampMs : Nat) (progress : Progress) (delta : Option GraphDelta) : Prop where
  tracked : FieldsTracked view progress
  finished : finishMutation progress revisionTimestampMs = .ok (view', delta)
  head : view'.Head
  extent_eq : view'.extent = view.extent
  window : view'.window = view.window.commitVspc committed
  window_eq : view'.window = progress.view.window
  emits : Emits view view' delta

section Vspc

variable {committed : VspcCommitted} (h : view.Head)
variable (hok : view.applyHeadVspcCommitted committed revisionTimestampMs = .ok (view', outcome))
include h hok

theorem applyHeadVspcCommitted_projected :
    ∃ progress delta, outcome = .ok delta ∧
      VspcProjected view view' committed revisionTimestampMs progress delta := by
  unfold applyHeadVspcCommitted at hok
  rw [if_neg (by rw [h.policy]; decide)] at hok
  simp only [bind_eq_ok, ensure_eq_ok, pure_eq_ok] at hok
  obtain ⟨_, _, ⟨result, delta⟩, hfinish, hok⟩ := hok
  rw [Prod.mk.injEq] at hok
  obtain ⟨rfl, rfl⟩ := hok
  obtain ⟨htracked, hwindow⟩ := applyVspcProjection_tracked h.derived committed
  obtain ⟨hhead, hextent, hwindow', hemits⟩ := finishMutation_emits _ h htracked.recorded
    (by
      unfold HeadShaped
      rw [htracked.extent, htracked.lineage.maxDepth]
      exact h.shaped)
    (fun _ => htracked.extent) hfinish
  exact ⟨_, delta, rfl, htracked, hfinish, hhead, hextent.trans htracked.extent,
    hwindow'.trans hwindow, hwindow', hemits⟩

theorem applyHeadVspcCommitted_eq_ok :
    ∃ delta, outcome = .ok delta ∧ view'.Head ∧ view'.extent = view.extent ∧
      view'.window = view.window.commitVspc committed ∧ Emits view view' delta := by
  obtain ⟨progress, delta, houtcome, hprojected⟩ := applyHeadVspcCommitted_projected h hok
  exact ⟨delta, houtcome, hprojected.head, hprojected.extent_eq, hprojected.window, hprojected.emits⟩

end Vspc

theorem finishMutation_delta {delta : GraphDelta}
    (hok : finishMutation progress revisionTimestampMs = .ok (view', some delta)) :
    view'.currentRevisionTimestampMs = revisionTimestampMs ∧
      delta.blockChanges = (progress.mutation.finish progress.view).blocks ∧
      delta.levelChanges = (progress.mutation.finish progress.view).levels ∧
      delta.isInVspcChanges = (progress.mutation.finish progress.view).isInVspc ∧
      delta.colorChanges = (progress.mutation.finish progress.view).colors := by
  unfold finishMutation at hok
  dsimp only at hok
  split at hok
  . rw [pure_eq_ok, Prod.mk.injEq] at hok
    cases hok.2
  . split at hok
    . rw [bind_eq_ok] at hok
      obtain ⟨nextRevision, _, hok⟩ := hok
      split at hok
      . cases hok
      . next delta' hnew =>
        rw [pure_eq_ok, Prod.mk.injEq] at hok
        obtain ⟨rfl, hdelta⟩ := hok
        cases hdelta
        unfold GraphDelta.new at hnew
        split at hnew
        . cases hnew
        . split at hnew
          . cases hnew
          . cases hnew
            exact ⟨rfl, rfl, rfl, rfl, rfl⟩
    . rw [bind_eq_ok] at hok
      obtain ⟨nextRevision, habsurd, _⟩ := hok
      cases habsurd

theorem apply_timestamp {update : OriginalUpdate} {delta : GraphDelta}
    (hok : update.apply view revisionTimestampMs = .ok (view', .ok (some delta))) :
    view'.currentRevisionTimestampMs = revisionTimestampMs := by
  cases update with
  | block committed =>
    unfold OriginalUpdate.apply applyHeadBlockCommitted at hok
    dsimp only at hok
    split at hok
    . cases hok
    . simp only [bind_eq_ok, pure_eq_ok, Prod.mk.injEq] at hok
      obtain ⟨_, _, extent, _, middle, _, pruned, _, ⟨result, delta'⟩, hfinish, rfl, hdelta⟩ := hok
      cases hdelta
      exact (finishMutation_delta hfinish).1
  | vspc committed =>
    unfold OriginalUpdate.apply applyHeadVspcCommitted at hok
    dsimp only at hok
    split at hok
    . cases hok
    . simp only [bind_eq_ok, pure_eq_ok, Prod.mk.injEq] at hok
      obtain ⟨_, _, ⟨result, delta'⟩, hfinish, rfl, hdelta⟩ := hok
      cases hdelta
      exact (finishMutation_delta hfinish).1

end GraphView

end Kgi
