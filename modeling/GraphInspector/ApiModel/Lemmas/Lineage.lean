import GraphInspector.ApiModel.Lemmas.Compose

/-!
The deltas that one Head lineage emits, composed in any grouping.
-/

namespace Kgi

open Data

def OriginalUpdate.OnLevel (level : BlockHash → Nat) : OriginalUpdate → Prop
  | .block committed => committed.coordinate.level = level committed.hash
  | .vspc _ => True

namespace GraphView

def OnLevels (level : BlockHash → Nat) (view : GraphView) : Prop :=
  ∀ (hash : BlockHash) (block : GraphBlock), view.blocks[hash]? = some block →
    block.coordinate.level = level hash

section Step

open Progress

variable {level : BlockHash → Nat} {view view' : GraphView} {revisionTimestampMs : Nat}
  {delta : Option GraphDelta} {progress : Progress}
variable {base : GraphView} {window : Window} {committed : BlockCommitted}

theorem Progress.Tracked.levelsChanged (h : Tracked base progress) :
    LevelsChanged (progress.mutation.finish progress.view).levels base.levelValue
      progress.view.levelValue where
  nodup := Tracked.nodup_levels progress
  changed := by
    intro change hchange
    rw [h.mem_levels] at hchange
    exact hchange.2.2
  kept := fun _ hlevel => h.levels_other hlevel

theorem Progress.FieldsTracked.startsAt (h : FieldsTracked base progress) {α : Type}
    [DecidableEq α] {field : GraphBlock → α} {captured : Journal BlockHash α}
    (htracks : Journal.Tracks some (fieldOf base field) (fieldOf progress.view field) captured)
    {delta : GraphDelta} (hdelta : delta.blockChanges = ∅) :
    StartsAt field delta base (GraphMutation.fieldChanges captured progress.view.blocks field) := by
  intro hash change hchange
  obtain ⟨hafter, _⟩ | ⟨before, after, hbefore, hafter, _⟩ := h.cases hash
  . rw [get_fieldChanges_of_absent captured field hafter] at hchange
    cases hchange
  . rw [get_fieldChanges_of_tracks htracks hbefore hafter] at hchange
    split at hchange
    . cases hchange
      refine Or.inr ⟨before, ?_, rfl⟩
      unfold origin
      rw [hdelta, Std.ExtTreeMap.getElem?_empty]
      exact hbefore
    . cases hchange

theorem Emits.connects {delta : GraphDelta} (h : Emits view view' (some delta)) :
    Connects delta view view' := by
  cases h with
  | changed _ _ _ hconnects => exact hconnects

theorem blocks_eq_of_window_eq (h : view.window = window) (hash : BlockHash) :
    view.blocks[hash]? = window.blocks hash := by
  rw [← h]
  rfl

theorem levelValue_eq_of_window_eq (h : view.window = window) :
    view.levelValue = window.levels := by
  rw [← h]
  rfl

theorem commitBlock_cases (window : Window) (extent : LevelExtent) (committed : BlockCommitted)
    (hash : BlockHash) :
    ((window.commitBlock extent committed).blocks hash = some (graphBlockFromCommitted committed) ∧
      hash = committed.hash ∧ extent.containsLevel committed.coordinate.level = true) ∨
    ((window.commitBlock extent committed).blocks hash = window.blocks hash) ∨
    ((window.commitBlock extent committed).blocks hash = none ∧
      ∃ block, window.blocks hash = some block ∧ block.coordinate.level < extent.lowLevel) := by
  rw [Window.commitBlock_blocks]
  by_cases hinserted : extent.containsLevel committed.coordinate.level ∧ hash = committed.hash
  . have hlow : extent.lowLevel ≤ (graphBlockFromCommitted committed).coordinate.level := by
      have hcontains := hinserted.1
      unfold LevelExtent.containsLevel at hcontains
      rw [Bool.and_eq_true, decide_eq_true_eq] at hcontains
      exact hcontains.1
    rw [if_pos hinserted, Option.filter_some, if_pos (decide_eq_true hlow)]
    exact Or.inl ⟨rfl, hinserted.2, hinserted.1⟩
  . rw [if_neg hinserted]
    cases window.blocks hash with
    | none => exact Or.inr (Or.inl rfl)
    | some block =>
      rw [Option.filter_some]
      split
      . exact Or.inr (Or.inl rfl)
      . next hlow =>
        rw [decide_eq_true_eq, Nat.not_le] at hlow
        exact Or.inr (Or.inr ⟨rfl, block, rfl, hlow⟩)

theorem BlockProjected.get_blockChanges {extent : LevelExtent} {delta : GraphDelta}
    (h : BlockProjected view view' committed revisionTimestampMs extent progress (some delta))
    (hash : BlockHash) :
    delta.blockChanges[hash]?
      = if view.blocks[hash]? ≠ view'.blocks[hash]? then some view'.blocks[hash]? else none := by
  rw [(finishMutation_delta h.finished).2.1, blocks_eq_of_window_eq h.window_eq]
  exact h.tracked.blocks.get_changes hash

variable (h : view.Head) (hview : view.OnLevels level)
include h hview

theorem applyHeadBlockCommitted_spans
    (hcommitted : committed.coordinate.level = level committed.hash)
    (hok : view.applyHeadBlockCommitted committed revisionTimestampMs = .ok (view', .ok delta)) :
    view'.OnLevels level ∧ ∀ delta', delta = some delta' → Spans level delta' view view' := by
  obtain ⟨extent, progress, delta, houtcome, hprojected⟩ := applyHeadBlockCommitted_projected h hok
  cases houtcome
  have hblocks := blocks_eq_of_window_eq hprojected.window
  have hlow : view.lowLevel ≤ extent.lowLevel := by
    have hshaped := h.shaped
    have hhigh := hprojected.high
    have hlow := hprojected.low
    unfold HeadShaped at hshaped
    unfold highLevel at hhigh
    unfold lowLevel
    omega
  constructor
  . intro hash block hblock
    rw [hblocks] at hblock
    obtain ⟨hinserted, rfl, _⟩ | hkept | ⟨hremoved, _⟩ :=
      commitBlock_cases view.window extent committed hash
    . rw [hinserted] at hblock
      cases hblock
      exact hcommitted
    . rw [hkept] at hblock
      exact hview hash block hblock
    . rw [hremoved] at hblock
      cases hblock
  . rintro delta' rfl
    obtain ⟨_, _, hlevels, hmemberships, hcolors⟩ := finishMutation_delta hprojected.finished
    have hget := hprojected.get_blockChanges
    constructor
    case toConnects => exact hprojected.emits.connects
    case low_le =>
      unfold lowLevel at hlow ⊢
      rw [hprojected.extent_eq]
      exact hlow
    case inserted =>
      intro hash block hchange
      rw [hget] at hchange
      split at hchange
      . next hne =>
        rw [hblocks] at hne
        obtain ⟨_, rfl, hcontains⟩ | hkept | ⟨hremoved, _⟩ :=
          commitBlock_cases view.window extent committed hash
        . refine ⟨hprojected.new hcontains, ?_⟩
          unfold LevelExtent.containsLevel at hcontains
          rw [Bool.and_eq_true, decide_eq_true_eq] at hcontains
          rw [← hcommitted]
          exact hlow.trans hcontains.1
        . exact absurd hkept.symm hne
        . rw [hblocks, hremoved] at hchange
          cases hchange
      . cases hchange
    case removed =>
      intro hash hchange
      rw [hget] at hchange
      split at hchange
      . next hne =>
        rw [hblocks] at hne
        obtain ⟨hinserted, _⟩ | hkept | ⟨_, block, hblock, hbelow⟩ :=
          commitBlock_cases view.window extent committed hash
        . rw [hblocks, hinserted] at hchange
          cases hchange
        . exact absurd hkept.symm hne
        . unfold lowLevel
          rw [hprojected.extent_eq, ← hview hash block hblock]
          exact hbelow
      . cases hchange
    case memberships =>
      intro hash change hchange
      unfold GraphMutation.finish at hmemberships
      rw [hmemberships, hprojected.tracked.isInVspc, fieldChanges_empty,
        Std.ExtTreeMap.getElem?_empty] at hchange
      cases hchange
    case colors =>
      intro hash change hchange
      unfold GraphMutation.finish at hcolors
      rw [hcolors, hprojected.tracked.colors, fieldChanges_empty,
        Std.ExtTreeMap.getElem?_empty] at hchange
      cases hchange
    case levelsChanged =>
      rw [hlevels, levelValue_eq_of_window_eq hprojected.window_eq]
      exact hprojected.tracked.levelsChanged

theorem applyHeadVspcCommitted_spans {committed : VspcCommitted}
    (hok : view.applyHeadVspcCommitted committed revisionTimestampMs = .ok (view', .ok delta)) :
    view'.OnLevels level ∧ ∀ delta', delta = some delta' → Spans level delta' view view' := by
  obtain ⟨progress, delta, houtcome, hprojected⟩ := applyHeadVspcCommitted_projected h hok
  cases houtcome
  constructor
  . intro hash block hblock
    rw [blocks_eq_of_window_eq hprojected.window_eq] at hblock
    obtain ⟨hafter, _⟩ | ⟨before, after, hbefore, hafter, hsame⟩ := hprojected.tracked.cases hash
    . exact absurd (hafter.symm.trans hblock) nofun
    . have heq : after = block := Option.some.inj (hafter.symm.trans hblock)
      subst heq
      have hcoordinate := congrArg GraphBlock.coordinate hsame
      unfold Progress.unprojected at hcoordinate
      rw [hcoordinate]
      exact hview hash before hbefore
  . rintro delta' rfl
    obtain ⟨_, hblocks, hlevels, hmemberships, hcolors⟩ := finishMutation_delta hprojected.finished
    have hempty : delta'.blockChanges = ∅ := hblocks.trans hprojected.tracked.blockChanges_eq
    have hnone : ∀ (hash : BlockHash) (change : Option GraphBlock),
        delta'.blockChanges[hash]? ≠ some change := by
      intro hash change hchange
      rw [hempty, Std.ExtTreeMap.getElem?_empty] at hchange
      cases hchange
    constructor
    case toConnects => exact hprojected.emits.connects
    case low_le =>
      unfold lowLevel
      rw [hprojected.extent_eq]
    case inserted =>
      intro hash block hchange
      exact absurd hchange (hnone hash _)
    case removed =>
      intro hash hchange
      exact absurd hchange (hnone hash _)
    case memberships =>
      rw [hmemberships]
      exact hprojected.tracked.startsAt hprojected.tracked.isInVspc hempty
    case colors =>
      rw [hcolors]
      exact hprojected.tracked.startsAt hprojected.tracked.colors hempty
    case levelsChanged =>
      rw [hlevels, levelValue_eq_of_window_eq hprojected.window_eq]
      exact hprojected.tracked.levelsChanged

theorem apply_spans {update : OriginalUpdate} (hupdate : update.OnLevel level)
    (hok : update.apply view revisionTimestampMs = .ok (view', .ok delta)) :
    view'.OnLevels level ∧ ∀ delta', delta = some delta' → Spans level delta' view view' := by
  cases update with
  | block committed => exact applyHeadBlockCommitted_spans h hview hupdate hok
  | vspc committed => exact applyHeadVspcCommitted_spans h hview hok

end Step

inductive SpansAll (level : BlockHash → Nat) : GraphView → List GraphDelta → GraphView → Prop where
  | nil (view : GraphView) : SpansAll level view [] view
  | cons {view next view' : GraphView} {delta : GraphDelta} {deltas : List GraphDelta}
      (hdelta : Spans level delta view next) (hnext : next.Head)
      (hrest : SpansAll level next deltas view') : SpansAll level view (delta :: deltas) view'

def applyDeltas (view : GraphView) (deltas : List GraphDelta) : Option GraphView :=
  deltas.foldlM (fun view delta =>
    match view.applyDelta delta with
    | .ok (view, .ok ()) => some view
    | .ok (_, .error _) => none
    | .error _ => none) view

def emitted (view : GraphView) : List (OriginalUpdate × Nat) → List GraphDelta
  | [] => []
  | event :: events =>
    match event.1.apply view event.2 with
    | .ok (view', .ok delta) => delta.toList ++ emitted view' events
    | .ok (_, .error _) => []
    | .error _ => []

section Run

variable {level : BlockHash → Nat} {view view' : GraphView} {deltas : List GraphDelta}
  {events : List (OriginalUpdate × Nat)}

theorem SpansAll.split {first second : List GraphDelta}
    (h : SpansAll level view (first ++ second) view') :
    ∃ middle, SpansAll level view first middle ∧ SpansAll level middle second view' := by
  induction first generalizing view with
  | nil => exact ⟨view, .nil view, h⟩
  | cons delta first ih =>
    cases h with
    | cons hdelta hnext hrest =>
      obtain ⟨middle, hfirst, hsecond⟩ := ih hrest
      exact ⟨middle, .cons hdelta hnext hfirst, hsecond⟩

theorem SpansAll.applies (h : SpansAll level view deltas view') (hview : view.Head) :
    view.applyDeltas deltas = some view' := by
  unfold applyDeltas
  induction h with
  | nil view => rfl
  | cons hdelta hnext _ ih =>
    rw [List.foldlM_cons, applyDelta_eq_ok hview.derived hnext.derived hdelta.toConnects]
    exact ih hnext

theorem SpansAll.compose {grouping : DeltaGrouping}
    (h : SpansAll level view grouping.deltas view') :
    ∃ delta, grouping.compose = .ok (.ok delta) ∧ Spans level delta view view' := by
  induction grouping generalizing view view' with
  | single delta =>
    cases h with
    | cons hdelta _ hrest =>
      cases hrest with
      | nil => exact ⟨delta, rfl, hdelta⟩
  | pair left right ihleft ihright =>
    obtain ⟨middle, hleft, hright⟩ := h.split
    obtain ⟨first, hfirst, hspans⟩ := ihleft hleft
    obtain ⟨second, hsecond, hspans'⟩ := ihright hright
    obtain ⟨composed, hcomposed, hspans''⟩ := hspans.compose hspans'
    refine ⟨composed, ?_, hspans''⟩
    unfold DeltaGrouping.compose
    rw [hfirst, hsecond]
    exact hcomposed

section Spans

variable (h : view.Head) (hview : view.OnLevels level)
variable (hevents : ∀ event ∈ events, event.1.OnLevel level)
variable (hrun : run advance view events = some view')
include h hview hevents hrun

theorem run_spans :
    view'.Head ∧ view'.OnLevels level ∧ SpansAll level view (emitted view events) view' := by
  induction events generalizing view with
  | nil =>
    cases hrun
    exact ⟨h, hview, .nil _⟩
  | cons event events ih =>
    rw [run.cons_eq_some] at hrun
    obtain ⟨next, hstep, hrun⟩ := hrun
    unfold advance at hstep
    split at hstep
    . next next' delta hok =>
      cases hstep
      obtain ⟨_, houtcome, hhead, hemits⟩ := apply_eq_ok h hok
      cases houtcome
      obtain ⟨hnext, hspans⟩ := apply_spans h hview (hevents event List.mem_cons_self) hok
      obtain ⟨hhead', hlevels, hall⟩ := ih hhead hnext
        (fun event' hevent' => hevents event' (List.mem_cons_of_mem event hevent')) hrun
      refine ⟨hhead', hlevels, ?_⟩
      unfold emitted
      rw [hok]
      cases hemits with
      | unchanged hsame =>
        subst hsame
        exact hall
      | changed delta _ _ _ => exact .cons (hspans delta rfl) hhead hall
    . cases hstep
    . cases hstep

theorem compose_replays {grouping : DeltaGrouping}
    (hgrouping : grouping.deltas = emitted view events) :
    view.applyDeltas (emitted view events) = some view' ∧
      ∃ delta, grouping.compose = .ok (.ok delta) ∧ view.applyDelta delta = .ok (view', .ok ()) := by
  obtain ⟨hhead, _, hall⟩ := run_spans h hview hevents hrun
  refine ⟨hall.applies h, ?_⟩
  rw [← hgrouping] at hall
  obtain ⟨delta, hcompose, hspans⟩ := hall.compose
  exact ⟨delta, hcompose, applyDelta_eq_ok h.derived hhead.derived hspans.toConnects⟩

end Spans

theorem Spans.lowLevel_eq {delta : GraphDelta} (h : Spans level delta view view') :
    view'.lowLevel = max (delta.headLevel - (view.maxDepth - 1)) 1 :=
  ((headExtent_eq_ok_iff _ _ _ _).mp h.extent).2

theorem SpansAll.changes {delta : GraphDelta} (h : SpansAll level view deltas view')
    (hdelta : delta ∈ deltas) :
    (∀ hash : BlockHash, delta.blockChanges[hash]? = some none →
      level hash < max (delta.headLevel - (view.maxDepth - 1)) 1) ∧
    ∀ hash block, delta.blockChanges[hash]? = some (some block) → view.lowLevel ≤ level hash := by
  induction h with
  | nil => exact absurd hdelta List.not_mem_nil
  | cons hfirst _ _ ih =>
    obtain rfl | hdelta := List.mem_cons.mp hdelta
    . refine ⟨fun hash hremoved => ?_, fun hash block hinserted =>
        (hfirst.inserted hash block hinserted).2⟩
      rw [← hfirst.lowLevel_eq]
      exact hfirst.removed hash hremoved
    . obtain ⟨hremoved, hinserted⟩ := ih hdelta
      rw [hfirst.maxDepth] at hremoved
      exact ⟨hremoved, fun hash block hblock => hfirst.low_le.trans (hinserted hash block hblock)⟩

/--
The wire format leaves out what a delta removes. Every removed block lies below the window that ends at
the Head level of the delta, and nothing is inserted below the window that the run starts from.
-/
theorem removals_below_window {delta : GraphDelta} (h : view.Head) (hview : view.OnLevels level)
    (hevents : ∀ event ∈ events, event.1.OnLevel level) (hrun : run advance view events = some view')
    (hdelta : delta ∈ emitted view events) :
    (∀ hash : BlockHash, delta.blockChanges[hash]? = some none →
      level hash < max (delta.headLevel - (view.maxDepth - 1)) 1) ∧
    ∀ hash block, delta.blockChanges[hash]? = some (some block) → view.lowLevel ≤ level hash := by
  obtain ⟨_, _, hall⟩ := run_spans h hview hevents hrun
  exact hall.changes hdelta

theorem smallProjection_onLevels {seed : GraphView} (hseed : smallProjection = .ok seed) :
    seed.OnLevels fun hash => (hash : Nat) := by
  intro hash block hblock
  obtain ⟨_, _, _, _, _, _, _, hwindow⟩ := fromDatabaseProjection_eq_ok smallEdges_keyed hseed
  rw [blocks_eq_of_window_eq hwindow] at hblock
  simp only [Map.get_insert] at hblock
  split_ifs at hblock with hsecond hfirst
  . cases hblock
    rw [← hsecond]
    rfl
  . cases hblock
    rw [← hfirst]
    rfl
  . simp at hblock

/--
The third level pushes the first block out of a window of two levels.
-/
theorem removals_below_window_small :
    ∃ (seed view : GraphView) (delta : GraphDelta), smallProjection = .ok seed ∧
      run advance seed [(smallBlock, 10)] = some view ∧ delta ∈ emitted seed [(smallBlock, 10)] ∧
      ∀ hash : BlockHash, delta.blockChanges[hash]? = some none →
        (hash : Nat) < max (delta.headLevel - (seed.maxDepth - 1)) 1 := by
  have hobserved : (smallProjection.toOption.bind fun seed =>
      (run advance seed [(smallBlock, 10)]).bind fun view =>
        (emitted seed [(smallBlock, 10)]).head?.map fun delta => (view, delta)).isSome := by
    decide +kernel
  simp only [Option.isSome_iff_exists, Option.bind_eq_some_iff, Option.map_eq_some_iff,
    toOption_eq_some] at hobserved
  obtain ⟨_, seed, hseed, view, hrun, delta, hdelta, _⟩ := hobserved
  have hmem := List.mem_of_head? hdelta
  have hevents : ∀ event ∈ [(smallBlock, 10)], event.1.OnLevel fun hash => (hash : Nat) :=
    List.forall_mem_singleton.mpr rfl
  obtain ⟨hremoved, _⟩ := removals_below_window
    (fromDatabaseProjection_head smallEdges_keyed (by decide) hseed) (smallProjection_onLevels hseed)
    hevents hrun hmem
  exact ⟨seed, view, delta, hseed, hrun, hmem, hremoved⟩

end Run

end GraphView

end Kgi
