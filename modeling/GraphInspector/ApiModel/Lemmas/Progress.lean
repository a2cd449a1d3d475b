import GraphInspector.ApiModel.Lemmas.ApplyDelta
import GraphInspector.ApiModel.Window

/-!
A mutation records enough of the view from before the update for the visible delta.
-/

namespace Kgi

open Data

namespace GraphView

structure SameLineage (v w : GraphView) : Prop where
  maxDepth : v.maxDepth = w.maxDepth
  revision : v.currentRevisionId = w.currentRevisionId
  timestamp : v.currentRevisionTimestampMs = w.currentRevisionTimestampMs
  policy : v.trackingPolicy = w.trackingPolicy

theorem SameLineage.congr {v w v' : GraphView} (h : SameLineage v w)
    (hdepth : v'.maxDepth = v.maxDepth) (hrevision : v'.currentRevisionId = v.currentRevisionId)
    (htimestamp : v'.currentRevisionTimestampMs = v.currentRevisionTimestampMs)
    (hpolicy : v'.trackingPolicy = v.trackingPolicy) : SameLineage v' w :=
  ⟨hdepth.trans h.maxDepth, hrevision.trans h.revision, htimestamp.trans h.timestamp,
    hpolicy.trans h.policy⟩

theorem SameLineage.eq {v w : GraphView} (h : SameLineage v w) (hextent : v.extent = w.extent)
    (hwindow : v.window = w.window) (hv : v.Derived) (hw : w.Derived) : v = w := by
  unfold window at hwindow
  rw [Window.mk.injEq] at hwindow
  apply hv.ext hw h.maxDepth hextent h.revision h.timestamp h.policy
  . exact Std.ExtTreeMap.ext_getElem? (congrFun hwindow.1)
  . exact Std.ExtTreeMap.ext_getElem? (congrFun hwindow.2.1)
  . exact congrFun hwindow.2.2

namespace Progress

structure Tracked (base : GraphView) (progress : Progress) : Prop where
  lineage : SameLineage progress.view base
  derived : progress.view.Derived
  edges : Journal.Tracks id (fun id : EdgeId => base.edges[id]?)
    (fun id : EdgeId => progress.view.edges[id]?) progress.mutation.edges
  levels : Journal.Tracks id base.levelValue progress.view.levelValue progress.mutation.levels

structure BlocksTracked (base : GraphView) (progress : Progress) : Prop
    extends Tracked base progress where
  blocks : Journal.Tracks id (fun hash : BlockHash => base.blocks[hash]?)
    (fun hash : BlockHash => progress.view.blocks[hash]?) progress.mutation.blocks
  isInVspc : progress.mutation.isInVspc = ∅
  colors : progress.mutation.colors = ∅

def fieldOf {α : Type} (view : GraphView) (field : GraphBlock → α) (hash : BlockHash) : Option α :=
  (view.blocks[hash]?).map field

def unprojected (block : GraphBlock) : GraphBlock :=
  { block with isInVspc := false, color := .gray }

structure FieldsTracked (base : GraphView) (progress : Progress) : Prop
    extends Tracked base progress where
  blocks : progress.mutation.blocks = ∅
  isInVspc : Journal.Tracks some (fieldOf base GraphBlock.isInVspc)
    (fieldOf progress.view GraphBlock.isInVspc) progress.mutation.isInVspc
  colors : Journal.Tracks some (fieldOf base GraphBlock.color)
    (fieldOf progress.view GraphBlock.color) progress.mutation.colors
  unprojected : ∀ hash : BlockHash, (progress.view.blocks[hash]?).map unprojected
    = (base.blocks[hash]?).map unprojected
  extent : progress.view.extent = base.extent

structure Recorded (base : GraphView) (progress : Progress) (changes : GraphChanges) : Prop where
  lineage : SameLineage progress.view base
  derived : progress.view.Derived
  blocks : ∀ hash : BlockHash, progress.view.blocks[hash]?
    = (changes.blocks[hash]?.getD base.blocks[hash]?).map
        (projectFields changes.isInVspc changes.colors hash)
  blocks_isEmpty : (changes.blocks.isEmpty ∧ changes.isInVspc.isEmpty ∧ changes.colors.isEmpty) ↔
    ∀ hash : BlockHash, progress.view.blocks[hash]? = base.blocks[hash]?
  edges : ∀ id : EdgeId, progress.view.edges[id]? = changes.edges[id]?.getD base.edges[id]?
  edges_isEmpty : changes.edges.isEmpty ↔ ∀ id : EdgeId, progress.view.edges[id]? = base.edges[id]?
  levels_nodup : (changes.levels.map LevelChange.level).Nodup
  levels : ∀ change ∈ changes.levels, progress.view.levelValue change.level = change.after
  levels_other : ∀ level, level ∉ changes.levels.map LevelChange.level →
    progress.view.levelValue level = base.levelValue level
  levels_isEmpty : changes.levels.isEmpty ↔
    ∀ level, progress.view.levelValue level = base.levelValue level

variable {base : GraphView} {progress : Progress}

theorem Tracked.mem_levels (h : Tracked base progress) (change : LevelChange) :
    change ∈ (progress.mutation.finish progress.view).levels ↔
      (∃ before, progress.mutation.levels[change.level]? = some before) ∧
        base.levelValue change.level ≠ progress.view.levelValue change.level ∧
        change.before = base.levelValue change.level ∧
        change.after = progress.view.levelValue change.level := by
  unfold GraphMutation.finish
  rw [List.mem_filterMap]
  constructor
  . rintro ⟨⟨level, before⟩, hmem, hsome⟩
    rw [Map.mem_toList] at hmem
    have hbefore := h.levels.1 level before hmem
    dsimp only [id] at hbefore hsome
    split at hsome
    . next hne =>
      cases hsome
      subst hbefore
      exact ⟨⟨_, hmem⟩, hne, rfl, rfl⟩
    . cases hsome
  . rintro ⟨⟨before, hmem⟩, hne, hb, ha⟩
    have hbefore := h.levels.1 _ before hmem
    refine ⟨(change.level, before), (Map.mem_toList _ _ _).mpr hmem, ?_⟩
    subst hbefore
    refine (if_pos hne).trans ?_
    congr 1
    cases change
    dsimp only at hb ha ⊢
    rw [hb, ha]
    rfl

theorem Tracked.nodup_levels (progress : Progress) :
    ((progress.mutation.finish progress.view).levels.map LevelChange.level).Nodup := by
  unfold GraphMutation.finish
  apply Map.nodup_keys_filterMap
  intro entry change hchange
  dsimp only at hchange
  split at hchange
  . cases hchange
    rfl
  . cases hchange

variable {level : Nat} {view : GraphView} {hash : BlockHash} {before after : GraphBlock}

section Tracked

variable (h : Tracked base progress)
include h

theorem Tracked.changed_of_ne (hne : base.levelValue level ≠ progress.view.levelValue level) :
    (⟨level, base.levelValue level, progress.view.levelValue level⟩ : LevelChange) ∈
      (progress.mutation.finish progress.view).levels := by
  rw [h.mem_levels]
  refine ⟨?_, hne, rfl, rfl⟩
  rw [← Option.isSome_iff_exists, Option.isSome_iff_ne_none]
  intro hnone
  exact hne (h.levels.2 level hnone).symm

theorem Tracked.levels_other
    (hlevel : level ∉ (progress.mutation.finish progress.view).levels.map LevelChange.level) :
    progress.view.levelValue level = base.levelValue level := by
  by_contra hne
  apply hlevel
  exact List.mem_map_of_mem (f := LevelChange.level) (h.changed_of_ne (Ne.symm hne))

theorem Tracked.levels_isEmpty :
    (progress.mutation.finish progress.view).levels.isEmpty ↔
      ∀ level, progress.view.levelValue level = base.levelValue level := by
  rw [List.isEmpty_iff]
  constructor
  . intro hempty level
    apply h.levels_other
    rw [hempty]
    exact List.not_mem_nil
  . intro hsame
    rw [List.eq_nil_iff_forall_not_mem]
    intro change hchange
    rw [h.mem_levels] at hchange
    exact hchange.2.1 (hsame change.level).symm

theorem Tracked.recorded {changes : GraphChanges}
    (hchanges : progress.mutation.finish progress.view = changes)
    (hblocks : ∀ hash : BlockHash, progress.view.blocks[hash]?
      = (changes.blocks[hash]?.getD base.blocks[hash]?).map
          (projectFields changes.isInVspc changes.colors hash))
    (hempty : (changes.blocks.isEmpty ∧ changes.isInVspc.isEmpty ∧ changes.colors.isEmpty) ↔
      ∀ hash : BlockHash, progress.view.blocks[hash]? = base.blocks[hash]?) :
    Recorded base progress changes := by
  subst hchanges
  constructor
  case lineage => exact h.lineage
  case derived => exact h.derived
  case blocks => exact hblocks
  case blocks_isEmpty => exact hempty
  case edges =>
    intro id
    exact (h.edges.getD_changes id).symm
  case edges_isEmpty => exact h.edges.changes_isEmpty
  case levels_nodup => exact Tracked.nodup_levels progress
  case levels =>
    intro change hchange
    rw [h.mem_levels] at hchange
    exact hchange.2.2.2.symm
  case levels_other =>
    intro level hlevel
    exact h.levels_other hlevel
  case levels_isEmpty => exact h.levels_isEmpty

end Tracked

theorem get_fieldChanges {α : Type} [DecidableEq α] (captured : Journal BlockHash α)
    (blocks : Map BlockHash GraphBlock) (field : GraphBlock → α) (hash : BlockHash) :
    (GraphMutation.fieldChanges captured blocks field)[hash]?
      =
    captured[hash]?.bind fun before => (blocks[hash]?).bind fun block =>
      if before ≠ field block then some ⟨before, field block⟩ else none := by
  unfold GraphMutation.fieldChanges
  rw [Map.get_mapEntries]

theorem fieldChanges_empty {α : Type} [DecidableEq α] (blocks : Map BlockHash GraphBlock)
    (field : GraphBlock → α) : GraphMutation.fieldChanges ∅ blocks field = ∅ := by
  apply Std.ExtTreeMap.ext_getElem?
  intro hash
  rw [get_fieldChanges]
  simp

theorem projectFields_empty (hash : BlockHash) (block : GraphBlock) :
    projectFields ∅ ∅ hash block = block := by
  unfold projectFields
  simp

theorem BlocksTracked.recorded (h : BlocksTracked base progress) :
    Recorded base progress (progress.mutation.finish progress.view) := by
  have hisInVspc : (progress.mutation.finish progress.view).isInVspc = ∅ := by
    unfold GraphMutation.finish
    rw [h.isInVspc, fieldChanges_empty]
  have hcolors : (progress.mutation.finish progress.view).colors = ∅ := by
    unfold GraphMutation.finish
    rw [h.colors, fieldChanges_empty]
  apply h.toTracked.recorded rfl
  . intro hash
    rw [hisInVspc, hcolors]
    have hid : projectFields ∅ ∅ hash = id := funext (projectFields_empty hash)
    rw [hid, Option.map_id, id]
    exact (h.blocks.getD_changes hash).symm
  . rw [hisInVspc, hcolors]
    have hempty := h.blocks.changes_isEmpty
    simp only [Std.ExtTreeMap.isEmpty_empty, and_self, and_true]
    exact hempty

theorem get_fieldChanges_of_tracks {α : Type} [DecidableEq α] {captured : Journal BlockHash α}
    {field : GraphBlock → α}
    (h : Journal.Tracks some (fieldOf base field) (fieldOf view field) captured)
    (hbefore : base.blocks[hash]? = some before) (hafter : view.blocks[hash]? = some after) :
    (GraphMutation.fieldChanges captured view.blocks field)[hash]?
      =
    if field before ≠ field after then some ⟨field before, field after⟩ else none := by
  rw [get_fieldChanges, hafter]
  cases hcaptured : captured[hash]? with
  | none =>
    have heq := h.2 hash hcaptured
    unfold fieldOf at heq
    rw [hbefore, hafter, Option.map_some, Option.map_some, Option.some.injEq] at heq
    rw [if_neg (not_not.mpr heq.symm)]
    rfl
  | some value =>
    have heq := h.1 hash value hcaptured
    unfold fieldOf at heq
    rw [hbefore, Option.map_some, Option.some.injEq] at heq
    rw [heq]
    rfl

theorem get_fieldChanges_of_absent {α : Type} [DecidableEq α] (captured : Journal BlockHash α)
    (field : GraphBlock → α) (hafter : view.blocks[hash]? = none) :
    (GraphMutation.fieldChanges captured view.blocks field)[hash]? = none := by
  rw [get_fieldChanges, hafter]
  cases captured[hash]? with
  | none => rfl
  | some before => rfl

theorem projectedField {α : Type} [DecidableEq α] (before after : α) :
    (if before ≠ after then some (⟨before, after⟩ : FieldChange α) else none).elim before
      FieldChange.after = after := by
  split
  . rfl
  . next h =>
    rw [not_not] at h
    exact h

theorem FieldsTracked.cases (h : FieldsTracked base progress) (hash : BlockHash) :
    (progress.view.blocks[hash]? = none ∧ base.blocks[hash]? = none) ∨
      ∃ before after : GraphBlock, base.blocks[hash]? = some before ∧
        progress.view.blocks[hash]? = some after ∧
        Progress.unprojected after = Progress.unprojected before := by
  have hsame := h.unprojected hash
  cases hafter : progress.view.blocks[hash]? with
  | none =>
    rw [hafter, Option.map_none, eq_comm, Option.map_eq_none_iff] at hsame
    exact Or.inl ⟨rfl, hsame⟩
  | some after =>
    rw [hafter, Option.map_some, eq_comm, Option.map_eq_some_iff] at hsame
    obtain ⟨before, hbefore, heq⟩ := hsame
    exact Or.inr ⟨before, after, hbefore, rfl, heq.symm⟩

theorem eq_of_unprojected (h : Progress.unprojected after = Progress.unprojected before)
    (hisInVspc : after.isInVspc = before.isInVspc) (hcolor : after.color = before.color) :
    after = before := by
  unfold Progress.unprojected at h
  cases before
  cases after
  simp only [GraphBlock.mk.injEq] at h hisInVspc hcolor ⊢
  grind

variable (h : FieldsTracked base progress)
include h

theorem FieldsTracked.blocks_eq (hash : BlockHash) :
    progress.view.blocks[hash]? = (base.blocks[hash]?).map (projectFields
      (progress.mutation.finish progress.view).isInVspc
      (progress.mutation.finish progress.view).colors hash) := by
  obtain ⟨hafter, hbefore⟩ | ⟨before, after, hbefore, hafter, hsame⟩ := h.cases hash
  . rw [hafter, hbefore]
    rfl
  . rw [hafter, hbefore, Option.map_some, Option.some.injEq]
    apply eq_of_unprojected
    . exact hsame
    . unfold projectFields GraphMutation.finish
      rw [get_fieldChanges_of_tracks h.isInVspc hbefore hafter, projectedField]
    . unfold projectFields GraphMutation.finish
      rw [get_fieldChanges_of_tracks h.colors hbefore hafter, projectedField]

theorem FieldsTracked.fieldChanges_isEmpty {α : Type} [DecidableEq α] {field : GraphBlock → α}
    {captured : Journal BlockHash α}
    (htracks : Journal.Tracks some (fieldOf base field) (fieldOf progress.view field) captured)
    (hsame : ∀ hash : BlockHash, progress.view.blocks[hash]? = base.blocks[hash]?) :
    (GraphMutation.fieldChanges captured progress.view.blocks field).isEmpty := by
  rw [Map.isEmpty_iff_forall]
  intro hash
  obtain ⟨hafter, _⟩ | ⟨before, after, hbefore, hafter, _⟩ := h.cases hash
  . exact get_fieldChanges_of_absent captured field hafter
  . rw [get_fieldChanges_of_tracks htracks hbefore hafter, if_neg]
    rw [not_not]
    have heq := hsame hash
    rw [hbefore, hafter, Option.some.injEq] at heq
    rw [heq]

theorem FieldsTracked.blockChanges_eq : (progress.mutation.finish progress.view).blocks = ∅ := by
  unfold GraphMutation.finish Journal.changes
  apply Std.ExtTreeMap.ext_getElem?
  intro hash
  rw [h.blocks, Map.get_mapEntries]
  simp

theorem FieldsTracked.recorded :
    Recorded base progress (progress.mutation.finish progress.view) := by
  have hblocks := h.blockChanges_eq
  apply h.toTracked.recorded rfl
  . intro hash
    rw [hblocks, Std.ExtTreeMap.getElem?_empty, Option.getD_none]
    exact h.blocks_eq hash
  . rw [hblocks]
    constructor
    . rintro ⟨_, hisInVspc, hcolors⟩ hash
      rw [h.blocks_eq hash]
      rw [Map.isEmpty_iff_forall] at hisInVspc hcolors
      unfold projectFields
      rw [hisInVspc, hcolors]
      simp
    . intro hsame
      exact ⟨rfl, h.fieldChanges_isEmpty h.isInVspc hsame, h.fieldChanges_isEmpty h.colors hsame⟩

end Progress

def HeadShaped (view : GraphView) : Prop :=
  view.extent.lowLevel = max (view.extent.highLevel - (view.maxDepth - 1)) 1

theorem headExtent_eq_ok_iff (maxDepth headLevel : Nat) (message : String) (extent : LevelExtent) :
    headExtent maxDepth headLevel message = .ok extent ↔
      extent.highLevel = headLevel ∧ extent.lowLevel = max (headLevel - (maxDepth - 1)) 1 := by
  obtain ⟨low, high, hpos, hle⟩ := extent
  unfold headExtent LevelExtent.new
  dsimp only
  constructor
  . intro h
    split at h
    . next extent' hnew =>
      split at hnew
      . cases hnew
      . cases hnew
        cases h
        exact ⟨rfl, rfl⟩
    . cases h
  . rintro ⟨rfl, rfl⟩
    rw [dif_neg (by omega)]

section Finish

open Progress

variable {base view : GraphView} {progress : Progress} {delta : Option GraphDelta}

theorem Progress.Recorded.isEmpty_iff {changes : GraphChanges} (h : Recorded base progress changes) :
    changes.isEmpty ↔ progress.view.window = base.window := by
  unfold GraphChanges.isEmpty window
  simp only [Bool.and_eq_true, Window.mk.injEq]
  constructor
  . rintro ⟨⟨⟨⟨hblocks, hedges⟩, hlevels⟩, hisInVspc⟩, hcolors⟩
    exact ⟨funext (h.blocks_isEmpty.mp ⟨hblocks, hisInVspc, hcolors⟩),
      funext (h.edges_isEmpty.mp hedges), funext (h.levels_isEmpty.mp hlevels)⟩
  . rintro ⟨hsame, hedges, hlevels⟩
    obtain ⟨hblocks, hisInVspc, hcolors⟩ := h.blocks_isEmpty.mpr (congrFun hsame)
    exact ⟨⟨⟨⟨hblocks, h.edges_isEmpty.mpr (congrFun hedges)⟩,
      h.levels_isEmpty.mpr (congrFun hlevels)⟩, hisInVspc⟩, hcolors⟩

theorem finishMutation_eq_ok {revisionTimestampMs : Nat}
    (h : Recorded base progress (progress.mutation.finish progress.view))
    (hpolicy : base.trackingPolicy = .head) (hshape : progress.view.HeadShaped)
    (hok : finishMutation progress revisionTimestampMs = .ok (view, delta)) :
    (delta = none ∧ view = progress.view ∧ progress.view.window = base.window) ∨
    (progress.view.window ≠ base.window ∧
      view = { progress.view with
        currentRevisionId := progress.view.currentRevisionId + 1
        currentRevisionTimestampMs := revisionTimestampMs } ∧
      ∃ delta', delta = some delta' ∧ Connects delta' base view) := by
  unfold finishMutation at hok
  dsimp only at hok
  split at hok
  . next hempty =>
    cases hok
    exact Or.inl ⟨rfl, rfl, h.isEmpty_iff.mp hempty⟩
  . next hempty =>
    rw [h.isEmpty_iff] at hempty
    refine Or.inr ⟨hempty, ?_⟩
    split at hok
    . next hlt =>
      dsimp only [pure, Except.pure, bind, Except.bind] at hok
      split at hok
      . cases hok
      . next delta' hnew =>
        unfold GraphDelta.new at hnew
        split at hnew
        . cases hnew
        . split at hnew
          . cases hnew
          . cases hnew
            cases hok
            refine ⟨rfl, _, rfl, ?_⟩
            constructor
            case maxDepth => exact h.lineage.maxDepth
            case policy => exact ⟨hpolicy, h.lineage.policy.trans hpolicy⟩
            case extent =>
              rw [headExtent_eq_ok_iff, ← h.lineage.maxDepth]
              exact ⟨rfl, hshape⟩
            case revision => exact ⟨h.lineage.revision.symm, rfl⟩
            case timestamp => rfl
            case blocks => exact h.blocks
            case toRewires => exact ⟨h.edges, h.levels_nodup, h.levels, h.levels_other⟩
    . cases hok

end Finish

end GraphView

end Kgi
