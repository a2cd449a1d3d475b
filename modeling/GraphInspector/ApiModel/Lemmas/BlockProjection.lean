import GraphInspector.ApiModel.Lemmas.Progress

/-!
The projection of a committed block into a Head view.
-/

namespace Kgi

open Data

namespace GraphView

open Progress

variable {base : GraphView} {progress progress' : Progress}

theorem Progress.BlocksTracked.default {base : GraphView} (h : base.Derived) :
    BlocksTracked base ⟨base, .default⟩ := by
  constructor
  case toTracked =>
    refine ⟨⟨rfl, rfl, rfl, rfl⟩, h, ?_, ?_⟩
    . apply Journal.Tracks.empty
    . apply Journal.Tracks.empty
  case blocks => apply Journal.Tracks.empty
  case isInVspc => rfl
  case colors => rfl

section Project

variable {levels : Map Nat StoredLevel}

theorem projectBlock_eq_ok {committed : BlockCommitted} {extent : LevelExtent}
    (h : BlocksTracked base progress) (hok : projectBlock progress committed extent = .ok progress') :
    BlocksTracked base progress' ∧
      progress'.view.window
        = (if extent.containsLevel committed.coordinate.level then
            progress.view.window.insertBlock (graphBlockFromCommitted committed)
          else progress.view.window) ∧
      (extent.containsLevel committed.coordinate.level = true →
        progress.view.blocks[committed.hash]? = none) := by
  unfold projectBlock at hok
  dsimp only at hok
  split at hok
  . next hcontains =>
    rw [bind_eq_ok] at hok
    obtain ⟨view, hinsert, hok⟩ := hok
    rw [pure_eq_ok] at hok
    subst hok
    unfold insertBlock at hinsert
    split at hinsert
    . cases hinsert
    . next hnew =>
      cases hinsert
      refine ⟨?_, ?_, ?_⟩
      . constructor
        case toTracked =>
          refine ⟨h.lineage.congr rfl rfl rfl rfl, ⟨?_, h.derived.edges, h.derived.usage⟩, h.edges, h.levels⟩
          exact h.derived.blocks.insert_new _ hnew
        case blocks =>
          apply h.blocks.capture rfl
          intro hash hne
          rw [Map.get_insert, if_neg hne]
        case isInVspc => exact h.isInVspc
        case colors => exact h.colors
      . refine Eq.trans ?_ (if_pos hcontains).symm
        unfold window Window.insertBlock
        congr 1
        funext hash
        rw [Map.get_insert, Function.update_apply]
        split
        . next heq => rw [if_pos heq.symm]
        . next hne => rw [if_neg (Ne.symm hne)]
      . intro _
        exact hnew
  . next hcontains =>
    rw [pure_eq_ok] at hok
    subst hok
    refine ⟨h, (if_neg hcontains).symm, ?_⟩
    intro hcontains'
    exact absurd hcontains' hcontains

theorem applyMaterializationSnapshot_levels (view : GraphView) (snapshot : LevelCommitted) :
    ∃ levels, view.applyMaterializationSnapshot snapshot = { view with levels := levels } ∧
      (levels[snapshot.level]?).map StoredLevel.value = some ⟨snapshot.size,
        (view.levelValue snapshot.level).elim snapshot.daaScore Level.daaScore⟩ ∧
      (∀ stored, levels[snapshot.level]? = some stored →
        stored.usageCount = (view.levels[snapshot.level]?).elim 0 StoredLevel.usageCount) ∧
      ∀ level, snapshot.level ≠ level → levels[level]? = view.levels[level]? := by
  unfold applyMaterializationSnapshot levelValue
  refine ⟨_, rfl, ?_, ?_, ?_⟩
  . rw [Map.get_alter, if_pos rfl]
    cases view.levels[snapshot.level]? with
    | none => rfl
    | some stored => rfl
  . rw [Map.get_alter, if_pos rfl]
    cases view.levels[snapshot.level]? with
    | none => simp
    | some stored => simp
  . intro level hne
    rw [Map.get_alter, if_neg hne]

theorem Progress.BlocksTracked.setLevel (h : BlocksTracked base progress) {level : Nat}
    (husage : ∀ stored, levels[level]? = some stored →
      stored.usageCount = (progress.view.levels[level]?).elim 0 StoredLevel.usageCount)
    (hpresent : (∃ stored, levels[level]? = some stored) ∨
      ∀ stored, progress.view.levels[level]? = some stored → stored.usageCount = 0)
    (hother : ∀ level', level ≠ level' → levels[level']? = progress.view.levels[level']?) :
    BlocksTracked base ⟨{ progress.view with levels := levels }, { progress.mutation with
      levels := progress.mutation.levels.capture level (progress.view.levelValue level) }⟩ := by
  constructor
  case toTracked =>
    refine ⟨h.lineage.congr rfl rfl rfl rfl, ⟨h.derived.blocks, h.derived.edges, ?_⟩, h.edges, ?_⟩
    . apply h.derived.usage.congr
      . intro level' stored hstored hpos
        by_cases heq : level = level'
        . subst heq
          obtain hsome | hzero := hpresent
          . exact hsome
          . rw [hzero stored hstored] at hpos
            exact absurd hpos (Nat.lt_irrefl 0)
        . dsimp only
          rw [hother level' heq]
          exact ⟨stored, hstored⟩
      . intro level' stored hstored
        by_cases heq : level = level'
        . subst heq
          exact husage stored hstored
        . dsimp only at hstored
          rw [hother level' heq] at hstored
          rw [hstored]
          rfl
    . apply h.levels.capture rfl
      intro level' hne
      unfold levelValue
      rw [hother level' hne]
  case blocks => exact h.blocks
  case isInVspc => exact h.isInVspc
  case colors => exact h.colors

theorem projectSnapshot_tracked (h : BlocksTracked base progress) (extent : LevelExtent)
    (levels : List Nat) (snapshot : LevelCommitted) :
    BlocksTracked base (projectSnapshot extent levels progress snapshot) ∧
      (projectSnapshot extent levels progress snapshot).view.window
        = progress.view.window.takeSnapshot extent levels snapshot := by
  have hcondition : (extent.containsLevel snapshot.level ||
        ((progress.view.levels[snapshot.level]?).any fun stored => 0 < stored.usageCount) ||
        levels.contains snapshot.level) = true ↔
      extent.containsLevel snapshot.level = true ∨ progress.view.window.Used snapshot.level ∨
        snapshot.level ∈ levels := by
    rw [h.derived.used_iff, Bool.or_eq_true, Bool.or_eq_true, Option.any_eq_true, or_assoc,
      List.contains_iff_mem]
    simp only [decide_eq_true_eq]
  unfold projectSnapshot Window.takeSnapshot
  by_cases hretained : extent.containsLevel snapshot.level = true ∨
      progress.view.window.Used snapshot.level ∨ snapshot.level ∈ levels
  . rw [if_pos (hcondition.mpr hretained), if_pos hretained]
    obtain ⟨levels', heq, hvalue, husage, hother⟩ :=
      applyMaterializationSnapshot_levels progress.view snapshot
    rw [heq]
    refine ⟨h.setLevel husage (Or.inl ?_) hother, ?_⟩
    . rw [Option.map_eq_some_iff] at hvalue
      obtain ⟨stored, hstored, _⟩ := hvalue
      exact ⟨stored, hstored⟩
    . unfold window
      congr 1
      funext level
      rw [Function.update_apply]
      split
      . next heq' =>
        subst heq'
        exact hvalue
      . next hne =>
        unfold levelValue
        rw [hother level (Ne.symm hne)]
  . rw [if_neg (mt hcondition.mp hretained), if_neg hretained]
    exact ⟨h, rfl⟩

theorem foldl_projectSnapshot_tracked (h : BlocksTracked base progress) (extent : LevelExtent)
    (levels : List Nat) (snapshots : List LevelCommitted) :
    BlocksTracked base (snapshots.foldl (projectSnapshot extent levels) progress) ∧
      (snapshots.foldl (projectSnapshot extent levels) progress).view.window
        = snapshots.foldl (Window.takeSnapshot extent levels) progress.view.window := by
  induction snapshots generalizing progress with
  | nil => exact ⟨h, rfl⟩
  | cons snapshot snapshots ih =>
    obtain ⟨hstep, hwindow⟩ := projectSnapshot_tracked h extent levels snapshot
    rw [List.foldl_cons, List.foldl_cons, ← hwindow]
    exact ih hstep

theorem window_insertEdge (view : GraphView) {edge : GraphEdge} {byChild : Multimap BlockHash BlockHash}
    {bySpan : NestedMultimap Nat Nat EdgeId}
    (hvalue : ∀ level : Nat, (levels[level]?).map StoredLevel.value = view.levelValue level) :
    ({ view with
        edges := view.edges.insert edge.id edge
        levels := levels
        edgeParentsByChild := byChild
        edgeIdsBySpan := bySpan } : GraphView).window = view.window.insertEdge edge := by
  unfold window Window.insertEdge
  congr 1
  . funext id
    rw [Map.get_insert, Function.update_apply]
    split
    . next heq => rw [if_pos heq.symm]
    . next hne => rw [if_neg (Ne.symm hne)]
  . funext level
    exact hvalue level

theorem value_setUsage {level : Nat} {stored : StoredLevel} (hstored : levels[level]? = some stored)
    (usageCount : Nat) (level' : Nat) :
    ((levels.insert level { stored with usageCount := usageCount })[level']?).map StoredLevel.value
      = (levels[level']?).map StoredLevel.value := by
  rw [Map.get_insert]
  split
  . next heq =>
    subst heq
    rw [hstored]
    rfl
  . rfl

theorem projectEdge_eq_ok {edge : GraphEdge} (h : BlocksTracked base progress)
    (hok : projectEdge progress edge = .ok progress') :
    BlocksTracked base progress' ∧
      progress'.view.window = progress.view.window.insertEdge edge := by
  unfold projectEdge at hok
  split at hok
  . next existing hexisting =>
    rw [bind_eq_ok] at hok
    obtain ⟨_, hsame, hok⟩ := hok
    rw [ensure_eq_ok] at hsame
    rw [pure_eq_ok] at hok
    subst hsame hok
    refine ⟨?_, ?_⟩
    . exact ⟨⟨h.lineage, h.derived, h.edges.capture_self rfl, h.levels⟩, h.blocks, h.isInVspc,
        h.colors⟩
    . rw [← window_insertEdge progress.view fun _ => rfl, Map.insert_eq_self hexisting]
  . next hnew =>
    rw [bind_eq_ok] at hok
    obtain ⟨view, hincrement, hok⟩ := hok
    rw [pure_eq_ok] at hok
    subst hok
    unfold incrementParentUsage incrementUsage indexEdge at hincrement
    split at hincrement
    . cases hincrement
    . next stored hstored =>
      split at hincrement
      . next hlt =>
        cases hincrement
        refine ⟨?_, window_insertEdge progress.view (value_setUsage hstored _)⟩
        constructor
        case toTracked =>
          refine ⟨h.lineage.congr rfl rfl rfl rfl, ⟨h.derived.blocks, ?_, ?_⟩, ?_, ?_⟩
          . exact h.derived.edges.insert_new edge hnew
          . exact h.derived.usage.insert_new hnew hstored hlt
          . apply h.edges.capture rfl
            intro id hne
            rw [Map.get_insert, if_neg hne]
          . apply h.levels.congr
            exact value_setUsage hstored _
        case blocks => exact h.blocks
        case isInVspc => exact h.isInVspc
        case colors => exact h.colors
      . cases hincrement

theorem foldlM_projectEdge_eq_ok {edges : List GraphEdge} (h : BlocksTracked base progress)
    (hok : edges.foldlM projectEdge progress = .ok progress') :
    BlocksTracked base progress' ∧
      progress'.view.window = edges.foldl Window.insertEdge progress.view.window := by
  induction edges generalizing progress with
  | nil =>
    rw [List.foldlM_nil, pure_eq_ok] at hok
    subst hok
    exact ⟨h, rfl⟩
  | cons edge edges ih =>
    rw [List.foldlM_cons, bind_eq_ok] at hok
    obtain ⟨next, hstep, hok⟩ := hok
    obtain ⟨hnext, hwindow⟩ := projectEdge_eq_ok h hstep
    rw [List.foldl_cons, ← hwindow]
    exact ih hnext hok

end Project

end GraphView

end Kgi
