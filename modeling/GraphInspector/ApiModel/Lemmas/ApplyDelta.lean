import GraphInspector.ApiModel.Lemmas.View

/-!
A delta replaces blocks, edges, level values and projected fields. The derived parts of the view follow.
-/

namespace Kgi

open Data

namespace GraphView

variable {source target : GraphView} {delta : GraphDelta}

section Blocks

theorem applyBlockChange_blocks (view : GraphView) (entry : BlockHash × Option GraphBlock) :
    (view.applyBlockChange entry).blocks = Map.put view.blocks entry.1 entry.2 := by
  obtain ⟨hash, change⟩ := entry
  cases change with
  | some block => rfl
  | none =>
    unfold applyBlockChange applyBlockRemoval Map.put
    dsimp only
    split
    . next hnone => rw [Map.erase_eq_self hnone]
    . rfl

theorem applyBlockChange_indexed {view : GraphView}
    (h : BlocksIndexed view.blocks view.blockHashesByLevel)
    (entry : BlockHash × Option GraphBlock) :
    BlocksIndexed (view.applyBlockChange entry).blocks
      (view.applyBlockChange entry).blockHashesByLevel := by
  obtain ⟨hash, change⟩ := entry
  cases change with
  | none =>
    unfold applyBlockChange applyBlockRemoval
    dsimp only
    split
    . exact h
    . next block hblock => exact h.erase hblock
  | some block =>
    unfold applyBlockChange applyBlockUpsert
    cases hprevious : view.blocks[hash]? with
    | none => exact h.insert_new block hprevious
    | some previous =>
      constructor
      . intro level hash'
        rw [Multimap.holds_add, Map.get_insert]
        by_cases hh : hash = hash'
        . subst hh
          rw [if_pos rfl]
          dsimp only
          split
          . next hne =>
            rw [Multimap.holds_remove, h.holds, hprevious]
            simp
          . next heq =>
            rw [not_not] at heq
            rw [h.holds, hprevious]
            simp [heq]
        . rw [if_neg hh]
          dsimp only
          split
          . rw [Multimap.holds_remove, h.holds]
            simp [hh]
          . rw [h.holds]
            simp [hh]
      . apply Multimap.noEmpty_add
        dsimp only
        split
        . apply Multimap.noEmpty_remove h.noEmpty
        . exact h.noEmpty

theorem foldl_applyBlockChange (l : List (BlockHash × Option GraphBlock)) {view : GraphView}
    (h : BlocksIndexed view.blocks view.blockHashesByLevel) :
    ∃ blocks byLevel, l.foldl applyBlockChange view
        = { view with blocks := blocks, blockHashesByLevel := byLevel } ∧
      blocks = l.foldl (fun m x => Map.put m x.1 x.2) view.blocks ∧ BlocksIndexed blocks byLevel := by
  induction l generalizing view with
  | nil => exact ⟨_, _, rfl, rfl, h⟩
  | cons entry l ih =>
    obtain ⟨blocks, byLevel, hfold, hblocks, hindexed⟩ := ih (applyBlockChange_indexed h entry)
    rw [List.foldl_cons, List.foldl_cons, hfold]
    refine ⟨blocks, byLevel, ?_, ?_, hindexed⟩
    . obtain ⟨hash, change⟩ := entry
      cases change with
      | some block => rfl
      | none =>
        unfold applyBlockChange applyBlockRemoval
        dsimp only
        split
        . rfl
        . rfl
    . rw [hblocks, applyBlockChange_blocks]

end Blocks

section Edges

def EdgeProgress.Indexed (progress : EdgeProgress) : Prop :=
  EdgesIndexed progress.view.edges progress.view.edgeParentsByChild progress.view.edgeIdsBySpan

theorem applyEdgeChange_edges (progress : EdgeProgress) (entry : EdgeId × Option GraphEdge) :
    (applyEdgeChange progress entry).view.edges = Map.put progress.view.edges entry.1 entry.2 := by
  obtain ⟨id, change⟩ := entry
  unfold applyEdgeChange
  dsimp only
  split
  . rfl
  . cases progress.view.edges[id]? with
    | none =>
      cases change with
      | none => rfl
      | some edge => rfl
    | some previous =>
      cases change with
      | none => rfl
      | some edge => rfl

theorem put_eq_self {edges : Map EdgeId GraphEdge} {id : EdgeId} {change : Option GraphEdge}
    (h : edges[id]? = change) : Map.put edges id change = edges := by
  cases change with
  | none => exact Map.erase_eq_self h
  | some edge => exact Map.insert_eq_self h

theorem put_some_eq (edges : Map EdgeId GraphEdge) (id : EdgeId) (edge : GraphEdge) :
    Map.put edges id (some edge) = (edges.erase id).insert id edge := by
  apply Std.ExtTreeMap.ext_getElem?
  intro id'
  rw [Map.get_put, Map.get_insert, Map.get_erase]
  split
  . rfl
  . rfl

variable {entry : EdgeId × Option GraphEdge}

theorem applyEdgeChange_indexed {progress : EdgeProgress} (h : progress.Indexed)
    (hkeyed : ∀ edge, entry.2 = some edge → edge.id = entry.1) :
    (applyEdgeChange progress entry).Indexed := by
  obtain ⟨id, change⟩ := entry
  unfold EdgeProgress.Indexed applyEdgeChange
  dsimp only
  split
  . next heq =>
    rw [put_eq_self heq]
    exact h
  . cases hprevious : progress.view.edges[id]? with
    | none =>
      cases change with
      | none =>
        next hne => exact absurd hprevious hne
      | some edge =>
        have hid := hkeyed edge rfl
        subst hid
        exact EdgesIndexed.insert_new h edge hprevious
    | some previous =>
      have herased := EdgesIndexed.erase h hprevious
      cases change with
      | none => exact herased
      | some edge =>
        have hid := hkeyed edge rfl
        subst hid
        rw [put_some_eq]
        apply herased.insert_new edge
        rw [Map.get_erase, if_pos rfl]

theorem applyEdgeChange_usage (progress : EdgeProgress)
    (hkeyed : ∀ edge, entry.2 = some edge → edge.id = entry.1) (level : Nat) :
    edgeUsage (applyEdgeChange progress entry).view.edges level
        + (applyEdgeChange progress entry).usageDecrements.count level
        + progress.usageIncrements.count level
      =
    edgeUsage progress.view.edges level + progress.usageDecrements.count level
        + (applyEdgeChange progress entry).usageIncrements.count level := by
  rw [applyEdgeChange_edges]
  obtain ⟨id, change⟩ := entry
  unfold applyEdgeChange
  dsimp only
  split
  . next heq => rw [put_eq_self heq]
  . cases hprevious : progress.view.edges[id]? with
    | none =>
      cases change with
      | none => next hne => exact absurd hprevious hne
      | some edge =>
        have hid := hkeyed edge rfl
        subst hid
        dsimp only [Map.put]
        rw [UsageExact.edgeUsage_insert hprevious, List.count_append, List.count_singleton]
        simp only [beq_iff_eq]
        omega
    | some previous =>
      have herase := UsageExact.edgeUsage_erase hprevious level
      cases change with
      | none =>
        dsimp only [Map.put]
        rw [List.count_append, List.count_singleton]
        simp only [beq_iff_eq]
        omega
      | some edge =>
        have hid := hkeyed edge rfl
        subst hid
        have hnew : (progress.view.edges.erase edge.id)[edge.id]? = none := by
          rw [Map.get_erase, if_pos rfl]
        rw [put_some_eq, UsageExact.edgeUsage_insert hnew, List.count_append, List.count_append,
          List.count_singleton, List.count_singleton]
        simp only [beq_iff_eq]
        omega

theorem applyEdgeChange_decrements (progress : EdgeProgress) (entry : EdgeId × Option GraphEdge)
    (level : Nat) :
    (applyEdgeChange progress entry).usageDecrements.count level ≤
      progress.usageDecrements.count level +
        (progress.view.edges[entry.1]?).elim 0 fun previous =>
          if previous.parentCoordinate.level = level then 1 else 0 := by
  unfold applyEdgeChange
  dsimp only
  split
  . exact Nat.le_add_right _ _
  . cases progress.view.edges[entry.1]? with
    | none =>
      cases entry.2 with
      | none => exact Nat.le_refl _
      | some edge => exact Nat.le_refl _
    | some previous =>
      cases entry.2 with
      | none =>
        rw [List.count_append, List.count_singleton]
        simp
      | some edge =>
        rw [List.count_append, List.count_singleton]
        simp

theorem foldl_applyEdgeChange_decrements (l : List (EdgeId × Option GraphEdge))
    (hnodup : (l.map Prod.fst).Nodup) (progress : EdgeProgress) (rest : Map EdgeId GraphEdge)
    (hrest : ∀ id ∈ l.map Prod.fst, rest[id]? = progress.view.edges[id]?) (level : Nat) :
    (l.foldl applyEdgeChange progress).usageDecrements.count level ≤
      progress.usageDecrements.count level + edgeUsage rest level := by
  induction l generalizing progress rest with
  | nil => exact Nat.le_add_right _ _
  | cons entry l ih =>
    rw [List.map_cons, List.nodup_cons] at hnodup
    rw [List.foldl_cons]
    have hfirst : rest[entry.1]? = progress.view.edges[entry.1]? := by
      apply hrest
      simp
    have hstep := applyEdgeChange_decrements progress entry level
    have htail := ih hnodup.2 (applyEdgeChange progress entry) (rest.erase entry.1) (by
      intro id hid
      have hne : entry.1 ≠ id := by
        rintro rfl
        exact hnodup.1 hid
      rw [Map.get_erase, if_neg hne, applyEdgeChange_edges, Map.get_put, if_neg hne]
      apply hrest
      exact List.mem_cons_of_mem _ hid)
    cases hprevious : rest[entry.1]? with
    | none =>
      rw [Map.erase_eq_self hprevious] at htail
      rw [← hfirst, hprevious] at hstep
      simp only [Option.elim_none] at hstep
      omega
    | some previous =>
      have herase := UsageExact.edgeUsage_erase hprevious level
      rw [← hfirst, hprevious] at hstep
      simp only [Option.elim_some] at hstep
      omega

theorem foldl_applyEdgeChange (l : List (EdgeId × Option GraphEdge)) (progress : EdgeProgress)
    (h : progress.Indexed)
    (hkeyed : ∀ entry ∈ l, ∀ edge, entry.2 = some edge → edge.id = entry.1) :
    ∃ edges byChild bySpan decrements increments,
      l.foldl applyEdgeChange progress
        = ⟨{ progress.view with
              edges := edges, edgeParentsByChild := byChild, edgeIdsBySpan := bySpan },
            decrements, increments⟩ ∧
      edges = l.foldl (fun m x => Map.put m x.1 x.2) progress.view.edges ∧
      EdgesIndexed edges byChild bySpan ∧
      ∀ level, edgeUsage edges level + decrements.count level + progress.usageIncrements.count level
        = edgeUsage progress.view.edges level + progress.usageDecrements.count level
          + increments.count level := by
  induction l generalizing progress with
  | nil => exact ⟨_, _, _, _, _, rfl, rfl, h, fun level => rfl⟩
  | cons entry l ih =>
    have hentry := hkeyed entry List.mem_cons_self
    obtain ⟨edges, byChild, bySpan, decrements, increments, hfold, hedges, hindexed, husage⟩ :=
      ih (applyEdgeChange progress entry) (applyEdgeChange_indexed h hentry) fun entry' hmem =>
        hkeyed entry' (List.mem_cons_of_mem entry hmem)
    rw [List.foldl_cons, List.foldl_cons, hfold]
    refine ⟨edges, byChild, bySpan, decrements, increments, ?_, ?_, hindexed, ?_⟩
    . congr 1
      unfold applyEdgeChange
      dsimp only
      split
      . rfl
      . cases progress.view.edges[entry.1]? with
        | none =>
          cases entry.2 with
          | none => rfl
          | some edge => rfl
        | some previous =>
          cases entry.2 with
          | none => rfl
          | some edge => rfl
    . rw [hedges, applyEdgeChange_edges]
    . intro level
      have hstep := applyEdgeChange_usage progress hentry level
      have htail := husage level
      omega

end Edges

section Levels

theorem applyLevelChange_levels (view : GraphView) (change : LevelChange) :
    ∃ levels, view.applyLevelChange change = { view with levels := levels } ∧
      (levels[change.level]?).map StoredLevel.value = change.after ∧
      (∀ stored, levels[change.level]? = some stored →
        stored.usageCount = (view.levels[change.level]?).elim 0 StoredLevel.usageCount) ∧
      ∀ level, change.level ≠ level → levels[level]? = view.levels[level]? := by
  unfold applyLevelChange
  cases hafter : change.after with
  | none =>
    refine ⟨_, rfl, ?_, ?_, ?_⟩
    . rw [Map.get_erase, if_pos rfl]
      rfl
    . intro stored hstored
      rw [Map.get_erase, if_pos rfl] at hstored
      cases hstored
    . intro level hne
      rw [Map.get_erase, if_neg hne]
  | some value =>
    refine ⟨_, rfl, ?_, ?_, ?_⟩
    . rw [Map.get_alter, if_pos rfl]
      cases view.levels[change.level]? with
      | none => rfl
      | some stored => rfl
    . rw [Map.get_alter, if_pos rfl]
      cases view.levels[change.level]? with
      | none => simp
      | some stored => simp
    . intro level hne
      rw [Map.get_alter, if_neg hne]

theorem foldl_applyLevelChange (l : List LevelChange) (hnodup : (l.map LevelChange.level).Nodup)
    (view : GraphView) :
    ∃ levels, l.foldl applyLevelChange view = { view with levels := levels } ∧
      (∀ change ∈ l, (levels[change.level]?).map StoredLevel.value = change.after) ∧
      (∀ change ∈ l, ∀ stored, levels[change.level]? = some stored →
        stored.usageCount = (view.levels[change.level]?).elim 0 StoredLevel.usageCount) ∧
      ∀ level, level ∉ l.map LevelChange.level → levels[level]? = view.levels[level]? := by
  induction l generalizing view with
  | nil => exact ⟨view.levels, rfl, by simp, by simp, fun _ _ => rfl⟩
  | cons change l ih =>
    rw [List.map_cons, List.nodup_cons] at hnodup
    obtain ⟨levels, hstep, hvalue, husage, hother⟩ := applyLevelChange_levels view change
    obtain ⟨levels', hfold, hvalue', husage', hother'⟩ :=
      ih hnodup.2 (view.applyLevelChange change)
    rw [hstep] at hfold husage' hother'
    have hfirst : levels'[change.level]? = levels[change.level]? := hother' change.level hnodup.1
    rw [List.foldl_cons, hstep, hfold]
    refine ⟨levels', rfl, ?_, ?_, ?_⟩
    . intro change' hchange'
      rw [List.mem_cons] at hchange'
      obtain rfl | hchange' := hchange'
      . rw [hfirst]
        exact hvalue
      . exact hvalue' change' hchange'
    . intro change' hchange'
      rw [List.mem_cons] at hchange'
      obtain rfl | hchange' := hchange'
      . rw [hfirst]
        exact husage
      . have hne : change.level ≠ change'.level := by
          intro heq
          apply hnodup.1
          rw [heq]
          exact List.mem_map_of_mem hchange'
        rw [← hother _ hne]
        exact husage' change' hchange'
    . intro level hnot
      rw [List.map_cons, List.mem_cons, not_or] at hnot
      rw [hother' level hnot.2]
      apply hother
      exact Ne.symm hnot.1

end Levels

section Usage

theorem foldlM_applyUsageDecrement (l : List Nat) (view : GraphView)
    (hbound : ∀ (level : Nat) (stored : StoredLevel), view.levels[level]? = some stored →
      l.count level ≤ stored.usageCount) :
    ∃ levels, l.foldlM applyUsageDecrement view = .ok { view with levels := levels } ∧
      ∀ level : Nat, levels[level]? = (view.levels[level]?).map fun stored =>
        { stored with usageCount := stored.usageCount - l.count level } := by
  induction l generalizing view with
  | nil =>
    refine ⟨view.levels, rfl, ?_⟩
    intro level
    simp
  | cons a l ih =>
    rw [List.foldlM_cons]
    unfold applyUsageDecrement
    cases ha : view.levels[a]? with
    | none =>
      obtain ⟨levels, hfold, hlevels⟩ := ih view (by
        intro level stored hstored
        have hle := hbound level stored hstored
        rw [List.count_cons] at hle
        omega)
      refine ⟨levels, hfold, ?_⟩
      intro level
      rw [hlevels level]
      by_cases heq : a = level
      . subst heq
        rw [ha]
        rfl
      . rw [List.count_cons_of_ne heq]
    | some stored =>
      have hpos : 0 < stored.usageCount := by
        have hle := hbound a stored ha
        rw [List.count_cons_self] at hle
        omega
      dsimp only
      rw [if_pos hpos]
      obtain ⟨levels, hfold, hlevels⟩ := ih { view with
          levels := view.levels.insert a { stored with usageCount := stored.usageCount - 1 } } (by
        intro level stored' hstored'
        rw [Map.get_insert] at hstored'
        split at hstored'
        . next heq =>
          subst heq
          cases hstored'
          have hle := hbound a stored ha
          rw [List.count_cons_self] at hle
          dsimp only
          omega
        . next hne =>
          have hle := hbound level stored' hstored'
          rw [List.count_cons_of_ne hne] at hle
          exact hle)
      refine ⟨levels, hfold, ?_⟩
      intro level
      rw [hlevels level]
      rw [Map.get_insert]
      split
      . next heq =>
        subst heq
        rw [ha, List.count_cons_self, Option.map_some, Option.map_some]
        rw [Nat.sub_sub, Nat.add_comm 1]
      . next hne => rw [List.count_cons_of_ne hne]

theorem foldlM_incrementUsage (missing : String) (l : List Nat) (view : GraphView)
    (hpresent : ∀ level ∈ l, ∃ stored, view.levels[level]? = some stored)
    (hbound : ∀ (level : Nat) (stored : StoredLevel), view.levels[level]? = some stored →
      stored.usageCount + l.count level ≤ u64Max) :
    ∃ levels, l.foldlM (incrementUsage missing) view = .ok { view with levels := levels } ∧
      ∀ level : Nat, levels[level]? = (view.levels[level]?).map fun stored =>
        { stored with usageCount := stored.usageCount + l.count level } := by
  induction l generalizing view with
  | nil =>
    refine ⟨view.levels, rfl, ?_⟩
    intro level
    simp
  | cons a l ih =>
    rw [List.foldlM_cons]
    unfold incrementUsage
    obtain ⟨stored, ha⟩ := hpresent a List.mem_cons_self
    rw [ha]
    have hlt : stored.usageCount < u64Max := by
      have hle := hbound a stored ha
      rw [List.count_cons_self] at hle
      omega
    dsimp only
    rw [if_pos hlt]
    obtain ⟨levels, hfold, hlevels⟩ := ih { view with
        levels := view.levels.insert a { stored with usageCount := stored.usageCount + 1 } } (by
      intro level hlevel
      rw [Map.get_insert]
      split
      . exact ⟨_, rfl⟩
      . apply hpresent
        exact List.mem_cons_of_mem a hlevel) (by
      intro level stored' hstored'
      rw [Map.get_insert] at hstored'
      split at hstored'
      . next heq =>
        subst heq
        cases hstored'
        have hle := hbound a stored ha
        rw [List.count_cons_self] at hle
        dsimp only
        omega
      . next hne =>
        have hle := hbound level stored' hstored'
        rw [List.count_cons_of_ne hne] at hle
        exact hle)
    refine ⟨levels, hfold, ?_⟩
    intro level
    rw [hlevels level]
    rw [Map.get_insert]
    split
    . next heq =>
      subst heq
      rw [ha, List.count_cons_self, Option.map_some, Option.map_some]
      rw [Nat.add_assoc, Nat.add_comm 1]
    . next hne => rw [List.count_cons_of_ne hne]

theorem foldlM_incrementUsage_eq_ok {missing : String} {l : List Nat} {view view' : GraphView}
    (hok : l.foldlM (incrementUsage missing) view = .ok view') :
    (∀ level ∈ l, ∃ stored, view.levels[level]? = some stored) ∧
      ∀ (level : Nat) (stored : StoredLevel), view.levels[level]? = some stored →
        stored.usageCount ≤ u64Max → stored.usageCount + l.count level ≤ u64Max := by
  induction l generalizing view with
  | nil => simp
  | cons a l ih =>
    rw [List.foldlM_cons, bind_eq_ok] at hok
    obtain ⟨next, hstep, hok⟩ := hok
    unfold incrementUsage at hstep
    split at hstep
    . cases hstep
    . next stored hstored =>
      split at hstep
      . next hlt =>
        cases hstep
        obtain ⟨hpresent, hbound⟩ := ih hok
        constructor
        . intro level hlevel
          rw [List.mem_cons] at hlevel
          obtain rfl | hlevel := hlevel
          . exact ⟨stored, hstored⟩
          . have hnext := hpresent level hlevel
            rw [Map.get_insert] at hnext
            split at hnext
            . next heq =>
              rw [← heq]
              exact ⟨stored, hstored⟩
            . exact hnext
        . intro level stored' hstored' hle
          by_cases heq : a = level
          . subst heq
            rw [hstored] at hstored'
            cases hstored'
            have hnext := hbound a { stored with usageCount := stored.usageCount + 1 }
              (by rw [Map.get_insert, if_pos rfl]) hlt
            rw [List.count_cons_self]
            dsimp only at hnext
            omega
          . rw [List.count_cons_of_ne heq]
            apply hbound level stored' _ hle
            rw [Map.get_insert, if_neg heq]
            exact hstored'
      . cases hstep

end Usage

section Fields

theorem foldl_applyMembershipChange (l : List (BlockHash × FieldChange Bool)) (view : GraphView) :
    l.foldl applyMembershipChange view
      =
    { view with blocks := l.foldl (fun (m : Map BlockHash GraphBlock) x =>
        m.modify x.1 fun block => { block with isInVspc := x.2.after }) view.blocks } := by
  induction l generalizing view with
  | nil => rfl
  | cons entry l ih =>
    rw [List.foldl_cons, ih]
    rfl

theorem foldl_applyColorChange (l : List (BlockHash × FieldChange BlockColor)) (view : GraphView) :
    l.foldl applyColorChange view
      =
    { view with blocks := l.foldl (fun (m : Map BlockHash GraphBlock) x =>
        m.modify x.1 fun block => { block with color := x.2.after }) view.blocks } := by
  induction l generalizing view with
  | nil => rfl
  | cons entry l ih =>
    rw [List.foldl_cons, ih]
    rfl

end Fields

def projectFields (isInVspcChanges : Map BlockHash (FieldChange Bool))
    (colorChanges : Map BlockHash (FieldChange BlockColor)) (hash : BlockHash) (block : GraphBlock) :
    GraphBlock :=
  { block with
    isInVspc := isInVspcChanges[hash]?.elim block.isInVspc FieldChange.after
    color := colorChanges[hash]?.elim block.color FieldChange.after }

theorem foldl_fieldChanges (delta : GraphDelta) (view : GraphView) :
    ∃ blocks, delta.colorChanges.toList.foldl applyColorChange
        (delta.isInVspcChanges.toList.foldl applyMembershipChange view)
        = { view with blocks := blocks } ∧
      ∀ hash : BlockHash, blocks[hash]? = (view.blocks[hash]?).map
        (projectFields delta.isInVspcChanges delta.colorChanges hash) := by
  rw [foldl_applyMembershipChange, foldl_applyColorChange]
  refine ⟨_, rfl, ?_⟩
  intro hash
  have hcolor := Map.get_foldl_modify_toList delta.colorChanges
    (fun change (block : GraphBlock) => { block with color := change.after })
  have hmembership := Map.get_foldl_modify_toList delta.isInVspcChanges
    (fun change (block : GraphBlock) => { block with isInVspc := change.after }) view.blocks hash
  rw [hcolor, hmembership, Option.map_map]
  congr 1
  funext block
  unfold projectFields
  rw [Function.comp_apply]
  cases delta.colorChanges[hash]? with
  | none =>
    cases delta.isInVspcChanges[hash]? with
    | none => rfl
    | some change => rfl
  | some change =>
    cases delta.isInVspcChanges[hash]? with
    | none => rfl
    | some change' => rfl

structure Rewires (delta : GraphDelta) (source target : GraphView) : Prop where
  edges : ∀ id : EdgeId, target.edges[id]? = delta.edgeChanges[id]?.getD source.edges[id]?
  levels_nodup : (delta.levelChanges.map LevelChange.level).Nodup
  levels : ∀ change ∈ delta.levelChanges, target.levelValue change.level = change.after
  levels_other : ∀ level, level ∉ delta.levelChanges.map LevelChange.level →
    target.levelValue level = source.levelValue level

structure Connects (delta : GraphDelta) (source target : GraphView) : Prop
    extends Rewires delta source target where
  maxDepth : target.maxDepth = source.maxDepth
  policy : source.trackingPolicy = .head ∧ target.trackingPolicy = .head
  extent : headExtent source.maxDepth delta.headLevel "delta lineage Head level is positive"
    = .ok target.extent
  revision : source.currentRevisionId = delta.fromRevisionId ∧
    target.currentRevisionId = delta.toRevisionId
  timestamp : target.currentRevisionTimestampMs = delta.revisionTimestampMs
  blocks : ∀ hash : BlockHash, target.blocks[hash]?
    = (delta.blockChanges[hash]?.getD source.blocks[hash]?).map
        (projectFields delta.isInVspcChanges delta.colorChanges hash)

theorem applyUsage_eq_ok (view target : GraphView) (decrements increments : List Nat)
    (before : Nat → Nat) (htarget : UsageExact target.levels target.edges)
    (hvalue : ∀ level, view.levelValue level = target.levelValue level)
    (hbefore : ∀ (level : Nat) (stored : StoredLevel), view.levels[level]? = some stored →
      stored.usageCount = before level)
    (hchange : ∀ level, edgeUsage target.edges level + decrements.count level
      = before level + increments.count level)
    (hle : ∀ level, decrements.count level ≤ before level) :
    ∃ levels, (decrements.foldlM applyUsageDecrement view >>=
          fun view => increments.foldlM applyUsageIncrement view)
        = .ok { view with levels := levels } ∧
      UsageExact levels target.edges ∧
      ∀ level : Nat, (levels[level]?).map StoredLevel.value = target.levelValue level := by
  have hpresent : ∀ level : Nat, (∃ stored, view.levels[level]? = some stored) ↔
      ∃ stored, target.levels[level]? = some stored := by
    intro level
    have hlevel := congrArg Option.isSome (hvalue level)
    unfold levelValue at hlevel
    rw [Option.isSome_map, Option.isSome_map] at hlevel
    rw [← Option.isSome_iff_exists, ← Option.isSome_iff_exists, hlevel]
  obtain ⟨levels₁, hfold₁, hlevels₁⟩ := foldlM_applyUsageDecrement decrements view (by
    intro level stored hstored
    rw [hbefore level stored hstored]
    exact hle level)
  have hpresent₁ : ∀ level : Nat, (∃ stored, levels₁[level]? = some stored) ↔
      ∃ stored, view.levels[level]? = some stored := by
    intro level
    rw [hlevels₁]
    cases view.levels[level]? with
    | none => simp
    | some stored => simp
  have husage : ∀ (level : Nat) (stored : StoredLevel), levels₁[level]? = some stored →
      stored.usageCount + increments.count level = edgeUsage target.edges level := by
    intro level stored hstored
    rw [hlevels₁, Option.map_eq_some_iff] at hstored
    obtain ⟨stored₀, hstored₀, rfl⟩ := hstored
    have := hbefore level stored₀ hstored₀
    have := hchange level
    have := hle level
    dsimp only
    omega
  have hcounted : ∀ level : Nat, (∃ stored, levels₁[level]? = some stored) →
      edgeUsage target.edges level ≤ u64Max := by
    intro level hlevel
    rw [hpresent₁, hpresent] at hlevel
    obtain ⟨stored, hstored⟩ := hlevel
    rw [← htarget.usage level stored hstored]
    exact htarget.bounded level stored hstored
  obtain ⟨levels₂, hfold₂, hlevels₂⟩ :=
    foldlM_incrementUsage _ increments { view with levels := levels₁ }
      (by
        -- a level that gains an edge is the parent level of an edge of the target
        intro level hlevel
        rw [hpresent₁, hpresent]
        have hcount := List.count_pos_iff.mpr hlevel
        have hpos : 0 < edgeUsage target.edges level := by
          have := hchange level
          have := hle level
          omega
        rw [UsageExact.edgeUsage_pos_iff] at hpos
        obtain ⟨id, edge, hedge, rfl⟩ := hpos
        exact htarget.present id edge hedge)
      (by
        intro level stored hstored
        rw [husage level stored hstored]
        exact hcounted level ⟨stored, hstored⟩)
  have hvalue₂ : ∀ level : Nat, (levels₂[level]?).map StoredLevel.value = target.levelValue level := by
    intro level
    rw [← hvalue, hlevels₂]
    rw [hlevels₁]
    unfold levelValue
    cases view.levels[level]? with
    | none => rfl
    | some stored => rfl
  have husage₂ : ∀ (level : Nat) (stored : StoredLevel), levels₂[level]? = some stored →
      (∃ stored, levels₁[level]? = some stored) ∧
        stored.usageCount = edgeUsage target.edges level := by
    intro level stored hstored
    rw [hlevels₂, Option.map_eq_some_iff] at hstored
    obtain ⟨stored₁, hstored₁, rfl⟩ := hstored
    exact ⟨⟨stored₁, hstored₁⟩, husage level stored₁ hstored₁⟩
  refine ⟨levels₂, ?_, ⟨?_, ?_, ?_⟩, hvalue₂⟩
  . rw [hfold₁]
    exact hfold₂
  . intro level stored hstored
    exact (husage₂ level stored hstored).2
  . intro id edge hedge
    obtain ⟨stored, hstored⟩ := htarget.present id edge hedge
    have hlevel := hvalue₂ edge.parentCoordinate.level
    unfold levelValue at hlevel
    rw [hstored, Option.map_some, Option.map_eq_some_iff] at hlevel
    obtain ⟨stored', hstored', _⟩ := hlevel
    exact ⟨stored', hstored'⟩
  . intro level stored hstored
    obtain ⟨hlevel, heq⟩ := husage₂ level stored hstored
    rw [heq]
    exact hcounted level hlevel

variable (hsource : source.Derived) (htarget : target.Derived)
include hsource htarget

theorem applyDeltaContents_of_rewires (h : Rewires delta source target) :
    ∃ view, source.applyDeltaContents delta = .ok view ∧ view.Derived ∧
      view.maxDepth = source.maxDepth ∧ view.trackingPolicy = source.trackingPolicy ∧
      (∀ hash : BlockHash, view.blocks[hash]?
        = (delta.blockChanges[hash]?.getD source.blocks[hash]?).map
            (projectFields delta.isInVspcChanges delta.colorChanges hash)) ∧
      view.edges = target.edges ∧ ∀ level, view.levelValue level = target.levelValue level := by
  obtain ⟨blocks, byLevel, hblockFold, hblocks, hblocksIndexed⟩ :=
    foldl_applyBlockChange delta.blockChanges.toList hsource.blocks
  have hkeyed : ∀ entry ∈ delta.edgeChanges.toList, ∀ edge, entry.2 = some edge →
      edge.id = entry.1 := by
    rintro ⟨id, change⟩ hentry edge rfl
    rw [Map.mem_toList] at hentry
    apply htarget.edges.keyed id edge
    rw [h.edges, hentry]
    rfl
  obtain ⟨edges, byChild, bySpan, decrements, increments, hedgeFold, hedges, hedgesIndexed, husage⟩ :=
    foldl_applyEdgeChange delta.edgeChanges.toList
      ⟨{ source with blocks := blocks, blockHashesByLevel := byLevel }, [], []⟩ hsource.edges hkeyed
  have hdecrements := foldl_applyEdgeChange_decrements delta.edgeChanges.toList
    (Map.nodup_keys_toList delta.edgeChanges)
    ⟨{ source with blocks := blocks, blockHashesByLevel := byLevel }, [], []⟩ source.edges
    fun _ _ => rfl
  rw [hedgeFold] at hdecrements
  obtain ⟨levels, hlevelFold, hchanged, hchangedUsage, hkept⟩ := foldl_applyLevelChange
    delta.levelChanges h.levels_nodup { source with
      blocks := blocks, blockHashesByLevel := byLevel
      edges := edges, edgeParentsByChild := byChild, edgeIdsBySpan := bySpan }
  have hedges' : edges = target.edges := by
    apply Std.ExtTreeMap.ext_getElem?
    intro id
    rw [hedges, h.edges]
    exact Map.get_foldl_put_toList delta.edgeChanges source.edges id
  subst hedges'
  have hstored : ∀ (level : Nat) (stored : StoredLevel), source.levels[level]? = some stored →
      stored.usageCount = edgeUsage source.edges level := hsource.usage.usage
  have helim : ∀ level : Nat, (source.levels[level]?).elim 0 StoredLevel.usageCount
      = edgeUsage source.edges level := by
    intro level
    cases hlevel : source.levels[level]? with
    | none => exact (hsource.usage.edgeUsage_eq_zero hlevel).symm
    | some stored => exact hstored level stored hlevel
  have hvalue : ∀ level : Nat, (levels[level]?).map StoredLevel.value = target.levelValue level := by
    intro level
    by_cases hmem : level ∈ delta.levelChanges.map LevelChange.level
    . rw [List.mem_map] at hmem
      obtain ⟨change, hchange, rfl⟩ := hmem
      rw [hchanged change hchange, h.levels change hchange]
    . rw [hkept level hmem, h.levels_other level hmem]
      rfl
  have hbefore : ∀ (level : Nat) (stored : StoredLevel), levels[level]? = some stored →
      stored.usageCount = edgeUsage source.edges level := by
    intro level stored hlevel
    by_cases hmem : level ∈ delta.levelChanges.map LevelChange.level
    . rw [List.mem_map] at hmem
      obtain ⟨change, hchange, rfl⟩ := hmem
      rw [hchangedUsage change hchange stored hlevel]
      apply helim
    . rw [hkept level hmem] at hlevel
      exact hstored level stored hlevel
  obtain ⟨levels', husageFold, husageExact, hvalue'⟩ := applyUsage_eq_ok
    { source with
      blocks := blocks, blockHashesByLevel := byLevel
      edges := target.edges, edgeParentsByChild := byChild, edgeIdsBySpan := bySpan
      levels := levels }
    target decrements increments (edgeUsage source.edges) htarget.usage hvalue hbefore
    (by
      intro level
      have := husage level
      simpa using this)
    (by
      intro level
      have := hdecrements level
      simpa using this)
  obtain ⟨blocks', hfieldFold, hblocks'⟩ := foldl_fieldChanges delta { source with
    blocks := blocks, blockHashesByLevel := byLevel
    edges := target.edges, edgeParentsByChild := byChild, edgeIdsBySpan := bySpan
    levels := levels' }
  refine ⟨{ source with
    blocks := blocks', blockHashesByLevel := byLevel
    edges := target.edges, edgeParentsByChild := byChild, edgeIdsBySpan := bySpan
    levels := levels' }, ?_, ⟨?_, hedgesIndexed, husageExact⟩, rfl, rfl, ?_, rfl, hvalue'⟩
  . unfold applyDeltaContents
    rw [hblockFold]
    dsimp only
    rw [hedgeFold]
    rw [hlevelFold]
    rw [← bind_assoc, husageFold]
    exact congrArg Except.ok hfieldFold
  . apply hblocksIndexed.congr
    intro hash
    rw [hblocks', Option.map_map]
    rfl
  . intro hash
    rw [hblocks']
    rw [hblocks, Map.get_foldl_put_toList]

theorem applyDeltaContents_eq_ok (h : Connects delta source target) :
    ∃ view, source.applyDeltaContents delta = .ok view ∧ view.Derived ∧
      view.maxDepth = source.maxDepth ∧ view.trackingPolicy = source.trackingPolicy ∧
      view.blocks = target.blocks ∧ view.edges = target.edges ∧
      ∀ level, view.levelValue level = target.levelValue level := by
  obtain ⟨view, hcontents, hderived, hdepth, hpolicy, hblocks, hedges, hlevels⟩ :=
    applyDeltaContents_of_rewires hsource htarget h.toRewires
  refine ⟨view, hcontents, hderived, hdepth, hpolicy, ?_, hedges, hlevels⟩
  apply Std.ExtTreeMap.ext_getElem?
  intro hash
  rw [hblocks, h.blocks]

theorem applyDelta_eq_ok (h : Connects delta source target) :
    source.applyDelta delta = .ok (target, .ok ()) := by
  obtain ⟨view, hcontents, hderived, hdepth, hpolicy, hblocks, hedges, hlevels⟩ :=
    applyDeltaContents_eq_ok hsource htarget h
  have hextent := h.extent
  rw [← hdepth] at hextent
  unfold applyDelta
  rw [if_neg (by rw [h.policy.1]; decide), if_neg (not_not.mpr h.revision.1), hcontents]
  dsimp only [bind, Except.bind]
  rw [if_pos (by rw [hpolicy]; exact h.policy.1), hextent]
  dsimp only
  congr 2
  apply Derived.ext ?_ htarget
  . exact hdepth.trans h.maxDepth.symm
  . rfl
  . exact h.revision.2.symm
  . exact h.timestamp.symm
  . exact hpolicy.trans (h.policy.1.trans h.policy.2.symm)
  . exact hblocks
  . exact hedges
  . exact hlevels
  . exact ⟨hderived.blocks, hderived.edges, hderived.usage⟩

end GraphView

end Kgi
