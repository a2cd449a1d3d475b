import GraphInspector.ApiModel.Impl.Update

/-!
The derived parts of a view.
-/

namespace Kgi

open Data

namespace GraphView

variable {edge : GraphEdge} {id : EdgeId}

def edgeUsage (edges : Map EdgeId GraphEdge) (level : Nat) : Nat :=
  Map.count edges fun _ edge => edge.parentCoordinate.level = level

structure BlocksIndexed (blocks : Map BlockHash GraphBlock) (byLevel : Multimap Nat BlockHash) :
    Prop where
  holds : ∀ (level : Nat) (hash : BlockHash), Multimap.Holds byLevel level hash ↔
    ∃ block : GraphBlock, blocks[hash]? = some block ∧ block.coordinate.level = level
  noEmpty : Multimap.NoEmpty byLevel

structure EdgesIndexed (edges : Map EdgeId GraphEdge) (byChild : Multimap BlockHash BlockHash)
    (bySpan : NestedMultimap Nat Nat EdgeId) : Prop where
  keyed : ∀ (id : EdgeId) (edge : GraphEdge), edges[id]? = some edge → edge.id = id
  parents : ∀ child parent, Multimap.Holds byChild child parent ↔
    ∃ edge : GraphEdge, edges[(⟨parent, child⟩ : EdgeId)]? = some edge
  parents_noEmpty : Multimap.NoEmpty byChild
  spans : ∀ childLevel parentLevel id, NestedMultimap.Holds bySpan childLevel parentLevel id ↔
    ∃ edge : GraphEdge, edges[id]? = some edge ∧ edge.childCoordinate.level = childLevel ∧
      edge.parentCoordinate.level = parentLevel
  spans_noEmpty : NestedMultimap.NoEmpty bySpan

structure UsageExact (levels : Map Nat StoredLevel) (edges : Map EdgeId GraphEdge) : Prop where
  usage : ∀ (level : Nat) (stored : StoredLevel), levels[level]? = some stored →
    stored.usageCount = edgeUsage edges level
  present : ∀ (id : EdgeId) (edge : GraphEdge), edges[id]? = some edge →
    ∃ stored, levels[edge.parentCoordinate.level]? = some stored
  bounded : ∀ (level : Nat) (stored : StoredLevel), levels[level]? = some stored →
    stored.usageCount ≤ u64Max

structure Derived (view : GraphView) : Prop where
  blocks : BlocksIndexed view.blocks view.blockHashesByLevel
  edges : EdgesIndexed view.edges view.edgeParentsByChild view.edgeIdsBySpan
  usage : UsageExact view.levels view.edges

def levelValue (view : GraphView) (level : Nat) : Option Level :=
  (view.levels[level]?).map StoredLevel.value

theorem Derived.ext {v w : GraphView} (hv : v.Derived) (hw : w.Derived)
    (hdepth : v.maxDepth = w.maxDepth) (hextent : v.extent = w.extent)
    (hrevision : v.currentRevisionId = w.currentRevisionId)
    (htimestamp : v.currentRevisionTimestampMs = w.currentRevisionTimestampMs)
    (hpolicy : v.trackingPolicy = w.trackingPolicy)
    (hblocks : v.blocks = w.blocks) (hedges : v.edges = w.edges)
    (hlevels : ∀ level, v.levelValue level = w.levelValue level) : v = w := by
  have hstored : v.levels = w.levels := by
    apply Std.ExtTreeMap.ext_getElem?
    intro level
    have hvalue := hlevels level
    unfold levelValue at hvalue
    cases hvl : v.levels[level]? with
    | none =>
      rw [hvl, Option.map_none, eq_comm, Option.map_eq_none_iff] at hvalue
      rw [hvalue]
    | some stored =>
      rw [hvl, Option.map_some, eq_comm, Option.map_eq_some_iff] at hvalue
      obtain ⟨stored', hwl, heq⟩ := hvalue
      have husage := hv.usage.usage level stored hvl
      have husage' := hw.usage.usage level stored' hwl
      rw [hedges, ← husage'] at husage
      rw [hwl]
      congr 1
      cases stored
      cases stored'
      simp only at heq husage
      rw [heq, husage]
  have hbyLevel : v.blockHashesByLevel = w.blockHashesByLevel := by
    apply Multimap.ext hv.blocks.noEmpty hw.blocks.noEmpty
    intro level hash
    rw [hv.blocks.holds, hw.blocks.holds, hblocks]
  have hbyChild : v.edgeParentsByChild = w.edgeParentsByChild := by
    apply Multimap.ext hv.edges.parents_noEmpty hw.edges.parents_noEmpty
    intro child parent
    rw [hv.edges.parents, hw.edges.parents, hedges]
  have hbySpan : v.edgeIdsBySpan = w.edgeIdsBySpan := by
    apply NestedMultimap.ext hv.edges.spans_noEmpty hw.edges.spans_noEmpty
    intro childLevel parentLevel id
    rw [hv.edges.spans, hw.edges.spans, hedges]
  cases v
  cases w
  subst hdepth hextent hrevision htimestamp hpolicy hblocks hedges hstored hbyLevel hbyChild hbySpan
  rfl

namespace BlocksIndexed

variable {blocks : Map BlockHash GraphBlock} {byLevel : Multimap Nat BlockHash}
  {blocks' : Map BlockHash GraphBlock}

theorem congr (h : BlocksIndexed blocks byLevel)
    (hblocks : ∀ hash : BlockHash, (blocks'[hash]?).map GraphBlock.coordinate
      = (blocks[hash]?).map GraphBlock.coordinate) : BlocksIndexed blocks' byLevel := by
  refine ⟨?_, h.noEmpty⟩
  intro level hash
  have hcoordinate : ∀ (m : Map BlockHash GraphBlock),
      (∃ block : GraphBlock, m[hash]? = some block ∧ block.coordinate.level = level) ↔
        ∃ coordinate, (m[hash]?).map GraphBlock.coordinate = some coordinate ∧
          coordinate.level = level := by
    intro m
    cases m[hash]? with
    | none => simp
    | some block => simp
  rw [h.holds, hcoordinate, hcoordinate, hblocks]

theorem erase (h : BlocksIndexed blocks byLevel) {hash : BlockHash} {block : GraphBlock}
    (hblock : blocks[hash]? = some block) :
    BlocksIndexed (blocks.erase hash) (Multimap.remove byLevel block.coordinate.level hash) := by
  refine ⟨?_, Multimap.noEmpty_remove h.noEmpty _ _⟩
  intro level hash'
  rw [Multimap.holds_remove, h.holds, Map.get_erase]
  by_cases hh : hash = hash'
  . subst hh
    rw [if_pos rfl, hblock]
    simp
  . simp [hh]

theorem insert_new (h : BlocksIndexed blocks byLevel) {hash : BlockHash} (block : GraphBlock)
    (hnew : blocks[hash]? = none) :
    BlocksIndexed (blocks.insert hash block)
      (Multimap.add byLevel block.coordinate.level hash) := by
  refine ⟨?_, Multimap.noEmpty_add h.noEmpty _ _⟩
  intro level hash'
  rw [Multimap.holds_add, h.holds, Map.get_insert]
  by_cases hh : hash = hash'
  . subst hh
    rw [if_pos rfl, hnew]
    simp
  . simp [hh]

theorem eraseLevels (h : BlocksIndexed blocks byLevel) (levels : List Nat)
    (hblocks : ∀ hash : BlockHash, blocks'[hash]? =
      (blocks[hash]?).filter fun block => !levels.contains block.coordinate.level) :
    BlocksIndexed blocks' (levels.foldl (fun index level => index.erase level) byLevel) := by
  have hfold : Multimap.NoEmpty (levels.foldl (fun index level => index.erase level) byLevel) ∧
      ∀ level hash,
        Multimap.Holds (levels.foldl (fun index level => index.erase level) byLevel) level hash ↔
          level ∉ levels ∧ Multimap.Holds byLevel level hash := by
    have hnoEmpty := h.noEmpty
    clear h hblocks
    induction levels generalizing byLevel with
    | nil => simp [hnoEmpty]
    | cons a levels ih =>
      obtain ⟨hn, hiff⟩ := ih (Multimap.noEmpty_erase hnoEmpty a)
      rw [List.foldl_cons]
      refine ⟨hn, ?_⟩
      intro level hash
      rw [hiff, Multimap.holds_erase, List.mem_cons, not_or]
      constructor
      . rintro ⟨h1, h2, h3⟩
        exact ⟨⟨Ne.symm h2, h1⟩, h3⟩
      . rintro ⟨⟨h2, h1⟩, h3⟩
        exact ⟨h1, Ne.symm h2, h3⟩
  refine ⟨?_, hfold.1⟩
  intro level hash
  rw [hfold.2, h.holds, hblocks]
  cases blocks[hash]? with
  | none => simp
  | some block =>
    simp only [Option.some.injEq, exists_eq_left', Option.filter_some, List.contains_eq_mem,
      Bool.not_eq_true', decide_eq_false_iff_not]
    split
    . next hnot =>
      simp only [Option.some.injEq, exists_eq_left', and_iff_right_iff_imp]
      rintro rfl
      exact hnot
    . next hin =>
      rw [not_not] at hin
      simp only [reduceCtorEq, false_and, exists_false, iff_false, not_and]
      rintro hlevel rfl
      exact hlevel hin

end BlocksIndexed

namespace EdgesIndexed

variable {edges : Map EdgeId GraphEdge} {byChild : Multimap BlockHash BlockHash}
variable {bySpan : NestedMultimap Nat Nat EdgeId}

theorem insert_new (h : EdgesIndexed edges byChild bySpan) (edge : GraphEdge)
    (hnew : edges[edge.id]? = none) :
    EdgesIndexed (edges.insert edge.id edge) (Multimap.add byChild edge.id.child edge.id.parent)
      (NestedMultimap.add bySpan edge.childCoordinate.level edge.parentCoordinate.level edge.id) := by
  constructor
  case keyed =>
    intro id edge' hedge'
    rw [Map.get_insert] at hedge'
    split at hedge'
    . next heq =>
      cases hedge'
      exact heq
    . apply h.keyed id edge' hedge'
  case parents =>
    intro child parent
    rw [Multimap.holds_add, h.parents, Map.get_insert]
    by_cases hid : edge.id = ⟨parent, child⟩
    . rw [if_pos hid, hid]
      simp
    . rw [if_neg hid]
      have hne : ¬ (edge.id.child = child ∧ edge.id.parent = parent) := by
        rintro ⟨rfl, rfl⟩
        exact hid rfl
      simp only [hne, false_or]
  case parents_noEmpty => exact Multimap.noEmpty_add h.parents_noEmpty _ _
  case spans =>
    intro childLevel parentLevel id
    rw [NestedMultimap.holds_add, h.spans, Map.get_insert]
    by_cases hid : edge.id = id
    . subst hid
      rw [if_pos rfl, hnew]
      simp
    . simp [hid]
  case spans_noEmpty => exact NestedMultimap.noEmpty_add h.spans_noEmpty _ _ _

theorem erase (h : EdgesIndexed edges byChild bySpan) (hedge : edges[id]? = some edge) :
    EdgesIndexed (edges.erase id) (Multimap.remove byChild edge.id.child edge.id.parent)
      (NestedMultimap.remove bySpan edge.childCoordinate.level edge.parentCoordinate.level edge.id) := by
  have hkey := h.keyed id edge hedge
  constructor
  case keyed =>
    intro id' edge' hedge'
    rw [Map.get_erase] at hedge'
    split at hedge'
    . cases hedge'
    . apply h.keyed id' edge' hedge'
  case parents =>
    intro child parent
    rw [Multimap.holds_remove, h.parents, Map.get_erase, hkey]
    by_cases hid : id = ⟨parent, child⟩
    . rw [if_pos hid, hid]
      simp
    . rw [if_neg hid]
      have hne : ¬ (id.child = child ∧ id.parent = parent) := by
        rintro ⟨rfl, rfl⟩
        exact hid rfl
      simp only [hne, not_false_eq_true, true_and]
  case parents_noEmpty => exact Multimap.noEmpty_remove h.parents_noEmpty _ _
  case spans =>
    intro childLevel parentLevel id'
    rw [NestedMultimap.holds_remove h.spans_noEmpty, h.spans, Map.get_erase, hkey]
    by_cases hid : id = id'
    . subst hid
      rw [if_pos rfl, hedge]
      simp
    . simp [hid]
  case spans_noEmpty => exact NestedMultimap.noEmpty_remove h.spans_noEmpty _ _ _

end EdgesIndexed

namespace UsageExact

variable {levels : Map Nat StoredLevel} {edges : Map EdgeId GraphEdge}

theorem edgeUsage_insert (hnew : edges[edge.id]? = none) (level : Nat) :
    edgeUsage (edges.insert edge.id edge) level
      = edgeUsage edges level + if edge.parentCoordinate.level = level then 1 else 0 := by
  unfold edgeUsage
  rw [Map.count_insert_new _ hnew]
  simp

theorem edgeUsage_erase (hedge : edges[id]? = some edge) (level : Nat) :
    edgeUsage edges level
      = edgeUsage (edges.erase id) level + if edge.parentCoordinate.level = level then 1 else 0 := by
  unfold edgeUsage
  rw [Map.count_erase _ hedge]
  simp

theorem edgeUsage_pos_iff (edges : Map EdgeId GraphEdge) (level : Nat) :
    0 < edgeUsage edges level ↔ ∃ (id : EdgeId) (edge : GraphEdge), edges[id]? = some edge ∧
      edge.parentCoordinate.level = level := by
  unfold edgeUsage
  rw [Map.count_pos_iff]
  simp

variable {stored : StoredLevel} (h : UsageExact levels edges)
include h

theorem edgeUsage_eq_zero {level : Nat} (hlevel : levels[level]? = none) :
    edgeUsage edges level = 0 := by
  apply Nat.eq_zero_of_not_pos
  rw [edgeUsage_pos_iff]
  rintro ⟨id, edge, hedge, rfl⟩
  obtain ⟨stored, hstored⟩ := h.present id edge hedge
  rw [hlevel] at hstored
  cases hstored

theorem congr {levels' : Map Nat StoredLevel}
    (hpresent : ∀ (level : Nat) (stored : StoredLevel), levels[level]? = some stored →
      0 < stored.usageCount → ∃ stored', levels'[level]? = some stored')
    (husage : ∀ (level : Nat) (stored' : StoredLevel), levels'[level]? = some stored' →
      stored'.usageCount = (levels[level]?).elim 0 StoredLevel.usageCount) :
    UsageExact levels' edges := by
  constructor
  . intro level stored' hstored'
    rw [husage level stored' hstored']
    cases hlevel : levels[level]? with
    | none =>
      rw [h.edgeUsage_eq_zero hlevel]
      rfl
    | some stored => exact h.usage level stored hlevel
  . intro id edge hedge
    obtain ⟨stored, hstored⟩ := h.present id edge hedge
    apply hpresent _ stored hstored
    rw [h.usage _ _ hstored, edgeUsage_pos_iff]
    exact ⟨id, edge, hedge, rfl⟩
  . intro level stored' hstored'
    rw [husage level stored' hstored']
    cases hlevel : levels[level]? with
    | none => exact Nat.zero_le _
    | some stored => exact h.bounded level stored hlevel

theorem insert_new (hnew : edges[edge.id]? = none)
    (hstored : levels[edge.parentCoordinate.level]? = some stored)
    (hlt : stored.usageCount < u64Max) :
    UsageExact (levels.insert edge.parentCoordinate.level
      { stored with usageCount := stored.usageCount + 1 }) (edges.insert edge.id edge) := by
  constructor
  . intro level stored' hstored'
    rw [edgeUsage_insert hnew]
    rw [Map.get_insert] at hstored'
    split at hstored'
    . next heq =>
      cases hstored'
      rw [if_pos heq, ← heq, ← h.usage _ _ hstored]
    . next hne =>
      rw [if_neg hne]
      apply h.usage level stored' hstored'
  . intro id edge' hedge'
    rw [Map.get_insert] at hedge' ⊢
    split
    . exact ⟨_, rfl⟩
    . next hne =>
      split at hedge'
      . cases hedge'
        exact absurd rfl hne
      . apply h.present id edge' hedge'
  . intro level stored' hstored'
    rw [Map.get_insert] at hstored'
    split at hstored'
    . cases hstored'
      exact hlt
    . apply h.bounded level stored' hstored'

theorem erase (hedge : edges[id]? = some edge)
    (hstored : levels[edge.parentCoordinate.level]? = some stored) :
    UsageExact (levels.insert edge.parentCoordinate.level
      { stored with usageCount := stored.usageCount - 1 }) (edges.erase id) := by
  constructor
  . intro level stored' hstored'
    have hcount := edgeUsage_erase hedge level
    rw [Map.get_insert] at hstored'
    split at hstored'
    . next heq =>
      cases hstored'
      subst heq
      rw [if_pos rfl, ← h.usage _ _ hstored] at hcount
      dsimp only
      omega
    . next hne =>
      rw [if_neg hne] at hcount
      rw [h.usage level stored' hstored', hcount, Nat.add_zero]
  . intro id' edge' hedge'
    rw [Map.get_insert]
    split
    . exact ⟨_, rfl⟩
    . rw [Map.get_erase] at hedge'
      split at hedge'
      . cases hedge'
      . apply h.present id' edge' hedge'
  . intro level stored' hstored'
    rw [Map.get_insert] at hstored'
    split at hstored'
    . cases hstored'
      have := h.bounded _ _ hstored
      dsimp only
      omega
    . apply h.bounded level stored' hstored'

theorem usage_pos (hedge : edges[id]? = some edge) :
    ∃ stored, levels[edge.parentCoordinate.level]? = some stored ∧ 0 < stored.usageCount := by
  obtain ⟨stored, hstored⟩ := h.present id edge hedge
  refine ⟨stored, hstored, ?_⟩
  rw [h.usage _ _ hstored, edgeUsage_pos_iff]
  exact ⟨id, edge, hedge, rfl⟩

end UsageExact

end GraphView

end Kgi
