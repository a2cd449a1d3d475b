import GraphInspector.ApiModel.Impl.Compose
import GraphInspector.ApiModel.Lemmas.Replay

/-!
Composition of the deltas of one Head lineage.
-/

namespace Kgi

open Data

section Levels

structure LevelsChanged (changes : List LevelChange) (base cur : Nat → Option Level) : Prop where
  nodup : (changes.map LevelChange.level).Nodup
  changed : ∀ change ∈ changes, change.before = base change.level ∧ change.after = cur change.level
  kept : ∀ level, level ∉ changes.map LevelChange.level → cur level = base level

variable {left right : List LevelChange} {base mid cur : Nat → Option Level}

theorem get_leftLevels (h : LevelsChanged left base mid) (level : Nat) :
    (left.foldl (fun (changes : Map Nat (Option Level × Option Level)) change =>
      changes.insert change.level (change.before, change.after)) ∅)[level]?
      =
    if level ∈ left.map LevelChange.level then some (base level, mid level) else none := by
  have hfold := Map.get_foldl_insert
    (l := left.map fun change => (change.level, change.before, change.after))
    (f := fun level => (base level, mid level))
    (by
      intro entry hentry
      rw [List.mem_map] at hentry
      obtain ⟨change, hchange, rfl⟩ := hentry
      obtain ⟨hbefore, hafter⟩ := h.changed change hchange
      rw [← hbefore, ← hafter]) ∅ level
  rw [List.foldl_map, List.map_map] at hfold
  exact hfold

theorem get_composedLevels (hleft : LevelsChanged left base mid) (hright : LevelsChanged right mid cur)
    {leftChanges : Map Nat (Option Level × Option Level)}
    (hget : ∀ level, leftChanges[level]?
      = if level ∈ left.map LevelChange.level then some (base level, mid level) else none)
    (level : Nat) :
    (right.foldl (fun (changes : Map Nat (Option Level × Option Level)) change =>
      changes.alter change.level (followLevelChange change)) leftChanges)[level]?
      =
    if level ∈ left.map LevelChange.level ∨ level ∈ right.map LevelChange.level then
      some (base level, cur level)
    else none := by
  obtain ⟨hmem, habsent⟩ :=
    Map.get_foldl_alter LevelChange.level followLevelChange hright.nodup leftChanges
  by_cases hr : level ∈ right.map LevelChange.level
  . rw [if_pos (Or.inr hr)]
    rw [List.mem_map] at hr
    obtain ⟨change, hchange, rfl⟩ := hr
    obtain ⟨hbefore, hafter⟩ := hright.changed change hchange
    rw [hmem change hchange, hget]
    unfold followLevelChange
    rw [hafter]
    by_cases hl : change.level ∈ left.map LevelChange.level
    . rw [if_pos hl]
    . rw [if_neg hl, hbefore, hleft.kept _ hl]
  . rw [habsent level hr, hget]
    by_cases hl : level ∈ left.map LevelChange.level
    . rw [if_pos hl, if_pos (Or.inl hl), hright.kept level hr]
    . rw [if_neg hl, if_neg (not_or.mpr ⟨hl, hr⟩)]

theorem composeLevelChanges_changed (hleft : LevelsChanged left base mid)
    (hright : LevelsChanged right mid cur) :
    LevelsChanged (composeLevelChanges left right) base cur := by
  have hget := get_composedLevels hleft hright (get_leftLevels hleft)
  unfold composeLevelChanges
  constructor
  . apply Map.nodup_keys_filterMap
    intro entry change hchange
    split at hchange
    . cases hchange
      rfl
    . cases hchange
  . intro change hchange
    rw [List.mem_filterMap] at hchange
    obtain ⟨⟨level, before, after⟩, hentry, hchange⟩ := hchange
    rw [Map.mem_toList, hget] at hentry
    split at hentry
    . cases hentry
      split at hchange
      . cases hchange
        exact ⟨rfl, rfl⟩
      . cases hchange
    . cases hentry
  . intro level hlevel
    by_contra hne
    have htouched : level ∈ left.map LevelChange.level ∨ level ∈ right.map LevelChange.level := by
      by_contra hneither
      rw [not_or] at hneither
      exact hne ((hright.kept level hneither.2).trans (hleft.kept level hneither.1))
    apply hlevel
    rw [List.mem_map]
    refine ⟨⟨level, base level, cur level⟩, ?_, rfl⟩
    rw [List.mem_filterMap]
    refine ⟨(level, base level, cur level), ?_, if_pos (Ne.symm hne)⟩
    rw [Map.mem_toList, hget, if_pos htouched]

end Levels

section Fields

variable {α : Type} [DecidableEq α]

theorem get_composeFieldChanges (left right : Map BlockHash (FieldChange α)) (hash : BlockHash) :
    (composeFieldChanges left right)[hash]?
      =
    (right[hash]?.elim left[hash]? fun next => followFieldChange next left[hash]?).filter
      fun change => change.before ≠ change.after := by
  obtain ⟨hmem, habsent⟩ := Map.get_foldl_alter Prod.fst
    (fun (entry : BlockHash × FieldChange α) => followFieldChange entry.2)
    (Map.nodup_keys_toList right) left
  have hfold : (right.toList.foldl (fun (composed : Map BlockHash (FieldChange α)) entry =>
      composed.alter entry.1 (followFieldChange entry.2)) left)[hash]?
        = right[hash]?.elim left[hash]? fun next => followFieldChange next left[hash]? := by
    cases hright : right[hash]? with
    | none =>
      apply habsent
      rw [List.mem_map]
      rintro ⟨⟨hash', next⟩, hnext, rfl⟩
      rw [Map.mem_toList, hright] at hnext
      cases hnext
    | some next => exact hmem (hash, next) ((Map.mem_toList _ _ _).mpr hright)
  unfold composeFieldChanges
  rw [Map.get_mapEntries, hfold]
  generalize right[hash]?.elim left[hash]? (fun next => followFieldChange next left[hash]?) = composed
  cases composed with
  | none => rfl
  | some change => simp [Option.filter_some]

variable {left right : Map BlockHash (FieldChange α)} {hash : BlockHash} {value : α}

theorem elim_composeFieldChanges
    (hleft : ∀ change, left[hash]? = some change → change.before = value)
    (hright : left[hash]? = none → ∀ change, right[hash]? = some change → change.before = value) :
    (composeFieldChanges left right)[hash]?.elim value FieldChange.after
      = right[hash]?.elim (left[hash]?.elim value FieldChange.after) FieldChange.after := by
  have hfilter : ∀ change : FieldChange α, change.before = value →
      ((some change).filter fun change => change.before ≠ change.after).elim value FieldChange.after
        = change.after := by
    intro change hbefore
    rw [Option.filter_some]
    split
    . rfl
    . next heq =>
      rw [decide_eq_true_eq, not_not] at heq
      exact hbefore.symm.trans heq
  rw [get_composeFieldChanges]
  cases hl : left[hash]? with
  | none =>
    cases hr : right[hash]? with
    | none => rfl
    | some next => exact hfilter next (hright hl next hr)
  | some change =>
    cases hr : right[hash]? with
    | none => exact hfilter change (hleft change hl)
    | some next => exact hfilter { change with after := next.after } (hleft change hl)

theorem composeFieldChanges_eq_some {change : FieldChange α}
    (h : (composeFieldChanges left right)[hash]? = some change) :
    (∃ first, left[hash]? = some first ∧ change.before = first.before) ∨
      (left[hash]? = none ∧ ∃ second, right[hash]? = some second ∧ change.before = second.before) := by
  rw [get_composeFieldChanges, Option.filter_eq_some_iff] at h
  cases hl : left[hash]? with
  | none =>
    rw [hl] at h
    cases hr : right[hash]? with
    | none =>
      rw [hr] at h
      cases h.1
    | some next =>
      rw [hr] at h
      cases h.1
      exact Or.inr ⟨rfl, _, rfl, rfl⟩
  | some first =>
    rw [hl] at h
    cases hr : right[hash]? with
    | none =>
      rw [hr] at h
      cases h.1
      exact Or.inl ⟨_, rfl, rfl⟩
    | some next =>
      rw [hr] at h
      cases h.1
      exact Or.inl ⟨_, rfl, rfl⟩

end Fields

theorem GraphDelta.compose_eq_ok {delta next : GraphDelta}
    (h : delta.toRevisionId = next.fromRevisionId) :
    delta.compose next = .ok (.ok
      { fromRevisionId := delta.fromRevisionId
        toRevisionId := next.toRevisionId
        revisionTimestampMs := next.revisionTimestampMs
        headLevel := next.headLevel
        blockChanges := Map.extend delta.blockChanges next.blockChanges
        edgeChanges := Map.extend delta.edgeChanges next.edgeChanges
        levelChanges := composeLevelChanges delta.levelChanges next.levelChanges
        isInVspcChanges := composeFieldChanges delta.isInVspcChanges next.isInVspcChanges
        colorChanges := composeFieldChanges delta.colorChanges next.colorChanges
        forward := Nat.lt_trans delta.forward (h ▸ next.forward)
        headLevel_pos := next.headLevel_pos }) := by
  have hforward : delta.fromRevisionId < next.toRevisionId :=
    Nat.lt_trans delta.forward (h ▸ next.forward)
  unfold GraphDelta.compose GraphDelta.new
  rw [if_neg (not_not.mpr h), dif_neg (Nat.not_le.mpr hforward),
    dif_neg (Nat.ne_of_gt next.headLevel_pos)]

namespace GraphView

def origin (delta : GraphDelta) (source : GraphView) (hash : BlockHash) : Option GraphBlock :=
  delta.blockChanges[hash]?.getD source.blocks[hash]?

def StartsAt {α : Type} (field : GraphBlock → α) (delta : GraphDelta) (source : GraphView)
    (changes : Map BlockHash (FieldChange α)) : Prop :=
  ∀ hash change, changes[hash]? = some change →
    delta.blockChanges[hash]? = some none ∨
      ∃ block, origin delta source hash = some block ∧ change.before = field block

structure Spans (level : BlockHash → Nat) (delta : GraphDelta) (source target : GraphView) : Prop
    extends Connects delta source target where
  low_le : source.lowLevel ≤ target.lowLevel
  inserted : ∀ hash block, delta.blockChanges[hash]? = some (some block) →
    source.blocks[hash]? = none ∧ source.lowLevel ≤ level hash
  removed : ∀ hash : BlockHash, delta.blockChanges[hash]? = some none → level hash < target.lowLevel
  memberships : StartsAt GraphBlock.isInVspc delta source delta.isInVspcChanges
  colors : StartsAt GraphBlock.color delta source delta.colorChanges
  levelsChanged : LevelsChanged delta.levelChanges source.levelValue target.levelValue

section Compose

variable {level : BlockHash → Nat} {first second composed : GraphDelta}
variable {source middle target : GraphView}

theorem origin_compose (source : GraphView)
    (hblocks : composed.blockChanges = Map.extend first.blockChanges second.blockChanges)
    (hash : BlockHash) :
    origin composed source hash = second.blockChanges[hash]?.getD (origin first source hash) := by
  unfold origin
  rw [hblocks, Map.get_extend]
  cases second.blockChanges[hash]? with
  | none => rfl
  | some change => rfl

variable {hash : BlockHash} {block : GraphBlock} {α : Type} {field : GraphBlock → α}
variable {left right : Map BlockHash (FieldChange α)} (hfirst : Spans level first source middle)
variable (hsecond : Spans level second middle target)
include hfirst hsecond

theorem Spans.not_changed {changes : Map BlockHash (FieldChange α)}
    (hchanges : StartsAt field first source changes)
    (hinserted : second.blockChanges[hash]? = some (some block)) : changes[hash]? = none := by
  obtain ⟨habsent, hlow⟩ := hsecond.inserted hash block hinserted
  cases hchange : changes[hash]? with
  | none => rfl
  | some change =>
    obtain hremoved | ⟨block', horigin, _⟩ := hchanges hash change hchange
    . have := hfirst.removed hash hremoved
      omega
    . have hmiddle := hfirst.blocks hash
      unfold origin at horigin
      rw [horigin, habsent] at hmiddle
      cases hmiddle

section StartsAt

variable (hleft : StartsAt field first source left) (hright : StartsAt field second middle right)
variable (hfield : ∀ hash block, field (projectFields first.isInVspcChanges first.colorChanges hash block)
  = left[hash]?.elim (field block) FieldChange.after)
variable (hblocks : composed.blockChanges = Map.extend first.blockChanges second.blockChanges)
include hleft hright hfield hblocks

theorem Spans.field_before (horigin : origin composed source hash = some block) :
    (∀ change, left[hash]? = some change → change.before = field block) ∧
      (left[hash]? = none → ∀ change, right[hash]? = some change → change.before = field block) := by
  rw [origin_compose source hblocks] at horigin
  cases hsecondBlock : second.blockChanges[hash]? with
  | none =>
    rw [hsecondBlock, Option.getD_none] at horigin
    constructor
    . intro change hchange
      obtain hremoved | ⟨block', horigin', hbefore⟩ := hleft hash change hchange
      . unfold origin at horigin
        rw [hremoved] at horigin
        cases horigin
      . rw [horigin] at horigin'
        cases horigin'
        exact hbefore
    . intro hnone change hchange
      obtain hremoved | ⟨block', horigin', hbefore⟩ := hright hash change hchange
      . rw [hsecondBlock] at hremoved
        cases hremoved
      . have hmiddle := hfirst.blocks hash
        unfold origin at horigin horigin'
        rw [hsecondBlock, Option.getD_none] at horigin'
        rw [horigin', horigin, Option.map_some, Option.some.injEq] at hmiddle
        rw [hbefore, hmiddle, hfield, hnone]
        rfl
  | some inserted =>
    rw [hsecondBlock, Option.getD_some] at horigin
    subst horigin
    have hnone := hfirst.not_changed hsecond hleft hsecondBlock
    constructor
    . intro change hchange
      rw [hnone] at hchange
      cases hchange
    . intro _ change hchange
      obtain hremoved | ⟨block', horigin', hbefore⟩ := hright hash change hchange
      . rw [hsecondBlock] at hremoved
        cases hremoved
      . unfold origin at horigin'
        rw [hsecondBlock] at horigin'
        cases horigin'
        exact hbefore

theorem Spans.startsAt_compose [DecidableEq α] :
    StartsAt field composed source (composeFieldChanges left right) := by
  intro hash change hchange
  cases horigin : origin composed source hash with
  | some block =>
    obtain ⟨hbefore, hbefore'⟩ :=
      hfirst.field_before hsecond hleft hright hfield hblocks horigin
    refine Or.inr ⟨block, rfl, ?_⟩
    obtain ⟨change', hchange', heq⟩ | ⟨hnone, change', hchange', heq⟩ :=
      composeFieldChanges_eq_some hchange
    . rw [heq, hbefore change' hchange']
    . rw [heq, hbefore' hnone change' hchange']
  | none =>
    left
    rw [hblocks, Map.get_extend]
    rw [origin_compose source hblocks] at horigin
    cases hsecondBlock : second.blockChanges[hash]? with
    | some inserted =>
      rw [hsecondBlock, Option.getD_some] at horigin
      rw [horigin]
      rfl
    | none =>
      -- the first delta removed the block, since neither delta can change a block that is not there
      rw [hsecondBlock, Option.getD_none] at horigin
      rw [Option.none_or]
      obtain ⟨change', hchange', _⟩ | ⟨_, change', hchange', _⟩ := composeFieldChanges_eq_some hchange
      . obtain hremoved | ⟨block, horigin', _⟩ := hleft hash change' hchange'
        . exact hremoved
        . rw [horigin] at horigin'
          cases horigin'
      . obtain hremoved | ⟨block, horigin', _⟩ := hright hash change' hchange'
        . rw [hsecondBlock] at hremoved
          cases hremoved
        . have hmiddle := hfirst.blocks hash
          unfold origin at horigin horigin'
          rw [hsecondBlock, Option.getD_none] at horigin'
          rw [horigin', horigin] at hmiddle
          cases hmiddle

end StartsAt

theorem Spans.blocks_compose
    (hblocks : composed.blockChanges = Map.extend first.blockChanges second.blockChanges)
    (hash : BlockHash) :
    target.blocks[hash]? = (origin composed source hash).map (projectFields
      (composeFieldChanges first.isInVspcChanges second.isInVspcChanges)
      (composeFieldChanges first.colorChanges second.colorChanges) hash) := by
  have htarget := hsecond.blocks hash
  have hmiddle := hfirst.blocks hash
  have horigin := origin_compose source hblocks hash
  rw [htarget]
  cases hcomposed : origin composed source hash with
  | none =>
    rw [hcomposed] at horigin
    cases hsecondBlock : second.blockChanges[hash]? with
    | none =>
      rw [hsecondBlock, Option.getD_none] at horigin
      unfold origin at horigin
      rw [← horigin] at hmiddle
      rw [Option.getD_none, hmiddle]
      rfl
    | some inserted =>
      rw [hsecondBlock, Option.getD_some] at horigin
      rw [← horigin]
      rfl
  | some block =>
    obtain ⟨hmember, hmember'⟩ := hfirst.field_before hsecond hfirst.memberships hsecond.memberships
      (fun _ _ => rfl) hblocks hcomposed
    obtain ⟨hcolor, hcolor'⟩ := hfirst.field_before hsecond hfirst.colors hsecond.colors
      (fun _ _ => rfl) hblocks hcomposed
    have hproject : projectFields
        (composeFieldChanges first.isInVspcChanges second.isInVspcChanges)
        (composeFieldChanges first.colorChanges second.colorChanges) hash block
        = projectFields second.isInVspcChanges second.colorChanges hash
            (projectFields first.isInVspcChanges first.colorChanges hash block) := by
      unfold projectFields
      rw [elim_composeFieldChanges hmember hmember', elim_composeFieldChanges hcolor hcolor']
    rw [Option.map_some, hproject]
    rw [hcomposed] at horigin
    cases hsecondBlock : second.blockChanges[hash]? with
    | none =>
      rw [hsecondBlock, Option.getD_none] at horigin
      unfold origin at horigin
      rw [← horigin, Option.map_some] at hmiddle
      rw [Option.getD_none, hmiddle, Option.map_some]
    | some inserted =>
      rw [hsecondBlock, Option.getD_some] at horigin
      subst horigin
      rw [Option.getD_some, Option.map_some]
      have hkept : projectFields first.isInVspcChanges first.colorChanges hash block = block := by
        unfold projectFields
        rw [hfirst.not_changed hsecond hfirst.memberships hsecondBlock,
          hfirst.not_changed hsecond hfirst.colors hsecondBlock]
        rfl
      rw [hkept]

theorem Spans.compose :
    ∃ composed, first.compose second = .ok (.ok composed) ∧ Spans level composed source target := by
  refine ⟨_, GraphDelta.compose_eq_ok (hfirst.revision.2.symm.trans hsecond.revision.1), ?_⟩
  have hlevels := composeLevelChanges_changed hfirst.levelsChanged hsecond.levelsChanged
  constructor
  case toConnects =>
    constructor
    case maxDepth => exact hsecond.maxDepth.trans hfirst.maxDepth
    case policy => exact ⟨hfirst.policy.1, hsecond.policy.2⟩
    case extent =>
      rw [← hfirst.maxDepth]
      exact hsecond.extent
    case revision => exact ⟨hfirst.revision.1, hsecond.revision.2⟩
    case timestamp => exact hsecond.timestamp
    case blocks =>
      intro hash
      exact hfirst.blocks_compose hsecond rfl hash
    case toRewires =>
      refine ⟨?_, hlevels.nodup, fun change hchange => (hlevels.changed change hchange).2.symm,
        hlevels.kept⟩
      intro id
      rw [hsecond.edges, hfirst.edges, Map.get_extend]
      cases second.edgeChanges[id]? with
      | none => rfl
      | some change => rfl
  case low_le => exact hfirst.low_le.trans hsecond.low_le
  case inserted =>
    intro hash block hinserted
    rw [Map.get_extend] at hinserted
    cases hsecondBlock : second.blockChanges[hash]? with
    | none =>
      rw [hsecondBlock, Option.none_or] at hinserted
      exact hfirst.inserted hash block hinserted
    | some inserted =>
      rw [hsecondBlock, Option.some_or] at hinserted
      cases hinserted
      obtain ⟨habsent, hlow⟩ := hsecond.inserted hash block hsecondBlock
      refine ⟨?_, hfirst.low_le.trans hlow⟩
      have hmiddle := hfirst.blocks hash
      rw [habsent, eq_comm, Option.map_eq_none_iff] at hmiddle
      cases hfirstBlock : first.blockChanges[hash]? with
      | none =>
        rw [hfirstBlock, Option.getD_none] at hmiddle
        exact hmiddle
      | some change =>
        rw [hfirstBlock, Option.getD_some] at hmiddle
        subst hmiddle
        have := hfirst.removed hash hfirstBlock
        omega
  case removed =>
    intro hash hremoved
    rw [Map.get_extend] at hremoved
    cases hsecondBlock : second.blockChanges[hash]? with
    | none =>
      rw [hsecondBlock, Option.none_or] at hremoved
      exact Nat.lt_of_lt_of_le (hfirst.removed hash hremoved) hsecond.low_le
    | some change =>
      rw [hsecondBlock, Option.some_or] at hremoved
      cases hremoved
      exact hsecond.removed hash hsecondBlock
  case memberships =>
    exact hfirst.startsAt_compose hsecond hfirst.memberships hsecond.memberships (fun _ _ => rfl) rfl
  case colors =>
    exact hfirst.startsAt_compose hsecond hfirst.colors hsecond.colors (fun _ _ => rfl) rfl
  case levelsChanged => exact hlevels

end Compose

end GraphView

end Kgi
