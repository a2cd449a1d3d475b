import GraphInspector.ApiModel.Lemmas.Progress

/-!
The projection of a committed VSPC transition into a Head view acts on the window as `Window.commitVspc`.
-/

namespace Kgi

open Data

namespace GraphView

open Progress

variable {base : GraphView} {progress : Progress} {hash : BlockHash}

theorem Progress.FieldsTracked.default {base : GraphView} (h : base.Derived) :
    FieldsTracked base ⟨base, .default⟩ := by
  constructor
  case toTracked =>
    refine ⟨⟨rfl, rfl, rfl, rfl⟩, h, ?_, ?_⟩
    . apply Journal.Tracks.empty
    . apply Journal.Tracks.empty
  case blocks => rfl
  case isInVspc => apply Journal.Tracks.empty
  case colors => apply Journal.Tracks.empty
  case unprojected =>
    intro hash
    rfl
  case extent => rfl

variable {view : GraphView} {block : GraphBlock}

theorem tracks_setBlock {α : Type} {field : GraphBlock → α}
    {journal journal' : Journal BlockHash α} {block' : GraphBlock}
    (h : Journal.Tracks some (fieldOf base field) (fieldOf view field) journal)
    (hblock : view.blocks[hash]? = some block)
    (hjournal : journal' = journal.capture hash (field block) ∨
      (journal' = journal ∧ field block' = field block)) :
    Journal.Tracks some (fieldOf base field)
      (fieldOf { view with blocks := view.blocks.insert hash block' } field) journal' := by
  have hother : ∀ hash', hash ≠ hash' →
      fieldOf { view with blocks := view.blocks.insert hash block' } field hash'
        = fieldOf view field hash' := by
    intro hash' hne
    unfold fieldOf
    rw [Map.get_insert, if_neg hne]
  obtain rfl | ⟨rfl, hfield⟩ := hjournal
  . apply h.capture _ hother
    unfold fieldOf
    rw [hblock]
    rfl
  . apply h.congr
    intro hash'
    by_cases heq : hash = hash'
    . subst heq
      unfold fieldOf
      rw [Map.get_insert, if_pos rfl, hblock, Option.map_some, Option.map_some, hfield]
    . exact hother hash' heq

theorem Progress.FieldsTracked.setBlock (h : FieldsTracked base progress) (block' : GraphBlock)
    (hblock : progress.view.blocks[hash]? = some block)
    (hsame : Progress.unprojected block' = Progress.unprojected block)
    {isInVspc : Journal BlockHash Bool} {colors : Journal BlockHash BlockColor}
    (hisInVspc : isInVspc = progress.mutation.isInVspc.capture hash block.isInVspc ∨
      (isInVspc = progress.mutation.isInVspc ∧ block'.isInVspc = block.isInVspc))
    (hcolors : colors = progress.mutation.colors.capture hash block.color ∨
      (colors = progress.mutation.colors ∧ block'.color = block.color)) :
    FieldsTracked base ⟨{ progress.view with blocks := progress.view.blocks.insert hash block' },
      { progress.mutation with isInVspc := isInVspc, colors := colors }⟩ := by
  constructor
  case toTracked =>
    refine ⟨h.lineage.congr rfl rfl rfl rfl, ⟨?_, h.derived.edges, h.derived.usage⟩, h.edges, h.levels⟩
    apply h.derived.blocks.congr
    intro hash'
    rw [Map.get_insert]
    split
    . next heq =>
      subst heq
      have hcoordinate : (Progress.unprojected block').coordinate
          = (Progress.unprojected block).coordinate := by rw [hsame]
      rw [hblock, Option.map_some, Option.map_some]
      exact congrArg some hcoordinate
    . rfl
  case blocks => exact h.blocks
  case isInVspc => exact tracks_setBlock h.isInVspc hblock hisInVspc
  case colors => exact tracks_setBlock h.colors hblock hcolors
  case unprojected =>
    intro hash'
    rw [← h.unprojected hash']
    rw [Map.get_insert]
    split
    . next heq =>
      subst heq
      rw [hblock, Option.map_some, Option.map_some, hsame]
    . rfl
  case extent => exact h.extent

theorem window_modifyBlock (f : GraphBlock → GraphBlock) (hblock : view.blocks[hash]? = some block) :
    ({ view with blocks := view.blocks.insert hash (f block) } : GraphView).window
      = view.window.modifyBlock f hash := by
  apply Window.ext
  . funext hash'
    unfold Window.modifyBlock window
    dsimp only
    rw [Map.get_insert, Function.update_apply]
    split
    . next heq => rw [if_pos heq.symm, hblock, Option.map_some]
    . next hne => rw [if_neg (Ne.symm hne)]
  . rfl
  . rfl

theorem modifyBlock_of_absent {window : Window} (f : GraphBlock → GraphBlock)
    (h : window.blocks hash = none) : window.modifyBlock f hash = window := by
  unfold Window.modifyBlock
  rw [h, Option.map_none, ← h, Function.update_eq_self]

theorem unmarkBlock_tracked (h : FieldsTracked base progress) (hash : BlockHash) :
    FieldsTracked base (unmarkBlock progress hash) ∧
      (unmarkBlock progress hash).view.window
        = progress.view.window.modifyBlock Window.unmark hash := by
  unfold unmarkBlock
  split
  . next habsent => exact ⟨h, (modifyBlock_of_absent _ habsent).symm⟩
  . next block hblock =>
    exact ⟨h.setBlock (Window.unmark block) hblock rfl (Or.inl rfl) (Or.inl rfl),
      window_modifyBlock Window.unmark hblock⟩

theorem markBlock_tracked (h : FieldsTracked base progress) (hash : BlockHash) :
    FieldsTracked base (markBlock progress hash) ∧
      (markBlock progress hash).view.window
        = progress.view.window.modifyBlock Window.mark hash := by
  unfold markBlock
  split
  . next habsent => exact ⟨h, (modifyBlock_of_absent _ habsent).symm⟩
  . next block hblock =>
    exact ⟨h.setBlock (Window.mark block) hblock rfl (Or.inl rfl) (Or.inr ⟨rfl, rfl⟩),
      window_modifyBlock Window.mark hblock⟩

theorem colorBlock_tracked (color : BlockColor) (h : FieldsTracked base progress)
    (hash : BlockHash) :
    FieldsTracked base (colorBlock color progress hash) ∧
      (colorBlock color progress hash).view.window
        = progress.view.window.modifyBlock (Window.paint color) hash := by
  unfold colorBlock
  split
  . next habsent => exact ⟨h, (modifyBlock_of_absent _ habsent).symm⟩
  . next block hblock =>
    exact ⟨h.setBlock (Window.paint color block) hblock rfl (Or.inr ⟨rfl, rfl⟩) (Or.inl rfl),
      window_modifyBlock (Window.paint color) hblock⟩

theorem foldl_tracked {A : Type} {step : Progress → A → Progress} {act : Window → A → Window}
    (hstep : ∀ {progress : Progress}, FieldsTracked base progress → ∀ a,
      FieldsTracked base (step progress a) ∧
        (step progress a).view.window = act progress.view.window a)
    (h : FieldsTracked base progress) (l : List A) :
    FieldsTracked base (l.foldl step progress) ∧
      (l.foldl step progress).view.window = l.foldl act progress.view.window := by
  induction l generalizing progress with
  | nil => exact ⟨h, rfl⟩
  | cons a l ih =>
    obtain ⟨hnext, hwindow⟩ := hstep h a
    rw [List.foldl_cons, List.foldl_cons, ← hwindow]
    exact ih hnext

theorem colorMergeSets_tracked (h : FieldsTracked base progress)
    (metadata : VspcProjectionMetadata) :
    FieldsTracked base (colorMergeSets progress metadata) ∧
      (colorMergeSets progress metadata).view.window
        = progress.view.window.paintMergeSets metadata := by
  unfold colorMergeSets Window.paintMergeSets
  obtain ⟨hblue, hblueWindow⟩ := foldl_tracked (colorBlock_tracked .blue) h metadata.blueMergeSet
  rw [← hblueWindow]
  exact foldl_tracked (colorBlock_tracked .red) hblue metadata.redMergeSet

theorem scoreLevel_tracked (h : FieldsTracked base progress) (snapshot : LevelCommitted) :
    FieldsTracked base (scoreLevel progress snapshot) ∧
      (scoreLevel progress snapshot).view.window = progress.view.window.scoreLevel snapshot := by
  unfold scoreLevel
  split
  . next habsent =>
    refine ⟨h, ?_⟩
    have hlevel : progress.view.window.levels snapshot.level = none := by
      unfold window levelValue
      dsimp only
      rw [habsent]
      rfl
    unfold Window.scoreLevel
    rw [hlevel, Option.map_none, ← hlevel, Function.update_eq_self]
  . next stored hstored =>
    have hvalue : progress.view.levelValue snapshot.level = some stored.value := by
      unfold levelValue
      rw [hstored]
      rfl
    refine ⟨?_, ?_⟩
    . constructor
      case toTracked =>
        refine ⟨h.lineage.congr rfl rfl rfl rfl, ⟨h.derived.blocks, h.derived.edges, ?_⟩, h.edges, ?_⟩
        . apply h.derived.usage.congr
          . intro level stored' hstored' _
            rw [Map.get_insert]
            split
            . exact ⟨_, rfl⟩
            . exact ⟨stored', hstored'⟩
          . intro level stored' hstored'
            rw [Map.get_insert] at hstored'
            split at hstored'
            . next heq =>
              subst heq
              cases hstored'
              rw [hstored]
              rfl
            . rw [hstored']
              rfl
        . apply h.levels.capture hvalue.symm
          intro level hne
          unfold levelValue
          rw [Map.get_insert, if_neg hne]
      case blocks => exact h.blocks
      case isInVspc => exact h.isInVspc
      case colors => exact h.colors
      case unprojected => exact h.unprojected
      case extent => exact h.extent
    . apply Window.ext
      . rfl
      . rfl
      . funext level
        unfold Window.scoreLevel window levelValue
        dsimp only
        rw [Map.get_insert, Function.update_apply]
        split
        . next heq =>
          rw [if_pos heq.symm, hstored]
          rfl
        . next hne => rw [if_neg (Ne.symm hne)]

theorem applyVspcProjection_metadata (h : base.Derived) (committed : VspcCommitted)
    (metadata : List VspcProjectionMetadata) :
    FieldsTracked base (applyVspcProjection base committed metadata) ∧
      (applyVspcProjection base committed metadata).view.window
        = base.window.projectVspc committed metadata := by
  unfold applyVspcProjection Window.projectVspc
  obtain ⟨hunmarked, hwindow₁⟩ :=
    foldl_tracked unmarkBlock_tracked (FieldsTracked.default h) committed.removed
  obtain ⟨hmarked, hwindow₂⟩ := foldl_tracked markBlock_tracked hunmarked committed.added
  obtain ⟨hcolored, hwindow₃⟩ := foldl_tracked colorMergeSets_tracked hmarked metadata
  obtain ⟨hscored, hwindow₄⟩ := foldl_tracked scoreLevel_tracked hcolored committed.levelSnapshots
  refine ⟨hscored, ?_⟩
  rw [hwindow₄, hwindow₃, hwindow₂, hwindow₁]

theorem applyVspcProjection_tracked (h : base.Derived) (committed : VspcCommitted) :
    FieldsTracked base (applyVspcProjection base committed (committed.added.filterMap fun hash =>
        (base.blocks[hash]?).map VspcProjectionMetadata.ofBlock)) ∧
      (applyVspcProjection base committed (committed.added.filterMap fun hash =>
        (base.blocks[hash]?).map VspcProjectionMetadata.ofBlock)).view.window
        = base.window.commitVspc committed :=
  applyVspcProjection_metadata h committed _

end GraphView

end Kgi
