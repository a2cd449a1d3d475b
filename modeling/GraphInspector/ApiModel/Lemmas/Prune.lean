import GraphInspector.ApiModel.Lemmas.BlockProjection

/-!
Pruning a Head view.
-/

namespace Kgi

open Data

namespace GraphView

open Progress

variable {base : GraphView} {progress : Progress} {view : GraphView}

section Blocks

theorem foldlM_pruneBlock (l : List BlockHash) (hnodup : l.Nodup) (progress : Progress)
    (hpresent : ∀ hash ∈ l, ∃ block, progress.view.blocks[hash]? = some block)
    (htracks : Journal.Tracks id (fun hash : BlockHash => base.blocks[hash]?)
      (fun hash : BlockHash => progress.view.blocks[hash]?) progress.mutation.blocks) :
    ∃ blocks journal,
      l.foldlM pruneBlock progress = .ok ⟨{ progress.view with blocks := blocks },
        { progress.mutation with blocks := journal }⟩ ∧
      (∀ hash : BlockHash, blocks[hash]? =
        if hash ∈ l then none else progress.view.blocks[hash]?) ∧
      Journal.Tracks id (fun hash : BlockHash => base.blocks[hash]?)
        (fun hash : BlockHash => blocks[hash]?) journal := by
  induction l generalizing progress with
  | nil => exact ⟨_, _, rfl, fun _ => rfl, htracks⟩
  | cons hash l ih =>
    rw [List.nodup_cons] at hnodup
    obtain ⟨block, hblock⟩ := hpresent hash List.mem_cons_self
    rw [List.foldlM_cons]
    unfold pruneBlock
    rw [hblock]
    obtain ⟨blocks, journal, hfold, hblocks, hjournal⟩ := ih hnodup.2
      ⟨{ progress.view with blocks := progress.view.blocks.erase hash }, { progress.mutation with
        blocks := progress.mutation.blocks.capture hash (some block) }⟩
      (by
        intro hash' hmem
        rw [Map.get_erase, if_neg]
        . exact hpresent hash' (List.mem_cons_of_mem hash hmem)
        . rintro rfl
          exact hnodup.1 hmem)
      (by
        apply htracks.capture hblock.symm
        intro hash' hne
        rw [Map.get_erase, if_neg hne])
    refine ⟨blocks, journal, hfold, ?_, hjournal⟩
    intro hash'
    rw [hblocks hash']
    rw [Map.get_erase]
    by_cases heq : hash = hash'
    . simp [heq]
    . simp [heq, Ne.symm heq]

def prunedBlocks (view : GraphView) (lowLevel : Nat) : List BlockHash :=
  (prunedBlockLevels view lowLevel).flatMap (Multimap.bucket view.blockHashesByLevel)

theorem mem_prunedBlockLevels (h : view.Derived) (lowLevel level : Nat) :
    level ∈ prunedBlockLevels view lowLevel ↔ level < lowLevel ∧
      ∃ (hash : BlockHash) (block : GraphBlock), view.blocks[hash]? = some block ∧
        block.coordinate.level = level := by
  unfold prunedBlockLevels
  rw [List.mem_filter, List.mem_map]
  simp only [decide_eq_true_eq]
  constructor
  . rintro ⟨⟨⟨level', bucket⟩, hmem, rfl⟩, hlt⟩
    rw [Map.mem_toList] at hmem
    obtain ⟨hash, hhash⟩ := h.blocks.noEmpty _ _ hmem
    refine ⟨hlt, hash, ?_⟩
    exact (h.blocks.holds _ hash).mp ⟨bucket, hmem, hhash⟩
  . rintro ⟨hlt, hash, hblock⟩
    obtain ⟨bucket, hbucket, _⟩ := (h.blocks.holds level hash).mpr hblock
    exact ⟨⟨(level, bucket), (Map.mem_toList _ _ _).mpr hbucket, rfl⟩, hlt⟩

theorem mem_prunedBlocks (h : view.Derived) (lowLevel : Nat) (hash : BlockHash) :
    hash ∈ prunedBlocks view lowLevel ↔ ∃ block : GraphBlock, view.blocks[hash]? = some block ∧
      block.coordinate.level < lowLevel := by
  unfold prunedBlocks
  rw [List.mem_flatMap]
  simp only [Multimap.mem_bucket, h.blocks.holds, mem_prunedBlockLevels h]
  constructor
  . rintro ⟨level, ⟨hlt, _⟩, block, hblock, rfl⟩
    exact ⟨block, hblock, hlt⟩
  . rintro ⟨block, hblock, hlt⟩
    exact ⟨block.coordinate.level, ⟨hlt, hash, block, hblock, rfl⟩, block, hblock, rfl⟩

theorem nodup_prunedBlocks (h : view.Derived) (lowLevel : Nat) :
    (prunedBlocks view lowLevel).Nodup := by
  unfold prunedBlocks
  rw [List.nodup_flatMap]
  constructor
  . intro level _
    exact Multimap.nodup_bucket _ _
  . have hlevels : (prunedBlockLevels view lowLevel).Nodup := by
      exact (Map.nodup_keys_toList _).filter _
    apply hlevels.imp
    intro level level' hne hash hmem hmem'
    rw [Multimap.mem_bucket, h.blocks.holds] at hmem hmem'
    obtain ⟨block, hblock, hlevel⟩ := hmem
    obtain ⟨block', hblock', hlevel'⟩ := hmem'
    rw [hblock, Option.some.injEq] at hblock'
    subst hblock'
    exact hne (hlevel.symm.trans hlevel')

theorem pruneBlocks_eq_ok (h : BlocksTracked base progress) (lowLevel : Nat) :
    ∃ blocks byLevel journal,
      (prunedBlocks progress.view lowLevel).foldlM pruneBlock
          ⟨{ progress.view with
            blockHashesByLevel := (prunedBlockLevels progress.view lowLevel).foldl
              (fun index level => index.erase level) progress.view.blockHashesByLevel },
            progress.mutation⟩
        = .ok ⟨{ progress.view with blocks := blocks, blockHashesByLevel := byLevel },
            { progress.mutation with blocks := journal }⟩ ∧
      BlocksTracked base ⟨{ progress.view with blocks := blocks, blockHashesByLevel := byLevel },
        { progress.mutation with blocks := journal }⟩ ∧
      ∀ hash : BlockHash, blocks[hash]? = (progress.view.blocks[hash]?).filter fun block =>
        lowLevel ≤ block.coordinate.level := by
  obtain ⟨blocks, journal, hfold, hblocks, hjournal⟩ :=
    foldlM_pruneBlock (prunedBlocks progress.view lowLevel)
      (nodup_prunedBlocks h.derived lowLevel)
      ⟨{ progress.view with
          blockHashesByLevel := (prunedBlockLevels progress.view lowLevel).foldl
            (fun index level => index.erase level) progress.view.blockHashesByLevel },
        progress.mutation⟩
      (by
        intro hash hmem
        obtain ⟨block, hblock, _⟩ := (mem_prunedBlocks h.derived lowLevel hash).mp hmem
        exact ⟨block, hblock⟩)
      h.blocks
  have hkept : ∀ hash : BlockHash, blocks[hash]? = (progress.view.blocks[hash]?).filter fun block =>
      lowLevel ≤ block.coordinate.level := by
    intro hash
    have hmem := mem_prunedBlocks h.derived lowLevel hash
    rw [hblocks]
    cases hblock : progress.view.blocks[hash]? with
    | none =>
      split
      . rfl
      . rfl
    | some block =>
      rw [hblock] at hmem
      simp only [Option.some.injEq, exists_eq_left'] at hmem
      rw [Option.filter_some]
      by_cases hlt : block.coordinate.level < lowLevel
      . rw [if_pos (hmem.mpr hlt), if_neg (by simpa using hlt)]
      . rw [if_neg (mt hmem.mp hlt), if_pos (by simpa using hlt)]
  refine ⟨blocks, _, journal, hfold, ?_, hkept⟩
  constructor
  case toTracked =>
    refine ⟨h.lineage.congr rfl rfl rfl rfl, ⟨?_, h.derived.edges, h.derived.usage⟩, h.edges, h.levels⟩
    apply h.derived.blocks.eraseLevels
    intro hash
    rw [hkept]
    cases hblock : progress.view.blocks[hash]? with
    | none => rfl
    | some block =>
      have hiff : block.coordinate.level ∈ prunedBlockLevels progress.view lowLevel ↔
          block.coordinate.level < lowLevel := by
        rw [mem_prunedBlockLevels h.derived]
        constructor
        . intro hmem
          exact hmem.1
        . intro hlt
          exact ⟨hlt, hash, block, hblock, rfl⟩
      rw [Option.filter_some, Option.filter_some]
      by_cases hlt : block.coordinate.level < lowLevel
      . simp [hiff, hlt]
      . simp [hiff, hlt]
  case blocks => exact hjournal
  case isInVspc => exact h.isInVspc
  case colors => exact h.colors

end Blocks

section Edges

theorem pruneEdge_eq_ok (h : BlocksTracked base progress) {id : EdgeId} {edge : GraphEdge}
    (hedge : progress.view.edges[id]? = some edge) :
    ∃ progress', pruneEdge progress id = .ok progress' ∧ BlocksTracked base progress' ∧
      progress'.view.blocks = progress.view.blocks ∧
      progress'.view.edges = progress.view.edges.erase id ∧
      ∀ level, progress'.view.levelValue level = progress.view.levelValue level := by
  obtain ⟨stored, hstored, hpos⟩ := h.derived.usage.usage_pos hedge
  unfold pruneEdge
  rw [hedge]
  dsimp only [orError, bind, Except.bind, unindexEdge, decrementParentUsage]
  rw [hstored]
  dsimp only
  rw [if_pos hpos]
  refine ⟨_, rfl, ?_, rfl, rfl, value_setUsage hstored _⟩
  constructor
  case toTracked =>
    refine ⟨h.lineage.congr rfl rfl rfl rfl, ⟨h.derived.blocks, ?_, ?_⟩, ?_, ?_⟩
    . exact h.derived.edges.erase hedge
    . exact h.derived.usage.erase hedge hstored
    . apply h.edges.capture hedge.symm
      intro id' hne
      rw [Map.get_erase, if_neg hne]
    . apply h.levels.congr
      exact value_setUsage hstored _
  case blocks => exact h.blocks
  case isInVspc => exact h.isInVspc
  case colors => exact h.colors

theorem foldlM_pruneEdge (l : List EdgeId) (hnodup : l.Nodup) (progress : Progress)
    (h : BlocksTracked base progress)
    (hpresent : ∀ id ∈ l, ∃ edge, progress.view.edges[id]? = some edge) :
    ∃ progress', l.foldlM pruneEdge progress = .ok progress' ∧ BlocksTracked base progress' ∧
      progress'.view.blocks = progress.view.blocks ∧
      (∀ id : EdgeId, progress'.view.edges[id]? =
        if id ∈ l then none else progress.view.edges[id]?) ∧
      ∀ level, progress'.view.levelValue level = progress.view.levelValue level := by
  induction l generalizing progress with
  | nil => exact ⟨progress, rfl, h, rfl, fun _ => rfl, fun _ => rfl⟩
  | cons id l ih =>
    rw [List.nodup_cons] at hnodup
    obtain ⟨edge, hedge⟩ := hpresent id List.mem_cons_self
    obtain ⟨next, hstep, hnext, hblocks, hedges, hlevels⟩ := pruneEdge_eq_ok h hedge
    obtain ⟨progress', hfold, htracked, hblocks', hedges', hlevels'⟩ := ih hnodup.2 next hnext (by
      intro id' hmem
      rw [hedges, Map.get_erase, if_neg]
      . exact hpresent id' (List.mem_cons_of_mem id hmem)
      . rintro rfl
        exact hnodup.1 hmem)
    rw [List.foldlM_cons, hstep]
    refine ⟨progress', hfold, htracked, hblocks'.trans hblocks, ?_, ?_⟩
    . intro id'
      rw [hedges', hedges, Map.get_erase]
      by_cases heq : id = id'
      . simp [heq]
      . simp [heq, Ne.symm heq]
    . intro level
      rw [hlevels', hlevels]

def childEdges (view : GraphView) (children : List BlockHash) : List EdgeId :=
  children.flatMap fun child =>
    (Multimap.bucket view.edgeParentsByChild child).map fun parent => ⟨parent, child⟩

theorem mem_childEdges (h : view.Derived) (children : List BlockHash) (id : EdgeId) :
    id ∈ childEdges view children ↔ id.child ∈ children ∧ ∃ edge, view.edges[id]? = some edge := by
  unfold childEdges
  simp only [List.mem_flatMap, List.mem_map, Multimap.mem_bucket, h.edges.parents]
  constructor
  . rintro ⟨child, hchild, parent, hedge, rfl⟩
    exact ⟨hchild, hedge⟩
  . rintro ⟨hchild, hedge⟩
    exact ⟨id.child, hchild, id.parent, hedge, rfl⟩

theorem nodup_childEdges (view : GraphView) {children : List BlockHash} (hnodup : children.Nodup) :
    (childEdges view children).Nodup := by
  unfold childEdges
  rw [List.nodup_flatMap]
  constructor
  . intro child _
    apply (Multimap.nodup_bucket _ _).map
    intro parent parent' heq
    rw [EdgeId.mk.injEq] at heq
    exact heq.1
  . apply hnodup.imp
    intro child child' hne id hmem hmem'
    rw [List.mem_map] at hmem hmem'
    obtain ⟨parent, _, rfl⟩ := hmem
    obtain ⟨parent', _, heq⟩ := hmem'
    rw [EdgeId.mk.injEq] at heq
    exact hne heq.2.symm

end Edges

section Levels

theorem pruneLevel_eq_ok (h : BlocksTracked base progress) {level : Nat} {stored : StoredLevel}
    (hstored : progress.view.levels[level]? = some stored) (husage : stored.usageCount = 0) :
    ∃ progress', pruneLevel progress level = .ok progress' ∧ BlocksTracked base progress' ∧
      progress'.view.blocks = progress.view.blocks ∧
      progress'.view.edges = progress.view.edges ∧
      progress'.view.levels = progress.view.levels.erase level := by
  have hvalue : progress.view.levelValue level = some stored.value := by
    unfold levelValue
    rw [hstored]
    rfl
  unfold pruneLevel
  rw [hstored]
  dsimp only [orError, bind, Except.bind]
  rw [← hvalue]
  refine ⟨_, rfl, ?_, rfl, rfl, rfl⟩
  apply h.setLevel
  . intro stored' hstored'
    rw [Map.get_erase, if_pos rfl] at hstored'
    cases hstored'
  . apply Or.inr
    intro stored' hstored'
    rw [hstored] at hstored'
    cases hstored'
    exact husage
  . intro level' hne
    rw [Map.get_erase, if_neg hne]

theorem foldlM_pruneLevel (l : List Nat) (hnodup : l.Nodup) (progress : Progress)
    (h : BlocksTracked base progress)
    (hunused : ∀ level ∈ l, ∃ stored : StoredLevel, progress.view.levels[level]? = some stored ∧
      stored.usageCount = 0) :
    ∃ progress', l.foldlM pruneLevel progress = .ok progress' ∧ BlocksTracked base progress' ∧
      progress'.view.blocks = progress.view.blocks ∧
      progress'.view.edges = progress.view.edges ∧
      ∀ level : Nat, progress'.view.levels[level]? =
        if level ∈ l then none else progress.view.levels[level]? := by
  induction l generalizing progress with
  | nil => exact ⟨progress, rfl, h, rfl, rfl, fun _ => rfl⟩
  | cons level l ih =>
    rw [List.nodup_cons] at hnodup
    obtain ⟨stored, hstored, husage⟩ := hunused level List.mem_cons_self
    obtain ⟨next, hstep, hnext, hblocks, hedges, hlevels⟩ := pruneLevel_eq_ok h hstored husage
    obtain ⟨progress', hfold, htracked, hblocks', hedges', hlevels'⟩ := ih hnodup.2 next hnext (by
      intro level' hmem
      rw [hlevels, Map.get_erase, if_neg]
      . exact hunused level' (List.mem_cons_of_mem level hmem)
      . rintro rfl
        exact hnodup.1 hmem)
    rw [List.foldlM_cons, hstep]
    refine ⟨progress', hfold, htracked, hblocks'.trans hblocks, hedges'.trans hedges, ?_⟩
    intro level'
    rw [hlevels', hlevels, Map.get_erase]
    by_cases heq : level = level'
    . simp [heq]
    . simp [heq, Ne.symm heq]

theorem mem_prunedLevels (view : GraphView) (lowLevel level : Nat) :
    level ∈ prunedLevels view lowLevel ↔ level < lowLevel ∧
      ∃ stored : StoredLevel, view.levels[level]? = some stored ∧ stored.usageCount = 0 := by
  unfold prunedLevels
  rw [List.mem_map]
  constructor
  . rintro ⟨⟨level', stored⟩, hmem, rfl⟩
    rw [List.mem_filter, Map.mem_toList] at hmem
    simp only [Bool.and_eq_true, decide_eq_true_eq] at hmem
    exact ⟨hmem.2.1, stored, hmem.1, hmem.2.2⟩
  . rintro ⟨hlt, stored, hstored, husage⟩
    refine ⟨(level, stored), ?_, rfl⟩
    rw [List.mem_filter, Map.mem_toList]
    simp only [Bool.and_eq_true, decide_eq_true_eq]
    exact ⟨hstored, hlt, husage⟩

theorem nodup_prunedLevels (view : GraphView) (lowLevel : Nat) :
    (prunedLevels view lowLevel).Nodup := by
  have hsub : (view.levels.toList.filter fun entry =>
      entry.1 < lowLevel && entry.2.usageCount = 0).Sublist view.levels.toList :=
    List.filter_sublist
  exact (hsub.map Prod.fst).nodup (Map.nodup_keys_toList _)

end Levels

theorem prune_eq_ok (h : BlocksTracked base progress) (lowLevel : Nat) :
    ∃ progress', prune progress lowLevel = .ok progress' ∧ BlocksTracked base progress' ∧
      progress'.view.window = progress.view.window.prune lowLevel := by
  obtain ⟨blocks, byLevel, journal, hblockFold, hblocks, hkept⟩ := pruneBlocks_eq_ok h lowLevel
  obtain ⟨middle, hedgeFold, hmiddle, hmiddleBlocks, hmiddleEdges, hmiddleLevels⟩ :=
    foldlM_pruneEdge (childEdges progress.view (prunedBlocks progress.view lowLevel))
      (nodup_childEdges _ (nodup_prunedBlocks h.derived lowLevel)) _ hblocks (by
        intro id hmem
        exact ((mem_childEdges h.derived _ id).mp hmem).2)
  obtain ⟨last, hlevelFold, hlast, hlastBlocks, hlastEdges, hlastLevels⟩ :=
    foldlM_pruneLevel (prunedLevels middle.view lowLevel) (nodup_prunedLevels middle.view lowLevel)
      middle hmiddle (by
        intro level hmem
        exact ((mem_prunedLevels middle.view lowLevel level).mp hmem).2)
  have hedges : ∀ id : EdgeId, last.view.edges[id]? = progress.view.window.pruneEdges lowLevel id := by
    intro id
    unfold Window.pruneEdges
    rw [hlastEdges, hmiddleEdges]
    by_cases hchild : ∃ child, progress.view.window.blocks id.child = some child ∧
        child.coordinate.level < lowLevel
    . rw [if_pos hchild]
      split
      . rfl
      . next hnot =>
        rw [mem_childEdges h.derived, mem_prunedBlocks h.derived, not_and] at hnot
        cases hedge : progress.view.edges[id]? with
        | none => rfl
        | some edge => exact absurd ⟨edge, hedge⟩ (hnot hchild)
    . rw [if_neg hchild, if_neg]
      . rfl
      . rw [mem_childEdges h.derived, mem_prunedBlocks h.derived]
        intro hmem
        exact hchild hmem.1
  have hlevels : ∀ level, last.view.levelValue level
      = (progress.view.window.prune lowLevel).levels level := by
    intro level
    have hused : (∃ id edge, progress.view.window.pruneEdges lowLevel id = some edge ∧
        edge.parentCoordinate.level = level) ↔
        ∃ stored : StoredLevel, middle.view.levels[level]? = some stored ∧
          0 < stored.usageCount := by
      rw [← hmiddle.derived.used_iff]
      simp only [← hedges, hlastEdges]
      rfl
    have hmem := mem_prunedLevels middle.view lowLevel level
    have hvalue : progress.view.window.levels level
        = (middle.view.levels[level]?).map StoredLevel.value := (hmiddleLevels level).symm
    unfold levelValue Window.prune
    dsimp only
    rw [hlastLevels level, hvalue]
    cases hstored : middle.view.levels[level]? with
    | none => simp
    | some stored =>
      rw [hstored] at hmem hused
      simp only [Option.some.injEq, exists_eq_left'] at hmem hused
      by_cases hpruned : level < lowLevel ∧ stored.usageCount = 0
      . rw [if_pos (hmem.mpr hpruned), if_pos]
        . rfl
        . refine ⟨hpruned.1, ?_⟩
          rw [hused, hpruned.2]
          exact Nat.lt_irrefl 0
      . rw [if_neg (mt hmem.mp hpruned), if_neg]
        rw [hused, Nat.not_lt, Nat.le_zero]
        exact hpruned
  refine ⟨last, ?_, hlast, ?_⟩
  . unfold prune
    dsimp only
    unfold prunedBlocks childEdges at *
    rw [hblockFold]
    dsimp only [bind, Except.bind]
    rw [hedgeFold]
    exact hlevelFold
  . apply Window.ext
    . funext hash
      exact (congrArg (fun m : Map BlockHash GraphBlock => m[hash]?)
        (hlastBlocks.trans hmiddleBlocks)).trans (hkept hash)
    . funext id
      exact hedges id
    . funext level
      exact hlevels level

end GraphView

end Kgi
