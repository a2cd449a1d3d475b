import GraphInspector.Storage.Lemmas.Recolor

/-!
The effect of an accepted VSPC change.
-/

namespace Kgi

open Data

namespace Database

/--
What a change must satisfy: it starts at the sink, names materialized blocks only, and its path follows
stored selected parents.
-/
structure Accepts (database : Database) (path : List CompactId) (change : ReadyVspcChange) : Prop where
  added : change.added ≠ []
  source : path.head? = some change.source.id
  members : ∀ id ∈ change.removed ++ change.added, ∃ row : BlockRow, database.blocks[id]? = some row
  removedHead : ∀ id ∈ change.removed.head?, id = change.source.id
  pairs : ∀ pair ∈ database.pathPairs change, database.selectedParent pair.1 = some pair.2

def transition (path : List CompactId) (change : ReadyVspcChange) : List CompactId :=
  change.added.reverse ++ path.drop change.removed.length

section Accepts

variable {database : Database} {path : List CompactId} {change : ReadyVspcChange}
variable (h : database.Accepts path change)
include h

theorem Accepts.removed_linked : database.Linked change.removed := by
  constructor
  . rw [← forall_mem_windows]
    intro pair hmem
    exact h.pairs pair (by simp [pathPairs, hmem])
  . intro id hmem
    exact h.members id (by simp [hmem])

theorem Accepts.removed_isPrefix (hchain : database.VspcChain path) :
    path = change.removed ++ path.drop change.removed.length := by
  have hprefix : change.removed <+: path := by
    apply h.removed_linked.isPrefix hchain.linked hchain.root
    intro id hid
    rw [h.removedHead id hid]
    exact h.source
  exact (List.prefix_append_drop hprefix)

theorem Accepts.pivot {first : CompactId} (hfirst : change.added.head? = some first) :
    ∃ pivot, database.pivot change = some pivot ∧ database.selectedParent first = some pivot := by
  have hpivot : ∃ pivot, database.pivot change = some pivot := by
    unfold Database.pivot
    cases hlast : change.removed.getLast? with
    | none => exact ⟨_, rfl⟩
    | some last =>
      obtain ⟨row, hrow⟩ := h.members last (by simp [List.mem_of_getLast? hlast])
      exact ⟨row.selectedParentId, by simp [selectedParent, hrow]⟩
  obtain ⟨pivot, hpivot⟩ := hpivot
  refine ⟨pivot, hpivot, ?_⟩
  apply h.pairs (first, pivot)
  unfold pathPairs
  rw [hfirst, hpivot]
  simp

variable (hchain : database.VspcChain path)
include hchain

theorem Accepts.pivot_eq_head {next : CompactId}
    (hnext : (path.drop change.removed.length).head? = some next) :
    database.pivot change = some next := by
  have hpath := h.removed_isPrefix hchain
  unfold Database.pivot
  cases hlast : change.removed.getLast? with
  | none =>
    rw [List.getLast?_eq_none_iff] at hlast
    rw [hlast, List.length_nil, List.drop_zero, h.source] at hnext
    exact hnext
  | some last =>
    have hlinked := hchain.linked
    rw [hpath, List.isChain_append] at hlinked
    exact hlinked.2.2 last hlast next hnext

theorem Accepts.transition_linked : database.Linked (transition path change) := by
  have hpath := h.removed_isPrefix hchain
  constructor
  . unfold transition
    rw [List.isChain_append]
    refine ⟨?_, ?_, ?_⟩
    . rw [List.isChain_reverse, ← forall_mem_windows]
      intro pair hmem
      exact h.pairs pair.swap (by simp [pathPairs, hmem])
    . have hlinked := hchain.linked
      rw [hpath, List.isChain_append] at hlinked
      exact hlinked.2.1
    . intro first hfirst next hnext
      rw [List.getLast?_reverse] at hfirst
      obtain ⟨pivot, hpivot, hparent⟩ := h.pivot hfirst
      rw [h.pivot_eq_head hchain hnext] at hpivot
      rw [hparent, hpivot]
  . intro id hmem
    unfold transition at hmem
    rw [List.mem_append, List.mem_reverse] at hmem
    obtain hmem | hmem := hmem
    . exact h.members id (by simp [hmem])
    . exact hchain.materialized id (List.mem_of_mem_drop hmem)

theorem Accepts.transition_root (id : CompactId) (row : BlockRow)
    (hlast : (transition path change).getLast? = some id) (hrow : database.blocks[id]? = some row) :
    database.blocks[row.selectedParentId]? = none := by
  have hpath := h.removed_isPrefix hchain
  unfold transition at hlast
  rw [List.getLast?_append, List.getLast?_reverse] at hlast
  cases hrest : (path.drop change.removed.length).getLast? with
  | some last =>
    rw [hrest, Option.some_or, Option.some.injEq] at hlast
    subst hlast
    apply hchain.root last row _ hrow
    rw [hpath, List.getLast?_append, hrest]
    rfl
  | none =>
    -- The whole chain was removed, so the first added block takes over the parent of its root.
    rw [hrest, Option.none_or] at hlast
    rw [List.getLast?_eq_none_iff] at hrest
    rw [hrest, List.append_nil] at hpath
    obtain ⟨pivot, hpivot, hparent⟩ := h.pivot hlast
    obtain ⟨row', hrow', rfl⟩ := selectedParent_eq_some hparent
    rw [hrow] at hrow'
    cases hrow'
    unfold Database.pivot at hpivot
    rw [← hpath, List.getLast?_eq_some_getLast hchain.nonempty] at hpivot
    obtain ⟨rootRow, hrootRow, hroot⟩ := selectedParent_eq_some hpivot
    rw [← hroot]
    exact hchain.root _ rootRow (List.getLast?_eq_some_getLast hchain.nonempty) hrootRow

theorem Accepts.mem_transition {inserted : List ValidatedNodeBlock}
    (hstores : database.Stores inserted) (id : CompactId) :
    id ∈ transition path change ↔ id ∈ change.added ∨ (id ∈ path ∧ id ∉ change.removed) := by
  have hpath := h.removed_isPrefix hchain
  have hnodup := hchain.toLinked.nodup hstores
  unfold transition
  rw [List.mem_append, List.mem_reverse]
  apply or_congr_right
  constructor
  . intro hmem
    refine ⟨List.mem_of_mem_drop hmem, ?_⟩
    intro hremoved
    rw [hpath, List.nodup_append] at hnodup
    exact hnodup.2.2 id hremoved id hmem rfl
  . rintro ⟨hmem, hremoved⟩
    rw [hpath, List.mem_append] at hmem
    exact hmem.resolve_left hremoved

end Accepts

end Database

def Database.mergeSetsOf (database : Database) (added : List CompactId) : List CachedMergeSets :=
  added.filterMap fun id => (database.blocks[id]?).map BlockRow.mergeSets

def Database.affectedLevels (database : Database) (change : ReadyVspcChange) : List Nat :=
  (change.removed ++ change.added).map database.levelOf

def BlockRow.afterChange (row : BlockRow) (id : CompactId) (change : ReadyVspcChange)
    (colors : Map CompactId BlockColor) : BlockRow :=
  { row with
    isInVspc := decide (id ∈ change.added) || (row.isInVspc && decide (id ∉ change.removed))
    color := colors[id]?.getD (if id ∈ change.removed then .gray else row.color) }

def Remarked (database : Database) (change : ReadyVspcChange) (blocks : Map CompactId BlockRow) :
    Prop :=
  ∀ id : CompactId, blocks[id]? = (database.blocks[id]?).map fun row =>
    row.afterChange id change (finalColors (database.mergeSetsOf change.added))

namespace Remarked

variable {database : Database} {blocks : Map CompactId BlockRow}
variable {inserted : List ValidatedNodeBlock} {path : List CompactId} {change : ReadyVspcChange}

theorem get_eq_some (h : Remarked database change blocks) {id : CompactId} {row' : BlockRow}
    (hrow' : blocks[id]? = some row') :
    ∃ row, database.blocks[id]? = some row ∧
      row' = row.afterChange id change (finalColors (database.mergeSetsOf change.added)) := by
  rw [h id, Option.map_eq_some_iff] at hrow'
  obtain ⟨row, hrow, heq⟩ := hrow'
  exact ⟨row, hrow, heq.symm⟩

theorem get_of_eq_some (h : Remarked database change blocks) {id : CompactId} {row : BlockRow}
    (hrow : database.blocks[id]? = some row) :
    blocks[id]? =
      some (row.afterChange id change (finalColors (database.mergeSetsOf change.added))) := by
  rw [h id, hrow]
  rfl

variable (h : Remarked database change blocks) (hstores : database.Stores inserted)
variable (hchain : database.VspcChain path) (haccepts : database.Accepts path change)
include h hstores hchain haccepts

theorem marked_iff (id : CompactId) (row' : BlockRow) (hrow' : blocks[id]? = some row') :
    row'.isInVspc = true ↔ id ∈ Database.transition path change := by
  obtain ⟨row, hrow, rfl⟩ := h.get_eq_some hrow'
  rw [haccepts.mem_transition hchain hstores, ← hchain.marked id row hrow]
  simp [BlockRow.afterChange]

theorem marked_unique (level : Nat) (id id' : CompactId) (row row' : BlockRow)
    (hrow : blocks[id]? = some row) (hrow' : blocks[id']? = some row')
    (hlevel : row.coordinate.level = level) (hlevel' : row'.coordinate.level = level)
    (hin : row.isInVspc = true) (hin' : row'.isInVspc = true) : id = id' := by
  have hmem := (h.marked_iff hstores hchain haccepts id row hrow).mp hin
  have hmem' := (h.marked_iff hstores hchain haccepts id' row' hrow').mp hin'
  obtain ⟨old, hold, rfl⟩ := h.get_eq_some hrow
  obtain ⟨old', hold', rfl⟩ := h.get_eq_some hrow'
  apply (haccepts.transition_linked hchain).eq_of_level_eq hstores hmem hmem'
  rw [Database.levelOf_eq hold, Database.levelOf_eq hold']
  exact hlevel.trans hlevel'.symm

theorem vspcScore_isOk (level : Nat) : ∃ score, vspcScore blocks level = .ok score := by
  obtain ⟨hsome, hnone⟩ := vspcScore_eq (h.marked_unique hstores hchain haccepts level)
  by_cases hex : ∃ (id : CompactId) (row : BlockRow), blocks[id]? = some row ∧
      row.coordinate.level = level ∧ row.isInVspc = true
  . obtain ⟨id, row, hrow, hlevel, hin⟩ := hex
    exact ⟨row.daaScore, hsome id row hrow hlevel hin⟩
  . refine ⟨noVspcDaaScore, hnone fun id row hrow hlevel => ?_⟩
    cases hin : row.isInVspc with
    | false => rfl
    | true => exact absurd ⟨id, row, hrow, hlevel, hin⟩ hex

end Remarked

structure Transition (database database' : Database) (change : ReadyVspcChange) : Prop where
  identifiers : database'.identifiers = database.identifiers
  parents : database'.parents = database.parents
  blocks : Remarked database change database'.blocks
  levels : ∀ level : Nat, level ∉ database.affectedLevels change →
    database'.levels[level]? = database.levels[level]?
  affected : ∀ level ∈ database.affectedLevels change, ∃ score,
    vspcScore database'.blocks level = .ok score ∧
    database'.levels[level]? = (database.levels[level]?).map fun row =>
      { row with daaScore := score }

namespace Transition

variable {database database' : Database} {inserted : List ValidatedNodeBlock}
variable {path : List CompactId} {change : ReadyVspcChange}

theorem recolored (h : Transition database database' change) : Recolored database database' where
  ids := by rw [h.identifiers]
  parents := h.parents
  blocks := by
    intro id
    rw [h.blocks id, Option.map_map]
    rfl
  levels := by
    intro level
    by_cases hl : level ∈ database.affectedLevels change
    . obtain ⟨score, -, hlevel⟩ := h.affected level hl
      rw [hlevel, Option.map_map]
      rfl
    . rw [h.levels level hl]

theorem chain (h : Transition database database' change) (hstores : database.Stores inserted)
    (hchain : database.VspcChain path) (haccepts : database.Accepts path change) :
    database'.VspcChain (Database.transition path change) := by
  have hlinked : database'.Linked (Database.transition path change) :=
    h.recolored.linked (haccepts.transition_linked hchain)
  have hmarked := h.blocks.marked_iff hstores hchain haccepts
  constructor
  case nonempty =>
    unfold Database.transition
    simp [haccepts.added]
  case linked => exact hlinked.1
  case materialized => exact hlinked.2
  case marked => exact hmarked
  case root =>
    intro id row' hlast hrow'
    obtain ⟨row, hrow, rfl⟩ := h.blocks.get_eq_some hrow'
    have := haccepts.transition_root hchain id row hlast hrow
    rw [h.blocks _]
    have hsame : (row.afterChange id change
        (finalColors (database.mergeSetsOf change.added))).selectedParentId = row.selectedParentId :=
      rfl
    rw [hsame, this]
    rfl
  case score =>
    intro level levelRow' hlevelRow'
    by_cases hl : level ∈ database.affectedLevels change
    . obtain ⟨score, hscore, hlevels⟩ := h.affected level hl
      rw [hlevelRow'] at hlevels
      obtain ⟨levelRow, -, hrow⟩ := Option.map_eq_some_iff.mp hlevels.symm
      subst hrow
      obtain ⟨hsome, hnone⟩ := vspcScore_eq (h.blocks.marked_unique hstores hchain haccepts level)
      constructor
      . intro id hid row' hrow' hlevel
        have := hsome id row' hrow' hlevel ((hmarked id row' hrow').mpr hid)
        rw [hscore] at this
        injection this
      . intro habsent
        have := hnone fun id row' hrow' hlevel => by
          cases hin : row'.isInVspc with
          | false => rfl
          | true => exact absurd hlevel (habsent id ((hmarked id row' hrow').mp hin) row' hrow')
        rw [hscore] at this
        injection this
    . -- An unaffected level keeps its marked block, if it has one.
      rw [h.levels level hl] at hlevelRow'
      obtain ⟨hsome, hnone⟩ := hchain.score level levelRow' hlevelRow'
      have hunaffected : ∀ id ∈ change.removed ++ change.added, database.levelOf id ≠ level := by
        intro id hid heq
        exact hl (List.mem_map.mpr ⟨id, hid, heq⟩)
      have hkept : ∀ id, database.levelOf id = level →
          (id ∈ Database.transition path change ↔ id ∈ path) := by
        intro id hid
        rw [haccepts.mem_transition hchain hstores]
        constructor
        . rintro (hadded | ⟨hmem, -⟩)
          . exact absurd hid (hunaffected id (by simp [hadded]))
          . exact hmem
        . intro hmem
          exact Or.inr ⟨hmem, fun hremoved => hunaffected id (by simp [hremoved]) hid⟩
      constructor
      . intro id hid row' hrow' hlevel
        obtain ⟨row, hrow, rfl⟩ := h.blocks.get_eq_some hrow'
        exact hsome id ((hkept id (by rw [Database.levelOf_eq hrow]; exact hlevel)).mp hid) row hrow
          hlevel
      . intro habsent
        apply hnone
        intro id hid row hrow hlevel
        have hid' := (hkept id (by rw [Database.levelOf_eq hrow]; exact hlevel)).mpr hid
        exact habsent id hid' _ (h.blocks.get_of_eq_some hrow) hlevel

end Transition

section Apply

variable {database : Database} {caches : ProcessingCacheDomains}
variable {inserted : List ValidatedNodeBlock} {path : List CompactId} {change : ReadyVspcChange}

theorem loadMergeSets_eq_ok (hco : Coherent database caches) (added : List CompactId)
    (hadded : ∀ id ∈ added, ∃ row : BlockRow, database.blocks[id]? = some row) :
    ∃ loaded, loadMergeSets database caches added = .ok loaded ∧
      added.map (fun id => loaded.1[id]?) = (database.mergeSetsOf added).map some ∧
      ∀ update ∈ loaded.2,
        (database.blocks[update.1]?).map BlockRow.mergeSets = some update.2 := by
  unfold loadMergeSets
  dsimp only
  have hget := loadThroughCache_get hco.mergeSets (firstOccurrences added)
  have hsize : (loadThroughCache (fun id => caches.mergeSets[id]?)
      (fun id => (database.blocks[id]?).map BlockRow.mergeSets) (firstOccurrences added)).1.size
      = (firstOccurrences added).length := by
    apply Map.size_eq_length (nodup_firstOccurrences added)
    intro id
    rw [hget]
    simp only [mem_firstOccurrences]
    constructor
    . intro hmem
      obtain ⟨row, hrow⟩ := hadded id hmem
      simp [hmem, hrow]
    . intro hsome
      split at hsome
      . assumption
      . cases hsome
  refine ⟨_, ?_, ?_, loadThroughCache_updates (fun id => caches.mergeSets[id]?)
    (fun id => (database.blocks[id]?).map BlockRow.mergeSets) (firstOccurrences added)⟩
  . unfold ensure
    rw [if_pos hsize]
    rfl
  . unfold Database.mergeSetsOf
    rw [← map_eq_filterMap_some]
    . apply List.map_congr_left
      intro id hmem
      rw [hget, if_pos ((mem_firstOccurrences added id).mpr hmem)]
    . intro id hmem
      obtain ⟨row, hrow⟩ := hadded id hmem
      exact ⟨row.mergeSets, by rw [hrow]; rfl⟩

theorem affectedMembers_eq_ok (hco : Coherent database caches)
    (hmembers : ∀ id ∈ change.removed ++ change.added, ∃ row : BlockRow,
      database.blocks[id]? = some row) :
    ∃ affected, (distinctMemberIds change).mapM (fun id =>
        expect (S := VspcSemanticError)
          (loadMembers database caches (distinctMemberIds change)).1[id]?
          "every VSPC member was proven materialized") = .ok affected ∧
      ∀ level, level ∈ affected.map (fun member => member.coordinate.level) ↔
        level ∈ database.affectedLevels change := by
  have hdistinct : ∀ id ∈ distinctMemberIds change, ∃ row : BlockRow,
      database.blocks[id]? = some row := by
    intro id hid
    rw [distinctMemberIds, mem_firstOccurrences] at hid
    exact hmembers id hid
  refine ⟨(distinctMemberIds change).filterMap
    (fun id => (database.blocks[id]?).map BlockRow.cached), ?_, ?_⟩
  . unfold expect
    rw [mapM_orError_eq_ok, ← map_eq_filterMap_some]
    . apply List.map_congr_left
      intro id hid
      rw [loadMembers_get hco, if_pos hid]
    . intro id hid
      obtain ⟨row, hrow⟩ := hdistinct id hid
      exact ⟨row.cached, by rw [hrow]; rfl⟩
  . intro level
    unfold Database.affectedLevels
    simp only [List.mem_map, List.mem_filterMap, distinctMemberIds, mem_firstOccurrences]
    constructor
    . rintro ⟨member, ⟨id, hid, hmember⟩, rfl⟩
      rw [Option.map_eq_some_iff] at hmember
      obtain ⟨row, hrow, rfl⟩ := hmember
      exact ⟨id, hid, Database.levelOf_eq hrow⟩
    . rintro ⟨id, hid, rfl⟩
      obtain ⟨row, hrow⟩ := hmembers id hid
      exact ⟨row.cached, ⟨id, hid, by rw [hrow]; rfl⟩, (Database.levelOf_eq hrow).symm⟩

theorem Database.Stores.affectedLevels (hstores : database.Stores inserted)
    (hmembers : ∀ id ∈ change.removed ++ change.added, ∃ row : BlockRow,
      database.blocks[id]? = some row) :
    ∀ level ∈ database.affectedLevels change, ∃ row : LevelRow,
      database.levels[level]? = some row := by
  intro level hlevel
  unfold Database.affectedLevels at hlevel
  rw [List.mem_map] at hlevel
  obtain ⟨id, hid, rfl⟩ := hlevel
  obtain ⟨row, hrow⟩ := hmembers id hid
  obtain ⟨levelRow, hlevelRow, -⟩ := (hstores.slots _ _).mp ⟨id, row, hrow, rfl, rfl⟩
  exact ⟨levelRow, by rw [Database.levelOf_eq hrow]; exact hlevelRow⟩

theorem applyValidatedChange_of_scores (hstores : database.Stores inserted)
    (hco : Coherent database caches)
    (hmembers : ∀ id ∈ change.removed ++ change.added, ∃ row : BlockRow,
      database.blocks[id]? = some row)
    (hscores : ∀ blocks, Remarked database change blocks → ∀ level ∈ database.affectedLevels change,
      ∃ score, vspcScore blocks level = .ok score) :
    ∃ database' success, applyValidatedChange database caches change
        (loadMembers database caches (distinctMemberIds change)) = .ok (database', success) ∧
      Transition database database' change ∧
      success.outcome.destination = change.destination ∧
      (∀ snapshot, snapshot ∈ success.outcome.levelSnapshots ↔ ∃ levelRow : LevelRow,
        snapshot.level ∈ database.affectedLevels change ∧
        database'.levels[snapshot.level]? = some levelRow ∧
        snapshot = ⟨snapshot.level, levelRow.size, decodeLevelDaaScore levelRow.daaScore⟩) ∧
      (∀ update ∈ success.memberCacheUpdates,
        (database.blocks[update.1]?).map BlockRow.cached = some update.2) ∧
      (∀ update ∈ success.mergeSetCacheUpdates,
        (database.blocks[update.1]?).map BlockRow.mergeSets = some update.2) := by
  obtain ⟨loaded, hloaded, hsets, hsetUpdates⟩ := loadMergeSets_eq_ok hco change.added
    fun id hid => hmembers id (by simp [hid])
  obtain ⟨blocks, hblocks, hcolored⟩ := applyMergeSetColors_eq_ok
    (applyMembership database.blocks change.removed change.added) hsets
  have hremarked : Remarked database change blocks := by
    intro id
    rw [hcolored, applyMembership_get, Option.map_map]
    rfl
  -- The named blocks are materialized, so the affected levels are theirs.
  obtain ⟨affected, haffected, hlevels⟩ := affectedMembers_eq_ok hco hmembers
  have hrows : ∀ level ∈ affected.map (fun member => member.coordinate.level),
      ∃ row : LevelRow, database.levels[level]? = some row := by
    intro level hlevel
    rw [hlevels] at hlevel
    exact hstores.affectedLevels hmembers level hlevel
  have hscore : ∀ level, ∃ score, level ∈ affected.map (fun member => member.coordinate.level) →
      vspcScore blocks level = .ok score := by
    intro level
    by_cases hlevel : level ∈ affected.map fun member => member.coordinate.level
    . obtain ⟨score, hscore⟩ := hscores blocks hremarked level ((hlevels level).mp hlevel)
      exact ⟨score, fun _ => hscore⟩
    . exact ⟨0, fun hmem => absurd hmem hlevel⟩
  choose score hscore using hscore
  obtain ⟨rows, snapshots, hupdate, hrowsGet, hsnapshots⟩ :=
    updateLevelScores_eq_ok hrows hscore
  refine ⟨{ database with blocks := blocks, levels := rows },
    ⟨⟨change.destination, snapshots⟩,
      (loadMembers database caches (distinctMemberIds change)).2, loaded.2⟩, ?_, ?_, rfl, ?_,
    loadThroughCache_updates (fun id => caches.materializedBlocks[id]?)
      (fun id => (database.blocks[id]?).map BlockRow.cached) (distinctMemberIds change),
    hsetUpdates⟩
  . unfold applyValidatedChange
    rw [hloaded]
    simp only [bind, Except.bind, hblocks, haffected, hupdate]
    rfl
  . constructor
    case identifiers => rfl
    case parents => rfl
    case blocks => exact hremarked
    case levels =>
      intro level hlevel
      rw [hrowsGet level, if_neg]
      rw [hlevels]
      exact hlevel
    case affected =>
      intro level hlevel
      rw [← hlevels] at hlevel
      refine ⟨score level, hscore level hlevel, ?_⟩
      rw [hrowsGet level, if_pos hlevel]
  . intro snapshot
    rw [loadLevelSnapshots_eq_ok hsnapshots]
    simp only [Std.ExtTreeSet.mem_toList, KeySet.mem_ofElems, hlevels]

theorem applyValidatedChange_scores {database' : Database} {success : VspcAttemptSuccess}
    (hco : Coherent database caches)
    (hmembers : ∀ id ∈ change.removed ++ change.added, ∃ row : BlockRow,
      database.blocks[id]? = some row)
    (hlevels : ∀ level ∈ database.affectedLevels change, ∃ row : LevelRow,
      database.levels[level]? = some row)
    (hok : applyValidatedChange database caches change
      (loadMembers database caches (distinctMemberIds change)) = .ok (database', success))
    {blocks : Map CompactId BlockRow} (hremarked : Remarked database change blocks) :
    ∀ level ∈ database.affectedLevels change, ∃ score, vspcScore blocks level = .ok score := by
  obtain ⟨loaded, hloaded, hsets, _⟩ := loadMergeSets_eq_ok hco change.added
    fun id hid => hmembers id (by simp [hid])
  obtain ⟨blocks', hblocks, hcolored⟩ := applyMergeSetColors_eq_ok
    (applyMembership database.blocks change.removed change.added) hsets
  have hsame : blocks' = blocks := by
    apply Std.ExtTreeMap.ext_getElem?
    intro id
    rw [hremarked id, hcolored, applyMembership_get, Option.map_map]
    rfl
  obtain ⟨affected, haffected, haffectedLevels⟩ := affectedMembers_eq_ok hco hmembers
  unfold applyValidatedChange at hok
  rw [hloaded, ok_bind] at hok
  dsimp only at hok
  rw [hblocks, ok_bind, haffected, ok_bind, bind_eq_ok] at hok
  obtain ⟨⟨rows, snapshots⟩, hupdate, _⟩ := hok
  unfold updateLevelScores at hupdate
  rw [bind_eq_ok] at hupdate
  obtain ⟨updates, hupdates, _⟩ := hupdate
  intro level hlevel
  obtain ⟨row, hrow⟩ := hlevels level hlevel
  have hmem : level ∈ ((KeySet.ofElems (affected.map fun member => member.coordinate.level)).toList.filter
      fun level => database.levels.contains level) := by
    rw [List.mem_filter, Std.ExtTreeSet.mem_toList, KeySet.mem_ofElems, haffectedLevels]
    exact ⟨hlevel, (Map.contains_iff database.levels level).mpr ⟨row, hrow⟩⟩
  obtain ⟨update, hupdate⟩ := isOk_of_mapM_eq_ok hupdates hmem
  rw [bind_eq_ok] at hupdate
  obtain ⟨score, hscore, _⟩ := hupdate
  rw [hsame] at hscore
  exact ⟨score, hscore⟩

end Apply

end Kgi
