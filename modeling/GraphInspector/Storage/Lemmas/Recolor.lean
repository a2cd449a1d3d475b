import GraphInspector.Storage.Lemmas.Chain

/-!
A committed VSPC change touches marks, colors and level scores only.
-/

namespace Kgi

open Data

structure Recolored (database database' : Database) : Prop where
  ids : database'.identifiers.ids = database.identifiers.ids
  parents : database'.parents = database.parents
  blocks : ∀ id : CompactId,
    (database'.blocks[id]?).map BlockRow.immutable = (database.blocks[id]?).map BlockRow.immutable
  levels : ∀ level : Nat,
    (database'.levels[level]?).map LevelRow.size = (database.levels[level]?).map LevelRow.size

namespace Recolored

variable {database database' : Database} {inserted : List ValidatedNodeBlock}
variable (h : Recolored database database')
include h

theorem symm : Recolored database' database :=
  ⟨h.ids.symm, h.parents.symm, fun id => (h.blocks id).symm,
    fun level => (h.levels level).symm⟩

theorem extends' : Database.Extends database database' where
  ids := by
    rw [h.ids]
    exact fun _ _ hid => hid
  blocks := fun _ id _ => h.blocks id
  parents := by
    rw [h.parents]
    exact fun _ _ hrows => hrows

theorem get_eq_some {id : CompactId} {row : BlockRow} (hrow : database.blocks[id]? = some row) :
    ∃ row', database'.blocks[id]? = some row' ∧ row'.immutable = row.immutable := by
  have := h.blocks id
  rw [hrow] at this
  simpa using this

theorem map_get_eq {β : Type} (f : BlockRow → β) (hf : ∀ row, f row.immutable = f row)
    (id : CompactId) : (database'.blocks[id]?).map f = (database.blocks[id]?).map f := by
  have heq := congrArg (Option.map f) (h.blocks id)
  have hcomp : f ∘ BlockRow.immutable = f := funext hf
  rw [Option.map_map, Option.map_map, hcomp] at heq
  exact heq

theorem occupied {level slot : Nat} (hocc : database.Occupied level slot) :
    database'.Occupied level slot := by
  obtain ⟨id, row, hrow, hlevel, hslot⟩ := hocc
  obtain ⟨row', hrow', himm⟩ := h.get_eq_some hrow
  have hcoordinate : row'.coordinate = row.coordinate :=
    (congrArg BlockRow.coordinate himm :)
  exact ⟨id, row', hrow', by rw [hcoordinate, hlevel], by rw [hcoordinate, hslot]⟩

theorem level {level : Nat} {row : LevelRow} (hrow : database.levels[level]? = some row) :
    ∃ row' : LevelRow, database'.levels[level]? = some row' ∧ row'.size = row.size := by
  have := h.levels level
  rw [hrow] at this
  simpa using this

theorem stores (hstores : database.Stores inserted) : database'.Stores inserted := by
  constructor
  case represented =>
    intro block hmem
    obtain ⟨id, row, hrep⟩ := hstores.represented block hmem
    obtain ⟨row', hrep', -⟩ := hrep.of_extends h.extends'
    exact ⟨id, row', hrep'⟩
  case complete =>
    intro id row' hrow'
    obtain ⟨row, hrow, -⟩ := h.symm.get_eq_some hrow'
    obtain ⟨block, hmem, hrep⟩ := hstores.complete id row hrow
    obtain ⟨row'', hrep', -⟩ := hrep.of_extends h.extends'
    have hsame := hrep'.stored
    rw [hrow'] at hsame
    cases hsame
    exact ⟨block, hmem, hrep'⟩
  case parents =>
    intro id rows hrows
    rw [h.parents] at hrows
    obtain ⟨row, hrow⟩ := hstores.parents id rows hrows
    obtain ⟨row', hrow', -⟩ := h.get_eq_some hrow
    exact ⟨row', hrow'⟩
  case coordinate_injective =>
    intro id id' row row' hrow hrow' heq
    obtain ⟨old, hold, himm⟩ := h.symm.get_eq_some hrow
    obtain ⟨old', hold', himm'⟩ := h.symm.get_eq_some hrow'
    apply hstores.coordinate_injective id id' old old' hold hold'
    have hcoordinate : old.coordinate = row.coordinate := (congrArg BlockRow.coordinate himm :)
    have hcoordinate' : old'.coordinate = row'.coordinate :=
      (congrArg BlockRow.coordinate himm' :)
    rw [hcoordinate, hcoordinate', heq]
  case slots =>
    intro level slot
    constructor
    . intro hocc
      obtain ⟨row, hrow, hlt⟩ := (hstores.slots level slot).mp (h.symm.occupied hocc)
      obtain ⟨row', hrow', hsize⟩ := h.level hrow
      exact ⟨row', hrow', by rw [hsize]; exact hlt⟩
    . rintro ⟨row', hrow', hlt⟩
      obtain ⟨row, hrow, hsize⟩ := h.symm.level hrow'
      exact h.occupied ((hstores.slots level slot).mpr ⟨row, hrow, by rw [hsize]; exact hlt⟩)
  case size_pos =>
    intro level row' hrow'
    obtain ⟨row, hrow, hsize⟩ := h.symm.level hrow'
    rw [← hsize]
    exact hstores.size_pos level row hrow
  case contiguous =>
    obtain ⟨top, htop⟩ := hstores.contiguous
    refine ⟨top, fun level => ?_⟩
    rw [← htop level]
    constructor
    . rintro ⟨row', hrow'⟩
      obtain ⟨row, hrow, -⟩ := h.symm.level hrow'
      exact ⟨row, hrow⟩
    . rintro ⟨row, hrow⟩
      obtain ⟨row', hrow', -⟩ := h.level hrow
      exact ⟨row', hrow'⟩

theorem selectedParent_eq (id : CompactId) :
    database'.selectedParent id = database.selectedParent id :=
  h.map_get_eq BlockRow.selectedParentId (fun _ => rfl) id

theorem linked {ids : List CompactId} (hlinked : database.Linked ids) : database'.Linked ids := by
  obtain ⟨hchain, hmat⟩ := hlinked
  refine ⟨?_, ?_⟩
  . simp only [h.selectedParent_eq]
    exact hchain
  . intro id hid
    obtain ⟨row, hrow⟩ := hmat id hid
    obtain ⟨row', hrow', -⟩ := h.get_eq_some hrow
    exact ⟨row', hrow'⟩

end Recolored

section Commit

variable {database database' : Database} {caches : ProcessingCacheDomains}
variable {change : ReadyVspcChange} {success : VspcAttemptSuccess}

theorem applyMembership_immutable (blocks : Map CompactId BlockRow) (removed added : List CompactId)
    (id : CompactId) :
    ((applyMembership blocks removed added)[id]?).map BlockRow.immutable
      =
    (blocks[id]?).map BlockRow.immutable := by
  rw [applyMembership_get, Option.map_map]
  rfl

theorem applyMergeSetColors_immutable {blocks blocks' : Map CompactId BlockRow}
    {added : List CompactId} {mergeSets : Map CompactId CachedMergeSets}
    (h : applyMergeSetColors blocks added mergeSets = .ok blocks') (id : CompactId) :
    (blocks'[id]?).map BlockRow.immutable = (blocks[id]?).map BlockRow.immutable := by
  unfold applyMergeSetColors at h
  rw [bind_eq_ok] at h
  obtain ⟨sets, -, h⟩ := h
  rw [pure_eq_ok] at h
  subst h
  exact Map.map_get_foldl_modify (fun entry : CompactId × BlockColor => entry.1)
    (fun entry row => { row with color := entry.2 }) BlockRow.immutable (fun _ _ => rfl) _ _ _

theorem updateLevelScores_size {blocks : Map CompactId BlockRow} {rows rows' : Map Nat LevelRow}
    {levels : List Nat} {snapshots : List LevelCommitted}
    (h : updateLevelScores blocks rows levels = .ok (rows', snapshots)) (level : Nat) :
    (rows'[level]?).map LevelRow.size = (rows[level]?).map LevelRow.size := by
  unfold updateLevelScores at h
  simp only [bind_eq_ok, pure_eq_ok] at h
  obtain ⟨updates, -, snapshots', -, heq⟩ := h
  rw [Prod.mk.injEq] at heq
  obtain ⟨rfl, -⟩ := heq
  exact Map.map_get_foldl_modify (fun update : Nat × Nat => update.1)
    (fun update row => { row with daaScore := update.2 }) LevelRow.size (fun _ _ => rfl) _ _ _

theorem applyValidatedChange_recolored
    {loaded : Map CompactId CachedMaterializedBlock × List (CompactId × CachedMaterializedBlock)}
    (h : applyValidatedChange database caches change loaded = .ok (database', success)) :
    Recolored database database' ∧ success.outcome.destination = change.destination ∧
    success.memberCacheUpdates = loaded.2 ∧
    ∀ update ∈ success.mergeSetCacheUpdates,
      (database.blocks[update.1]?).map BlockRow.mergeSets = some update.2 := by
  unfold applyValidatedChange at h
  simp only [bind_eq_ok, pure_eq_ok] at h
  obtain ⟨⟨mergeSets, updates⟩, hsets, blocks, hblocks, affected, -, ⟨rows, snapshots⟩, hrows, heq⟩ := h
  rw [Prod.mk.injEq] at heq
  obtain ⟨rfl, rfl⟩ := heq
  refine ⟨⟨rfl, rfl, ?_, updateLevelScores_size hrows⟩, rfl, rfl, ?_⟩
  . intro id
    exact (applyMergeSetColors_immutable hblocks id).trans (applyMembership_immutable _ _ _ id)
  . unfold loadMergeSets at hsets
    simp only [bind_eq_ok, pure_eq_ok] at hsets
    obtain ⟨-, -, heq⟩ := hsets
    intro update hmem
    apply loadThroughCache_updates (fun id => caches.mergeSets[id]?)
      (fun id => (database.blocks[id]?).map BlockRow.mergeSets) (firstOccurrences change.added)
    rw [heq]
    exact hmem

theorem vspcAttempt_recolored (h : vspcAttempt database caches change = .ok (database', success)) :
    Recolored database database' ∧ success.outcome.destination = change.destination ∧
    (∀ update ∈ success.memberCacheUpdates,
      (database.blocks[update.1]?).map BlockRow.cached = some update.2) ∧
    ∀ update ∈ success.mergeSetCacheUpdates,
      (database.blocks[update.1]?).map BlockRow.mergeSets = some update.2 := by
  unfold vspcAttempt at h
  rw [bind_eq_ok] at h
  obtain ⟨sink, -, h⟩ := h
  rw [bind_eq_ok] at h
  obtain ⟨-, -, h⟩ := h
  dsimp only at h
  split at h
  . cases h
  . rw [bind_eq_ok] at h
    obtain ⟨-, -, h⟩ := h
    rw [bind_eq_ok] at h
    obtain ⟨conflict, -, h⟩ := h
    cases conflict with
    | some ids =>
      rw [bind_eq_ok] at h
      obtain ⟨conflict, -, h⟩ := h
      cases h
    | none =>
      obtain ⟨hrecolored, hdestination, hmembers, hsets⟩ := applyValidatedChange_recolored h
      refine ⟨hrecolored, hdestination, ?_, hsets⟩
      rw [hmembers]
      exact loadThroughCache_updates (fun id => caches.materializedBlocks[id]?)
        (fun id => (database.blocks[id]?).map BlockRow.cached) (distinctMemberIds change)

end Commit

namespace Coherent

variable {database : Database} {caches : ProcessingCacheDomains}

theorem publishVspcSink (h : Coherent database caches) (sink : CachedVspcSink) :
    Coherent database (caches.publishVspcSink sink) :=
  ⟨h.identities, h.materializedBlocks, h.mergeSets⟩

theorem publishVspc (h : Coherent database caches) {success : VspcAttemptSuccess}
    (hmembers : ∀ update ∈ success.memberCacheUpdates,
      (database.blocks[update.1]?).map BlockRow.cached = some update.2)
    (hsets : ∀ update ∈ success.mergeSetCacheUpdates,
      (database.blocks[update.1]?).map BlockRow.mergeSets = some update.2) :
    Coherent database (caches.publishVspc success) := by
  apply publishVspcSink
  apply List.foldlRecOn
  . apply List.foldlRecOn
    . exact h
    . intro caches hcaches update hmem
      exact hcaches.publishMaterializedBlock (hmembers update hmem)
  . intro caches hcaches update hmem
    exact hcaches.publishMergeSets (hsets update hmem)

end Coherent

end Kgi
