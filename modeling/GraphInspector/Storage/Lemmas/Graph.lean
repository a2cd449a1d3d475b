import GraphInspector.Storage.Impl.Rebuild

/-!
What the tables say about the inserted blocks, and what every transaction guarantees to them.
-/

namespace Kgi

open Data

def ValidatedNodeBlock.references (block : ValidatedNodeBlock) : List BlockHash :=
  block.redMergeSet ++ block.blueMergeSet ++ block.directParents ++ [block.selectedParent]

def BlockRow.immutable (row : BlockRow) : BlockRow :=
  { row with color := .gray, isInVspc := false }

namespace Database

variable {id : CompactId} {row : BlockRow}

def parentLevels (database : Database) (block : ValidatedNodeBlock) : List Nat :=
  block.directParents.filterMap fun hash =>
    (database.identifiers.ids[hash]?).bind fun id =>
      (database.blocks[id]?).map fun row => row.coordinate.level

/--
The rows of `id` are those of `block`, with every reference resolved to an older identity.
-/
structure Represents (database : Database) (block : ValidatedNodeBlock) (id : CompactId)
    (row : BlockRow) : Prop where
  hash : database.identifiers.ids[block.hash]? = some id
  stored : database.blocks[id]? = some row
  timestamp : row.timestamp = block.timestamp
  daaScore : row.daaScore = block.daaScore
  daaScore_le : row.daaScore ≤ maxDaaScore
  selectedParent : database.identifiers.ids[block.selectedParent]? = some row.selectedParentId
  blueMergeSet :
    block.blueMergeSet.map (fun hash => database.identifiers.ids[hash]?) = row.blueMergeSet.map some
  redMergeSet :
    block.redMergeSet.map (fun hash => database.identifiers.ids[hash]?) = row.redMergeSet.map some
  parents : ∃ rows : Map CompactId ParentRow, database.parents[id]? = some rows ∧
    ∀ (parent : CompactId) (parentRow : ParentRow), rows[parent]? = some parentRow ↔
      (∃ hash ∈ block.directParents, database.identifiers.ids[hash]? = some parent) ∧
      parentRow = ⟨row.coordinate, (database.blocks[parent]?).map BlockRow.coordinate⟩
  older : ∀ hash ∈ block.references,
    ∃ reference, database.identifiers.ids[hash]? = some reference ∧ reference < id
  level : row.coordinate.level = (database.parentLevels block).foldr max 0 + 1
  selectedParent_mem : block.selectedParent ∈ block.directParents ∨
    database.blocks[row.selectedParentId]? = none

def Occupied (database : Database) (level slot : Nat) : Prop :=
  ∃ (id : CompactId) (row : BlockRow), database.blocks[id]? = some row ∧
    row.coordinate.level = level ∧ row.coordinate.slot = slot

/--
The database holds exactly the inserted blocks, on contiguous levels without gaps in their slots.
-/
structure Stores (database : Database) (inserted : List ValidatedNodeBlock) : Prop where
  represented : ∀ block ∈ inserted, ∃ id row, database.Represents block id row
  complete : ∀ (id : CompactId) (row : BlockRow), database.blocks[id]? = some row →
    ∃ block ∈ inserted, database.Represents block id row
  parents : ∀ (id : CompactId) (rows : Map CompactId ParentRow), database.parents[id]? = some rows →
    ∃ row : BlockRow, database.blocks[id]? = some row
  coordinate_injective : ∀ (id id' : CompactId) (row row' : BlockRow),
    database.blocks[id]? = some row → database.blocks[id']? = some row' →
    row.coordinate = row'.coordinate → id = id'
  slots : ∀ level slot, database.Occupied level slot ↔
    ∃ row : LevelRow, database.levels[level]? = some row ∧ slot < row.size
  size_pos : ∀ (level : Nat) (row : LevelRow), database.levels[level]? = some row →
    0 < row.size ∧ row.size ≤ maxLevelSize
  contiguous : ∃ top, ∀ level, (∃ row : LevelRow, database.levels[level]? = some row) ↔
    0 < level ∧ level ≤ top

/--
What a transaction keeps: identities, the immutable part of every row, and that an identity without a
block row stays without one.
-/
structure Extends (database database' : Database) : Prop where
  ids : ∀ (hash : BlockHash) (id : CompactId), database.identifiers.ids[hash]? = some id →
    database'.identifiers.ids[hash]? = some id
  blocks : ∀ (hash : BlockHash) (id : CompactId), database.identifiers.ids[hash]? = some id →
    (database'.blocks[id]?).map BlockRow.immutable = (database.blocks[id]?).map BlockRow.immutable
  parents : ∀ (id : CompactId) (rows : Map CompactId ParentRow), database.parents[id]? = some rows →
    database'.parents[id]? = some rows

theorem Extends.refl (database : Database) : Extends database database :=
  ⟨fun _ _ h => h, fun _ _ _ => rfl, fun _ _ h => h⟩

theorem Extends.trans {a b c : Database} (hab : Extends a b) (hbc : Extends b c) : Extends a c where
  ids := fun hash id h => hbc.ids hash id (hab.ids hash id h)
  blocks := fun hash id h => (hbc.blocks hash id (hab.ids hash id h)).trans (hab.blocks hash id h)
  parents := fun id rows h => hbc.parents id rows (hab.parents id rows h)

section Extends

variable {database database' : Database} {hash : BlockHash}

section Lookup

variable (hext : Extends database database') (h : database.identifiers.ids[hash]? = some id)
include hext h

theorem Extends.get_eq_none (hnone : database.blocks[id]? = none) :
    database'.blocks[id]? = none := by
  have := hext.blocks hash id h
  rw [hnone] at this
  simpa using this

theorem Extends.get_eq_some (hrow : database.blocks[id]? = some row) :
    ∃ row', database'.blocks[id]? = some row' ∧ row'.immutable = row.immutable := by
  have := hext.blocks hash id h
  rw [hrow] at this
  simpa using this

theorem Extends.coordinate :
    (database'.blocks[id]?).map BlockRow.coordinate
      = (database.blocks[id]?).map BlockRow.coordinate := by
  have := congrArg (Option.map BlockRow.coordinate) (hext.blocks hash id h)
  rw [Option.map_map, Option.map_map] at this
  exact this

end Lookup

theorem map_ids_of_older {f g : BlockHash → Option CompactId} {l : List BlockHash}
    (h : ∀ hash ∈ l, ∃ id, f hash = some id ∧ g hash = some id) : l.map g = l.map f := by
  apply List.map_congr_left
  intro hash hmem
  obtain ⟨id, hf, hg⟩ := h hash hmem
  rw [hf, hg]

theorem Represents.of_extends (hext : Extends database database') {block : ValidatedNodeBlock}
    (h : database.Represents block id row) :
    ∃ row', database'.Represents block id row' ∧ row'.immutable = row.immutable := by
  obtain ⟨row', hrow', himm⟩ := hext.get_eq_some h.hash h.stored
  have hfield : ∀ {β : Type} (f : BlockRow → β), (∀ r, f r.immutable = f r) → f row' = f row := by
    intro β f hf
    rw [← hf row', ← hf row, himm]
  have hcoordinate := hfield BlockRow.coordinate fun _ => rfl
  have hkept : ∀ hash ∈ block.references, ∃ reference,
      database.identifiers.ids[hash]? = some reference ∧
      database'.identifiers.ids[hash]? = some reference := by
    intro hash hmem
    obtain ⟨reference, href, -⟩ := h.older hash hmem
    exact ⟨reference, href, hext.ids hash reference href⟩
  refine ⟨row', ?_, himm⟩
  constructor
  case hash => exact hext.ids _ _ h.hash
  case stored => exact hrow'
  case timestamp => rw [hfield BlockRow.timestamp fun _ => rfl, h.timestamp]
  case daaScore => rw [hfield BlockRow.daaScore fun _ => rfl, h.daaScore]
  case daaScore_le =>
    rw [hfield BlockRow.daaScore fun _ => rfl]
    exact h.daaScore_le
  case selectedParent =>
    rw [hfield BlockRow.selectedParentId fun _ => rfl]
    exact hext.ids _ _ h.selectedParent
  case blueMergeSet =>
    rw [hfield BlockRow.blueMergeSet fun _ => rfl, ← h.blueMergeSet]
    apply map_ids_of_older
    intro hash hmem
    exact hkept hash (by simp [ValidatedNodeBlock.references, hmem])
  case redMergeSet =>
    rw [hfield BlockRow.redMergeSet fun _ => rfl, ← h.redMergeSet]
    apply map_ids_of_older
    intro hash hmem
    exact hkept hash (by simp [ValidatedNodeBlock.references, hmem])
  case parents =>
    obtain ⟨rows, hrows, hiff⟩ := h.parents
    refine ⟨rows, hext.parents id rows hrows, ?_⟩
    intro parent parentRow
    rw [hiff, hcoordinate]
    constructor
    . rintro ⟨⟨hash, hmem, hparent⟩, rfl⟩
      refine ⟨⟨hash, hmem, hext.ids _ _ hparent⟩, ?_⟩
      rw [hext.coordinate hparent]
    . rintro ⟨⟨hash, hmem, hparent⟩, rfl⟩
      obtain ⟨reference, href, href'⟩ :=
        hkept hash (by simp [ValidatedNodeBlock.references, hmem])
      rw [hparent] at href'
      cases href'
      refine ⟨⟨hash, hmem, href⟩, ?_⟩
      rw [hext.coordinate href]
  case older =>
    intro hash hmem
    obtain ⟨reference, href, hlt⟩ := h.older hash hmem
    exact ⟨reference, hext.ids _ _ href, hlt⟩
  case level =>
    rw [hcoordinate, h.level]
    congr 2
    apply List.filterMap_congr
    intro hash hmem
    obtain ⟨reference, href, href'⟩ := hkept hash (by simp [ValidatedNodeBlock.references, hmem])
    rw [href, href', Option.bind_some, Option.bind_some]
    have := congrArg (Option.map BlockCoordinate.level) (hext.coordinate href)
    rw [Option.map_map, Option.map_map] at this
    exact this.symm
  case selectedParent_mem =>
    rw [hfield BlockRow.selectedParentId fun _ => rfl]
    exact h.selectedParent_mem.imp_right (hext.get_eq_none h.selectedParent)

end Extends

namespace Stores

variable {database : Database} {inserted : List ValidatedNodeBlock}
variable (h : database.Stores inserted)
include h

theorem identified (hrow : database.blocks[id]? = some row) :
    ∃ hash : BlockHash, database.identifiers.ids[hash]? = some id := by
  obtain ⟨block, -, hrep⟩ := h.complete id row hrow
  exact ⟨block.hash, hrep.hash⟩

theorem selectedParent_identified (hrow : database.blocks[id]? = some row) :
    ∃ hash : BlockHash, database.identifiers.ids[hash]? = some row.selectedParentId := by
  obtain ⟨block, -, hrep⟩ := h.complete id row hrow
  exact ⟨block.selectedParent, hrep.selectedParent⟩

theorem get_eq_none (hid : database.identifiers.next ≤ id) : database.blocks[id]? = none := by
  rw [Option.eq_none_iff_forall_ne_some]
  intro row hrow
  obtain ⟨hash, hhash⟩ := h.identified hrow
  have := database.identifiers.lt_next hash id hhash
  exact absurd hid (Nat.not_le_of_lt this)

theorem selectedParent_lt (hrow : database.blocks[id]? = some row) : row.selectedParentId < id := by
  obtain ⟨block, -, hrep⟩ := h.complete id row hrow
  obtain ⟨reference, href, hlt⟩ :=
    hrep.older block.selectedParent (by simp [ValidatedNodeBlock.references])
  rw [hrep.selectedParent] at href
  cases href
  exact hlt

theorem selectedParent_level_lt {row parentRow : BlockRow} (hrow : database.blocks[id]? = some row)
    (hparent : database.blocks[row.selectedParentId]? = some parentRow) :
    parentRow.coordinate.level < row.coordinate.level := by
  obtain ⟨block, -, hrep⟩ := h.complete id row hrow
  obtain hmem | hnone := hrep.selectedParent_mem
  . rw [hrep.level]
    apply Nat.lt_succ_of_le
    apply le_foldr_max
    unfold parentLevels
    rw [List.mem_filterMap]
    refine ⟨block.selectedParent, hmem, ?_⟩
    rw [hrep.selectedParent, Option.bind_some, hparent]
    rfl
  . rw [hnone] at hparent
    cases hparent

end Stores

end Database

end Kgi
