import GraphInspector.Storage.Lemmas.Graph

/-!
Materialization inserts one block into the stored graph.
-/

namespace Kgi

open Data

structure Coherent (database : Database) (caches : ProcessingCacheDomains) : Prop where
  identities : ∀ (hash : BlockHash) (identity : CachedIdentity),
    caches.identities[hash]? = some identity →
    database.identifiers.ids[hash]? = some identity.id ∧
    identity.materialized = (database.blocks[identity.id]?).isSome
  materializedBlocks : ∀ (id : CompactId) (block : CachedMaterializedBlock),
    caches.materializedBlocks[id]? = some block →
    (database.blocks[id]?).map BlockRow.cached = some block
  mergeSets : ∀ (id : CompactId) (mergeSets : CachedMergeSets),
    caches.mergeSets[id]? = some mergeSets →
    (database.blocks[id]?).map BlockRow.mergeSets = some mergeSets

theorem Coherent.new (database : Database) : Coherent database .new := by
  constructor
  . intro hash identity h
    cases Std.ExtTreeMap.getElem?_empty.symm.trans h
  . intro id block h
    cases Std.ExtTreeMap.getElem?_empty.symm.trans h
  . intro id mergeSets h
    cases Std.ExtTreeMap.getElem?_empty.symm.trans h

theorem daaScoreToSql_eq_ok {S : Type} {score daaScore : Nat}
    (h : daaScoreToSql (S := S) score = .ok daaScore) : daaScore = score ∧ daaScore ≤ maxDaaScore := by
  unfold daaScoreToSql at h
  split at h
  . cases h
  . next hle =>
    cases h
    exact ⟨rfl, not_lt.mp hle⟩

section LoadIdentities

variable {database : Database} {caches : ProcessingCacheDomains} {hash : BlockHash}

theorem Coherent.storedIdentity (h : Coherent database caches) {identity : StoredIdentity}
    (hs : caches.storedIdentity hash = some identity) :
    database.storedIdentity hash = some identity := by
  unfold ProcessingCacheDomains.storedIdentity at hs
  unfold Database.storedIdentity
  split at hs
  . cases hs
  . next cachedIdentity hc =>
    obtain ⟨hid, hmat⟩ := h.identities hash cachedIdentity hc
    rw [hid, Option.map_some]
    split at hs
    . rw [Option.map_eq_some_iff] at hs
      obtain ⟨block, hblock, rfl⟩ := hs
      rw [h.materializedBlocks _ _ hblock]
    . next hfalse =>
      cases hs
      rw [Bool.not_eq_true] at hfalse
      rw [hfalse] at hmat
      have hnone : database.blocks[cachedIdentity.id]? = none := by
        cases hb : database.blocks[cachedIdentity.id]? with
        | none => rfl
        | some row =>
          rw [hb] at hmat
          cases hmat
      rw [hnone]
      rfl

theorem Database.storedIdentity_eq_none :
    database.storedIdentity hash = none ↔ database.identifiers.ids[hash]? = none := by
  unfold Database.storedIdentity
  rw [Option.map_eq_none_iff]

theorem Database.storedIdentity_eq_some {identity : StoredIdentity} :
    database.storedIdentity hash = some identity ↔
      database.identifiers.ids[hash]? = some identity.id ∧
      identity.block = (database.blocks[identity.id]?).map BlockRow.cached := by
  unfold Database.storedIdentity
  rw [Option.map_eq_some_iff]
  constructor
  . rintro ⟨id, hid, rfl⟩
    exact ⟨hid, rfl⟩
  . rintro ⟨hid, hblock⟩
    refine ⟨identity.id, hid, ?_⟩
    rw [← hblock]

theorem Database.map_id_storedIdentity (database : Database) (hash : BlockHash) :
    (database.storedIdentity hash).map StoredIdentity.id = database.identifiers.ids[hash]? := by
  unfold Database.storedIdentity
  rw [Option.map_map]
  exact Option.map_id'

theorem Database.coordinate_of_storedIdentity {identity : StoredIdentity}
    (h : database.storedIdentity hash = some identity) :
    identity.coordinate = (database.blocks[identity.id]?).map BlockRow.coordinate := by
  unfold StoredIdentity.coordinate
  rw [(Database.storedIdentity_eq_some.mp h).2, Option.map_map]
  rfl

theorem loadIdentities_values (h : Coherent database caches) (hashes : List BlockHash)
    (hash : BlockHash) :
    (loadIdentities database caches hashes).values[hash]?
      =
    if hash ∈ hashes then database.storedIdentity hash else none := by
  simp only [loadIdentities, seedIdentitiesFromCache]
  rw [Map.get_foldl_insertSome (fun hash => database.storedIdentity hash),
    Map.get_foldl_insertSome (fun hash => caches.storedIdentity hash)]
  simp only [List.mem_filter]
  by_cases hmem : hash ∈ hashes
  . cases hc : caches.storedIdentity hash with
    | none => simp [hmem]
    | some identity => simp [hmem, h.storedIdentity hc]
  . simp [hmem]

theorem loadIdentities_missing (h : Coherent database caches) (hashes : List BlockHash) :
    ((loadIdentities database caches hashes).cacheMisses.filter fun hash =>
      !(loadIdentities database caches hashes).values.contains hash)
      =
    hashes.filter fun hash => (database.identifiers.ids[hash]?).isNone := by
  have hmisses : (loadIdentities database caches hashes).cacheMisses
      = hashes.filter fun hash => (caches.storedIdentity hash).isNone := rfl
  rw [hmisses, List.filter_filter]
  apply List.filter_congr
  intro hash hmem
  have hvalue := loadIdentities_values h hashes hash
  rw [if_pos hmem] at hvalue
  rw [Std.ExtTreeMap.contains_eq_isSome_getElem?, hvalue]
  cases hid : database.identifiers.ids[hash]? with
  | none =>
    have hstored := Database.storedIdentity_eq_none.mpr hid
    have hcache : caches.storedIdentity hash = none := by
      cases hc : caches.storedIdentity hash with
      | none => rfl
      | some identity =>
        rw [h.storedIdentity hc] at hstored
        cases hstored
    simp [hstored, hcache]
  | some id => simp [Database.storedIdentity, hid]

structure Agrees (database : Database) (hashes : List BlockHash) (loaded : LoadedIdentities) : Prop where
  values : ∀ hash : BlockHash, loaded.values[hash]?
    = if hash ∈ hashes then database.storedIdentity hash else none
  missing : (loaded.cacheMisses.filter fun hash => !loaded.values.contains hash)
    = hashes.filter fun hash => (database.identifiers.ids[hash]?).isNone
  misses : ∀ hash ∈ loaded.cacheMisses, hash ∈ hashes

theorem Coherent.agrees (h : Coherent database caches) (hashes : List BlockHash) :
    Agrees database hashes (loadIdentities database caches hashes) :=
  ⟨loadIdentities_values h hashes, loadIdentities_missing h hashes, fun _ => List.mem_of_mem_filter⟩

end LoadIdentities

section InternMissing

variable {database : Database} {loaded : LoadedIdentities}
variable {inserted : List ValidatedNodeBlock} {hashes : List BlockHash}

theorem internMissingIdentities_eq_ok (hstores : database.Stores inserted)
    (hload : Agrees database hashes loaded) {identifiers : Interner BlockHash}
    {identities : Map BlockHash StoredIdentity}
    (h : internMissingIdentities database.identifiers loaded = .ok (identifiers, identities)) :
    database.identifiers.insertAll
        (hashes.filter fun hash => (database.identifiers.ids[hash]?).isNone) = some identifiers ∧
    ∀ hash : BlockHash, identities[hash]? =
      if hash ∈ hashes then
        ({ database with identifiers := identifiers } : Database).storedIdentity hash
      else none := by
  unfold internMissingIdentities at h
  simp only [bind_eq_ok, orError_eq_ok, pure_eq_ok] at h
  rw [hload.missing] at h
  obtain ⟨identifiers', hinsert, heq⟩ := h
  rw [Prod.mk.injEq] at heq
  obtain ⟨rfl, rfl⟩ := heq
  refine ⟨hinsert, ?_⟩
  obtain ⟨-, hkeep, hnew⟩ := Interner.insertAll_spec hinsert
  intro hash
  rw [Map.get_foldl_insertSome
    (fun hash => (identifiers'.ids[hash]?).map fun id => (⟨id, none⟩ : StoredIdentity)),
    hload.values]
  by_cases hmem : hash ∈ hashes
  . cases hid : database.identifiers.ids[hash]? with
    | none =>
      -- A new identity has no block row.
      have hmissing : hash ∈ hashes.filter
          fun hash => (database.identifiers.ids[hash]?).isNone := by
        simp [List.mem_filter, hmem, hid]
      obtain ⟨-, id, hid', hge⟩ := hnew hash hmissing
      have hblock := hstores.get_eq_none hge
      rw [if_pos hmissing, if_pos hmem, hid']
      simp [Database.storedIdentity, hid', hblock, hmem]
    | some id =>
      have hmissing : hash ∉ hashes.filter
          fun hash => (database.identifiers.ids[hash]?).isNone := by
        simp [List.mem_filter, hid]
      rw [if_neg hmissing, if_pos hmem]
      simp [Database.storedIdentity, hkeep hash hmissing, hmem]
  . have hmissing : hash ∉ hashes.filter
        fun hash => (database.identifiers.ids[hash]?).isNone := by
      simp [List.mem_filter, hmem]
    simp [hmissing, hmem]

end InternMissing

section Levels

theorem deriveLevel_eq (parents : List StoredIdentity) :
    deriveLevel parents
      =
    if (parents.filterMap fun parent => parent.coordinate.map BlockCoordinate.level).foldr max 0 + 1
        < 2 ^ 32 then
      .ok ((parents.filterMap fun parent => parent.coordinate.map BlockCoordinate.level).foldr max 0 + 1)
    else
      .error (.panic "derived block level fits u32") := by
  unfold deriveLevel
  generalize parents.filterMap (fun parent => parent.coordinate.map BlockCoordinate.level) = levels
  split
  . next hmax =>
    rw [List.max?_eq_none_iff] at hmax
    subst hmax
    rfl
  . next greatest hmax => rw [foldr_max_of_max? hmax]

variable {level : Nat} {levels : List Nat} {rows : Map Nat LevelRow}

theorem deriveLevel_eq_ok {parents : List StoredIdentity} (h : deriveLevel parents = .ok level) :
    level = (parents.filterMap fun parent =>
      parent.coordinate.map BlockCoordinate.level).foldr max 0 + 1 ∧ level < 2 ^ 32 := by
  rw [deriveLevel_eq] at h
  split at h
  . next hlt =>
    cases h
    exact ⟨rfl, hlt⟩
  . cases h

theorem allocateCoordinate_eq_ok {levels levels' : Map Nat LevelRow} {coordinate : BlockCoordinate}
    (h : allocateCoordinate levels level = .ok (levels', coordinate)) :
    coordinate.level = level ∧
    coordinate.slot = (levels[level]?).elim 0 LevelRow.size ∧
    coordinate.slot + 1 ≤ maxLevelSize ∧
    levels' = levels.insert level
      ⟨coordinate.slot + 1, (levels[level]?).elim noVspcDaaScore LevelRow.daaScore⟩ := by
  unfold allocateCoordinate at h
  simp only [bind_eq_ok, expect, orError_eq_ok, pure_eq_ok] at h
  obtain ⟨row, hrow, coordinate', hcoordinate, heq⟩ := h
  cases heq
  unfold BlockCoordinate.new at hcoordinate
  split at hcoordinate
  . cases hcoordinate
    cases hl : levels[level]? with
    | none =>
      rw [hl] at hrow
      cases hrow
      simp [maxLevelSize]
    | some old =>
      rw [hl] at hrow
      dsimp only [growLevel] at hrow
      split at hrow
      . next hlt =>
        cases hrow
        simp only [Nat.add_sub_cancel, Option.elim_some, true_and, and_true]
        exact hlt
      . cases hrow
  . cases hcoordinate

theorem loadLevelSnapshots_eq_ok {S : Type} {diagnostic : String} {snapshots : List LevelCommitted}
    (h : loadLevelSnapshots (S := S) rows levels diagnostic = .ok snapshots) :
    ∀ snapshot, snapshot ∈ snapshots ↔ ∃ row : LevelRow, snapshot.level ∈ levels ∧
      rows[snapshot.level]? = some row ∧
      snapshot = ⟨snapshot.level, row.size, decodeLevelDaaScore row.daaScore⟩ := by
  unfold loadLevelSnapshots at h
  rw [mapM_orError_eq_ok] at h
  intro snapshot
  rw [mem_iff_of_map_eq h]
  constructor
  . rintro ⟨level, hlevel, hrow⟩
    rw [Option.map_eq_some_iff] at hrow
    obtain ⟨row, hrow, rfl⟩ := hrow
    rw [Std.ExtTreeSet.mem_toList, KeySet.mem_ofElems] at hlevel
    exact ⟨row, hlevel, hrow, rfl⟩
  . rintro ⟨row, hlevel, hrow, heq⟩
    refine ⟨snapshot.level, ?_, ?_⟩
    . rw [Std.ExtTreeSet.mem_toList, KeySet.mem_ofElems]
      exact hlevel
    . rw [hrow, heq]
      rfl

theorem loadLevelSnapshots_isOk {S : Type} (diagnostic : String)
    (h : ∀ level ∈ levels, ∃ row : LevelRow, rows[level]? = some row) :
    ∃ snapshots, loadLevelSnapshots (S := S) rows levels diagnostic = .ok snapshots := by
  refine ⟨_, mapM_eq_ok_of_forall (g := fun level => ⟨level, (rows[level]?).elim 0 LevelRow.size,
    (rows[level]?).bind fun row => decodeLevelDaaScore row.daaScore⟩) ?_⟩
  intro level hlevel
  rw [Std.ExtTreeSet.mem_toList, KeySet.mem_ofElems] at hlevel
  obtain ⟨row, hrow⟩ := h level hlevel
  rw [hrow]
  rfl

end Levels

section Insert

structure Insertion (database database' : Database) (block : ValidatedNodeBlock) (id : CompactId)
    (row : BlockRow) : Prop where
  ids : ∀ (hash : BlockHash) (i : CompactId), database.identifiers.ids[hash]? = some i →
    database'.identifiers.ids[hash]? = some i
  new_hash : database.identifiers.ids[block.hash]? = none
  next_le : database.identifiers.next ≤ id
  blocks : database'.blocks = database.blocks.insert id row
  parents : ∃ rows, database'.parents = database.parents.insert id rows
  levels : database'.levels = database.levels.insert row.coordinate.level
    ⟨row.coordinate.slot + 1,
      (database.levels[row.coordinate.level]?).elim noVspcDaaScore LevelRow.daaScore⟩
  slot : row.coordinate.slot = (database.levels[row.coordinate.level]?).elim 0 LevelRow.size
  size_le : row.coordinate.slot + 1 ≤ maxLevelSize
  color : row.color = .gray
  isInVspc : row.isInVspc = false
  represents : database'.Represents block id row

structure Committed (database : Database) (block : ValidatedNodeBlock) (id : CompactId)
    (row : BlockRow) (committed : BlockCommitted) : Prop where
  id : committed.id = id
  hash : committed.hash = block.hash
  coordinate : committed.coordinate = row.coordinate
  timestamp : committed.timestamp = block.timestamp
  daaScore : committed.daaScore = block.daaScore
  selectedParentIndex : committed.selectedParentIndex
    = block.directParents.idxOf? block.selectedParent
  selectedParentIndex_isSome : committed.selectedParentIndex.isSome = true
  directParents : committed.directParents = block.directParents.map fun hash =>
    ⟨hash, (database.identifiers.ids[hash]?).bind fun parent =>
      (database.blocks[parent]?).map BlockRow.coordinate⟩
  blueMergeSet : committed.blueMergeSet = block.blueMergeSet
  redMergeSet : committed.redMergeSet = block.redMergeSet
  color : committed.color = .gray
  isInVspc : committed.isInVspc = false
  levelSnapshots : ∀ snapshot, snapshot ∈ committed.levelSnapshots ↔
    ∃ levelRow : LevelRow,
      (snapshot.level = row.coordinate.level ∨ snapshot.level ∈ database.parentLevels block) ∧
      database.levels[snapshot.level]? = some levelRow ∧
      snapshot = ⟨snapshot.level, levelRow.size, decodeLevelDaaScore levelRow.daaScore⟩

theorem preparedBlock_new_eq_ok {block : ValidatedNodeBlock} {prepared : PreparedBlock}
    (h : PreparedBlock.new block = .ok prepared) :
    prepared.block = block ∧
    block.directParents.idxOf? block.selectedParent = some prepared.selectedParentIndex ∧
    block.selectedParent ∈ block.directParents ∧
    prepared.references =
      firstOccurrences (block.redMergeSet ++ block.blueMergeSet ++ block.directParents) := by
  unfold PreparedBlock.new at h
  simp only [bind_eq_ok, expect, orError_eq_ok, pure_eq_ok] at h
  obtain ⟨index, hindex, rfl⟩ := h
  rw [Option.filter_eq_some_iff] at hindex
  refine ⟨rfl, hindex.1, ?_, rfl⟩
  by_contra hmem
  rw [List.idxOf?_eq_none_iff.mpr hmem] at hindex
  cases hindex.1

variable {database database' : Database} {loaded : LoadedIdentities}
variable {inserted : List ValidatedNodeBlock} {block : ValidatedNodeBlock}
variable {prepared : PreparedBlock} {daaScore : Nat} {success : MaterializeAttemptSuccess}

theorem mem_universal (hprep : PreparedBlock.new block = .ok prepared) (hash : BlockHash) :
    hash ∈ prepared.universal ↔
      hash ∈ block.redMergeSet ++ block.blueMergeSet ++ block.directParents ∨ hash = block.hash := by
  obtain ⟨rfl, -, -, href⟩ := preparedBlock_new_eq_ok hprep
  unfold PreparedBlock.universal
  rw [List.mem_append, href, mem_firstOccurrences, List.mem_singleton]

theorem insertPreparedBlock_eq_ok (hstores : database.Stores inserted)
    (hload : Agrees database prepared.universal loaded) (hprep : PreparedBlock.new block = .ok prepared)
    (h : insertPreparedBlock database prepared daaScore loaded = .ok (database', success)) :
    ∃ (identifiers : Interner BlockHash) (parents blue red : List StoredIdentity)
      (levels : Map Nat LevelRow) (coordinate : BlockCoordinate) (selectedParent own : StoredIdentity)
      (snapshots : List LevelCommitted) (updates : List (BlockHash × StoredIdentity))
      (interned : Database) (row : BlockRow),
      interned = { database with identifiers := identifiers } ∧
      database.identifiers.insertAll (prepared.universal.filter fun hash =>
        (database.identifiers.ids[hash]?).isNone) = some identifiers ∧
      block.directParents.map interned.storedIdentity = parents.map some ∧
      block.blueMergeSet.map interned.storedIdentity = blue.map some ∧
      block.redMergeSet.map interned.storedIdentity = red.map some ∧
      interned.storedIdentity block.selectedParent = some selectedParent ∧
      interned.storedIdentity block.hash = some own ∧
      deriveLevel parents = .ok coordinate.level ∧
      allocateCoordinate database.levels coordinate.level = .ok (levels, coordinate) ∧
      row = ⟨block.timestamp, daaScore, coordinate, selectedParent.id, .gray, false,
        blue.map StoredIdentity.id, red.map StoredIdentity.id⟩ ∧
      database' = ({ interned with levels := levels } : Database).insertBlockAndParents own.id row
        (parents.map fun parent => (parent.id, parent.coordinate)) ∧
      loadLevelSnapshots (S := MaterializeSemanticError) levels
        (coordinate.level :: parents.filterMap fun parent =>
          parent.coordinate.map BlockCoordinate.level)
        "materialized parent level has no level-state row" = .ok snapshots ∧
      (∀ update ∈ updates, update.1 ∈ prepared.universal ∧
        some update.2 = if update.1 = block.hash then
          some { own with block := some row.cached }
        else interned.storedIdentity update.1) ∧
      success =
        { outcome := .inserted
            { id := own.id
              hash := block.hash
              coordinate := coordinate
              timestamp := block.timestamp
              daaScore := block.daaScore
              selectedParentIndex := some prepared.selectedParentIndex
              directParents := (block.directParents.zip parents).map fun parent =>
                ⟨parent.1, parent.2.coordinate⟩
              blueMergeSet := block.blueMergeSet
              redMergeSet := block.redMergeSet
              color := .gray
              isInVspc := false
              levelSnapshots := snapshots }
          cacheUpdates := updates
          mergeSets := some (own.id, row.mergeSets) } := by
  obtain ⟨rfl, -, hsel, -⟩ := preparedBlock_new_eq_ok hprep
  unfold insertPreparedBlock at h
  simp only [bind_eq_ok, expect, orError_eq_ok, pure_eq_ok, mapM_orError_eq_ok, Prod.exists] at h
  obtain ⟨identifiers, identities, hintern, parents, hparents, level, hlevel, levels, coordinate,
    hcoordinate, selectedParent, hselected, own, hown, blue, hblue, red, hred, snapshots, hsnapshots,
    updates, hupdates, heq⟩ := h
  obtain ⟨hinsert, hidentities⟩ := internMissingIdentities_eq_ok hstores hload hintern
  have hget : ∀ hash ∈ prepared.universal, identities[hash]? =
      ({ database with identifiers := identifiers } : Database).storedIdentity hash := by
    intro hash hmem
    rw [hidentities hash, if_pos hmem]
  have huniversal := mem_universal hprep
  have hcoord := (allocateCoordinate_eq_ok hcoordinate).1
  subst hcoord
  rw [Prod.mk.injEq] at heq
  obtain ⟨hdb, hsuccess⟩ := heq
  -- The own hash is in no relationship vector, so its updated identity is not read there.
  have hother : ∀ hash ∈ prepared.block.redMergeSet ++ prepared.block.blueMergeSet ++
      prepared.block.directParents, ∀ identity : StoredIdentity,
      (identities.insert prepared.block.hash identity)[hash]? =
        ({ database with identifiers := identifiers } : Database).storedIdentity hash := by
    intro hash hmem identity
    rw [Map.get_insert, if_neg, hget hash ((huniversal hash).mpr (Or.inl hmem))]
    rintro rfl
    exact prepared.block.hash_not_mem hmem
  refine ⟨identifiers, parents, blue, red, levels, coordinate, selectedParent, own, snapshots, updates,
    _, _, rfl, hinsert, ?_, ?_, ?_, ?_, ?_, hlevel, hcoordinate, rfl, hdb.symm, hsnapshots, ?_,
    hsuccess.symm⟩
  . rw [← hparents]
    apply List.map_congr_left
    intro hash hmem
    exact (hget hash ((huniversal hash).mpr (Or.inl (by simp [hmem])))).symm
  . rw [← hblue]
    apply List.map_congr_left
    intro hash hmem
    exact (hother hash (by simp [hmem]) _).symm
  . rw [← hred]
    apply List.map_congr_left
    intro hash hmem
    exact (hother hash (by simp [hmem]) _).symm
  . rw [← hselected]
    exact (hget _ ((huniversal _).mpr (Or.inl (by simp [hsel])))).symm
  . rw [← hown]
    exact (hget _ ((huniversal _).mpr (Or.inr rfl))).symm
  . intro update hmem
    obtain ⟨hash, hmiss, heq⟩ := (mem_iff_of_map_eq hupdates update).mp hmem
    rw [Option.map_eq_some_iff] at heq
    obtain ⟨identity, hidentity, rfl⟩ := heq
    have huni : hash ∈ prepared.universal := hload.misses hash hmiss
    refine ⟨huni, ?_⟩
    rw [Map.get_insert] at hidentity
    by_cases hh : hash = prepared.block.hash
    . rw [if_pos hh.symm] at hidentity
      rw [if_pos hh, ← hidentity]
      rfl
    . rw [if_neg (Ne.symm hh)] at hidentity
      rw [if_neg hh, ← hget hash huni, hidentity]

theorem insertPreparedBlock_spec (hstores : database.Stores inserted)
    (hload : Agrees database prepared.universal loaded) (hprep : PreparedBlock.new block = .ok prepared)
    (hdaa : daaScore = block.daaScore ∧ daaScore ≤ maxDaaScore)
    (hnew : database.identifiers.ids[block.hash]? = none)
    (h : insertPreparedBlock database prepared daaScore loaded = .ok (database', success)) :
    ∃ id row committed, Insertion database database' block id row ∧
      success.outcome = .inserted committed ∧ Committed database' block id row committed ∧
      (∀ update ∈ success.cacheUpdates, database'.storedIdentity update.1 = some update.2) ∧
      success.mergeSets = some (id, row.mergeSets) := by
  obtain ⟨identifiers, parents, blue, red, levels, coordinate, selectedParent, own, snapshots, updates,
    interned, row, hinterned, hinsert, hparents, hblue, hred, hselected, hown, hlevel, hcoordinate,
    hrow, hdb, hsnapshots, hupdates, hsuccess⟩ := insertPreparedBlock_eq_ok hstores hload hprep h
  obtain ⟨hblock, hindex, hselMem, -⟩ := preparedBlock_new_eq_ok hprep
  have hids : interned.identifiers = identifiers := by rw [hinterned]
  have hblocks : interned.blocks = database.blocks := by rw [hinterned]
  -- The own hash is the last one to be interned.
  have hmissing : (prepared.universal.filter fun hash => (database.identifiers.ids[hash]?).isNone)
      = (prepared.references.filter fun hash => (database.identifiers.ids[hash]?).isNone) ++
        [block.hash] := by
    unfold PreparedBlock.universal
    rw [List.filter_append, hblock]
    simp [hnew]
  rw [hmissing] at hinsert
  obtain ⟨-, hkeep, hfresh⟩ := Interner.insertAll_spec hinsert
  obtain ⟨id, hid, hge, hlast⟩ := Interner.insertAll_last hinsert
  have hownId : own.id = id := by
    rw [Database.storedIdentity_eq_some, hids, hid] at hown
    exact (Option.some.inj hown.1).symm
  have hdbIds : database'.identifiers = identifiers := by
    rw [hdb, hinterned]
    rfl
  have hdbBlocks : database'.blocks = database.blocks.insert id row := by
    rw [hdb, hinterned, ← hownId]
    rfl
  obtain ⟨-, hslot, hsize, hlevels⟩ := allocateCoordinate_eq_ok hcoordinate
  have hrowCoordinate : row.coordinate = coordinate := by rw [hrow]
  -- What the identities at hand say is what the tables say after the commit.
  have hstored : ∀ hash identity, interned.storedIdentity hash = some identity →
      hash ≠ block.hash → database'.storedIdentity hash = some identity := by
    intro hash identity hidentity hne
    rw [Database.storedIdentity_eq_some] at hidentity ⊢
    rw [hids, hblocks] at hidentity
    have hlt := hlast hash identity.id hne hidentity.1
    rw [hdbIds, hdbBlocks, Map.get_insert, if_neg (Nat.ne_of_gt hlt)]
    exact hidentity
  have hresolved : ∀ {l : List BlockHash} {r : List StoredIdentity},
      l.map interned.storedIdentity = r.map some →
      (∀ hash ∈ l, hash ∈ block.redMergeSet ++ block.blueMergeSet ++ block.directParents) →
      l.map database'.storedIdentity = r.map some := by
    intro l r hlr hsub
    rw [← hlr]
    apply List.map_congr_left
    intro hash hmem
    obtain ⟨identity, hidentity⟩ := exists_of_map_eq hlr hmem
    rw [hidentity]
    apply hstored hash identity hidentity
    rintro rfl
    exact block.hash_not_mem (hsub _ hmem)
  replace hparents := hresolved hparents fun hash hmem => by simp [hmem]
  replace hblue := hresolved hblue fun hash hmem => by simp [hmem]
  replace hred := hresolved hred fun hash hmem => by simp [hmem]
  have hownStored : database'.storedIdentity block.hash
      = some { own with block := some row.cached } := by
    rw [Database.storedIdentity_eq_some, hdbIds, hownId]
    refine ⟨hid, ?_⟩
    rw [hdbBlocks, Map.get_insert, if_pos rfl]
    rfl
  have holder : ∀ hash ∈ block.redMergeSet ++ block.blueMergeSet ++ block.directParents,
      ∃ reference, database'.identifiers.ids[hash]? = some reference ∧ reference < id := by
    intro hash hmem
    have hne : hash ≠ block.hash := by
      rintro rfl
      exact block.hash_not_mem hmem
    have hidentity : ∃ identity, database'.storedIdentity hash = some identity := by
      rw [List.mem_append, List.mem_append] at hmem
      obtain (hmem | hmem) | hmem := hmem
      . exact exists_of_map_eq hred hmem
      . exact exists_of_map_eq hblue hmem
      . exact exists_of_map_eq hparents hmem
    obtain ⟨identity, hidentity⟩ := hidentity
    have hget := (Database.storedIdentity_eq_some.mp hidentity).1
    exact ⟨identity.id, hget, hlast hash identity.id hne (hdbIds ▸ hget)⟩
  have hparentLevels : (parents.filterMap fun parent =>
      parent.coordinate.map BlockCoordinate.level) = database'.parentLevels block := by
    rw [filterMap_eq_of_map_eq hparents]
    apply List.filterMap_congr
    intro hash hmem
    obtain ⟨identity, hidentity⟩ := exists_of_map_eq hparents hmem
    rw [hidentity, (Database.storedIdentity_eq_some.mp hidentity).1, Option.bind_some,
      Option.bind_some, Database.coordinate_of_storedIdentity hidentity, Option.map_map]
    rfl
  refine ⟨id, row, _, ?_, by rw [hsuccess], ?_, ?_, by rw [hsuccess, hownId]⟩
  rotate_left
  . constructor
    case id => exact hownId
    case hash => rfl
    case coordinate => exact hrowCoordinate.symm
    case timestamp => rfl
    case daaScore => rfl
    case selectedParentIndex => exact hindex.symm
    case selectedParentIndex_isSome => rfl
    case directParents =>
      refine zip_map_eq_of_map_eq
        (g := fun hash (parent : StoredIdentity) => (⟨hash, parent.coordinate⟩ : ParentCommitted))
        hparents ?_
      intro hash hmem parent hparent
      rw [(Database.storedIdentity_eq_some.mp hparent).1, Option.bind_some,
        Database.coordinate_of_storedIdentity hparent]
    case blueMergeSet => rfl
    case redMergeSet => rfl
    case color => rfl
    case isInVspc => rfl
    case levelSnapshots =>
      intro snapshot
      rw [loadLevelSnapshots_eq_ok hsnapshots, hparentLevels, hrowCoordinate]
      have hdbLevels : database'.levels = levels := by rw [hdb]; rfl
      simp only [List.mem_cons, hdbLevels]
  . rw [hsuccess]
    intro update hmem
    obtain ⟨-, heq⟩ := hupdates update hmem
    split at heq
    . next hh =>
      rw [hh, hownStored, heq]
    . next hh => exact hstored _ _ heq.symm hh
  constructor
  case ids =>
    intro hash i hi
    rw [hdbIds, hkeep hash, hi]
    intro hmem
    rw [(hfresh hash hmem).1] at hi
    cases hi
  case new_hash => exact hnew
  case next_le => exact hge
  case blocks => exact hdbBlocks
  case parents =>
    rw [hdb, hinterned, hownId]
    exact ⟨_, rfl⟩
  case levels =>
    rw [hdb, hrowCoordinate, ← hlevels]
    rfl
  case slot =>
    rw [hrowCoordinate]
    exact hslot
  case size_le =>
    rw [hrowCoordinate]
    exact hsize
  case color => rw [hrow]
  case isInVspc => rw [hrow]
  case represents =>
    constructor
    case hash => rw [hdbIds, hid]
    case stored => rw [hdbBlocks, Map.get_insert, if_pos rfl]
    case timestamp => rw [hrow]
    case daaScore =>
      rw [hrow]
      exact hdaa.1
    case daaScore_le =>
      rw [hrow]
      exact hdaa.2
    case selectedParent =>
      rw [hdbIds, hrow]
      rw [Database.storedIdentity_eq_some, hids] at hselected
      exact hselected.1
    case blueMergeSet =>
      rw [hrow, ← map_map_eq_of_map_eq hblue]
      simp only [Database.map_id_storedIdentity]
    case redMergeSet =>
      rw [hrow, ← map_map_eq_of_map_eq hred]
      simp only [Database.map_id_storedIdentity]
    case parents =>
      have hcoordinate : ∀ parent ∈ parents,
          parent.coordinate = (database'.blocks[parent.id]?).map BlockRow.coordinate := by
        intro parent hmem
        obtain ⟨hash, -, hparent⟩ := (mem_iff_of_map_eq hparents parent).mp hmem
        exact Database.coordinate_of_storedIdentity hparent
      refine ⟨parents.foldl (fun (rows : Map CompactId ParentRow) parent =>
        rows.insert parent.id ⟨row.coordinate, parent.coordinate⟩) ∅, ?_, ?_⟩
      . rw [hdb, hownId]
        unfold Database.insertBlockAndParents
        rw [Map.get_insert, if_pos rfl, List.foldl_map]
      . intro reference parentRow
        rw [Map.get_foldl_insert_eq_some fun x hx y hy heq => by
          rw [hcoordinate x hx, hcoordinate y hy, heq]]
        constructor
        . rintro ⟨parent, hmem, rfl, rfl⟩
          obtain ⟨hash, hhash, hparent⟩ := (mem_iff_of_map_eq hparents parent).mp hmem
          rw [hcoordinate parent hmem]
          exact ⟨⟨hash, hhash, (Database.storedIdentity_eq_some.mp hparent).1⟩, rfl⟩
        . rintro ⟨⟨hash, hhash, hreference⟩, rfl⟩
          obtain ⟨parent, hparent⟩ := exists_of_map_eq hparents hhash
          have hmem := (mem_iff_of_map_eq hparents parent).mpr ⟨hash, hhash, hparent⟩
          rw [(Database.storedIdentity_eq_some.mp hparent).1] at hreference
          cases hreference
          exact ⟨parent, hmem, rfl, by rw [hcoordinate parent hmem]⟩
    case older =>
      intro hash hmem
      unfold ValidatedNodeBlock.references at hmem
      rw [List.mem_append, List.mem_singleton] at hmem
      obtain hmem | rfl := hmem
      . exact holder hash hmem
      . exact holder _ (by simp [hselMem])
    case level =>
      rw [hrowCoordinate, (deriveLevel_eq_ok hlevel).1, hparentLevels]
    case selectedParent_mem => exact Or.inl hselMem

end Insert

namespace Insertion

variable {database database' : Database} {inserted : List ValidatedNodeBlock}
variable {block : ValidatedNodeBlock} {id : CompactId} {row : BlockRow}

section Lookup

variable (h : Insertion database database' block id row)
include h

theorem get_eq_none (hstores : database.Stores inserted) : database.blocks[id]? = none :=
  hstores.get_eq_none h.next_le

theorem get_blocks (i : CompactId) :
    database'.blocks[i]? = if id = i then some row else database.blocks[i]? := by
  rw [h.blocks, Map.get_insert]

theorem extends' (hstores : database.Stores inserted) : Database.Extends database database' := by
  constructor
  . exact h.ids
  . intro hash i hi
    have hlt := database.identifiers.lt_next hash i hi
    have hne : id ≠ i := Nat.ne_of_gt (Nat.lt_of_lt_of_le hlt h.next_le)
    rw [h.get_blocks, if_neg hne]
  . intro i rows hrows
    obtain ⟨rows', hrows'⟩ := h.parents
    rw [hrows', Map.get_insert, if_neg]
    . exact hrows
    . rintro rfl
      obtain ⟨row', hrow'⟩ := hstores.parents id rows hrows
      rw [h.get_eq_none hstores] at hrow'
      cases hrow'

theorem get_levels (level : Nat) :
    database'.levels[level]? =
      if row.coordinate.level = level then
        some ⟨row.coordinate.slot + 1,
          (database.levels[row.coordinate.level]?).elim noVspcDaaScore LevelRow.daaScore⟩
      else database.levels[level]? := by
  rw [h.levels, Map.get_insert]

end Lookup

variable (h : Insertion database database' block id row) (hstores : database.Stores inserted)
include h hstores

theorem occupied_iff (level slot : Nat) :
    database'.Occupied level slot ↔
      (row.coordinate.level = level ∧ row.coordinate.slot = slot) ∨
        database.Occupied level slot := by
  constructor
  . rintro ⟨i, row', hrow', hlevel, hslot⟩
    rw [h.get_blocks] at hrow'
    split at hrow'
    . cases hrow'
      exact Or.inl ⟨hlevel, hslot⟩
    . exact Or.inr ⟨i, row', hrow', hlevel, hslot⟩
  . rintro (⟨hlevel, hslot⟩ | ⟨i, row', hrow', hlevel, hslot⟩)
    . exact ⟨id, row, by rw [h.get_blocks, if_pos rfl], hlevel, hslot⟩
    . refine ⟨i, row', ?_, hlevel, hslot⟩
      rw [h.get_blocks, if_neg]
      . exact hrow'
      . rintro rfl
        rw [h.get_eq_none hstores] at hrow'
        cases hrow'

theorem slots (level slot : Nat) :
    database'.Occupied level slot ↔
      ∃ row : LevelRow, database'.levels[level]? = some row ∧ slot < row.size := by
  rw [h.occupied_iff hstores, hstores.slots, h.get_levels]
  by_cases hl : row.coordinate.level = level
  . subst hl
    have hslot := h.slot
    simp only [true_and, ↓reduceIte, Option.some.injEq, exists_eq_left']
    cases hlevel : database.levels[row.coordinate.level]? with
    | none =>
      rw [hlevel] at hslot
      simp only [Option.elim_none] at hslot
      simp only [reduceCtorEq, false_and, exists_false, or_false]
      omega
    | some levelRow =>
      rw [hlevel] at hslot
      simp only [Option.elim_some] at hslot
      simp only [Option.some.injEq, exists_eq_left']
      omega
  . simp [hl]

theorem level_le_succ_top {top : Nat}
    (htop : ∀ level, (∃ row : LevelRow, database.levels[level]? = some row) ↔
      0 < level ∧ level ≤ top) : row.coordinate.level ≤ top + 1 := by
  rw [h.represents.level]
  apply Nat.succ_le_succ
  have hall : ∀ level ∈ database'.parentLevels block, level ≤ top := by
    intro level hmem
    unfold Database.parentLevels at hmem
    rw [List.mem_filterMap] at hmem
    obtain ⟨hash, hmem, hlevel⟩ := hmem
    rw [Option.bind_eq_some_iff] at hlevel
    obtain ⟨i, hi, hlevel⟩ := hlevel
    rw [Option.map_eq_some_iff] at hlevel
    obtain ⟨parentRow, hparent, rfl⟩ := hlevel
    obtain ⟨reference, href, hlt⟩ := h.represents.older hash
      (by simp [ValidatedNodeBlock.references, hmem])
    rw [hi] at href
    cases href
    rw [h.get_blocks, if_neg (Nat.ne_of_gt hlt)] at hparent
    obtain ⟨levelRow, hlevelRow, -⟩ := (hstores.slots _ _).mp ⟨i, parentRow, hparent, rfl, rfl⟩
    exact ((htop _).mp ⟨levelRow, hlevelRow⟩).2
  generalize database'.parentLevels block = levels at hall
  induction levels with
  | nil => exact Nat.zero_le _
  | cons a levels ih =>
    rw [List.foldr_cons]
    exact max_le (hall a List.mem_cons_self)
      (ih fun b hb => hall b (List.mem_cons_of_mem a hb))

theorem stores : database'.Stores (inserted ++ [block]) := by
  have hext := h.extends' hstores
  constructor
  case represented =>
    intro other hmem
    rw [List.mem_append, List.mem_singleton] at hmem
    obtain hmem | rfl := hmem
    . obtain ⟨i, row', hrep⟩ := hstores.represented other hmem
      obtain ⟨row'', hrep', -⟩ := hrep.of_extends hext
      exact ⟨i, row'', hrep'⟩
    . exact ⟨id, row, h.represents⟩
  case complete =>
    intro i row' hrow'
    rw [h.get_blocks] at hrow'
    split at hrow'
    . next heq =>
      cases hrow'
      subst heq
      exact ⟨block, by simp, h.represents⟩
    . next hne =>
      obtain ⟨other, hmem, hrep⟩ := hstores.complete i row' hrow'
      obtain ⟨row'', hrep', -⟩ := hrep.of_extends hext
      have hsame := hrep'.stored
      rw [h.get_blocks, if_neg hne, hrow'] at hsame
      cases hsame
      exact ⟨other, by simp [hmem], hrep'⟩
  case parents =>
    intro i rows hrows
    rw [h.get_blocks]
    split
    . exact ⟨row, rfl⟩
    . next hne =>
      obtain ⟨rows', hrows'⟩ := h.parents
      rw [hrows', Map.get_insert, if_neg hne] at hrows
      exact hstores.parents i rows hrows
  case coordinate_injective =>
    -- The new block takes a slot at or above the size of its level.
    have hfree : ∀ (i : CompactId) (row' : BlockRow), database.blocks[i]? = some row' →
        row'.coordinate ≠ row.coordinate := by
      intro i row' hrow' heq
      obtain ⟨levelRow, hlevelRow, hlt⟩ :=
        (hstores.slots _ _).mp ⟨i, row', hrow', congrArg _ heq, congrArg _ heq⟩
      have hslot := h.slot
      rw [hlevelRow] at hslot
      simp only [Option.elim_some] at hslot
      omega
    intro i j rowI rowJ hI hJ heq
    rw [h.get_blocks] at hI hJ
    split at hI
    . next hi =>
      split at hJ
      . next hj => rw [← hi, ← hj]
      . cases hI
        exact absurd heq.symm (hfree j rowJ hJ)
    . split at hJ
      . cases hJ
        exact absurd heq (hfree i rowI hI)
      . exact hstores.coordinate_injective i j rowI rowJ hI hJ heq
  case slots => exact h.slots hstores
  case size_pos =>
    intro level levelRow hlevelRow
    rw [h.get_levels] at hlevelRow
    split at hlevelRow
    . cases hlevelRow
      exact ⟨Nat.succ_pos _, h.size_le⟩
    . exact hstores.size_pos level levelRow hlevelRow
  case contiguous =>
    obtain ⟨top, htop⟩ := hstores.contiguous
    have hle := h.level_le_succ_top hstores htop
    have hpos := row.coordinate.level_pos
    refine ⟨max top row.coordinate.level, ?_⟩
    intro level
    rw [h.get_levels]
    by_cases hl : row.coordinate.level = level
    . subst hl
      simp [hpos]
    . simp only [hl, ↓reduceIte]
      rw [htop]
      omega

end Insertion

namespace Coherent

variable {database database' : Database} {caches : ProcessingCacheDomains}
variable {inserted : List ValidatedNodeBlock}
variable {id : CompactId} (h : Coherent database caches)
include h

theorem of_extends (hstores : database.Stores inserted)
    (hext : Database.Extends database database') : Coherent database' caches := by
  have hrow : ∀ {β : Type} (f : BlockRow → β), (∀ row, f row.immutable = f row) →
      ∀ (id : CompactId) (b : β), (database.blocks[id]?).map f = some b →
      (database'.blocks[id]?).map f = some b := by
    intro β f hf id b hb
    rw [Option.map_eq_some_iff] at hb
    obtain ⟨row, hrow, rfl⟩ := hb
    obtain ⟨hash, hhash⟩ := hstores.identified hrow
    obtain ⟨row', hrow', himm⟩ := hext.get_eq_some hhash hrow
    rw [hrow', Option.map_some, ← hf row', himm, hf row]
  constructor
  . intro hash identity hidentity
    obtain ⟨hid, hmat⟩ := h.identities hash identity hidentity
    refine ⟨hext.ids hash _ hid, ?_⟩
    rw [hmat]
    have := congrArg Option.isSome (hext.blocks hash _ hid)
    simpa using this.symm
  . intro id block hblock
    exact hrow BlockRow.cached (fun _ => rfl) id block (h.materializedBlocks id block hblock)
  . intro id mergeSets hsets
    exact hrow BlockRow.mergeSets (fun _ => rfl) id mergeSets (h.mergeSets id mergeSets hsets)

theorem publishMaterializedBlock {block : CachedMaterializedBlock}
    (hblock : (database.blocks[id]?).map BlockRow.cached = some block) :
    Coherent database (caches.publishMaterializedBlock id block) := by
  refine ⟨h.identities, ?_, h.mergeSets⟩
  intro i b hb
  simp only [ProcessingCacheDomains.publishMaterializedBlock] at hb
  rw [Map.get_insert] at hb
  split at hb
  . next heq =>
    cases hb
    rw [← heq]
    exact hblock
  . exact h.materializedBlocks i b hb

theorem publishMergeSets {mergeSets : CachedMergeSets}
    (hsets : (database.blocks[id]?).map BlockRow.mergeSets = some mergeSets) :
    Coherent database (caches.publishMergeSets id mergeSets) := by
  refine ⟨h.identities, h.materializedBlocks, ?_⟩
  intro i b hb
  simp only [ProcessingCacheDomains.publishMergeSets] at hb
  rw [Map.get_insert] at hb
  split at hb
  . next heq =>
    cases hb
    rw [← heq]
    exact hsets
  . exact h.mergeSets i b hb

theorem publishStoredIdentity {update : BlockHash × StoredIdentity}
    (hupdate : database.storedIdentity update.1 = some update.2) :
    Coherent database (caches.publishStoredIdentity update) := by
  rw [Database.storedIdentity_eq_some] at hupdate
  obtain ⟨hid, hblock⟩ := hupdate
  have hidentity : Coherent database
      (caches.publishIdentity update.1 ⟨update.2.id, update.2.block.isSome⟩) := by
    refine ⟨?_, h.materializedBlocks, h.mergeSets⟩
    intro hash identity hget
    simp only [ProcessingCacheDomains.publishIdentity] at hget
    rw [Map.get_insert] at hget
    split at hget
    . next heq =>
      cases hget
      rw [← heq]
      refine ⟨hid, ?_⟩
      rw [hblock]
      simp
    . exact h.identities hash identity hget
  unfold ProcessingCacheDomains.publishStoredIdentity
  split
  . next block hsome =>
    apply hidentity.publishMaterializedBlock
    rw [← hblock, hsome]
  . exact hidentity

theorem foldl_publishStoredIdentity {updates : List (BlockHash × StoredIdentity)}
    (hupdates : ∀ update ∈ updates, database.storedIdentity update.1 = some update.2) :
    Coherent database (updates.foldl ProcessingCacheDomains.publishStoredIdentity caches) := by
  induction updates generalizing caches with
  | nil => exact h
  | cons update updates ih =>
    rw [List.foldl_cons]
    apply ih
    . exact h.publishStoredIdentity (hupdates update List.mem_cons_self)
    . intro u hu
      exact hupdates u (List.mem_cons_of_mem update hu)

end Coherent

end Kgi
