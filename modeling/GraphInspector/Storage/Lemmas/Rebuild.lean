import GraphInspector.Storage.Lemmas.Commit

/-!
A rebuilt generation holds the pruning point and nothing else, and the pruning point is its VSPC.
-/

namespace Kgi

open Data

structure Storage.Consistent (storage : Storage) (inserted : List ValidatedNodeBlock)
    (path : List CompactId) : Prop where
  stores : storage.database.Stores inserted
  coherent : Coherent storage.database storage.caches
  chain : storage.database.VspcChain path
  sink : ∀ sink, storage.caches.vspcSink = some sink →
    path.head? = some sink.id ∧ storage.database.identifiers.ids[sink.hash]? = some sink.id

structure Rebuilt (storage : Storage) (block : ValidatedNodeBlock) (id : CompactId) (row : BlockRow)
    (parentIds : List CompactId) : Prop where
  hash : storage.database.identifiers.ids[block.hash]? = some id
  older : ∀ (hash : BlockHash) (reference : CompactId), hash ≠ block.hash →
    storage.database.identifiers.ids[hash]? = some reference → reference < id
  coordinate : row.coordinate.level = 1 ∧ row.coordinate.slot = 0
  timestamp : row.timestamp = block.timestamp
  daaScore : row.daaScore = block.daaScore ∧ row.daaScore ≤ maxDaaScore
  selectedParent :
    storage.database.identifiers.ids[block.selectedParent]? = some row.selectedParentId
  blueMergeSet : block.blueMergeSet.map (fun hash => storage.database.identifiers.ids[hash]?)
    = row.blueMergeSet.map some
  redMergeSet : block.redMergeSet.map (fun hash => storage.database.identifiers.ids[hash]?)
    = row.redMergeSet.map some
  parents : block.directParents.map (fun hash => storage.database.identifiers.ids[hash]?)
    = parentIds.map some
  isInVspc : row.isInVspc = true
  blocks : storage.database.blocks = (∅ : Map CompactId BlockRow).insert id row
  levels : storage.database.levels = (∅ : Map Nat LevelRow).insert 1 ⟨1, row.daaScore⟩
  parentRows : storage.database.parents = (∅ : Map CompactId (Map CompactId ParentRow)).insert id
    (parentIds.foldl (fun (rows : Map CompactId ParentRow) parent =>
      rows.insert parent ⟨row.coordinate, none⟩) ∅)
  identities : ∀ (hash : BlockHash) (identity : CachedIdentity),
    storage.caches.identities[hash]? = some identity →
    storage.database.identifiers.ids[hash]? = some identity.id ∧
    identity.materialized = decide (hash = block.hash)
  materializedBlocks : storage.caches.materializedBlocks
    = (∅ : Map CompactId CachedMaterializedBlock).insert id row.cached
  mergeSets : storage.caches.mergeSets = (∅ : Map CompactId CachedMergeSets).insert id row.mergeSets
  vspcSink : storage.caches.vspcSink = some ⟨id, block.hash⟩

theorem performRebuild_eq_ok {block : ValidatedNodeBlock} {genesisHash : BlockHash}
    {storage : Storage} {anchor : MaterializedSyncAnchor}
    (h : Storage.performRebuild block genesisHash = .ok (storage, anchor)) :
    anchor.point.hash = block.hash ∧
      ∃ row parentIds, Rebuilt storage block anchor.point.id row parentIds := by
  unfold Storage.performRebuild rebuildIdentity expect at h
  simp only [bind_eq_ok, pure_eq_ok, orError_eq_ok, mapM_orError_eq_ok] at h
  obtain ⟨daaScore, hdaa, blueScore, -, identifiers, hids, ownId, hown, selectedParentId, hselected,
    blueIds, hblue, redIds, hred, parentIds, hparents, coordinate, hcoordinate, heq⟩ := h
  rw [Prod.mk.injEq] at heq
  obtain ⟨rfl, rfl⟩ := heq
  obtain ⟨id, hid, -, hlast⟩ := Interner.insertAll_last hids
  have hownId : ownId = id := by
    rw [hown] at hid
    injection hid
  subst hownId
  have hcoordinate' : coordinate.level = 1 ∧ coordinate.slot = 0 := by
    unfold BlockCoordinate.new at hcoordinate
    split at hcoordinate
    . cases hcoordinate
      exact ⟨rfl, rfl⟩
    . cases hcoordinate
  refine ⟨rfl, ⟨block.timestamp, daaScore, coordinate, selectedParentId, .gray, true, blueIds, redIds⟩,
    parentIds, ?_⟩
  constructor
  case hash => exact hid
  case older => exact fun hash reference hne href => hlast hash reference hne href
  case coordinate => exact hcoordinate'
  case timestamp => rfl
  case daaScore => exact daaScoreToSql_eq_ok hdaa
  case selectedParent => exact hselected
  case blueMergeSet => exact hblue
  case redMergeSet => exact hred
  case parents => exact hparents
  case isInVspc => rfl
  case blocks => rfl
  case levels => rfl
  case parentRows =>
    unfold Database.insertBlockAndParents
    rw [List.foldl_map]
    rfl
  case identities =>
    intro hash identity hidentity
    simp only [ProcessingCacheDomains.publishMaterializedBlock,
      ProcessingCacheDomains.publishMergeSets, ProcessingCacheDomains.publishVspcSink] at hidentity
    rw [Map.get_foldl_insertSome] at hidentity
    simp only [Std.ExtTreeMap.getElem?_empty, Option.or_none] at hidentity
    split at hidentity
    . rw [Option.map_eq_some_iff] at hidentity
      obtain ⟨i, hi, rfl⟩ := hidentity
      exact ⟨hi, rfl⟩
    . cases hidentity
  case materializedBlocks => rfl
  case mergeSets => rfl
  case vspcSink => rfl

theorem exists_performRebuild (block : ValidatedNodeBlock) (genesisHash : BlockHash)
    (observed : Storage × MaterializedSyncAnchor → Bool)
    (h : (Storage.performRebuild block genesisHash).toOption.any observed = true) :
    ∃ storage anchor, Storage.performRebuild block genesisHash = .ok (storage, anchor) ∧
      observed (storage, anchor) = true := by
  rw [Option.any_eq_true] at h
  obtain ⟨⟨storage, anchor⟩, hok, hobserved⟩ := h
  exact ⟨storage, anchor, toOption_eq_some.mp hok, hobserved⟩

namespace Rebuilt

variable {storage : Storage} {block : ValidatedNodeBlock} {id : CompactId} {row : BlockRow}
  {hash : BlockHash}
variable {parentIds : List CompactId}

section Lookup

variable (h : Rebuilt storage block id row parentIds)
include h

theorem get_blocks (i : CompactId) :
    storage.database.blocks[i]? = if id = i then some row else none := by
  rw [h.blocks, Map.get_insert]
  rfl

theorem get_eq_some {i : CompactId} {row' : BlockRow}
    (hrow : storage.database.blocks[i]? = some row') : i = id ∧ row' = row := by
  rw [h.get_blocks] at hrow
  split at hrow
  . next heq =>
    cases hrow
    exact ⟨heq.symm, rfl⟩
  . cases hrow

theorem get_self : storage.database.blocks[id]? = some row := by
  rw [h.get_blocks, if_pos rfl]

theorem get_levels (level : Nat) :
    storage.database.levels[level]? = if 1 = level then some ⟨1, row.daaScore⟩ else none := by
  rw [h.levels, Map.get_insert]
  rfl

theorem get_eq_none {reference : CompactId} (hne : hash ≠ block.hash)
    (href : storage.database.identifiers.ids[hash]? = some reference) :
    storage.database.blocks[reference]? = none := by
  rw [h.get_blocks, if_neg (Nat.ne_of_gt (h.older hash reference hne href))]

end Lookup

theorem references_ne_hash (hmem : hash ∈ block.references) :
    hash ≠ block.hash := by
  unfold ValidatedNodeBlock.references at hmem
  rw [List.mem_append, List.mem_singleton] at hmem
  rintro rfl
  obtain hmem | heq := hmem
  . exact block.hash_not_mem hmem
  . exact block.hash_ne_selectedParent heq

variable (h : Rebuilt storage block id row parentIds)
include h

theorem identified (hmem : hash ∈ block.references) :
    ∃ reference, storage.database.identifiers.ids[hash]? = some reference ∧ reference < id := by
  have hne := references_ne_hash hmem
  have hexists : ∃ reference, storage.database.identifiers.ids[hash]? = some reference := by
    simp only [ValidatedNodeBlock.references, List.mem_append, List.mem_singleton] at hmem
    obtain ((hmem | hmem) | hmem) | rfl := hmem
    . exact exists_of_map_eq h.redMergeSet hmem
    . exact exists_of_map_eq h.blueMergeSet hmem
    . exact exists_of_map_eq h.parents hmem
    . exact ⟨_, h.selectedParent⟩
  obtain ⟨reference, href⟩ := hexists
  exact ⟨reference, href, h.older hash reference hne href⟩

theorem parentLevels_eq_nil : storage.database.parentLevels block = [] := by
  unfold Database.parentLevels
  rw [List.filterMap_eq_nil_iff]
  intro hash hmem
  have hmem' : hash ∈ block.references := by simp [ValidatedNodeBlock.references, hmem]
  obtain ⟨reference, href, -⟩ := h.identified hmem'
  rw [href, Option.bind_some, h.get_eq_none (references_ne_hash hmem') href]
  rfl

theorem represents : storage.database.Represents block id row := by
  constructor
  case hash => exact h.hash
  case stored => exact h.get_self
  case timestamp => exact h.timestamp
  case daaScore => exact h.daaScore.1
  case daaScore_le => exact h.daaScore.2
  case selectedParent => exact h.selectedParent
  case blueMergeSet => exact h.blueMergeSet
  case redMergeSet => exact h.redMergeSet
  case parents =>
    refine ⟨_, by rw [h.parentRows, Map.get_insert, if_pos rfl], ?_⟩
    intro parent parentRow
    rw [Map.get_foldl_insert_eq_some fun _ _ _ _ _ => rfl, ← mem_iff_of_map_eq h.parents]
    have habsent : parent ∈ parentIds → storage.database.blocks[parent]? = none := by
      intro hmem
      obtain ⟨hash, hmem, href⟩ := (mem_iff_of_map_eq h.parents parent).mp hmem
      have hreference : hash ∈ block.references := by simp [ValidatedNodeBlock.references, hmem]
      exact h.get_eq_none (references_ne_hash hreference) href
    constructor
    . rintro ⟨_, hmem, rfl, rfl⟩
      rw [habsent hmem]
      exact ⟨hmem, rfl⟩
    . rintro ⟨hmem, rfl⟩
      rw [habsent hmem]
      exact ⟨parent, hmem, rfl, rfl⟩
  case older => exact fun hash hmem => h.identified hmem
  case level => rw [h.parentLevels_eq_nil, h.coordinate.1, List.foldr_nil]
  case selectedParent_mem =>
    exact Or.inr (h.get_eq_none (Ne.symm block.hash_ne_selectedParent) h.selectedParent)

theorem occupied_iff (level slot : Nat) :
    storage.database.Occupied level slot ↔ 1 = level ∧ 0 = slot := by
  obtain ⟨hlevel, hslot⟩ := h.coordinate
  constructor
  . rintro ⟨i, row', hrow', rfl, rfl⟩
    obtain ⟨rfl, rfl⟩ := h.get_eq_some hrow'
    exact ⟨hlevel.symm, hslot.symm⟩
  . rintro ⟨rfl, rfl⟩
    exact ⟨id, row, h.get_self, hlevel, hslot⟩

theorem stores : storage.database.Stores [block] := by
  constructor
  case represented =>
    intro other hmem
    rw [List.mem_singleton] at hmem
    subst hmem
    exact ⟨id, row, h.represents⟩
  case complete =>
    intro i row' hrow'
    obtain ⟨rfl, rfl⟩ := h.get_eq_some hrow'
    exact ⟨block, by simp, h.represents⟩
  case parents =>
    intro i rows hrows
    rw [h.parentRows, Map.get_insert] at hrows
    split at hrows
    . next heq =>
      subst heq
      exact ⟨row, h.get_self⟩
    . cases hrows
  case coordinate_injective =>
    intro i i' row' row'' hrow' hrow'' _
    rw [(h.get_eq_some hrow').1, (h.get_eq_some hrow'').1]
  case slots =>
    intro level slot
    rw [h.occupied_iff, h.get_levels]
    split
    . next heq =>
      simp only [heq, true_and, Option.some.injEq, exists_eq_left']
      omega
    . next heq => simp [heq]
  case size_pos =>
    intro level levelRow hlevelRow
    rw [h.get_levels] at hlevelRow
    split at hlevelRow
    . cases hlevelRow
      exact ⟨Nat.one_pos, (by decide : 1 ≤ maxLevelSize)⟩
    . cases hlevelRow
  case contiguous =>
    refine ⟨1, ?_⟩
    intro level
    rw [h.get_levels]
    split
    . next heq => simp [← heq]
    . next heq =>
      simp only [reduceCtorEq, exists_false, false_iff]
      omega

theorem coherent : Coherent storage.database storage.caches := by
  constructor
  case identities =>
    intro hash identity hidentity
    obtain ⟨hid, hmat⟩ := h.identities hash identity hidentity
    refine ⟨hid, ?_⟩
    rw [hmat]
    by_cases heq : hash = block.hash
    . subst heq
      rw [h.hash, Option.some.injEq] at hid
      rw [← hid, h.get_self]
      simp
    . rw [h.get_eq_none heq hid]
      simp [heq]
  case materializedBlocks =>
    intro i cached hcached
    rw [h.materializedBlocks, Map.get_insert] at hcached
    split at hcached
    . next heq =>
      cases hcached
      rw [← heq, h.get_self]
      rfl
    . cases hcached
  case mergeSets =>
    intro i cached hcached
    rw [h.mergeSets, Map.get_insert] at hcached
    split at hcached
    . next heq =>
      cases hcached
      rw [← heq, h.get_self]
      rfl
    . cases hcached

theorem chain : storage.database.VspcChain [id] := by
  constructor
  case nonempty => exact List.cons_ne_nil _ _
  case linked => exact List.isChain_singleton _
  case materialized =>
    intro i hi
    rw [List.mem_singleton] at hi
    subst hi
    exact ⟨row, h.get_self⟩
  case marked =>
    intro i row' hrow'
    obtain ⟨rfl, rfl⟩ := h.get_eq_some hrow'
    simp [h.isInVspc]
  case root =>
    intro i row' _ hrow'
    obtain ⟨rfl, rfl⟩ := h.get_eq_some hrow'
    exact h.get_eq_none (Ne.symm block.hash_ne_selectedParent) h.selectedParent
  case score =>
    intro level levelRow hlevelRow
    rw [h.get_levels] at hlevelRow
    split at hlevelRow
    . next heq =>
      cases hlevelRow
      constructor
      . intro i _ row' hrow' _
        obtain ⟨-, rfl⟩ := h.get_eq_some hrow'
        rfl
      . intro habsent
        exact absurd (h.coordinate.1.trans heq)
          (habsent id List.mem_cons_self row h.get_self)
    . cases hlevelRow

theorem consistent : storage.Consistent [block] [id] := by
  refine ⟨h.stores, h.coherent, h.chain, ?_⟩
  intro sink hsink
  rw [h.vspcSink] at hsink
  cases hsink
  exact ⟨rfl, h.hash⟩

end Rebuilt

end Kgi
