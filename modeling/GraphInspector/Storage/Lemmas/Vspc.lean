import GraphInspector.Storage.Lemmas.Materialization

/-!
A VSPC transition replaces the head of the selected-parent chain of marked blocks.
-/

namespace Kgi

open Data

namespace Database

def selectedParent (database : Database) (id : CompactId) : Option CompactId :=
  (database.blocks[id]?).map BlockRow.selectedParentId

def conflict (database : Database) (pair : CompactId × CompactId) : Option VspcPathConflictIds :=
  match database.selectedParent pair.1 with
  | none => none
  | some stored => if stored ≠ pair.2 then some ⟨pair.1, pair.2, stored⟩ else none

theorem conflict_eq_none {database : Database} (pair : CompactId × CompactId) {row : BlockRow}
    (h : database.blocks[pair.1]? = some row) :
    database.conflict pair = none ↔ database.selectedParent pair.1 = some pair.2 := by
  unfold conflict selectedParent
  rw [h]
  simp

end Database

section LoadThroughCache

variable {V : Type} {cached stored : CompactId → Option V}

theorem loadThroughCache_get (h : ∀ id value, cached id = some value → stored id = some value)
    (ids : List CompactId) (id : CompactId) :
    (loadThroughCache cached stored ids).1[id]? = if id ∈ ids then stored id else none := by
  unfold loadThroughCache
  rw [Map.get_foldl_insertSome, Map.get_foldl_insertSome]
  simp only [List.mem_filter]
  by_cases hmem : id ∈ ids
  . cases hc : cached id with
    | none => simp [hmem]
    | some value => simp [hmem, h id value hc]
  . simp [hmem]

theorem loadThroughCache_updates (cached stored : CompactId → Option V) (ids : List CompactId) :
    ∀ update ∈ (loadThroughCache cached stored ids).2, stored update.1 = some update.2 := by
  intro update hmem
  unfold loadThroughCache at hmem
  rw [List.mem_filterMap] at hmem
  obtain ⟨id, -, hid⟩ := hmem
  rw [Option.map_eq_some_iff] at hid
  obtain ⟨value, hvalue, rfl⟩ := hid
  exact hvalue

end LoadThroughCache

section Validation

variable {database : Database} {caches : ProcessingCacheDomains} {change : ReadyVspcChange}

theorem loadMembers_get (h : Coherent database caches) (ids : List CompactId) (id : CompactId) :
    (loadMembers database caches ids).1[id]?
      =
    if id ∈ ids then (database.blocks[id]?).map BlockRow.cached else none :=
  loadThroughCache_get h.materializedBlocks ids id

def MembersLoaded (database : Database) (ids : List CompactId)
    (members : Map CompactId CachedMaterializedBlock) : Prop :=
  ∀ id ∈ ids, ∃ row : BlockRow, database.blocks[id]? = some row ∧ members[id]? = some row.cached

variable {ids : List CompactId} {members : Map CompactId CachedMaterializedBlock}

theorem pathConflict_eq (h : MembersLoaded database ids members) {child expectedParent : CompactId}
    (hmem : child ∈ ids) :
    pathConflict members child expectedParent = .ok (database.conflict (child, expectedParent)) := by
  obtain ⟨row, hrow, hmember⟩ := h child hmem
  unfold pathConflict Database.conflict Database.selectedParent
  rw [hmember, hrow]
  rfl

theorem firstConflict_eq (h : MembersLoaded database ids members)
    {pairs : List (CompactId × CompactId)} (hpairs : ∀ pair ∈ pairs, pair.1 ∈ ids) :
    firstConflict members pairs = .ok (pairs.findSome? database.conflict) := by
  induction pairs with
  | nil => rfl
  | cons pair pairs ih =>
    obtain ⟨child, expectedParent⟩ := pair
    rw [firstConflict, pathConflict_eq h (hpairs _ List.mem_cons_self), List.findSome?_cons]
    cases hc : database.conflict (child, expectedParent) with
    | none => exact ih fun pair hmem => hpairs pair (List.mem_cons_of_mem _ hmem)
    | some found => rfl

def Database.pivot (database : Database) (change : ReadyVspcChange) : Option CompactId :=
  match change.removed.getLast? with
  | none => some change.source.id
  | some last => database.selectedParent last

/--
The pairs of a child and its expected parent that the path of a change consists of: down the removed
blocks, from the first added block to the pivot, and up the added blocks.
-/
def Database.pathPairs (database : Database) (change : ReadyVspcChange) :
    List (CompactId × CompactId) :=
  windows change.removed ++
  ((change.added.head?.bind fun first => (database.pivot change).map fun pivot => (first, pivot)).toList ++
  (windows change.added).map Prod.swap)

theorem mem_of_mem_windows {α : Type} {path : List α} {pair : α × α} (h : pair ∈ windows path) :
    pair.1 ∈ path ∧ pair.2 ∈ path := by
  exact ⟨(List.of_mem_zip h).1, List.mem_of_mem_tail (List.of_mem_zip h).2⟩

theorem firstPathConflict_of_removed_nil
    (h : MembersLoaded database (change.removed ++ change.added) members)
    (hremoved : change.removed = []) {first : CompactId} (hfirst : change.added.head? = some first) :
    firstPathConflict change members = .ok (database.conflict (first, change.source.id)) := by
  unfold firstPathConflict
  rw [hfirst]
  simp only [expect, orError, bind, Except.bind, hremoved, ↓reduceIte]
  apply pathConflict_eq h
  rw [List.mem_append]
  exact Or.inr (List.mem_of_mem_head? hfirst)

theorem firstPathConflict_of_removed_ne_nil
    (h : MembersLoaded database (change.removed ++ change.added) members)
    (hremoved : change.removed ≠ []) (hadded : change.added ≠ []) :
    firstPathConflict change members
      = .ok ((database.pathPairs change).findSome? database.conflict) := by
  obtain ⟨first, hfirst⟩ : ∃ first, change.added.head? = some first :=
    ⟨_, List.head?_eq_some_head hadded⟩
  have hfirstMem : first ∈ change.removed ++ change.added := by
    rw [List.mem_append]
    exact Or.inr (List.mem_of_mem_head? hfirst)
  have hlast : change.removed.getLast? = some (change.removed.getLast hremoved) :=
    List.getLast?_eq_some_getLast hremoved
  have hlastMem := List.getLast_mem hremoved
  generalize change.removed.getLast hremoved = last at hlast hlastMem
  obtain ⟨row, hrow, hmember⟩ := h last (by simp [hlastMem])
  have hpivot : database.pivot change = some row.selectedParentId := by
    unfold Database.pivot Database.selectedParent
    rw [hlast]
    simp only [hrow, Option.map_some]
  have hwindows : ∀ pair ∈ windows change.removed, pair.1 ∈ change.removed ++ change.added := by
    intro pair hmem
    rw [List.mem_append]
    exact Or.inl (mem_of_mem_windows hmem).1
  have hswapped : ∀ pair ∈ (windows change.added).map Prod.swap,
      pair.1 ∈ change.removed ++ change.added := by
    intro pair hmem
    rw [List.mem_map] at hmem
    obtain ⟨pair', hmem, rfl⟩ := hmem
    rw [List.mem_append]
    exact Or.inr (mem_of_mem_windows hmem).2
  unfold firstPathConflict Database.pathPairs
  rw [List.findSome?_append, hfirst, hpivot]
  simp only [expect, orError, bind, Except.bind, hremoved, ↓reduceIte, firstConflict_eq h hwindows,
    hlast, hmember, Option.map_some, Option.bind_some, Option.toList_some, List.findSome?_append]
  cases hc : (windows change.removed).findSome? database.conflict with
  | some found => rfl
  | none =>
    simp only [BlockRow.cached, pathConflict_eq h hfirstMem, Option.none_or, List.findSome?_cons,
      List.findSome?_nil]
    cases hj : database.conflict (first, row.selectedParentId) with
    | some found => rfl
    | none => exact firstConflict_eq h hswapped

end Validation

section Effects

theorem applyMembership_get (blocks : Map CompactId BlockRow) (removed added : List CompactId)
    (id : CompactId) :
    (applyMembership blocks removed added)[id]?
      =
    (blocks[id]?).map fun row =>
      { row with
        isInVspc := decide (id ∈ added) || (row.isInVspc && decide (id ∉ removed))
        color := if id ∈ removed then .gray else row.color } := by
  unfold applyMembership
  rw [Map.get_foldl_modify, Map.get_foldl_modify]
  . cases blocks[id]? with
    | none => simp
    | some row => by_cases ha : id ∈ added <;> by_cases hr : id ∈ removed <;> simp [ha, hr]
  . exact fun _ => rfl
  . exact fun _ => rfl

theorem applyMergeSetColors_eq_ok (blocks : Map CompactId BlockRow) {added : List CompactId}
    {mergeSets : Map CompactId CachedMergeSets} {sets : List CachedMergeSets}
    (hsets : added.map (fun id => mergeSets[id]?) = sets.map some) :
    ∃ blocks', applyMergeSetColors blocks added mergeSets = .ok blocks' ∧
      ∀ id : CompactId, blocks'[id]? = (blocks[id]?).map fun row =>
        { row with color := (finalColors sets)[id]?.getD row.color } := by
  unfold applyMergeSetColors expect
  rw [mapM_orError_eq_ok.mpr hsets]
  refine ⟨_, rfl, ?_⟩
  intro id
  obtain ⟨hsome, hnone⟩ := Map.get_foldl_modify_pairs
    (fun (color : BlockColor) (row : BlockRow) => { row with color := color })
    (Map.nodup_keys_toList (finalColors sets)) blocks id
  cases hc : (finalColors sets)[id]? with
  | none =>
    rw [hnone]
    . simp
    . intro hmem
      rw [List.mem_map] at hmem
      obtain ⟨⟨id', color⟩, hmem, rfl⟩ := hmem
      rw [Map.mem_toList, hc] at hmem
      cases hmem
  | some color =>
    rw [hsome color ((Map.mem_toList _ _ _).mpr hc)]
    rfl

variable {blocks : Map CompactId BlockRow}

theorem vspcScore_eq {level : Nat}
    (hunique : ∀ (id id' : CompactId) (row row' : BlockRow), blocks[id]? = some row →
      blocks[id']? = some row' → row.coordinate.level = level → row'.coordinate.level = level →
      row.isInVspc = true → row'.isInVspc = true → id = id') :
    (∀ (id : CompactId) (row : BlockRow), blocks[id]? = some row → row.coordinate.level = level →
      row.isInVspc = true → vspcScore blocks level = .ok row.daaScore) ∧
    ((∀ (id : CompactId) (row : BlockRow), blocks[id]? = some row → row.coordinate.level = level →
      row.isInVspc = false) → vspcScore blocks level = .ok noVspcDaaScore) := by
  unfold vspcScore
  generalize hl : blocks.toList.filter
    (fun entry => entry.2.coordinate.level = level && entry.2.isInVspc) = marked
  have hmem : ∀ (id : CompactId) (row : BlockRow), (id, row) ∈ marked ↔
      blocks[id]? = some row ∧ row.coordinate.level = level ∧ row.isInVspc = true := by
    intro id row
    rw [← hl, List.mem_filter, Map.mem_toList]
    simp
  have hnodup : (marked.map Prod.fst).Nodup := by
    rw [← hl]
    exact (Map.nodup_keys_toList blocks).sublist (List.filter_sublist.map _)
  match marked with
  | [] =>
    constructor
    . intro id row hrow hlevel hin
      have := (hmem id row).mpr ⟨hrow, hlevel, hin⟩
      cases this
    . intro _
      rfl
  | [entry] =>
    constructor
    . intro id row hrow hlevel hin
      have := (hmem id row).mpr ⟨hrow, hlevel, hin⟩
      rw [List.mem_singleton] at this
      rw [← this]
    . intro hnone
      obtain ⟨hrow, hlevel, hin⟩ := (hmem entry.1 entry.2).mp (by simp)
      rw [hnone entry.1 entry.2 hrow hlevel] at hin
      cases hin
  | entry :: entry' :: rest =>
    exfalso
    obtain ⟨h1, h2, h3⟩ := (hmem entry.1 entry.2).mp (by simp)
    obtain ⟨h1', h2', h3'⟩ := (hmem entry'.1 entry'.2).mp (by simp)
    have heq := hunique _ _ _ _ h1 h1' h2 h2' h3 h3'
    simp [heq] at hnodup

theorem updateLevelScores_eq_ok {rows : Map Nat LevelRow} {levels : List Nat} {score : Nat → Nat}
    (hrows : ∀ level ∈ levels, ∃ row : LevelRow, rows[level]? = some row)
    (hscore : ∀ level ∈ levels, vspcScore blocks level = .ok (score level)) :
    ∃ rows' snapshots, updateLevelScores blocks rows levels = .ok (rows', snapshots) ∧
      (∀ level : Nat, rows'[level]? = if level ∈ levels then
        (rows[level]?).map fun row => { row with daaScore := score level } else rows[level]?) ∧
      loadLevelSnapshots (S := VspcSemanticError) rows' (KeySet.ofElems levels).toList
        "affected VSPC block has no level-state row" = .ok snapshots := by
  have hmem : ∀ level, level ∈ (KeySet.ofElems levels).toList ↔ level ∈ levels := by
    intro level
    rw [Std.ExtTreeSet.mem_toList, KeySet.mem_ofElems]
  have hpresent : ((KeySet.ofElems levels).toList.filter fun level => rows.contains level)
      = (KeySet.ofElems levels).toList := by
    rw [List.filter_eq_self]
    intro level hlevel
    obtain ⟨row, hrow⟩ := hrows level ((hmem level).mp hlevel)
    exact (Map.contains_iff rows level).mpr ⟨row, hrow⟩
  generalize hdistinct : (KeySet.ofElems levels).toList = distinct at hmem hpresent
  have hkeys : ((distinct.map fun level => (level, score level)).map Prod.fst).Nodup := by
    rw [List.map_map]
    have hid : distinct.map (Prod.fst ∘ fun level => (level, score level)) = distinct :=
      List.map_id distinct
    rw [hid, ← hdistinct]
    exact KeySet.nodup_toList _
  have hget : ∀ level : Nat, ((distinct.map fun level => (level, score level)).foldl
      (fun (rows : Map Nat LevelRow) update =>
        rows.modify update.1 fun row => { row with daaScore := update.2 }) rows)[level]?
      = if level ∈ levels then (rows[level]?).map fun row => { row with daaScore := score level }
        else rows[level]? := by
    intro level
    obtain ⟨hsome, hnone⟩ := Map.get_foldl_modify_pairs
      (fun (score : Nat) (row : LevelRow) => { row with daaScore := score }) hkeys rows level
    split
    . next hlevel =>
      exact hsome (score level) (List.mem_map.mpr ⟨level, (hmem level).mpr hlevel, rfl⟩)
    . next hlevel =>
      apply hnone
      rw [List.map_map, List.mem_map]
      rintro ⟨level', hlevel', rfl⟩
      exact hlevel ((hmem level').mp hlevel')
  unfold updateLevelScores
  simp only [hdistinct, hpresent]
  rw [mapM_eq_ok_of_forall (g := fun level => (level, score level))]
  . obtain ⟨snapshots, hsnapshots⟩ := loadLevelSnapshots_isOk (S := VspcSemanticError)
      "affected VSPC block has no level-state row" (fun level (hlevel : level ∈ distinct) => by
        rw [hget level, if_pos ((hmem level).mp hlevel)]
        obtain ⟨row, hrow⟩ := hrows level ((hmem level).mp hlevel)
        exact ⟨_, by rw [hrow]; rfl⟩)
    refine ⟨_, snapshots, ?_, hget, hsnapshots⟩
    simp only [bind, Except.bind, hsnapshots]
    rfl
  . intro level hlevel
    rw [hscore level ((hmem level).mp hlevel)]
    rfl

end Effects

end Kgi
