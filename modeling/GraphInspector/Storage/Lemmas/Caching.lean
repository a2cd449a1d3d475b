import GraphInspector.Storage.Impl.Caching
import GraphInspector.Storage.Lemmas.Run

/-!
Materialization is a function of the tables: what the caches hold and drop never shows in its outcome.
-/

namespace Kgi

open Data

variable {level : Nat}

section Lookups

variable {database : Database} {caches : ProcessingCacheDomains}

theorem Coherent.storedIdentityDuring {first second : ProcessingCacheDomains}
    (hfirst : Coherent database first) (hsecond : Coherent database second) {hash : BlockHash}
    {identity : StoredIdentity} (hs : storedIdentityDuring first second hash = some identity) :
    database.storedIdentity hash = some identity := by
  have hmixed : Coherent database { first with materializedBlocks := second.materializedBlocks } :=
    ⟨hfirst.identities, hsecond.materializedBlocks, hfirst.mergeSets⟩
  exact hmixed.storedIdentity hs

theorem map_fst_lookupsDuring (evictions : BlockHash → LookupEvictions) (caches : ProcessingCacheDomains)
    (hashes : List BlockHash) : (lookupsDuring evictions caches hashes).1.map Prod.fst = hashes := by
  induction hashes generalizing caches with
  | nil => rfl
  | cons hash hashes ih =>
    unfold lookupsDuring
    rw [List.map_cons, ih]

theorem Coherent.lookupsDuring (h : Coherent database caches) (evictions : BlockHash → LookupEvictions)
    (hashes : List BlockHash) :
    Coherent database (lookupsDuring evictions caches hashes).2 ∧
      ∀ hash identity, (hash, some identity) ∈ (Kgi.lookupsDuring evictions caches hashes).1 →
        database.storedIdentity hash = some identity := by
  induction hashes generalizing caches with
  | nil => exact ⟨h, fun _ _ hmem => nomatch hmem⟩
  | cons hash hashes ih =>
    have hfirst := h.evict (evictions hash).beforeIdentity
    have hsecond := hfirst.evict (evictions hash).beforeBlock
    obtain ⟨hleft, hhits⟩ := ih hsecond
    refine ⟨hleft, ?_⟩
    intro hash' identity hmem
    unfold Kgi.lookupsDuring at hmem
    rw [List.mem_cons] at hmem
    obtain heq | hmem := hmem
    . rw [Prod.mk.injEq] at heq
      obtain ⟨rfl, heq⟩ := heq
      exact hfirst.storedIdentityDuring hsecond heq.symm
    . exact hhits hash' identity hmem

variable {lookups : List (BlockHash × Option StoredIdentity)}

open Classical in
theorem get_foldl_hits
    (hhits : ∀ hash identity, (hash, some identity) ∈ lookups →
      database.storedIdentity hash = some identity)
    (values : Map BlockHash StoredIdentity) (hash : BlockHash) :
    (lookups.foldl (fun values lookup => Map.insertSome values lookup.1 lookup.2) values)[hash]?
      =
    if ∃ identity, (hash, some identity) ∈ lookups then database.storedIdentity hash
    else values[hash]? := by
  induction lookups generalizing values with
  | nil => simp
  | cons lookup lookups ih =>
    obtain ⟨hash', found⟩ := lookup
    rw [List.foldl_cons, ih fun hash identity hmem => hhits hash identity (List.mem_cons_of_mem _ hmem)]
    simp only [Map.get_insertSome]
    by_cases hlater : ∃ identity, (hash, some identity) ∈ lookups
    . obtain ⟨identity, hmem⟩ := hlater
      rw [if_pos ⟨identity, hmem⟩, if_pos ⟨identity, List.mem_cons_of_mem _ hmem⟩]
    . rw [if_neg hlater]
      cases found with
      | none =>
        have hnone : ¬ ∃ identity, (hash, some identity) ∈ (hash', none) :: lookups := by
          rintro ⟨identity, hmem⟩
          obtain heq | hmem := List.mem_cons.mp hmem
          . cases heq
          . exact hlater ⟨identity, hmem⟩
        rw [if_neg hnone]
        split
        . rfl
        . rfl
      | some identity =>
        by_cases hhash : hash' = hash
        . subst hhash
          rw [if_pos rfl, if_pos ⟨identity, List.mem_cons_self⟩,
            hhits hash' identity List.mem_cons_self]
          rfl
        . rw [if_neg hhash, if_neg]
          rintro ⟨identity', hmem⟩
          obtain heq | hmem := List.mem_cons.mp hmem
          . cases heq
            exact hhash rfl
          . exact hlater ⟨identity', hmem⟩

theorem mem_misses {hash : BlockHash} :
    hash ∈ (lookups.filter fun lookup => lookup.2.isNone).map Prod.fst ↔ (hash, none) ∈ lookups := by
  rw [List.mem_map]
  constructor
  . rintro ⟨⟨hash', found⟩, hmem, rfl⟩
    rw [List.mem_filter] at hmem
    cases found with
    | none => exact hmem.1
    | some identity => cases hmem.2
  . intro hmem
    exact ⟨(hash, none), List.mem_filter.mpr ⟨hmem, rfl⟩, rfl⟩

theorem agrees_loadIdentitiesDuring
    (hhits : ∀ hash identity, (hash, some identity) ∈ lookups →
      database.storedIdentity hash = some identity) :
    Agrees database (lookups.map Prod.fst) (loadIdentitiesDuring database lookups) := by
  have hvalues : ∀ hash : BlockHash, (loadIdentitiesDuring database lookups).values[hash]?
      = if hash ∈ lookups.map Prod.fst then database.storedIdentity hash else none := by
    intro hash
    unfold loadIdentitiesDuring
    rw [Map.get_foldl_insertSome (fun hash => database.storedIdentity hash), get_foldl_hits hhits]
    by_cases hmiss : (hash, none) ∈ lookups
    . rw [if_pos (mem_misses.mpr hmiss), if_pos (List.mem_map.mpr ⟨_, hmiss, rfl⟩)]
      split
      . exact Option.or_self
      . rw [Std.ExtTreeMap.getElem?_empty, Option.or_none]
    . rw [if_neg fun hmem => hmiss (mem_misses.mp hmem)]
      by_cases hmem : hash ∈ lookups.map Prod.fst
      . obtain ⟨⟨hash', found⟩, hlookup, rfl⟩ := List.mem_map.mp hmem
        cases found with
        | none => exact absurd hlookup hmiss
        | some identity => rw [if_pos ⟨identity, hlookup⟩, if_pos hmem]
      . rw [if_neg, if_neg hmem]
        . exact Std.ExtTreeMap.getElem?_empty
        . rintro ⟨identity, hlookup⟩
          exact hmem (List.mem_map.mpr ⟨_, hlookup, rfl⟩)
  constructor
  case values => exact hvalues
  case misses =>
    intro hash hmem
    exact List.mem_map.mpr ⟨_, mem_misses.mp hmem, rfl⟩
  case missing =>
    have hmisses : (loadIdentitiesDuring database lookups).cacheMisses
        = (lookups.filter fun lookup => lookup.2.isNone).map Prod.fst := rfl
    rw [hmisses, List.filter_map, List.filter_map, List.filter_filter]
    congr 1
    apply List.filter_congr
    rintro ⟨hash, found⟩ hlookup
    have hvalue := hvalues hash
    rw [if_pos (List.mem_map.mpr ⟨_, hlookup, rfl⟩)] at hvalue
    dsimp only [Function.comp]
    rw [Std.ExtTreeMap.contains_eq_isSome_getElem?, hvalue]
    cases hid : database.identifiers.ids[hash]? with
    | none =>
      -- A hash without identity cannot be a hit.
      have hstored := Database.storedIdentity_eq_none.mpr hid
      cases found with
      | none => simp [hstored]
      | some identity =>
        rw [hhits hash identity hlookup] at hstored
        cases hstored
    | some id => simp [Database.storedIdentity, hid]

end Lookups

namespace Database

def derivedLevel (database : Database) (block : ValidatedNodeBlock) : Nat :=
  (database.parentLevels block).foldr max 0 + 1

structure Allocatable (database : Database) (block : ValidatedNodeBlock) : Prop where
  level_lt : database.derivedLevel block < 2 ^ 32
  room : ∀ row : LevelRow, database.levels[database.derivedLevel block]? = some row →
    row.size < maxLevelSize

end Database

section Allocate

theorem allocateCoordinate_isOk {levels : Map Nat LevelRow} (hpos : 0 < level) (hlt : level < 2 ^ 32)
    (hroom : ∀ row : LevelRow, levels[level]? = some row → row.size < maxLevelSize) :
    ∃ levels' coordinate, allocateCoordinate levels level = .ok (levels', coordinate) := by
  obtain ⟨row, hrow, hsize⟩ : ∃ row, growLevel levels[level]? = .ok row ∧
      row.size - 1 ≤ maxLevelSlot := by
    cases hget : levels[level]? with
    | none => exact ⟨_, rfl, by decide⟩
    | some row =>
      have hsize := hroom row hget
      unfold growLevel
      dsimp only
      rw [if_pos hsize]
      refine ⟨_, rfl, ?_⟩
      unfold maxLevelSlot
      dsimp only
      omega
  unfold allocateCoordinate expect BlockCoordinate.new
  rw [hrow, ok_bind, dif_pos ⟨hpos, hlt, hsize⟩]
  exact ⟨_, _, rfl⟩

theorem allocateCoordinate_full {levels : Map Nat LevelRow} {row : LevelRow}
    (hrow : levels[level]? = some row) (hfull : ¬ row.size < maxLevelSize) :
    allocateCoordinate levels level = .error (.panic "materialized level size fits u16") := by
  unfold allocateCoordinate growLevel
  rw [hrow]
  dsimp only
  rw [if_neg hfull]
  rfl

end Allocate

section Insert

variable {database : Database} {loaded : LoadedIdentities} {inserted : List ValidatedNodeBlock}
  {loaded' : LoadedIdentities} {hashes : List BlockHash}
variable {block : ValidatedNodeBlock} {prepared : PreparedBlock} {daaScore : Nat}

theorem nodup_universal (hprep : PreparedBlock.new block = .ok prepared) : prepared.universal.Nodup := by
  obtain ⟨rfl, _, _, hrefs⟩ := preparedBlock_new_eq_ok hprep
  unfold PreparedBlock.universal
  rw [hrefs, List.nodup_append]
  refine ⟨nodup_firstOccurrences _, List.nodup_singleton _, ?_⟩
  intro hash hmem hash' hmem' heq
  rw [List.mem_singleton] at hmem'
  rw [heq, hmem', mem_firstOccurrences] at hmem
  exact prepared.block.hash_not_mem hmem

theorem internMissingIdentities_isOk (hstores : database.Stores inserted)
    (hload : Agrees database hashes loaded) (hnodup : hashes.Nodup) :
    ∃ (identifiers : Interner BlockHash) (identities : Map BlockHash StoredIdentity),
      internMissingIdentities database.identifiers loaded = .ok (identifiers, identities) ∧
      ∀ hash ∈ hashes, ∃ identity : StoredIdentity, identities[hash]? = some identity ∧
        identity.block = (database.identifiers.ids[hash]?).bind fun id =>
          (database.blocks[id]?).map BlockRow.cached := by
  obtain ⟨identifiers, hinsert⟩ := Interner.insertAll_isSome (t := database.identifiers)
    (List.Nodup.filter (fun hash => (database.identifiers.ids[hash]?).isNone) hnodup) (by
      intro hash hmem
      rw [List.mem_filter, Option.isNone_iff_eq_none] at hmem
      exact hmem.2)
  have hok : ∃ identities, internMissingIdentities database.identifiers loaded
      = .ok (identifiers, identities) := by
    unfold internMissingIdentities
    dsimp only
    rw [hload.missing, hinsert]
    exact ⟨_, rfl⟩
  obtain ⟨identities, hok⟩ := hok
  obtain ⟨_, hidentities⟩ := internMissingIdentities_eq_ok hstores hload hok
  obtain ⟨_, hkeep, hnew⟩ := Interner.insertAll_spec hinsert
  refine ⟨identifiers, identities, hok, ?_⟩
  intro hash hmem
  rw [hidentities hash, if_pos hmem]
  unfold Database.storedIdentity
  cases hid : database.identifiers.ids[hash]? with
  | none =>
    obtain ⟨_, id, hid', hge⟩ := hnew hash (by simp [List.mem_filter, hmem, hid])
    rw [hid']
    dsimp only [Option.map]
    rw [hstores.get_eq_none hge]
    exact ⟨_, rfl, rfl⟩
  | some id =>
    rw [hkeep hash (by simp [List.mem_filter, hid]), hid]
    exact ⟨_, rfl, rfl⟩

theorem mapM_expect_isOk {S : Type} {f : BlockHash → Option StoredIdentity} {l : List BlockHash}
    (h : ∀ hash ∈ l, ∃ identity, f hash = some identity) (message : String) :
    ∃ r, (l.mapM fun hash => expect (S := S) (f hash) message) = .ok r :=
  ⟨_, mapM_orError_eq_ok.mpr (map_eq_filterMap_some h)⟩

theorem expect_some {S α : Type} (a : α) (message : String) :
    expect (S := S) (some a) message = .ok a := rfl

theorem parentLevels_eq {identities : Map BlockHash StoredIdentity}
    (hget : ∀ hash ∈ block.directParents, ∃ identity : StoredIdentity, identities[hash]? = some identity ∧
      identity.block = (database.identifiers.ids[hash]?).bind fun id =>
        (database.blocks[id]?).map BlockRow.cached) :
    ((block.directParents.filterMap fun hash => identities[hash]?).filterMap fun parent =>
      parent.coordinate.map BlockCoordinate.level) = database.parentLevels block := by
  rw [List.filterMap_filterMap]
  apply List.filterMap_congr
  intro hash hmem
  obtain ⟨identity, hidentity, hrow⟩ := hget hash hmem
  rw [hidentity, Option.bind_some]
  unfold StoredIdentity.coordinate
  rw [hrow]
  cases database.identifiers.ids[hash]? with
  | none => rfl
  | some id =>
    rw [Option.bind_some, Option.bind_some]
    cases database.blocks[id]? with
    | none => rfl
    | some row => rfl

theorem parentLevels_stored (hstores : database.Stores inserted)
    (h : level ∈ database.parentLevels block) :
    ∃ row : LevelRow, database.levels[level]? = some row := by
  unfold Database.parentLevels at h
  rw [List.mem_filterMap] at h
  obtain ⟨hash, _, hlevel⟩ := h
  rw [Option.bind_eq_some_iff] at hlevel
  obtain ⟨id, _, hlevel⟩ := hlevel
  rw [Option.map_eq_some_iff] at hlevel
  obtain ⟨row, hrow, rfl⟩ := hlevel
  obtain ⟨levelRow, hlevelRow, _⟩ := (hstores.slots _ _).mp ⟨id, row, hrow, rfl, rfl⟩
  exact ⟨levelRow, hlevelRow⟩

theorem insertPreparedBlock_eq (hstores : database.Stores inserted)
    (hload : Agrees database prepared.universal loaded) (hprep : PreparedBlock.new block = .ok prepared) :
    (database.Allocatable block → ∃ result, insertPreparedBlock database prepared daaScore loaded
        = .ok result) ∧
      (¬ database.derivedLevel block < 2 ^ 32 →
        insertPreparedBlock database prepared daaScore loaded
          = .error (.panic "derived block level fits u32")) ∧
      (database.derivedLevel block < 2 ^ 32 → ∀ row : LevelRow,
        database.levels[database.derivedLevel block]? = some row → ¬ row.size < maxLevelSize →
        insertPreparedBlock database prepared daaScore loaded
          = .error (.panic "materialized level size fits u16")) := by
  obtain ⟨identifiers, identities, hintern, hget⟩ :=
    internMissingIdentities_isOk hstores hload (nodup_universal hprep)
  have huniversal := mem_universal hprep
  obtain ⟨rfl, _, hsel, _⟩ := preparedBlock_new_eq_ok hprep
  have hfound : ∀ hash ∈ prepared.block.redMergeSet ++ prepared.block.blueMergeSet ++
      prepared.block.directParents, ∃ identity, identities[hash]? = some identity := by
    intro hash hmem
    obtain ⟨identity, hidentity, _⟩ := hget hash ((huniversal hash).mpr (Or.inl hmem))
    exact ⟨identity, hidentity⟩
  have hparents : (prepared.block.directParents.mapM fun hash =>
      expect (S := MaterializeSemanticError) identities[hash]? "every direct parent was resolved")
      = .ok (prepared.block.directParents.filterMap fun hash => identities[hash]?) :=
    mapM_orError_eq_ok.mpr
      (map_eq_filterMap_some fun hash hmem => hfound hash (List.mem_append_right _ hmem))
  have hlevels : ((prepared.block.directParents.filterMap fun hash => identities[hash]?).filterMap
      fun parent => parent.coordinate.map BlockCoordinate.level) = database.parentLevels prepared.block :=
    parentLevels_eq fun hash hmem =>
      hget hash ((huniversal hash).mpr (Or.inl (List.mem_append_right _ hmem)))
  have hlevelEq : deriveLevel (prepared.block.directParents.filterMap fun hash => identities[hash]?)
      = if database.derivedLevel prepared.block < 2 ^ 32 then .ok (database.derivedLevel prepared.block)
        else .error (.panic "derived block level fits u32") := by
    rw [deriveLevel_eq, hlevels]
    rfl
  unfold insertPreparedBlock
  rw [hintern, ok_bind]
  dsimp only
  rw [hparents, ok_bind, hlevelEq]
  refine ⟨?_, ?_, ?_⟩
  . intro halloc
    have hpos : 0 < database.derivedLevel prepared.block := Nat.succ_pos _
    obtain ⟨levels', coordinate, hcoordinate⟩ :=
      allocateCoordinate_isOk hpos halloc.level_lt halloc.room
    obtain ⟨selectedParent, hselected⟩ :=
      hfound prepared.block.selectedParent (List.mem_append_right _ hsel)
    obtain ⟨own, hown, _⟩ := hget prepared.block.hash ((huniversal _).mpr (Or.inr rfl))
    have hkept : ∀ hash ∈ prepared.universal, ∃ identity, (identities.insert prepared.block.hash
        ⟨own.id, some ⟨coordinate, selectedParent.id⟩⟩)[hash]? = some identity := by
      intro hash hmem
      rw [Map.get_insert]
      split
      . exact ⟨_, rfl⟩
      . obtain ⟨identity, hidentity, _⟩ := hget hash hmem
        exact ⟨identity, hidentity⟩
    obtain ⟨blue, hblue⟩ := mapM_expect_isOk (S := MaterializeSemanticError)
      (l := prepared.block.blueMergeSet)
      (fun hash hmem => hkept hash ((huniversal hash).mpr (Or.inl (by simp [hmem]))))
      "blue merge-set identity was resolved"
    obtain ⟨red, hred⟩ := mapM_expect_isOk (S := MaterializeSemanticError)
      (l := prepared.block.redMergeSet)
      (fun hash hmem => hkept hash ((huniversal hash).mpr (Or.inl (by simp [hmem]))))
      "red merge-set identity was resolved"
    obtain ⟨_, _, _, hlevels'⟩ := allocateCoordinate_eq_ok hcoordinate
    have hrows : ∀ level ∈ database.derivedLevel prepared.block :: database.parentLevels prepared.block,
        ∃ row : LevelRow, levels'[level]? = some row := by
      intro level hlevel
      rw [hlevels', Map.get_insert]
      split
      . exact ⟨_, rfl⟩
      . next hne =>
        obtain rfl | hlevel := List.mem_cons.mp hlevel
        . exact absurd rfl hne
        . exact parentLevels_stored hstores hlevel
    obtain ⟨snapshots, hsnapshots⟩ := loadLevelSnapshots_isOk (S := MaterializeSemanticError)
      "materialized parent level has no level-state row" hrows
    have hupdates : ∃ updates, (loaded.cacheMisses.mapM fun hash =>
        expect (S := MaterializeSemanticError) (((identities.insert prepared.block.hash
          ⟨own.id, some ⟨coordinate, selectedParent.id⟩⟩)[hash]?).map fun identity => (hash, identity))
          "every universal identity was resolved") = .ok updates := by
      refine ⟨_, mapM_orError_eq_ok.mpr (map_eq_filterMap_some fun hash hmem => ?_)⟩
      obtain ⟨identity, hidentity⟩ := hkept hash (hload.misses hash hmem)
      rw [hidentity]
      exact ⟨_, rfl⟩
    obtain ⟨updates, hupdates⟩ := hupdates
    rw [if_pos halloc.level_lt, ok_bind, hcoordinate, ok_bind, hselected, expect_some, ok_bind, hown,
      expect_some, ok_bind]
    rw [hblue, ok_bind, hred, ok_bind, hlevels, hsnapshots, ok_bind, hupdates]
    exact ⟨_, rfl⟩
  . intro hlevel
    rw [if_neg hlevel]
    rfl
  . intro hlevel row hrow hfull
    rw [if_pos hlevel, ok_bind, allocateCoordinate_full hrow hfull]
    rfl

theorem Agrees.values_eq (h : Agrees database hashes loaded) (h' : Agrees database hashes loaded') :
    loaded.values = loaded'.values := by
  apply Std.ExtTreeMap.ext_getElem?
  intro hash
  rw [h.values, h'.values]

theorem Agrees.internMissingIdentities_eq (h : Agrees database hashes loaded)
    (h' : Agrees database hashes loaded') :
    internMissingIdentities database.identifiers loaded
      = internMissingIdentities database.identifiers loaded' := by
  unfold internMissingIdentities
  rw [h.missing, h'.missing, h.values_eq h']

def SameOutcome (result result' : Database × MaterializeAttemptSuccess) : Prop :=
  result.1 = result'.1 ∧ result.2.outcome = result'.2.outcome

variable (hstores : database.Stores inserted) (hload : Agrees database prepared.universal loaded)
variable (hload' : Agrees database prepared.universal loaded')
variable (hprep : PreparedBlock.new block = .ok prepared)
include hstores hload hload' hprep

theorem insertPreparedBlock_alike :
    Alike SameOutcome (insertPreparedBlock database prepared daaScore loaded)
      (insertPreparedBlock database prepared daaScore loaded') := by
  obtain ⟨identifiers, identities, hintern, hget⟩ :=
    internMissingIdentities_isOk hstores hload (nodup_universal hprep)
  unfold insertPreparedBlock
  rw [← hload.internMissingIdentities_eq hload', hintern, ok_bind, ok_bind]
  apply Alike.bind
  intro parents _
  apply Alike.bind
  intro level _
  apply Alike.bind
  intro allocated _
  apply Alike.bind
  intro selectedParent _
  apply Alike.bind
  intro own _
  apply Alike.bind
  intro blue _
  apply Alike.bind
  intro red _
  apply Alike.bind
  intro snapshots _
  -- The cache updates are looked up among the identities at hand, where every miss is found.
  have hupdates : ∀ misses : List BlockHash, (∀ hash ∈ misses, hash ∈ prepared.universal) →
      ∃ updates, (misses.mapM fun hash => expect (S := MaterializeSemanticError)
        (((identities.insert prepared.block.hash
          ⟨own.id, some ⟨allocated.2, selectedParent.id⟩⟩)[hash]?).map fun identity => (hash, identity))
        "every universal identity was resolved") = .ok updates := by
    intro misses hmisses
    refine ⟨_, mapM_orError_eq_ok.mpr (map_eq_filterMap_some fun hash hmem => ?_)⟩
    rw [Map.get_insert]
    split
    . exact ⟨_, rfl⟩
    . obtain ⟨identity, hidentity, _⟩ := hget hash (hmisses hash hmem)
      rw [hidentity]
      exact ⟨_, rfl⟩
  obtain ⟨updates, hok⟩ := hupdates loaded.cacheMisses hload.misses
  obtain ⟨updates', hok'⟩ := hupdates loaded'.cacheMisses hload'.misses
  rw [hok, hok']
  exact .ok ⟨rfl, rfl⟩

theorem materializeLoaded_alike (policy : ReferencePolicy) :
    Alike SameOutcome (materializeLoaded database loaded prepared daaScore policy)
      (materializeLoaded database loaded' prepared daaScore policy) := by
  unfold materializeLoaded
  rw [hload.values_eq hload']
  split
  . split
    . exact .ok ⟨rfl, rfl⟩
    . exact .error _
  . dsimp only
    split
    . exact .error _
    . exact insertPreparedBlock_alike hstores hload hload' hprep

end Insert

end Kgi
