import GraphInspector.Storage.Lemmas.Caching

/-!
What materialization answers, read off the tables.
-/

namespace Kgi

open Data

variable {hash : BlockHash}

structure ValidatedNodeBlock.Ordinary (block : ValidatedNodeBlock) : Prop where
  selectedParent_mem : block.selectedParent ∈ block.directParents
  daaScore_le : block.daaScore ≤ maxDaaScore

def ValidatedNodeBlock.referenced (block : ValidatedNodeBlock) : List BlockHash :=
  firstOccurrences (block.redMergeSet ++ block.blueMergeSet ++ block.directParents)

def ValidatedNodeBlock.Indexed (block : ValidatedNodeBlock) : Prop :=
  ∀ index, block.directParents.idxOf? block.selectedParent = some index → index < 2 ^ 32

namespace Database

def Materialized (database : Database) (hash : BlockHash) : Prop :=
  ∃ id row, database.identifiers.ids[hash]? = some id ∧ database.blocks[id]? = some row

def IdentityOnly (database : Database) (hash : BlockHash) : Prop :=
  ∃ id, database.identifiers.ids[hash]? = some id ∧ database.blocks[id]? = none

def Unknown (database : Database) (hash : BlockHash) : Prop :=
  database.identifiers.ids[hash]? = none

theorem not_materialized_iff {database : Database} :
    ¬ database.Materialized hash ↔ database.Unknown hash ∨ database.IdentityOnly hash := by
  unfold Materialized Unknown IdentityOnly
  cases hid : database.identifiers.ids[hash]? with
  | none => simp
  | some id =>
    simp only [Option.some.injEq, exists_eq_left', reduceCtorEq, false_or, exists_and_left]
    rw [← Option.isSome_iff_exists, Option.isSome_iff_ne_none, not_not]

structure Lists (database : Database) (block : ValidatedNodeBlock) (missing identityOnly : List BlockHash) :
    Prop where
  mem_missing : ∀ hash, hash ∈ missing ↔ hash ∈ block.referenced ∧ database.Unknown hash
  mem_identityOnly : ∀ hash, hash ∈ identityOnly ↔ hash ∈ block.referenced ∧ database.IdentityOnly hash
  disjoint : missing.Disjoint identityOnly
  nodup : missing.Nodup ∧ identityOnly.Nodup
  order : missing.Sublist block.referenced ∧ identityOnly.Sublist block.referenced

/--
The answer to a block whose parents fit. Everything but the caches of the result is determined by the
tables.
-/
structure Answers (database : Database) (block : ValidatedNodeBlock) (policy : ReferencePolicy)
    (result : Except (TransactionAttemptError MaterializeSemanticError)
      (Storage × MaterializeBlockOutcome)) : Prop where
  alreadyMaterialized : ∀ (id : CompactId) (row : BlockRow),
    database.identifiers.ids[block.hash]? = some id → database.blocks[id]? = some row →
    ∃ caches, result = .ok (⟨database, caches⟩, .alreadyMaterialized id row.coordinate)
  boundary : database.IdentityOnly block.hash →
    result = .error (.semantic (.incomingBoundaryIdentity block.hash))
  rejected : database.Unknown block.hash → policy = .requireMaterialized →
    (∃ hash ∈ block.referenced, ¬ database.Materialized hash) →
    ∃ missing identityOnly, database.Lists block missing identityOnly ∧
      result = .error (.semantic (.nonMaterializedReferences missing identityOnly))
  inserted : database.Unknown block.hash →
    (policy = .requireMaterialized → ∀ hash ∈ block.referenced, database.Materialized hash) →
    database.Allocatable block →
    ∃ storage' id row committed, result = .ok (storage', .inserted committed) ∧
      Insertion database storage'.database block id row ∧
      Committed storage'.database block id row committed
  unrepresentable : database.Unknown block.hash →
    (policy = .requireMaterialized → ∀ hash ∈ block.referenced, database.Materialized hash) →
    ¬ database.derivedLevel block < 2 ^ 32 →
    result = .error (.panic "derived block level fits u32")
  full : database.Unknown block.hash →
    (policy = .requireMaterialized → ∀ hash ∈ block.referenced, database.Materialized hash) →
    database.derivedLevel block < 2 ^ 32 → ∀ row : LevelRow,
    database.levels[database.derivedLevel block]? = some row → ¬ row.size < maxLevelSize →
    result = .error (.panic "materialized level size fits u16")

end Database

section References

variable {database : Database} {loaded : LoadedIdentities} {block : ValidatedNodeBlock}

theorem lists_filter (hvalues : ∀ hash ∈ block.referenced,
      loaded.values[hash]? = database.storedIdentity hash) :
    database.Lists block (block.referenced.filter fun hash => loaded.values[hash]?.isNone)
      (block.referenced.filter fun hash => loaded.values[hash]?.any fun identity =>
        identity.block.isNone) := by
  have hmissing : ∀ hash, hash ∈ (block.referenced.filter fun hash => loaded.values[hash]?.isNone) ↔
      hash ∈ block.referenced ∧ database.Unknown hash := by
    intro hash
    rw [List.mem_filter, Option.isNone_iff_eq_none]
    apply and_congr_right
    intro hmem
    rw [hvalues hash hmem, Database.storedIdentity_eq_none]
    rfl
  have honly : ∀ hash, hash ∈ (block.referenced.filter fun hash =>
        loaded.values[hash]?.any fun identity => identity.block.isNone) ↔
      hash ∈ block.referenced ∧ database.IdentityOnly hash := by
    intro hash
    rw [List.mem_filter]
    apply and_congr_right
    intro hmem
    rw [hvalues hash hmem]
    unfold Database.storedIdentity Database.IdentityOnly
    cases database.identifiers.ids[hash]? with
    | none => simp
    | some id => simp
  constructor
  case mem_missing => exact hmissing
  case mem_identityOnly => exact honly
  case disjoint =>
    intro hash hmem hmem'
    obtain ⟨_, hunknown⟩ := (hmissing hash).mp hmem
    obtain ⟨_, id, hid, _⟩ := (honly hash).mp hmem'
    rw [hunknown] at hid
    cases hid
  case nodup =>
    have hnodup : block.referenced.Nodup := nodup_firstOccurrences _
    exact ⟨hnodup.filter _, hnodup.filter _⟩
  case order => exact ⟨List.filter_sublist, List.filter_sublist⟩

theorem Database.Lists.eq_nil_iff {missing identityOnly : List BlockHash}
    (h : database.Lists block missing identityOnly) :
    missing ≠ [] ∨ identityOnly ≠ [] ↔ ∃ hash ∈ block.referenced, ¬ database.Materialized hash := by
  constructor
  . rintro (hne | hne)
    . obtain ⟨hash, hmem⟩ := List.exists_mem_of_ne_nil _ hne
      obtain ⟨hmem, hunknown⟩ := (h.mem_missing hash).mp hmem
      exact ⟨hash, hmem, Database.not_materialized_iff.mpr (Or.inl hunknown)⟩
    . obtain ⟨hash, hmem⟩ := List.exists_mem_of_ne_nil _ hne
      obtain ⟨hmem, honly⟩ := (h.mem_identityOnly hash).mp hmem
      exact ⟨hash, hmem, Database.not_materialized_iff.mpr (Or.inr honly)⟩
  . rintro ⟨hash, hmem, hnot⟩
    obtain hunknown | honly := Database.not_materialized_iff.mp hnot
    . exact Or.inl (List.ne_nil_of_mem ((h.mem_missing hash).mpr ⟨hmem, hunknown⟩))
    . exact Or.inr (List.ne_nil_of_mem ((h.mem_identityOnly hash).mpr ⟨hmem, honly⟩))

end References

section Materialize

variable {storage : Storage} {inserted : List ValidatedNodeBlock} {block : ValidatedNodeBlock}
  {evictions : BlockHash → LookupEvictions}
variable {policy : ReferencePolicy}

theorem preparedBlock_new_isOk (hblock : block.Ordinary) (hindexed : block.Indexed) :
    ∃ prepared, PreparedBlock.new block = .ok prepared := by
  obtain ⟨index, hindex⟩ : ∃ index, block.directParents.idxOf? block.selectedParent = some index := by
    cases hindex : block.directParents.idxOf? block.selectedParent with
    | none => exact absurd hblock.selectedParent_mem (List.idxOf?_eq_none_iff.mp hindex)
    | some index => exact ⟨index, rfl⟩
  unfold PreparedBlock.new expect
  rw [hindex, Option.filter_some_pos (by simpa using hindexed index hindex)]
  exact ⟨_, rfl⟩

theorem preparedBlock_new_panic (hindexed : ¬ block.Indexed) :
    PreparedBlock.new block = .error (.panic
      "ValidatedNodeBlock selected parent has a representable canonical index") := by
  unfold ValidatedNodeBlock.Indexed at hindexed
  push Not at hindexed
  obtain ⟨index, hindex, hge⟩ := hindexed
  unfold PreparedBlock.new expect
  rw [hindex, Option.filter_some_neg (by simpa using hge)]
  rfl

theorem preparedBlock_new_not_mem (hmem : block.selectedParent ∉ block.directParents) :
    PreparedBlock.new block = .error (.panic
      "ValidatedNodeBlock selected parent has a representable canonical index") := by
  unfold PreparedBlock.new expect
  rw [List.idxOf?_eq_none_iff.mpr hmem]
  rfl

theorem materializeLoaded_answers {database : Database} {loaded : LoadedIdentities}
    {prepared : PreparedBlock} {daaScore : Nat} (hstores : database.Stores inserted)
    (hload : Agrees database prepared.universal loaded) (hprep : PreparedBlock.new block = .ok prepared)
    (hdaa : daaScore = block.daaScore ∧ daaScore ≤ maxDaaScore) (policy : ReferencePolicy)
    (publish : MaterializeAttemptSuccess → ProcessingCacheDomains) :
    database.Answers block policy (do
      let (database, success) ← materializeLoaded database loaded prepared daaScore policy
      pure (⟨database, publish success⟩, success.outcome)) := by
  have huniversal := mem_universal hprep
  obtain ⟨rfl, _, _, hrefs⟩ := preparedBlock_new_eq_ok hprep
  have hreferenced : prepared.references = prepared.block.referenced := hrefs
  have hown : loaded.values[prepared.block.hash]? = database.storedIdentity prepared.block.hash := by
    rw [hload.values, if_pos ((huniversal _).mpr (Or.inr rfl))]
  have hvalues : ∀ hash ∈ prepared.block.referenced,
      loaded.values[hash]? = database.storedIdentity hash := by
    intro hash hmem
    rw [hload.values, if_pos ((huniversal hash).mpr (Or.inl ((mem_firstOccurrences _ _).mp hmem)))]
  have hlists := lists_filter hvalues
  -- A new block passes the reference check unless the policy asks for what is not there.
  have hpass : database.Unknown prepared.block.hash →
      (policy = .requireMaterialized →
        ∀ hash ∈ prepared.block.referenced, database.Materialized hash) →
      materializeLoaded database loaded prepared daaScore policy
        = insertPreparedBlock database prepared daaScore loaded := by
    intro hunknown hall
    unfold materializeLoaded
    rw [hown, Database.storedIdentity_eq_none.mpr hunknown, hreferenced]
    rw [if_neg]
    rintro ⟨hpolicy, hne⟩
    obtain ⟨hash, hmem, hnot⟩ := hlists.eq_nil_iff.mp hne
    exact hnot (hall hpolicy hash hmem)
  constructor
  case alreadyMaterialized =>
    intro id row hid hrow
    have hstored : database.storedIdentity prepared.block.hash = some ⟨id, some row.cached⟩ :=
      Database.storedIdentity_eq_some.mpr ⟨hid, by rw [hrow]; rfl⟩
    unfold materializeLoaded
    rw [hown, hstored]
    exact ⟨_, rfl⟩
  case boundary =>
    rintro ⟨id, hid, hrow⟩
    have hstored : database.storedIdentity prepared.block.hash = some ⟨id, none⟩ :=
      Database.storedIdentity_eq_some.mpr ⟨hid, by rw [hrow]; rfl⟩
    unfold materializeLoaded
    rw [hown, hstored]
    rfl
  case rejected =>
    intro hunknown hpolicy hexists
    refine ⟨_, _, hlists, ?_⟩
    unfold materializeLoaded
    rw [hown, Database.storedIdentity_eq_none.mpr hunknown, hreferenced]
    rw [if_pos ⟨hpolicy, hlists.eq_nil_iff.mpr hexists⟩]
    rfl
  case inserted =>
    intro hunknown hall halloc
    rw [hpass hunknown hall]
    obtain ⟨⟨database', success⟩, hok⟩ := (insertPreparedBlock_eq hstores hload hprep).1 halloc
    obtain ⟨id, row, committed, hinsertion, houtcome, hcommitted, _, _⟩ :=
      insertPreparedBlock_spec hstores hload hprep hdaa hunknown hok
    refine ⟨⟨database', publish success⟩, id, row, committed, ?_, hinsertion, hcommitted⟩
    rw [hok, ← houtcome]
    rfl
  case unrepresentable =>
    intro hunknown hall hge
    rw [hpass hunknown hall, (insertPreparedBlock_eq hstores hload hprep).2.1 hge]
    rfl
  case full =>
    intro hunknown hall hlt row hrow hfull
    rw [hpass hunknown hall, (insertPreparedBlock_eq hstores hload hprep).2.2 hlt row hrow hfull]
    rfl

theorem daaScoreToSql_isOk {S : Type} (h : block.daaScore ≤ maxDaaScore) :
    daaScoreToSql (S := S) block.daaScore = .ok block.daaScore :=
  if_neg (Nat.not_lt.mpr h)

theorem agrees_lookupsDuring (hco : Coherent storage.database storage.caches)
    (evictions : BlockHash → LookupEvictions) (hashes : List BlockHash) :
    Agrees storage.database hashes
      (loadIdentitiesDuring storage.database (lookupsDuring evictions storage.caches hashes).1) := by
  have hagrees := agrees_loadIdentitiesDuring (hco.lookupsDuring evictions hashes).2
  rw [map_fst_lookupsDuring] at hagrees
  exact hagrees

theorem materializeBlockDuring_answers (hstores : storage.database.Stores inserted)
    (hco : Coherent storage.database storage.caches) (hblock : block.Ordinary) (hindexed : block.Indexed)
    (evictions : BlockHash → LookupEvictions) (policy : ReferencePolicy) :
    storage.database.Answers block policy (storage.materializeBlockDuring evictions block policy) := by
  obtain ⟨prepared, hprep⟩ := preparedBlock_new_isOk hblock hindexed
  unfold Storage.materializeBlockDuring
  rw [hprep, ok_bind, daaScoreToSql_isOk hblock.daaScore_le, ok_bind]
  exact materializeLoaded_answers hstores (agrees_lookupsDuring hco evictions _) hprep
    ⟨rfl, hblock.daaScore_le⟩ policy _

theorem materializeBlockDuring_alike (hstores : storage.database.Stores inserted)
    (hco : Coherent storage.database storage.caches) {caches : ProcessingCacheDomains}
    (hco' : Coherent storage.database caches) (evictions : BlockHash → LookupEvictions)
    (block : ValidatedNodeBlock) (policy : ReferencePolicy) :
    Alike (fun result result' => result.1.database = result'.1.database ∧ result.2 = result'.2)
      (storage.materializeBlockDuring evictions block policy)
      ((⟨storage.database, caches⟩ : Storage).materializeBlock block policy) := by
  apply Alike.bind
  intro prepared hprep
  apply Alike.bind
  intro daaScore _
  exact (materializeLoaded_alike hstores (agrees_lookupsDuring hco evictions _) (hco'.agrees _) hprep
    policy).map fun _ _ hsame => hsame

variable {storage' : Storage} {outcome : MaterializeBlockOutcome}

theorem materializeBlockDuring_coherent (hstores : storage.database.Stores inserted)
    (hco : Coherent storage.database storage.caches)
    (h : storage.materializeBlockDuring evictions block policy = .ok (storage', outcome)) :
    Coherent storage'.database storage'.caches := by
  unfold Storage.materializeBlockDuring at h
  simp only [bind_eq_ok, pure_eq_ok] at h
  obtain ⟨prepared, hprep, daaScore, hdaa, ⟨database, success⟩, hattempt, heq⟩ := h
  rw [Prod.mk.injEq] at heq
  obtain ⟨rfl, rfl⟩ := heq
  obtain ⟨hupdates, hsets, hcases⟩ := materializeLoaded_eq_ok hstores
    (agrees_lookupsDuring hco evictions _) hprep (daaScoreToSql_eq_ok hdaa) hattempt
  exact (hco.lookupsDuring evictions _).1.materialized hstores hupdates hsets hcases

theorem blockPresenceDuring_spec (hco : Coherent storage.database storage.caches)
    (evictions : LookupEvictions) (hash : BlockHash) :
    (storage.blockPresenceDuring evictions hash).1.database = storage.database ∧
    Coherent storage.database (storage.blockPresenceDuring evictions hash).1.caches ∧
    (storage.blockPresenceDuring evictions hash).2
      = (storage.database.storedIdentity hash).elim .absent StoredIdentity.presence := by
  have hfirst := hco.evict evictions.beforeIdentity
  have hsecond := hfirst.evict evictions.beforeBlock
  unfold Storage.blockPresenceDuring
  dsimp only
  split
  . next identity hhit =>
    rw [hfirst.storedIdentityDuring hsecond hhit]
    exact ⟨rfl, hsecond, rfl⟩
  . split
    . next hstored =>
      rw [hstored]
      exact ⟨rfl, hsecond, rfl⟩
    . next identity hstored =>
      rw [hstored]
      exact ⟨rfl, hsecond.publishStoredIdentity hstored, rfl⟩

theorem materializeBlockDuring_unknown (hstores : storage.database.Stores inserted)
    (hco : Coherent storage.database storage.caches)
    (h : storage.materializeBlockDuring evictions block policy = .ok (storage', outcome))
    (hmem : hash ∉ block.referenced) (hne : hash ≠ block.hash)
    (hunknown : storage.database.Unknown hash) : storage'.database.Unknown hash := by
  unfold Storage.materializeBlockDuring at h
  simp only [bind_eq_ok, pure_eq_ok] at h
  obtain ⟨prepared, hprep, daaScore, hdaa, ⟨database, success⟩, hattempt, heq⟩ := h
  rw [Prod.mk.injEq] at heq
  obtain ⟨rfl, rfl⟩ := heq
  have huniversal : hash ∉ prepared.universal := by
    rw [mem_universal hprep]
    rintro (hin | heq)
    . exact hmem ((mem_firstOccurrences _ _).mpr hin)
    . exact hne heq
  unfold materializeLoaded at hattempt
  dsimp only at hattempt
  split at hattempt
  . split at hattempt
    . cases hattempt
      exact hunknown
    . cases hattempt
  . split at hattempt
    . cases hattempt
    . obtain ⟨identifiers, _, _, _, _, _, _, _, _, _, interned, _, rfl, hids, _, _, _, _, _, _, _, _,
        rfl, _⟩ := insertPreparedBlock_eq_ok hstores (agrees_lookupsDuring hco evictions _) hprep hattempt
      have hkeep := (Interner.insertAll_spec hids).2.1 hash fun hin =>
        huniversal (List.mem_filter.mp hin).1
      exact hkeep.trans hunknown

end Materialize

def Storage.Sound (storage : Storage) : Prop :=
  (∃ inserted, storage.database.Stores inserted) ∧ Coherent storage.database storage.caches

section Run

variable {storage next : Storage}

theorem Storage.Sound.stepDuring (h : storage.Sound)
    {event : (BlockHash → LookupEvictions) × StorageEvent} (hstep : storage.stepDuring event = some next) :
    next.Sound := by
  obtain ⟨⟨inserted, hstores⟩, hco⟩ := h
  have hother : (storage.step event.2).Sound :=
    ⟨⟨_, step_stores hstores hco event.2⟩, (step_cases hstores hco event.2).1⟩
  unfold Storage.stepDuring at hstep
  split at hstep
  . next block policy hevent =>
    cases hresult : storage.materializeBlockDuring event.1 block policy with
    | error e =>
      rw [hresult] at hstep
      cases hstep
      exact ⟨⟨inserted, hstores⟩, hco⟩
    | ok result =>
      rw [hresult] at hstep
      cases hstep
      refine ⟨?_, materializeBlockDuring_coherent hstores hco hresult⟩
      -- The tables are those of the step that loses no entry on the way.
      have halike := materializeBlockDuring_alike hstores hco hco event.1 block policy
      rw [hresult] at halike
      generalize hplain : (⟨storage.database, storage.caches⟩ : Storage).materializeBlock block policy
        = plain at halike
      cases halike with
      | ok hsame =>
        rw [hevent] at hother
        unfold Storage.step at hother
        dsimp only at hother
        rw [hplain] at hother
        obtain ⟨inserted', hstores'⟩ := hother.1
        exact ⟨inserted', hsame.1 ▸ hstores'⟩
  . cases hstep
    exact hother

theorem Storage.Sound.run {events : List ((BlockHash → LookupEvictions) × StorageEvent)}
    {reached : Storage} (h : storage.Sound) (hrun : run Storage.stepDuring storage events = some reached) :
    reached.Sound :=
  run.invariant (fun _ _ _ h hstep => h.stepDuring hstep) h hrun

theorem performRebuild_sound {block : ValidatedNodeBlock} {genesisHash : BlockHash}
    {anchor : MaterializedSyncAnchor}
    (h : Storage.performRebuild block genesisHash = .ok (storage, anchor)) : storage.Sound := by
  obtain ⟨_, row, parentIds, hrebuilt⟩ := performRebuild_eq_ok h
  exact ⟨⟨_, hrebuilt.stores⟩, hrebuilt.coherent⟩

end Run

/--
In every state that a rebuilt generation reaches, while the caches drop whatever they like, the answer to a
block and the tables after it are those with empty caches. The tables alone decide it, and the caches
change only with a success, to what the tables say.
-/
theorem materialization_answer {pruningPoint : ValidatedNodeBlock} {genesisHash : BlockHash}
    {storage reached : Storage} {anchor : MaterializedSyncAnchor}
    {events : List ((BlockHash → LookupEvictions) × StorageEvent)}
    (hrebuild : Storage.performRebuild pruningPoint genesisHash = .ok (storage, anchor))
    (hrun : run Storage.stepDuring storage events = some reached) {block : ValidatedNodeBlock}
    (hblock : block.Ordinary) (evictions : BlockHash → LookupEvictions) (policy : ReferencePolicy) :
    Alike (fun result result' => result.1.database = result'.1.database ∧ result.2 = result'.2)
      (reached.materializeBlockDuring evictions block policy)
      ((⟨reached.database, .new⟩ : Storage).materializeBlock block policy) ∧
    (block.Indexed →
      reached.database.Answers block policy (reached.materializeBlockDuring evictions block policy)) ∧
    (¬ block.Indexed →
      reached.materializeBlockDuring evictions block policy = .error (.panic
        "ValidatedNodeBlock selected parent has a representable canonical index")) ∧
    ∀ storage' outcome,
      reached.materializeBlockDuring evictions block policy = .ok (storage', outcome) →
      Coherent storage'.database storage'.caches := by
  obtain ⟨⟨inserted, hstores⟩, hco⟩ := (performRebuild_sound hrebuild).run hrun
  refine ⟨materializeBlockDuring_alike hstores hco (Coherent.new _) evictions block policy, ?_, ?_, ?_⟩
  . intro hindexed
    exact materializeBlockDuring_answers hstores hco hblock hindexed evictions policy
  . intro hindexed
    unfold Storage.materializeBlockDuring
    rw [preparedBlock_new_panic hindexed]
    rfl
  . intro storage' outcome hok
    exact materializeBlockDuring_coherent hstores hco hok

def evictLookedUp (hash : BlockHash) : LookupEvictions :=
  ⟨⟨[hash], [], [], false⟩, ⟨[], [], [], false⟩⟩

theorem exists_run_stepDuring (storage : Storage)
    (events : List ((BlockHash → LookupEvictions) × StorageEvent)) :
    ∃ reached, run Storage.stepDuring storage events = some reached := by
  induction events generalizing storage with
  | nil => exact ⟨storage, rfl⟩
  | cons event events ih =>
    obtain ⟨next, hnext⟩ : ∃ next, storage.stepDuring event = some next := by
      unfold Storage.stepDuring
      split
      . split
        . exact ⟨_, rfl⟩
        . exact ⟨_, rfl⟩
      . exact ⟨_, rfl⟩
    obtain ⟨reached, hrun⟩ := ih next
    exact ⟨reached, run.cons_eq_some.mpr ⟨next, hnext, hrun⟩⟩

theorem exists_rebuilt :
    ∃ storage anchor, Storage.performRebuild (.ofParent 1 0 (by decide)) 0 = .ok (storage, anchor) ∧
      storage.database.identifiers.ids.keys = [0, 1] := by
  obtain ⟨storage, anchor, hrebuild, hids⟩ := exists_performRebuild (.ofParent 1 0 (by decide)) 0
    (fun result => result.1.database.identifiers.ids.keys == [0, 1]) (by decide +kernel)
  exact ⟨storage, anchor, hrebuild, eq_of_beq hids⟩

/--
A grandchild of the pruning point, after its parent was inserted.
-/
theorem materialization_answer_grandchild :
    ∃ storage anchor reached,
      Storage.performRebuild (.ofParent 1 0 (by decide)) 0 = .ok (storage, anchor) ∧
      run Storage.stepDuring storage
        [(evictLookedUp, .materialize (.ofParent 2 1 (by decide)) .requireMaterialized)] = some reached ∧
      reached.database.Answers (.ofParent 3 2 (by decide)) .requireMaterialized
        (reached.materializeBlockDuring evictLookedUp (.ofParent 3 2 (by decide))
          .requireMaterialized) := by
  obtain ⟨storage, anchor, hrebuild, _⟩ := exists_rebuilt
  obtain ⟨reached, hrun⟩ := exists_run_stepDuring storage
    [(evictLookedUp, .materialize (.ofParent 2 1 (by decide)) .requireMaterialized)]
  have hblock : (ValidatedNodeBlock.ofParent 3 2 (by decide)).Ordinary := ⟨by decide, by decide⟩
  have hindexed : (ValidatedNodeBlock.ofParent 3 2 (by decide)).Indexed := by
    intro index hindex
    cases hindex
    decide
  exact ⟨storage, anchor, reached, hrebuild, hrun,
    (materialization_answer hrebuild hrun hblock evictLookedUp .requireMaterialized).2.1 hindexed⟩

structure Storage.Crowded (storage : Storage) (children : Nat) : Prop where
  sound : storage.Sound
  pruningPoint : ∃ (id : CompactId) (row : BlockRow),
    storage.database.identifiers.ids[(1 : BlockHash)]? = some id ∧
    storage.database.blocks[id]? = some row ∧ row.coordinate.level = 1
  size : (storage.database.levels[2]?).elim 0 LevelRow.size = children
  fresh : ∀ hash : BlockHash, children + 1 < hash.val → storage.database.Unknown hash

def crowdChild (children : Nat) (h : children ≤ maxLevelSize) : ValidatedNodeBlock :=
  .ofParent ⟨children + 2, by unfold maxLevelSize at h; omega⟩ 1 (by
    intro heq
    have := congrArg Fin.val heq
    simp at this)

section Crowded

variable {storage : Storage} {children : Nat}

theorem crowdChild_ordinary (h : children ≤ maxLevelSize) :
    (crowdChild children h).Ordinary ∧ (crowdChild children h).Indexed := by
  refine ⟨⟨List.mem_singleton_self _, Nat.zero_le _⟩, ?_⟩
  intro index hindex
  have hzero : (crowdChild children h).directParents.idxOf? (crowdChild children h).selectedParent
      = some 0 := rfl
  rw [hzero] at hindex
  cases hindex
  decide

theorem mem_referenced_crowdChild {h : children ≤ maxLevelSize} :
    hash ∈ (crowdChild children h).referenced ↔ hash = 1 := by
  unfold ValidatedNodeBlock.referenced
  rw [mem_firstOccurrences]
  show hash ∈ [] ++ [1] ++ [1] ↔ hash = 1
  simp

theorem derivedLevel_crowdChild {database : Database} {id : CompactId} {row : BlockRow}
    (hid : database.identifiers.ids[(1 : BlockHash)]? = some id) (hrow : database.blocks[id]? = some row)
    (hlevel : row.coordinate.level = 1) (h : children ≤ maxLevelSize) :
    database.parentLevels (crowdChild children h) = [1] := by
  show List.filterMap _ [1] = [1]
  rw [List.filterMap_cons, hid, Option.bind_some, hrow, Option.map_some, hlevel]
  rfl

namespace Storage.Crowded

section Within

variable (hcrowded : storage.Crowded children) (h : children ≤ maxLevelSize)
include hcrowded h

theorem unknown : storage.database.Unknown (crowdChild children h).hash :=
  hcrowded.fresh _ (Nat.lt_succ_self _)

theorem materialized :
    ∀ hash ∈ (crowdChild children h).referenced, storage.database.Materialized hash := by
  intro hash hmem
  obtain ⟨id, row, hid, hrow, _⟩ := hcrowded.pruningPoint
  rw [mem_referenced_crowdChild.mp hmem]
  exact ⟨id, row, hid, hrow⟩

theorem derivedLevel : storage.database.derivedLevel (crowdChild children h) = 2 := by
  obtain ⟨id, row, hid, hrow, hlevel⟩ := hcrowded.pruningPoint
  unfold Database.derivedLevel
  rw [derivedLevel_crowdChild hid hrow hlevel]
  rfl

theorem answers (evictions : BlockHash → LookupEvictions) (policy : ReferencePolicy) :
    storage.database.Answers (crowdChild children h) policy
      (storage.materializeBlockDuring evictions (crowdChild children h) policy) := by
  obtain ⟨⟨inserted, hstores⟩, hco⟩ := hcrowded.sound
  obtain ⟨hordinary, hindexed⟩ := crowdChild_ordinary h
  exact materializeBlockDuring_answers hstores hco hordinary hindexed evictions policy

end Within

theorem step (hcrowded : storage.Crowded children) (h : children < maxLevelSize)
    (evictions : BlockHash → LookupEvictions) :
    ∃ next, storage.stepDuring
        (evictions, .materialize (crowdChild children h.le) .requireMaterialized) = some next ∧
      next.Crowded (children + 1) := by
  have halloc : storage.database.Allocatable (crowdChild children h.le) := by
    constructor
    . rw [hcrowded.derivedLevel]
      decide
    . intro row hrow
      rw [hcrowded.derivedLevel] at hrow
      have hsize := hcrowded.size
      rw [hrow] at hsize
      rw [← hsize] at h
      exact h
  obtain ⟨next, id, row, committed, hresult, hinsertion, _⟩ :=
    (hcrowded.answers h.le evictions .requireMaterialized).inserted (hcrowded.unknown h.le)
      (fun _ => hcrowded.materialized h.le) halloc
  have hstep : storage.stepDuring
      (evictions, .materialize (crowdChild children h.le) .requireMaterialized) = some next := by
    unfold Storage.stepDuring
    dsimp only
    rw [hresult]
  refine ⟨next, hstep, ?_⟩
  obtain ⟨⟨inserted, hstores⟩, hco⟩ := hcrowded.sound
  obtain ⟨parent, parentRow, hparent, hparentRow, hlevel⟩ := hcrowded.pruningPoint
  have hparentRow' : next.database.blocks[parent]? = some parentRow := by
    rw [hinsertion.get_blocks, if_neg]
    . exact hparentRow
    . rintro rfl
      rw [hinsertion.get_eq_none hstores] at hparentRow
      cases hparentRow
  have hparent' := hinsertion.ids _ _ hparent
  have hrowLevel : row.coordinate.level = 2 := by
    rw [hinsertion.represents.level, derivedLevel_crowdChild hparent' hparentRow' hlevel]
    rfl
  constructor
  case sound => exact hcrowded.sound.stepDuring hstep
  case pruningPoint => exact ⟨parent, parentRow, hparent', hparentRow', hlevel⟩
  case size =>
    rw [hinsertion.levels, hrowLevel, Map.get_insert, if_pos rfl, Option.elim_some, hinsertion.slot,
      hrowLevel, hcrowded.size]
  case fresh =>
    intro hash hlt
    refine materializeBlockDuring_unknown hstores hco hresult ?_ ?_ (hcrowded.fresh hash (by omega))
    . intro hmem
      rw [mem_referenced_crowdChild.mp hmem] at hlt
      exact absurd hlt (by simp)
    . rintro rfl
      exact absurd hlt (Nat.lt_irrefl _)

theorem run (hcrowded : storage.Crowded 0) (h : children ≤ maxLevelSize) :
    ∃ events reached, Data.run Storage.stepDuring storage events = some reached ∧
      reached.Crowded children := by
  induction children with
  | zero => exact ⟨[], storage, rfl, hcrowded⟩
  | succ children ih =>
    obtain ⟨events, reached, hrun, hreached⟩ := ih (Nat.le_of_succ_le h)
    obtain ⟨next, hstep, hnext⟩ := hreached.step h evictLookedUp
    have hlast : Data.run Storage.stepDuring reached [(evictLookedUp,
        .materialize (crowdChild children (Nat.le_of_succ_le h)) .requireMaterialized)] = some next :=
      run.cons_eq_some.mpr ⟨next, hstep, rfl⟩
    exact ⟨_, next, run.append_eq_some.mpr ⟨reached, hrun, hlast⟩, hnext⟩

end Storage.Crowded

/--
The pruning point has as many children as its level has slots. Its next child refers to stored blocks
alone and is not inserted.
-/
theorem materialization_full_level :
    ∃ storage anchor events reached block,
      Storage.performRebuild (.ofParent 1 0 (by decide)) 0 = .ok (storage, anchor) ∧
      run Storage.stepDuring storage events = some reached ∧
      block.Ordinary ∧ reached.database.Unknown block.hash ∧
      (∀ hash ∈ block.referenced, reached.database.Materialized hash) ∧
      ∀ evictions policy, reached.materializeBlockDuring evictions block policy
        = .error (.panic "materialized level size fits u16") := by
  obtain ⟨storage, anchor, hrebuild, hkeys⟩ := exists_rebuilt
  obtain ⟨_, row, parentIds, hrebuilt⟩ := performRebuild_eq_ok hrebuild
  have hcrowded : storage.Crowded 0 := by
    constructor
    case sound => exact performRebuild_sound hrebuild
    case pruningPoint =>
      exact ⟨_, row, hrebuilt.hash, by rw [hrebuilt.blocks, Map.get_insert, if_pos rfl],
        hrebuilt.coordinate.1⟩
    case size =>
      rw [hrebuilt.levels, Map.get_insert, if_neg (by decide), Std.ExtTreeMap.getElem?_empty]
      rfl
    case fresh =>
      intro hash hlt
      have hmem : hash ∉ storage.database.identifiers.ids.keys := by
        rw [hkeys]
        rintro hmem
        simp only [List.mem_cons, List.not_mem_nil, or_false] at hmem
        obtain rfl | rfl := hmem
        . exact absurd hlt (by decide)
        . exact absurd hlt (by decide)
      rw [Std.ExtTreeMap.mem_keys] at hmem
      exact Std.ExtTreeMap.getElem?_eq_none hmem
  obtain ⟨events, reached, hrun, hreached⟩ := hcrowded.run (le_refl maxLevelSize)
  refine ⟨storage, anchor, events, reached, crowdChild maxLevelSize le_rfl, hrebuild, hrun,
    (crowdChild_ordinary le_rfl).1, hreached.unknown le_rfl, hreached.materialized le_rfl, ?_⟩
  intro evictions policy
  obtain ⟨levelRow, hlevelRow, hsize⟩ : ∃ levelRow : LevelRow,
      reached.database.levels[2]? = some levelRow ∧ ¬ levelRow.size < maxLevelSize := by
    have hsize := hreached.size
    cases hlevel : reached.database.levels[2]? with
    | none =>
      rw [hlevel] at hsize
      cases hsize
    | some levelRow =>
      rw [hlevel] at hsize
      exact ⟨levelRow, rfl, Nat.not_lt.mpr hsize.ge⟩
  refine (hreached.answers le_rfl evictions policy).full (hreached.unknown le_rfl)
    (fun _ => hreached.materialized le_rfl) ?_ levelRow ?_ hsize
  . rw [hreached.derivedLevel]
    decide
  . rw [hreached.derivedLevel]
    exact hlevelRow

end Crowded

end Kgi
