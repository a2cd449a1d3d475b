import GraphInspector.Storage.Lemmas.Acceptance

/-!
What the events of a generation do to the stored graph: materialization, VSPC transitions, cache
evictions and lost identity numbers.
-/

namespace Kgi

open Data

variable {caches : ProcessingCacheDomains} {database database' : Database}

section Materialize

variable {storage storage' : Storage} {inserted : List ValidatedNodeBlock}
  {success : MaterializeAttemptSuccess}
variable {block : ValidatedNodeBlock} {policy : ReferencePolicy} {outcome : MaterializeBlockOutcome}

theorem foldl_publishStoredIdentity_vspcSink (caches : ProcessingCacheDomains)
    (updates : List (BlockHash × StoredIdentity)) :
    (updates.foldl ProcessingCacheDomains.publishStoredIdentity caches).vspcSink = caches.vspcSink := by
  induction updates generalizing caches with
  | nil => rfl
  | cons update updates ih =>
    rw [List.foldl_cons, ih]
    unfold ProcessingCacheDomains.publishStoredIdentity
    split
    . rfl
    . rfl

theorem publishMaterialization_vspcSink (caches : ProcessingCacheDomains)
    (success : MaterializeAttemptSuccess) :
    (caches.publishMaterialization success).vspcSink = caches.vspcSink := by
  rw [← foldl_publishStoredIdentity_vspcSink caches success.cacheUpdates]
  unfold ProcessingCacheDomains.publishMaterialization
  split
  . rfl
  . rfl

theorem Coherent.publishMaterialization {database : Database} (h : Coherent database caches)
    (hupdates : ∀ update ∈ success.cacheUpdates, database.storedIdentity update.1 = some update.2)
    (hsets : ∀ sets, success.mergeSets = some sets →
      (database.blocks[sets.1]?).map BlockRow.mergeSets = some sets.2) :
    Coherent database (caches.publishMaterialization success) := by
  have hfold := h.foldl_publishStoredIdentity hupdates
  unfold ProcessingCacheDomains.publishMaterialization
  split
  . next id sets heq => exact hfold.publishMergeSets (hsets (id, sets) heq)
  . exact hfold

theorem materializeLoaded_eq_ok {loaded : LoadedIdentities} {prepared : PreparedBlock} {daaScore : Nat}
    (hstores : database.Stores inserted) (hload : Agrees database prepared.universal loaded)
    (hprep : PreparedBlock.new block = .ok prepared)
    (hdaa : daaScore = block.daaScore ∧ daaScore ≤ maxDaaScore)
    (h : materializeLoaded database loaded prepared daaScore policy = .ok (database', success)) :
    (∀ update ∈ success.cacheUpdates, database'.storedIdentity update.1 = some update.2) ∧
    (∀ sets, success.mergeSets = some sets →
      (database'.blocks[sets.1]?).map BlockRow.mergeSets = some sets.2) ∧
    ((∃ id coordinate, success.outcome = .alreadyMaterialized id coordinate ∧ database' = database) ∨
      ∃ id row committed, success.outcome = .inserted committed ∧
        Insertion database database' block id row ∧ Committed database' block id row committed) := by
  have hblock := (preparedBlock_new_eq_ok hprep).1
  have hown : loaded.values[block.hash]? = database.storedIdentity block.hash := by
    rw [hload.values, if_pos ((mem_universal hprep block.hash).mpr (Or.inr rfl))]
  unfold materializeLoaded at h
  dsimp only at h
  rw [hblock, hown] at h
  split at h
  . next own hstored =>
    split at h
    . next coordinate hcoordinate =>
      cases h
      refine ⟨?_, (fun _ hsets => nomatch hsets), Or.inl ⟨_, _, rfl, rfl⟩⟩
      intro update hmem
      rw [List.mem_map] at hmem
      obtain ⟨hash, hmem, rfl⟩ := hmem
      rw [List.mem_filter, decide_eq_true_iff] at hmem
      rw [hmem.2]
      exact hstored
    . cases h
  . next hstored =>
    split at h
    . cases h
    . have hnew := Database.storedIdentity_eq_none.mp hstored
      obtain ⟨id, row, committed, hinsertion, houtcome, hcommitted, hupdates, hsets⟩ :=
        insertPreparedBlock_spec hstores hload hprep hdaa hnew h
      refine ⟨hupdates, ?_, Or.inr ⟨id, row, committed, houtcome, hinsertion, hcommitted⟩⟩
      intro sets heq
      rw [hsets] at heq
      cases heq
      rw [hinsertion.get_blocks, if_pos rfl]
      rfl

theorem Coherent.materialized (hco : Coherent database caches) (hstores : database.Stores inserted)
    (hupdates : ∀ update ∈ success.cacheUpdates, database'.storedIdentity update.1 = some update.2)
    (hsets : ∀ sets, success.mergeSets = some sets →
      (database'.blocks[sets.1]?).map BlockRow.mergeSets = some sets.2)
    (hcases : (∃ id coordinate, success.outcome = .alreadyMaterialized id coordinate ∧
        database' = database) ∨
      ∃ id row committed, success.outcome = .inserted committed ∧
        Insertion database database' block id row ∧ Committed database' block id row committed) :
    Coherent database' (caches.publishMaterialization success) := by
  have hext : Database.Extends database database' := by
    obtain ⟨_, _, _, rfl⟩ | ⟨_, _, _, _, hinsertion, _⟩ := hcases
    . exact Database.Extends.refl _
    . exact hinsertion.extends' hstores
  exact (hco.of_extends hstores hext).publishMaterialization hupdates hsets

theorem materializeBlock_cases (hstores : storage.database.Stores inserted)
    (hco : Coherent storage.database storage.caches)
    (h : storage.materializeBlock block policy = .ok (storage', outcome)) :
    Coherent storage'.database storage'.caches ∧
    storage'.caches.vspcSink = storage.caches.vspcSink ∧
    ((∃ id coordinate, outcome = .alreadyMaterialized id coordinate ∧
        storage'.database = storage.database) ∨
      ∃ id row committed, outcome = .inserted committed ∧
        Insertion storage.database storage'.database block id row ∧
        Committed storage'.database block id row committed) := by
  unfold Storage.materializeBlock at h
  simp only [bind_eq_ok, pure_eq_ok] at h
  obtain ⟨prepared, hprep, daaScore, hdaa, ⟨database, success⟩, hattempt, heq⟩ := h
  rw [Prod.mk.injEq] at heq
  obtain ⟨rfl, rfl⟩ := heq
  obtain ⟨hupdates, hsets, hcases⟩ := materializeLoaded_eq_ok hstores (hco.agrees _) hprep
    (daaScoreToSql_eq_ok hdaa) hattempt
  exact ⟨hco.materialized hstores hupdates hsets hcases, publishMaterialization_vspcSink _ _, hcases⟩

end Materialize

theorem Insertion.chain {inserted : List ValidatedNodeBlock} {block : ValidatedNodeBlock}
    {id : CompactId} {row : BlockRow} {path : List CompactId}
    (h : Insertion database database' block id row) (hstores : database.Stores inserted)
    (hchain : database.VspcChain path) : database'.VspcChain path := by
  have hnone := h.get_eq_none hstores
  have hold : ∀ i ∈ path, database'.blocks[i]? = database.blocks[i]? := by
    intro i hi
    rw [h.get_blocks, if_neg]
    rintro rfl
    obtain ⟨row', hrow'⟩ := hchain.materialized id hi
    rw [hnone] at hrow'
    cases hrow'
  constructor
  case nonempty => exact hchain.nonempty
  case linked =>
    rw [← forall_mem_windows]
    intro pair hmem
    unfold Database.selectedParent
    rw [hold pair.1 (mem_of_mem_windows hmem).1]
    exact forall_mem_windows.mpr hchain.linked pair hmem
  case materialized =>
    intro i hi
    rw [hold i hi]
    exact hchain.materialized i hi
  case marked =>
    intro i row' hrow'
    rw [h.get_blocks] at hrow'
    split at hrow'
    . next heq =>
      cases hrow'
      subst heq
      rw [h.isInVspc]
      constructor
      . intro hfalse
        cases hfalse
      . intro hmem
        obtain ⟨row', hrow'⟩ := hchain.materialized id hmem
        rw [hnone] at hrow'
        cases hrow'
    . exact hchain.marked i row' hrow'
  case root =>
    intro i row' hlast hrow'
    rw [hold i (List.mem_of_getLast? hlast)] at hrow'
    obtain ⟨hash, hhash⟩ := hstores.selectedParent_identified hrow'
    exact (h.extends' hstores).get_eq_none hhash (hchain.root i row' hlast hrow')
  case score =>
    intro level levelRow hlevelRow
    rw [h.get_levels] at hlevelRow
    split at hlevelRow
    . next heq =>
      cases hlevelRow
      cases hlevel : database.levels[level]? with
      | none =>
        -- A level without a row holds no block of the chain.
        rw [heq, hlevel]
        constructor
        . intro i hi row' hrow' hat
          rw [hold i hi] at hrow'
          obtain ⟨levelRow, hlevelRow, -⟩ := (hstores.slots _ _).mp ⟨i, row', hrow', rfl, rfl⟩
          rw [hat, hlevel] at hlevelRow
          cases hlevelRow
        . intro _
          rfl
      | some levelRow =>
        rw [heq, hlevel]
        obtain ⟨hsome, habsent⟩ := hchain.score level levelRow hlevel
        constructor
        . intro i hi row' hrow' hat
          rw [hold i hi] at hrow'
          exact hsome i hi row' hrow' hat
        . intro hno
          apply habsent
          intro i hi row' hrow'
          rw [← hold i hi] at hrow'
          exact hno i hi row' hrow'
    . obtain ⟨hsome, habsent⟩ := hchain.score level levelRow hlevelRow
      constructor
      . intro i hi row' hrow' hat
        rw [hold i hi] at hrow'
        exact hsome i hi row' hrow' hat
      . intro hno
        apply habsent
        intro i hi row' hrow'
        rw [← hold i hi] at hrow'
        exact hno i hi row' hrow'

theorem Coherent.evict {database : Database} (h : Coherent database caches) (eviction : Eviction) :
    Coherent database (caches.evict eviction) := by
  constructor
  . intro hash identity hidentity
    exact h.identities hash identity (Map.get_of_get_foldl_erase hidentity)
  . intro id block hblock
    exact h.materializedBlocks id block (Map.get_of_get_foldl_erase hblock)
  . intro id sets hsets
    exact h.mergeSets id sets (Map.get_of_get_foldl_erase hsets)

section VspcCommit

variable {storage storage' : Storage} {inserted : List ValidatedNodeBlock} {path : List CompactId}
variable {change : ReadyVspcChange} {outcome : VspcCommitOutcome}

theorem applyVspcChange_eq_ok (h : storage.applyVspcChange change = .ok (storage', outcome)) :
    change.added ≠ [] ∧ ∃ success,
      vspcAttempt storage.database storage.caches change = .ok (storage'.database, success) ∧
      storage'.caches = storage.caches.publishVspc success ∧ outcome = success.outcome := by
  unfold Storage.applyVspcChange at h
  split at h
  . cases h
  . next hadded =>
    refine ⟨hadded, ?_⟩
    cases hattempt : vspcAttempt storage.database storage.caches change with
    | error e =>
      rw [hattempt] at h
      cases h
    | ok result =>
      rw [hattempt] at h
      cases h
      exact ⟨result.2, rfl, rfl, rfl⟩

theorem vspcAttempt_eq_ok {success : VspcAttemptSuccess} (hco : Coherent database caches)
    (h : vspcAttempt database caches change = .ok (database', success)) :
    (∀ id ∈ change.removed ++ change.added, ∃ row : BlockRow, database.blocks[id]? = some row) ∧
    applyValidatedChange database caches change
      (loadMembers database caches (distinctMemberIds change)) = .ok (database', success) := by
  unfold vspcAttempt at h
  rw [bind_eq_ok] at h
  obtain ⟨sink, -, h⟩ := h
  rw [bind_eq_ok] at h
  obtain ⟨-, -, h⟩ := h
  dsimp only at h
  split at h
  . cases h
  . next hfound =>
    rw [bind_eq_ok] at h
    obtain ⟨-, -, h⟩ := h
    rw [bind_eq_ok] at h
    obtain ⟨conflict, -, h⟩ := h
    cases conflict with
    | some ids =>
      rw [bind_eq_ok] at h
      obtain ⟨conflict, -, h⟩ := h
      cases h
    | none =>
      refine ⟨?_, h⟩
      intro id hid
      rw [List.find?_eq_none] at hfound
      have hloaded := hfound id hid
      rw [Bool.not_eq_true', Bool.not_eq_false, Map.contains_iff] at hloaded
      obtain ⟨block, hblock⟩ := hloaded
      rw [loadMembers_get hco, if_pos (by rwa [distinctMemberIds, mem_firstOccurrences]),
        Option.map_eq_some_iff] at hblock
      obtain ⟨row, hrow, _⟩ := hblock
      exact ⟨row, hrow⟩

theorem applyVspcChange_recolored (hstores : storage.database.Stores inserted)
    (hco : Coherent storage.database storage.caches)
    (h : storage.applyVspcChange change = .ok (storage', outcome)) :
    Recolored storage.database storage'.database ∧
    Coherent storage'.database storage'.caches ∧
    storage'.caches.vspcSink = some ⟨change.destination.id, change.destination.hash⟩ ∧
    outcome.destination = change.destination := by
  obtain ⟨-, success, hattempt, hcaches, rfl⟩ := applyVspcChange_eq_ok h
  obtain ⟨hrecolored, hdestination, hmembers, hsets⟩ := vspcAttempt_recolored hattempt
  refine ⟨hrecolored, ?_, ?_, hdestination⟩
  . rw [hcaches]
    apply (hco.of_extends hstores hrecolored.extends').publishVspc
    . intro update hmem
      rw [hrecolored.map_get_eq BlockRow.cached (fun _ => rfl)]
      exact hmembers update hmem
    . intro update hmem
      rw [hrecolored.map_get_eq BlockRow.mergeSets (fun _ => rfl)]
      exact hsets update hmem
  . rw [hcaches, ← hdestination]
    rfl

theorem applyVspcChange_transition (hstores : storage.database.Stores inserted)
    (hco : Coherent storage.database storage.caches)
    (hok : storage.applyVspcChange change = .ok (storage', outcome)) :
    Transition storage.database storage'.database change := by
  obtain ⟨hadded, success, hattempt, -, rfl⟩ := applyVspcChange_eq_ok hok
  obtain ⟨hmembers, hcommit⟩ := vspcAttempt_eq_ok hco hattempt
  obtain ⟨database', success', hcommit', htransition, -⟩ :=
    applyValidatedChange_of_scores hstores hco hmembers fun _ hremarked =>
      applyValidatedChange_scores hco hmembers (hstores.affectedLevels hmembers) hcommit hremarked
  rw [hcommit] at hcommit'
  cases hcommit'
  exact htransition

theorem applyVspcChange_accepts (h : storage.Consistent inserted path)
    (hpairs : ∀ pair ∈ storage.database.pathPairs change,
      storage.database.selectedParent pair.1 = some pair.2)
    (hok : storage.applyVspcChange change = .ok (storage', outcome)) :
    storage.database.Accepts path change := by
  obtain ⟨hadded, success, hattempt, -, rfl⟩ := applyVspcChange_eq_ok hok
  rw [vspcAttempt_eq h hadded] at hattempt
  split at hattempt
  . cases hattempt
  . next hviolation =>
    have hnamed : storage.database.Named path change := by
      by_contra hnamed
      exact (Database.violationOf_of_not_named hnamed _ []).2 hviolation
    exact ⟨hadded, hnamed.source.1, hnamed.members, hnamed.removedHead, hpairs⟩

end VspcCommit

section Consistent

variable {storage storage' : Storage} {inserted : List ValidatedNodeBlock} {path : List CompactId}

def Database.ReachesDestination (database : Database) (change : ReadyVspcChange) : Prop :=
  change.added.getLast? = some change.destination.id ∧
    database.identifiers.ids[change.destination.hash]? = some change.destination.id

theorem Database.transition_head {change : ReadyVspcChange} {last : CompactId}
    (h : change.added.getLast? = some last) : (Database.transition path change).head? = some last := by
  unfold Database.transition
  rw [List.head?_append, List.head?_reverse, h]
  rfl

theorem Storage.Consistent.applyVspc (h : storage.Consistent inserted path)
    {change : ReadyVspcChange} {outcome : VspcCommitOutcome}
    (hpairs : ∀ pair ∈ storage.database.pathPairs change,
      storage.database.selectedParent pair.1 = some pair.2)
    (hdestination : storage.database.ReachesDestination change)
    (hok : storage.applyVspcChange change = .ok (storage', outcome)) :
    storage'.Consistent inserted (Database.transition path change) := by
  have haccepts := applyVspcChange_accepts h hpairs hok
  have htransition := applyVspcChange_transition h.stores h.coherent hok
  obtain ⟨hrecolored, hco, hsink, -⟩ := applyVspcChange_recolored h.stores h.coherent hok
  refine ⟨hrecolored.stores h.stores, hco, htransition.chain h.stores h.chain haccepts, ?_⟩
  intro sink hcached
  rw [hsink, Option.some.injEq] at hcached
  subst hcached
  refine ⟨Database.transition_head hdestination.1, ?_⟩
  rw [hrecolored.ids]
  exact hdestination.2

end Consistent

end Kgi
