import GraphInspector.Storage.Lemmas.Rebuild
import Mathlib.Data.List.Find

/-!
Which VSPC changes commit. The intended answer is `Database.violation`, the first condition a change
violates.
-/

namespace Kgi

open Data

variable {pair : CompactId × CompactId}

namespace Database

def StartsAtSink (database : Database) (path : List CompactId) (change : ReadyVspcChange) : Prop :=
  path.head? = some change.source.id ∧
    database.identifiers.ids[change.source.hash]? = some change.source.id

instance (database : Database) (path : List CompactId) (change : ReadyVspcChange) :
    Decidable (database.StartsAtSink path change) :=
  inferInstanceAs (Decidable (_ ∧ _))

def hashOf (database : Database) (id : CompactId) : BlockHash :=
  (database.identifiers.keys[id]?).getD 0

/--
The first condition a change violates, when `pairs` are the pairs of a child and its expected parent
that are compared with the stored selected parents.
-/
def violationOf (database : Database) (path : List CompactId) (change : ReadyVspcChange)
    (pairs : List (CompactId × CompactId)) : Option VspcSemanticError :=
  if ¬ database.StartsAtSink path change then
    some .sourceDiscontinuity
  else
    match (change.removed ++ change.added).find? fun id => !database.blocks.contains id with
    | some id => some (.memberNotMaterialized id)
    | none =>
      if ¬ ∀ id ∈ change.removed.head?, id = change.source.id then
        some .sourceDiscontinuity
      else
        (pairs.findSome? database.conflict).map fun ids =>
          .pathDiscontinuity
            ⟨database.hashOf ids.child, database.hashOf ids.expectedParent,
              database.hashOf ids.storedParent⟩

def violation (database : Database) (path : List CompactId) (change : ReadyVspcChange) :
    Option VspcSemanticError :=
  database.violationOf path change (database.pathPairs change)

def checkedPairs (database : Database) (change : ReadyVspcChange) : List (CompactId × CompactId) :=
  if change.removed = [] then
    (change.added.head?.map fun first => (first, change.source.id)).toList
  else
    database.pathPairs change

section Violation

variable {database : Database} {path : List CompactId} {change : ReadyVspcChange}

theorem find_missing_eq_none (ids : List CompactId) :
    ids.find? (fun id => !database.blocks.contains id) = none ↔
      ∀ id ∈ ids, ∃ row : BlockRow, database.blocks[id]? = some row := by
  rw [List.find?_eq_none]
  apply forall_congr'
  intro id
  apply imp_congr_right
  intro _
  rw [← Map.contains_iff]
  simp

structure Named (database : Database) (path : List CompactId) (change : ReadyVspcChange) : Prop where
  source : database.StartsAtSink path change
  members : ∀ id ∈ change.removed ++ change.added, ∃ row : BlockRow, database.blocks[id]? = some row
  removedHead : ∀ id ∈ change.removed.head?, id = change.source.id

theorem violationOf_of_named (h : database.Named path change) (pairs : List (CompactId × CompactId)) :
    database.violationOf path change pairs =
      (pairs.findSome? database.conflict).map fun ids =>
        .pathDiscontinuity
          ⟨database.hashOf ids.child, database.hashOf ids.expectedParent,
            database.hashOf ids.storedParent⟩ := by
  unfold violationOf
  rw [if_neg (not_not.mpr h.source), (find_missing_eq_none _).mpr h.members]
  rw [if_neg (not_not.mpr h.removedHead)]

theorem violationOf_of_not_named (h : ¬ database.Named path change)
    (pairs pairs' : List (CompactId × CompactId)) :
    database.violationOf path change pairs = database.violationOf path change pairs' ∧
      database.violationOf path change pairs ≠ none := by
  unfold violationOf
  by_cases hsource : database.StartsAtSink path change
  . rw [if_neg (not_not.mpr hsource), if_neg (not_not.mpr hsource)]
    cases hfind : (change.removed ++ change.added).find? fun id => !database.blocks.contains id with
    | some id => simp
    | none =>
      by_cases hhead : ∀ id ∈ change.removed.head?, id = change.source.id
      . exact absurd ⟨hsource, (find_missing_eq_none _).mp hfind, hhead⟩ h
      . dsimp only
        rw [if_pos hhead, if_pos hhead]
        simp
  . simp [hsource]

theorem mem_pathPairs_materialized (hmembers : ∀ id ∈ change.removed ++ change.added, ∃ row : BlockRow,
      database.blocks[id]? = some row) (hmem : pair ∈ database.pathPairs change) :
    ∃ row : BlockRow, database.blocks[pair.1]? = some row := by
  apply hmembers
  unfold pathPairs at hmem
  rw [List.mem_append, List.mem_append] at hmem
  rw [List.mem_append]
  obtain hmem | hmem | hmem := hmem
  . exact Or.inl (mem_of_mem_windows hmem).1
  . rw [Option.mem_toList, Option.bind_eq_some_iff] at hmem
    obtain ⟨first, hfirst, hmem⟩ := hmem
    rw [Option.map_eq_some_iff] at hmem
    obtain ⟨pivot, -, rfl⟩ := hmem
    exact Or.inr (List.mem_of_mem_head? hfirst)
  . rw [List.mem_map] at hmem
    obtain ⟨pair', hmem, rfl⟩ := hmem
    exact Or.inr (mem_of_mem_windows hmem).2

theorem violation_eq_none (hadded : change.added ≠ []) :
    database.violation path change = none ↔
      database.Accepts path change ∧
        database.identifiers.ids[change.source.hash]? = some change.source.id := by
  unfold violation
  by_cases hnamed : database.Named path change
  . rw [violationOf_of_named hnamed, Option.map_eq_none_iff, List.findSome?_eq_none_iff]
    have hpair : ∀ pair ∈ database.pathPairs change, (database.conflict pair = none ↔
        database.selectedParent pair.1 = some pair.2) := by
      intro pair hmem
      obtain ⟨row, hrow⟩ := mem_pathPairs_materialized hnamed.members hmem
      exact conflict_eq_none pair hrow
    constructor
    . intro h
      refine ⟨⟨hadded, hnamed.source.1, hnamed.members, hnamed.removedHead, ?_⟩, hnamed.source.2⟩
      intro pair hmem
      exact (hpair pair hmem).mp (h pair hmem)
    . rintro ⟨haccepts, -⟩ pair hmem
      exact (hpair pair hmem).mpr (haccepts.pairs pair hmem)
  . constructor
    . intro h
      exact absurd h (violationOf_of_not_named hnamed _ []).2
    . rintro ⟨haccepts, hhash⟩
      exact absurd ⟨⟨haccepts.source, hhash⟩, haccepts.members, haccepts.removedHead⟩ hnamed

theorem pathPairs_of_removed_nil (h : change.removed = []) :
    database.pathPairs change
      =
    database.checkedPairs change ++ (windows change.added).map Prod.swap := by
  unfold pathPairs checkedPairs pivot
  rw [if_pos h, h]
  cases change.added.head? with
  | none => rfl
  | some first => rfl

theorem mem_pathPairs_identified {inserted : List ValidatedNodeBlock}
    (hstores : database.Stores inserted) (hnamed : database.Named path change)
    (hmem : pair ∈ database.pathPairs change) :
    ∃ hash : BlockHash, database.identifiers.ids[hash]? = some pair.2 := by
  have hmember : ∀ id ∈ change.removed ++ change.added, ∃ hash : BlockHash,
      database.identifiers.ids[hash]? = some id := by
    intro id hid
    obtain ⟨row, hrow⟩ := hnamed.members id hid
    exact hstores.identified hrow
  unfold pathPairs at hmem
  rw [List.mem_append, List.mem_append] at hmem
  obtain hmem | hmem | hmem := hmem
  . exact hmember _ (List.mem_append_left _ (mem_of_mem_windows hmem).2)
  . rw [Option.mem_toList, Option.bind_eq_some_iff] at hmem
    obtain ⟨first, -, hmem⟩ := hmem
    rw [Option.map_eq_some_iff] at hmem
    obtain ⟨pivot, hpivot, rfl⟩ := hmem
    unfold Database.pivot at hpivot
    split at hpivot
    . cases hpivot
      exact ⟨change.source.hash, hnamed.source.2⟩
    . obtain ⟨row, hrow, rfl⟩ := selectedParent_eq_some hpivot
      exact hstores.selectedParent_identified hrow
  . rw [List.mem_map] at hmem
    obtain ⟨pair', hmem, rfl⟩ := hmem
    exact hmember _ (List.mem_append_right _ (mem_of_mem_windows hmem).1)

end Violation

end Database

section Attempt

variable {storage : Storage} {inserted : List ValidatedNodeBlock} {path : List CompactId}
  {database : Database}
variable {change : ReadyVspcChange}

theorem loadCurrentSink_eq_ok (h : storage.Consistent inserted path) :
    ∃ sink hash, path.head? = some sink ∧
      storage.database.identifiers.ids[hash]? = some sink ∧
      loadCurrentSink storage.database storage.caches = .ok (sink, hash) := by
  unfold loadCurrentSink
  split
  . next sink hsink =>
    obtain ⟨hhead, hhash⟩ := h.sink sink hsink
    exact ⟨sink.id, sink.hash, hhead, hhash, rfl⟩
  . have hhead := List.head?_eq_some_head h.chain.nonempty
    obtain ⟨row, hrow⟩ := h.chain.materialized _ (List.mem_of_mem_head? hhead)
    obtain ⟨hash, hhash⟩ := h.stores.identified hrow
    refine ⟨_, hash, hhead, hhash, ?_⟩
    rw [h.chain.queryVspcSink_eq h.stores hhead hhash]
    rfl

theorem startsAtSink_iff {sink : CompactId} {hash : BlockHash} (hhead : path.head? = some sink)
    (hhash : database.identifiers.ids[hash]? = some sink) :
    (sink, hash) = (change.source.id, change.source.hash) ↔ database.StartsAtSink path change := by
  constructor
  . intro heq
    rw [Prod.mk.injEq] at heq
    obtain ⟨rfl, rfl⟩ := heq
    exact ⟨hhead, hhash⟩
  . rintro ⟨hsource, hid⟩
    rw [hhead, Option.some.injEq] at hsource
    subst hsource
    rw [database.identifiers.ids_injective hhash hid]

theorem resolvePathConflict_eq_ok (ids : VspcPathConflictIds)
    {child expectedParent storedParent : BlockHash}
    (hchild : database.identifiers.ids[child]? = some ids.child)
    (hexpected : database.identifiers.ids[expectedParent]? = some ids.expectedParent)
    (hstored : database.identifiers.ids[storedParent]? = some ids.storedParent) :
    resolvePathConflict database ids =
      .ok ⟨database.hashOf ids.child, database.hashOf ids.expectedParent,
        database.hashOf ids.storedParent⟩ := by
  rw [database.identifiers.inverse] at hchild hexpected hstored
  unfold resolvePathConflict Database.hashOf
  dsimp only
  rw [hchild, hexpected, hstored]
  rfl

theorem membersLoaded (h : storage.Consistent inserted path)
    (hnamed : storage.database.Named path change) :
    MembersLoaded storage.database (change.removed ++ change.added)
      (loadMembers storage.database storage.caches (distinctMemberIds change)).1 := by
  intro id hid
  obtain ⟨row, hrow⟩ := hnamed.members id hid
  refine ⟨row, hrow, ?_⟩
  rw [loadMembers_get h.coherent, distinctMemberIds, if_pos ((mem_firstOccurrences _ _).mpr hid), hrow]
  rfl

theorem firstPathConflict_eq_ok (h : storage.Consistent inserted path)
    (hnamed : storage.database.Named path change) (hadded : change.added ≠ []) :
    firstPathConflict change
        (loadMembers storage.database storage.caches (distinctMemberIds change)).1
      = .ok ((storage.database.checkedPairs change).findSome? storage.database.conflict) := by
  have hloaded := membersLoaded h hnamed
  unfold Database.checkedPairs
  split
  . next hremoved =>
    have hfirst := List.head?_eq_some_head hadded
    rw [firstPathConflict_of_removed_nil hloaded hremoved hfirst, hfirst]
    simp only [Option.map_some, Option.toList_some, List.findSome?_cons, List.findSome?_nil]
    split
    . next heq => rw [heq]
    . next heq => rw [heq]
  . next hremoved => exact firstPathConflict_of_removed_ne_nil hloaded hremoved hadded

theorem mem_pathPairs_of_checked (hmem : pair ∈ database.checkedPairs change) :
    pair ∈ database.pathPairs change := by
  by_cases hremoved : change.removed = []
  . rw [Database.pathPairs_of_removed_nil hremoved]
    exact List.mem_append_left _ hmem
  . unfold Database.checkedPairs at hmem
    rw [if_neg hremoved] at hmem
    exact hmem

theorem vspcAttempt_eq (h : storage.Consistent inserted path) (hadded : change.added ≠ []) :
    vspcAttempt storage.database storage.caches change
      =
    match storage.database.violationOf path change (storage.database.checkedPairs change) with
    | some error => .error (.semantic error)
    | none => applyValidatedChange storage.database storage.caches change
        (loadMembers storage.database storage.caches (distinctMemberIds change)) := by
  obtain ⟨sink, hash, hhead, hhash, hsink⟩ := loadCurrentSink_eq_ok h
  have hcontains : ∀ id ∈ change.removed ++ change.added,
      (!(loadMembers storage.database storage.caches (distinctMemberIds change)).1.contains id)
        = !storage.database.blocks.contains id := by
    intro id hid
    congr 1
    rw [Bool.eq_iff_iff, Map.contains_iff, Map.contains_iff]
    rw [loadMembers_get h.coherent, distinctMemberIds, if_pos ((mem_firstOccurrences _ _).mpr hid)]
    simp
  unfold vspcAttempt
  rw [hsink]
  simp only [bind, Except.bind, ensure, startsAtSink_iff hhead hhash]
  by_cases hsource : storage.database.StartsAtSink path change
  . rw [if_pos hsource]
    rw [List.find?_congr hcontains]
    by_cases hnamed : storage.database.Named path change
    . rw [Database.violationOf_of_named hnamed,
        (Database.find_missing_eq_none _).mpr hnamed.members]
      rw [if_pos hnamed.removedHead]
      rw [firstPathConflict_eq_ok h hnamed hadded]
      cases hconflict : (storage.database.checkedPairs change).findSome? storage.database.conflict with
      | none => rfl
      | some ids =>
        obtain ⟨pair, hmem, hpair⟩ := List.exists_of_findSome?_eq_some hconflict
        have hmem' := mem_pathPairs_of_checked hmem
        obtain ⟨row, hrow⟩ := Database.mem_pathPairs_materialized hnamed.members hmem'
        obtain ⟨child, hchild⟩ := h.stores.identified hrow
        obtain ⟨expected, hexpected⟩ := Database.mem_pathPairs_identified h.stores hnamed hmem'
        obtain ⟨stored, hstored⟩ := h.stores.selectedParent_identified hrow
        unfold Database.conflict Database.selectedParent at hpair
        rw [hrow, Option.map_some] at hpair
        dsimp only at hpair
        split at hpair
        . cases hpair
          dsimp only
          rw [resolvePathConflict_eq_ok ⟨pair.1, pair.2, row.selectedParentId⟩ hchild hexpected
            hstored]
          rfl
        . cases hpair
    . unfold Database.violationOf
      rw [if_neg (not_not.mpr hsource)]
      cases hfind : (change.removed ++ change.added).find?
          fun id => !storage.database.blocks.contains id with
      | some id => rfl
      | none =>
        have hhead' : ¬ ∀ id ∈ change.removed.head?, id = change.source.id := by
          intro hhead'
          exact hnamed ⟨hsource, (Database.find_missing_eq_none _).mp hfind, hhead'⟩
        rw [if_neg hhead', if_pos hhead']
  . unfold Database.violationOf
    rw [if_neg hsource, if_pos hsource]

end Attempt

def WithoutSemantic {S α : Type} (x : Except (TransactionAttemptError S) α) : Prop :=
  ∀ error, x ≠ .error (.semantic error)

namespace WithoutSemantic

variable {S α β : Type} {f : α → Except (TransactionAttemptError S) β}

theorem bind {x : Except (TransactionAttemptError S) α} (hx : WithoutSemantic x)
    (hf : ∀ a, WithoutSemantic (f a)) : WithoutSemantic (x >>= f) := by
  intro error h
  cases x with
  | error e =>
    injection h with heq
    exact hx error (by rw [heq])
  | ok a => exact hf a error h

theorem pure (a : α) : WithoutSemantic (Pure.pure a : Except (TransactionAttemptError S) α) := by
  intro error h
  cases h

theorem expect (value : Option α) (message : String) :
    WithoutSemantic (Kgi.expect (S := S) value message) := by
  intro error h
  cases value with
  | none => cases h
  | some a => cases h

theorem orError_storage (value : Option α) (e : StorageError) :
    WithoutSemantic (orError value (TransactionAttemptError.storage (S := S) e)) := by
  intro error h
  cases value with
  | none => cases h
  | some a => cases h

theorem mapM (hf : ∀ a, WithoutSemantic (f a)) (l : List α) : WithoutSemantic (l.mapM f) := by
  induction l with
  | nil => exact pure []
  | cons a l ih =>
    rw [List.mapM_cons]
    exact (hf a).bind fun b => ih.bind fun r => pure (b :: r)

end WithoutSemantic

theorem applyValidatedChange_withoutSemantic (database : Database) (caches : ProcessingCacheDomains)
    (change : ReadyVspcChange)
    (loaded : Map CompactId CachedMaterializedBlock × List (CompactId × CachedMaterializedBlock)) :
    WithoutSemantic (applyValidatedChange database caches change loaded) := by
  have hensure : ∀ (condition : Prop) [Decidable condition] (e : StorageError),
      WithoutSemantic (ensure condition (TransactionAttemptError.storage (S := VspcSemanticError) e)) := by
    intro condition _ e error h
    unfold ensure at h
    split at h
    . cases h
    . cases h
  have hscore : ∀ blocks level, WithoutSemantic (vspcScore blocks level) := by
    intro blocks level error h
    unfold vspcScore at h
    split at h
    . cases h
    . cases h
    . cases h
  apply WithoutSemantic.bind
  . exact (hensure _ _).bind fun _ => .pure _
  . intro sets
    apply WithoutSemantic.bind
    . exact (WithoutSemantic.mapM (fun id => .expect _ _) _).bind fun _ => .pure _
    . intro blocks
      apply WithoutSemantic.bind
      . exact WithoutSemantic.mapM (fun id => .expect _ _) _
      . intro affected
        apply WithoutSemantic.bind
        . apply WithoutSemantic.bind
          . exact WithoutSemantic.mapM (fun level => (hscore _ level).bind fun _ => .pure _) _
          . intro updates
            apply WithoutSemantic.bind
            . exact WithoutSemantic.mapM (fun level => .orError_storage _ _) _
            . intro snapshots
              exact .pure _
        . intro levels
          exact .pure _

/--
A change that removes nothing, hangs its first added block on the sink, and has a later added block
whose stored selected parent is not the block before it.
-/
structure UncheckedAddedPair (database : Database) (path : List CompactId)
    (change : ReadyVspcChange) : Prop where
  removed : change.removed = []
  source : database.StartsAtSink path change
  members : ∀ id ∈ change.added, ∃ row : BlockRow, database.blocks[id]? = some row
  first : ∀ id ∈ change.added.head?, database.selectedParent id = some change.source.id
  broken : ∃ pair ∈ windows change.added, database.selectedParent pair.2 ≠ some pair.1

/--
A change commits exactly when it violates no condition, and otherwise reports the first violated one
and changes nothing.
-/
structure Conforms (storage : Storage) (path : List CompactId) (change : ReadyVspcChange) : Prop where
  commits : (∃ storage' outcome, storage.applyVspcChange change = .ok (storage', outcome)) ↔
    storage.database.Accepts path change ∧
      storage.database.identifiers.ids[change.source.hash]? = some change.source.id
  reports : ∀ error, storage.database.violation path change = some error →
    storage.applyVspcChange change = .error (.failed (.semantic error)) ∧
    storage.step (.applyVspc change) = storage

section Conforms

variable {storage : Storage} {inserted : List ValidatedNodeBlock} {path : List CompactId}
variable {change : ReadyVspcChange}

theorem applyVspcChange_eq (storage : Storage) (hadded : change.added ≠ []) :
    storage.applyVspcChange change
      =
    match vspcAttempt storage.database storage.caches change with
    | .error error => .error (.failed error)
    | .ok (database, success) =>
      .ok (⟨database, storage.caches.publishVspc success⟩, success.outcome) := by
  exact if_neg hadded

theorem violationOf_checked
    (h : ¬ UncheckedAddedPair storage.database path change) :
    storage.database.violationOf path change (storage.database.checkedPairs change)
      = storage.database.violation path change := by
  unfold Database.violation
  by_cases hnamed : storage.database.Named path change
  . rw [Database.violationOf_of_named hnamed, Database.violationOf_of_named hnamed]
    congr 1
    by_cases hremoved : change.removed = []
    . rw [Database.pathPairs_of_removed_nil hremoved, List.findSome?_append]
      cases hfirst : (storage.database.checkedPairs change).findSome? storage.database.conflict with
      | some ids => rfl
      | none =>
        rw [Option.none_or, eq_comm, List.findSome?_eq_none_iff]
        intro pair hmem
        rw [List.mem_map] at hmem
        obtain ⟨pair, hmem, rfl⟩ := hmem
        have hmember := hnamed.members pair.2
          (List.mem_append_right _ (mem_of_mem_windows hmem).2)
        obtain ⟨row, hrow⟩ := hmember
        by_contra hconflict
        apply h
        refine ⟨hremoved, hnamed.source, ?_, ?_, pair, hmem, ?_⟩
        . intro id hid
          exact hnamed.members id (List.mem_append_right _ hid)
        . intro id hid
          obtain ⟨row', hrow'⟩ := hnamed.members id
            (List.mem_append_right _ (List.mem_of_mem_head? hid))
          refine (Database.conflict_eq_none (id, change.source.id) hrow').mp ?_
          rw [List.findSome?_eq_none_iff] at hfirst
          apply hfirst
          unfold Database.checkedPairs
          rw [if_pos hremoved, hid]
          simp
        . intro heq
          exact hconflict ((Database.conflict_eq_none pair.swap hrow).mpr heq)
    . unfold Database.checkedPairs
      rw [if_neg hremoved]
  . exact (Database.violationOf_of_not_named hnamed _ _).1

theorem UncheckedAddedPair.violation (h : UncheckedAddedPair storage.database path change) :
    storage.database.violationOf path change (storage.database.checkedPairs change) = none ∧
      storage.database.violation path change ≠ none := by
  have hadded : change.added ≠ [] := by
    rintro hnil
    obtain ⟨pair, hmem, -⟩ := h.broken
    rw [hnil] at hmem
    cases hmem
  have hnamed : storage.database.Named path change := by
    refine ⟨h.source, ?_, ?_⟩
    . rw [h.removed]
      exact h.members
    . rw [h.removed]
      intro id hid
      cases hid
  constructor
  . rw [Database.violationOf_of_named hnamed, Option.map_eq_none_iff, List.findSome?_eq_none_iff]
    intro pair hmem
    unfold Database.checkedPairs at hmem
    rw [if_pos h.removed, Option.mem_toList, Option.map_eq_some_iff] at hmem
    obtain ⟨first, hfirst, rfl⟩ := hmem
    obtain ⟨row, hrow⟩ := h.members first (List.mem_of_mem_head? hfirst)
    exact (Database.conflict_eq_none (first, change.source.id) hrow).mpr
      (h.first first hfirst)
  . rw [Ne, Database.violation_eq_none hadded]
    rintro ⟨haccepts, -⟩
    obtain ⟨pair, hmem, hbroken⟩ := h.broken
    apply hbroken
    apply haccepts.pairs pair.swap
    unfold Database.pathPairs
    simp [hmem]

end Conforms

end Kgi
