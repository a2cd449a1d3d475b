import GraphInspector.Processing.Impl.Orphan

/-!
What one message does to the orphan topology.
-/

namespace Kgi

open Data

namespace OrphanTopology

structure Inv (topology : OrphanTopology) : Prop where
  own : ∀ (hash : BlockHash) (entry : OrphanEntry),
    topology.orphans[hash]? = some entry → entry.block.hash = hash
  waiting : ∀ (hash : BlockHash) (entry : OrphanEntry),
    topology.orphans[hash]? = some entry → ∃ dependency, dependency ∈ entry.missing
  inverse : ∀ dependency hash, topology.dependents.Holds dependency hash ↔
    ∃ entry, topology.orphans[hash]? = some entry ∧ dependency ∈ entry.missing
  noEmpty : topology.dependents.NoEmpty

theorem Inv.empty : Inv empty where
  own := by simp [OrphanTopology.empty]
  waiting := by simp [OrphanTopology.empty]
  inverse := by
    intro dependency hash
    simp [OrphanTopology.empty, Multimap.not_holds_empty]
  noEmpty := Multimap.noEmpty_empty

section RemoveUnneededPending

variable (topology : OrphanTopology)

@[simp]
theorem mem_foldl_erase (l : List BlockHash) (s : KeySet BlockHash) (hash : BlockHash) :
    hash ∈ l.foldl (fun s a => s.erase a) s ↔ hash ∉ l ∧ hash ∈ s := by
  induction l generalizing s with
  | nil => simp
  | cons a l ih =>
    rw [List.foldl_cons, ih, KeySet.mem_erase]
    simp only [List.mem_cons, not_or]
    constructor
    . rintro ⟨h1, h2, h3⟩
      exact ⟨⟨fun h => h2 h.symm, h1⟩, h3⟩
    . rintro ⟨⟨h2, h1⟩, h3⟩
      exact ⟨h1, fun h => h2 h.symm, h3⟩

theorem mem_removeUnneededPending_snd (hash : BlockHash) :
    hash ∈ topology.removeUnneededPending.2
      ↔
    hash ∈ topology.resolutionPending ∧ topology.dependents.contains hash = false := by
  simp [removeUnneededPending, List.mem_filter, Std.ExtTreeSet.mem_toList]

theorem mem_removeUnneededPending_resolutionPending (hash : BlockHash) :
    hash ∈ topology.removeUnneededPending.1.resolutionPending
      ↔
    hash ∈ topology.resolutionPending ∧ hash ∉ topology.removeUnneededPending.2 := by
  have h := mem_foldl_erase topology.removeUnneededPending.2 topology.resolutionPending hash
  rw [and_comm]
  exact h

theorem nodup_removeUnneededPending_snd : topology.removeUnneededPending.2.Nodup := by
  exact (KeySet.nodup_toList topology.resolutionPending).filter _

end RemoveUnneededPending

section AddOrphan

variable {topology topology' : OrphanTopology} {block : ValidatedNodeBlock}
variable {missing : List BlockHash} {mutation : TopologyMutation}

theorem addOrphan_refused {error : TopologyError}
    (h : topology.addOrphan block missing = (topology', .error error)) : topology' = topology := by
  unfold addOrphan at h
  split at h
  . cases h
  . split at h
    . cases h
      rfl
    . dsimp only at h
      split at h
      . cases h
        rfl
      . cases h

theorem addOrphan_orphans (h : topology.addOrphan block missing = (topology', .ok mutation)) :
    (topology.orphans.contains block.hash = true ∧ topology' = topology ∧ mutation = .default)
      ∨
    (topology.orphans[block.hash]? = none ∧ missing ≠ [] ∧
      topology'.orphans = topology.orphans.insert block.hash ⟨block, KeySet.ofElems missing⟩ ∧
      topology'.dependents = (KeySet.ofElems missing).toList.foldl
        (fun dependents dependency => dependents.add dependency block.hash) topology.dependents ∧
      mutation.ready = []) := by
  unfold addOrphan at h
  split at h
  . next hc =>
    cases h
    exact Or.inl ⟨hc, rfl, rfl⟩
  . next hc =>
    split at h
    . cases h
    . dsimp only at h
      split at h
      . cases h
      . next hne =>
        cases h
        right
        refine ⟨?_, ?_, rfl, rfl, rfl⟩
        . rw [Bool.not_eq_true] at hc
          cases hb : topology.orphans[block.hash]? with
          | none => rfl
          | some e =>
            have := (Map.contains_iff topology.orphans block.hash).mpr ⟨e, hb⟩
            rw [hc] at this
            cases this
        . rintro rfl
          apply hne
          rw [KeySet.isEmpty_iff_forall]
          intro a
          rw [KeySet.mem_ofElems]
          simp

theorem Inv.addOrphan (hinv : topology.Inv)
    (h : topology.addOrphan block missing = (topology', .ok mutation)) : topology'.Inv := by
  obtain ⟨-, rfl, -⟩ | ⟨hnew, hne, horphans, hdependents, -⟩ := addOrphan_orphans h
  . exact hinv
  . constructor
    . intro hash entry he
      rw [horphans, Map.get_insert] at he
      split at he
      . next heq =>
        cases he
        exact heq
      . exact hinv.own hash entry he
    . intro hash entry he
      rw [horphans, Map.get_insert] at he
      split at he
      . cases he
        obtain ⟨a, ha⟩ := List.exists_mem_of_ne_nil missing hne
        exact ⟨a, by rw [KeySet.mem_ofElems]; exact ha⟩
      . exact hinv.waiting hash entry he
    . intro dependency hash
      rw [hdependents, Multimap.holds_foldl_add _ (fun a => a) (fun _ => block.hash), horphans,
        Map.get_insert, hinv.inverse]
      by_cases heq : block.hash = hash
      . subst heq
        simp [hnew, Std.ExtTreeSet.mem_toList]
      . simp [heq]
    . rw [hdependents]
      exact Multimap.noEmpty_foldl_add _ (fun a => a) (fun _ => block.hash) hinv.noEmpty

theorem addOrphan_cancel (h : topology.addOrphan block missing = (topology', .ok mutation)) :
    (∀ hash, hash ∈ mutation.cancel ↔
      hash ∈ topology.resolutionPending ∧ hash ∉ topology'.resolutionPending) ∧
    (∀ hash, hash ∈ topology'.resolutionPending → hash ∈ topology.resolutionPending) ∧
    mutation.cancel.Nodup := by
  unfold addOrphan at h
  split at h
  . cases h
    simp [TopologyMutation.default]
  . split at h
    . cases h
    . dsimp only at h
      split at h
      . cases h
      . cases h
        generalize hadm : OrphanTopology.mk _ _ _ _ = admitted
        have hpend : admitted.resolutionPending = topology.resolutionPending.erase block.hash := by
          rw [← hadm]
        refine ⟨?_, ?_, ?_⟩
        . intro hash
          rw [List.mem_append, mem_removeUnneededPending_resolutionPending,
            mem_removeUnneededPending_snd, hpend, KeySet.mem_erase]
          by_cases heq : block.hash = hash
          . subst heq
            by_cases hp : block.hash ∈ topology.resolutionPending
            . simp [hp]
            . simp [hp]
          . have hown : hash ∉ (if topology.resolutionPending.contains block.hash then
                [block.hash] else []) := by
              split
              . simp [Ne.symm heq]
              . simp
            simp only [hown, heq, false_or, ne_eq, not_false_eq_true, true_and]
            tauto
        . intro hash hmem
          rw [mem_removeUnneededPending_resolutionPending, hpend, KeySet.mem_erase] at hmem
          exact hmem.1.2
        . rw [List.nodup_append]
          refine ⟨?_, nodup_removeUnneededPending_snd admitted, ?_⟩
          . split <;> simp
          . intro a ha b hb heq
            rw [mem_removeUnneededPending_snd, hpend, KeySet.mem_erase] at hb
            split at ha
            . simp only [List.mem_singleton] at ha
              exact hb.1.1 (by rw [← ha, heq])
            . cases ha

end AddOrphan

section BlockPersisted

def advance (hash : BlockHash) (entry : OrphanEntry) : Option OrphanEntry :=
  let missing := entry.missing.erase hash
  if missing.isEmpty then none else some { entry with missing := missing }

def release (hash : BlockHash) (entry : OrphanEntry) : Option ValidatedNodeBlock :=
  if (entry.missing.erase hash).isEmpty then some entry.block else none

section ResolveMissing

variable (hash orphanHash : BlockHash) (orphans : Map BlockHash OrphanEntry)
variable (ready : List ValidatedNodeBlock)

theorem resolveMissing_eq (a : BlockHash) :
    (resolveMissing hash (orphans, ready) orphanHash).1[a]?
      =
    if orphanHash = a then orphans[a]?.bind (advance hash) else orphans[a]? := by
  unfold resolveMissing advance
  cases he : orphans[orphanHash]? with
  | none =>
    by_cases h : orphanHash = a
    . subst h
      simp [he]
    . simp [h]
  | some entry =>
    dsimp only
    split
    . next hempty =>
      rw [Map.get_erase]
      by_cases h : orphanHash = a
      . subst h
        rw [if_pos rfl, if_pos rfl, he, Option.bind_some, if_pos hempty]
      . simp [h]
    . next hempty =>
      rw [Map.get_insert]
      by_cases h : orphanHash = a
      . subst h
        rw [if_pos rfl, if_pos rfl, he, Option.bind_some, if_neg hempty]
      . simp [h]

theorem resolveMissing_snd :
    (resolveMissing hash (orphans, ready) orphanHash).2
      =
    ready ++ (orphans[orphanHash]?.bind (release hash)).toList := by
  unfold resolveMissing release
  cases he : orphans[orphanHash]? with
  | none => simp
  | some entry =>
    dsimp only [Option.bind_some]
    split <;> simp

end ResolveMissing

theorem foldl_resolveMissing (hash : BlockHash) (affected : List BlockHash)
    (orphans : Map BlockHash OrphanEntry) (ready : List ValidatedNodeBlock)
    (hnodup : affected.Nodup) :
    (∀ a : BlockHash, (affected.foldl (resolveMissing hash) (orphans, ready)).1[a]?
      =
    if a ∈ affected then orphans[a]?.bind (advance hash) else orphans[a]?) ∧
    (affected.foldl (resolveMissing hash) (orphans, ready)).2
      =
    ready ++ affected.filterMap (fun a => orphans[a]?.bind (release hash)) := by
  induction affected generalizing orphans ready with
  | nil => simp
  | cons b affected ih =>
    rw [List.nodup_cons] at hnodup
    obtain ⟨hb, hnodup⟩ := hnodup
    rw [List.foldl_cons]
    generalize hstate : resolveMissing hash (orphans, ready) b = state
    obtain ⟨orphans', ready'⟩ := state
    have horphans : ∀ a : BlockHash, orphans'[a]?
        = if b = a then orphans[a]?.bind (advance hash) else orphans[a]? := by
      intro a
      have := resolveMissing_eq hash b orphans ready a
      rwa [hstate] at this
    have hready : ready' = ready ++ (orphans[b]?.bind (release hash)).toList := by
      have := resolveMissing_snd hash b orphans ready
      rwa [hstate] at this
    obtain ⟨ih1, ih2⟩ := ih orphans' ready' hnodup
    constructor
    . intro a
      rw [ih1 a, horphans a]
      by_cases heq : b = a
      . subst heq
        simp [hb]
      . simp [heq, Ne.symm heq]
    . rw [ih2, hready, List.append_assoc]
      congr 1
      have hcongr : affected.filterMap (fun a => orphans'[a]?.bind (release hash))
          = affected.filterMap (fun a => orphans[a]?.bind (release hash)) := by
        apply List.filterMap_congr
        intro a ha
        have : b ≠ a := by
          rintro rfl
          exact hb ha
        rw [horphans a, if_neg this]
      rw [hcongr, List.filterMap_cons]
      cases orphans[b]?.bind (release hash) with
      | none => rfl
      | some block => rfl

variable {topology : OrphanTopology}

theorem removeOrphan_orphans (hash a : BlockHash) :
    (topology.removeOrphan hash).orphans[a]? = if hash = a then none else topology.orphans[a]? := by
  unfold removeOrphan
  cases he : topology.orphans[hash]? with
  | none =>
    by_cases h : hash = a
    . subst h
      simp [he]
    . simp [h]
  | some entry => rw [Map.get_erase]

theorem Inv.removeOrphan (hinv : topology.Inv) (hash : BlockHash) :
    (topology.removeOrphan hash).Inv := by
  constructor
  . intro a entry he
    rw [removeOrphan_orphans] at he
    split at he
    . cases he
    . exact hinv.own a entry he
  . intro a entry he
    rw [removeOrphan_orphans] at he
    split at he
    . cases he
    . exact hinv.waiting a entry he
  . intro dependency a
    rw [removeOrphan_orphans]
    unfold OrphanTopology.removeOrphan
    cases he : topology.orphans[hash]? with
    | none =>
      rw [hinv.inverse]
      by_cases h : hash = a
      . subst h
        simp [he]
      . simp [h]
    | some entry =>
      rw [Multimap.holds_foldl_remove _ (fun a => a) (fun _ => hash), hinv.inverse]
      by_cases h : hash = a
      . subst h
        simp only [he, Option.some.injEq, exists_eq_left', reduceCtorEq, false_and, exists_false,
          ↓reduceIte, iff_false, not_and, Std.ExtTreeSet.mem_toList, and_true]
        intro hall hmem
        exact hall dependency hmem rfl
      . simp [h]
  . unfold OrphanTopology.removeOrphan
    cases he : topology.orphans[hash]? with
    | none => exact hinv.noEmpty
    | some entry =>
      exact Multimap.noEmpty_foldl_remove _ (fun a => a) (fun _ => hash) hinv.noEmpty

@[simp]
theorem removeOrphan_resolutionPending (hash : BlockHash) :
    (topology.removeOrphan hash).resolutionPending = topology.resolutionPending := by
  unfold removeOrphan
  split <;> rfl

variable {hash : BlockHash} {entry : OrphanEntry}

theorem advance_eq_self (hmem : hash ∉ entry.missing)
    (hwaiting : ∃ dependency, dependency ∈ entry.missing) : advance hash entry = some entry := by
  have herase : entry.missing.erase hash = entry.missing := by
    apply Std.ExtTreeSet.ext_mem
    intro a
    rw [KeySet.mem_erase]
    constructor
    . rintro ⟨-, ha⟩
      exact ha
    . intro ha
      refine ⟨?_, ha⟩
      rintro rfl
      exact hmem ha
  unfold advance
  rw [herase]
  have : entry.missing.isEmpty = false := (KeySet.isEmpty_eq_false_iff _).mpr hwaiting
  simp [this]

theorem release_eq_none (hmem : hash ∉ entry.missing)
    (hwaiting : ∃ dependency, dependency ∈ entry.missing) : release hash entry = none := by
  have hadv := advance_eq_self hmem hwaiting
  unfold advance at hadv
  unfold release
  dsimp only at hadv
  split at hadv
  . cases hadv
  . next h => simp [h]

theorem blockPersisted_orphans (hinv : topology.Inv) (hash a : BlockHash) :
    (topology.blockPersisted hash).1.orphans[a]?
      =
    if hash = a then none else topology.orphans[a]?.bind (advance hash) := by
  unfold blockPersisted
  generalize hun : OrphanTopology.mk _ _ (topology.resolutionPending.erase hash) _ = unpended
  have hunInv : unpended.Inv := by
    rw [← hun]
    exact ⟨hinv.own, hinv.waiting, hinv.inverse, hinv.noEmpty⟩
  have hrem := hunInv.removeOrphan hash
  have hfold := (foldl_resolveMissing hash ((unpended.removeOrphan hash).dependents.bucket hash)
    (unpended.removeOrphan hash).orphans [] (Multimap.nodup_bucket _ _)).1 a
  have horphans : unpended.orphans[a]? = topology.orphans[a]? := by rw [← hun]
  dsimp only [removeUnneededPending]
  rw [hfold]
  simp only [Multimap.mem_bucket, hrem.inverse, removeOrphan_orphans, horphans]
  by_cases heq : hash = a
  . simp [heq]
  . simp only [heq, ↓reduceIte]
    split
    . rfl
    . next hnot =>
      cases he : topology.orphans[a]? with
      | none => rfl
      | some entry =>
        rw [Option.bind_some, advance_eq_self _ (hinv.waiting a entry he)]
        intro hmem
        exact hnot ⟨entry, he, hmem⟩

theorem blockPersisted_ready (hinv : topology.Inv) (hash : BlockHash) :
    (∀ block, block ∈ (topology.blockPersisted hash).2.ready ↔
      ∃ a entry, hash ≠ a ∧ topology.orphans[a]? = some entry ∧ release hash entry = some block) ∧
    (topology.blockPersisted hash).2.ready.Nodup := by
  unfold blockPersisted
  generalize hun : OrphanTopology.mk _ _ (topology.resolutionPending.erase hash) _ = unpended
  have hunInv : unpended.Inv := by
    rw [← hun]
    exact ⟨hinv.own, hinv.waiting, hinv.inverse, hinv.noEmpty⟩
  have hrem := hunInv.removeOrphan hash
  have hfold := (foldl_resolveMissing hash ((unpended.removeOrphan hash).dependents.bucket hash)
    (unpended.removeOrphan hash).orphans [] (Multimap.nodup_bucket _ _)).2
  have horphans : ∀ a : BlockHash, (unpended.removeOrphan hash).orphans[a]?
      = if hash = a then none else topology.orphans[a]? := by
    intro a
    rw [removeOrphan_orphans, ← hun]
  dsimp only
  rw [hfold, List.nil_append]
  constructor
  . intro block
    rw [List.mem_filterMap]
    constructor
    . rintro ⟨a, -, ha⟩
      rw [horphans a] at ha
      split at ha
      . cases ha
      . next hne =>
        rw [Option.bind_eq_some_iff] at ha
        obtain ⟨entry, he, hr⟩ := ha
        exact ⟨a, entry, hne, he, hr⟩
    . rintro ⟨a, entry, hne, he, hr⟩
      refine ⟨a, ?_, ?_⟩
      . rw [Multimap.mem_bucket, hrem.inverse]
        refine ⟨entry, by rw [horphans a, if_neg hne, he], ?_⟩
        by_contra hmem
        rw [release_eq_none hmem (hinv.waiting a entry he)] at hr
        cases hr
      . rw [horphans a, if_neg hne, he]
        exact hr
  . apply List.Nodup.filterMap _ (Multimap.nodup_bucket _ _)
    intro a b block ha hb
    rw [Option.mem_def, horphans, Option.bind_eq_some_iff] at ha hb
    obtain ⟨entry, he, hr⟩ := ha
    obtain ⟨entry', he', hr'⟩ := hb
    have hblock : ∀ (c : BlockHash) (e : OrphanEntry),
        (if hash = c then none else topology.orphans[c]?) = some e → e.block.hash = c := by
      intro c e hce
      split at hce
      . cases hce
      . exact hinv.own c e hce
    unfold release at hr hr'
    split at hr
    . cases hr
      split at hr'
      . injection hr' with hr'
        rw [← hblock a entry he, ← hblock b entry' he', hr']
      . cases hr'
    . cases hr

theorem Inv.blockPersisted (hinv : topology.Inv) (hash : BlockHash) :
    (topology.blockPersisted hash).1.Inv := by
  have horphans := blockPersisted_orphans hinv hash
  have hadvance : ∀ (a : BlockHash) (e : OrphanEntry),
      (if hash = a then none else topology.orphans[a]?.bind (advance hash)) = some e →
      ∃ e', hash ≠ a ∧ topology.orphans[a]? = some e' ∧ e.block = e'.block ∧
        e.missing = e'.missing.erase hash ∧ ∃ dependency, dependency ∈ e.missing := by
    intro a e he
    split at he
    . cases he
    . next hne =>
      rw [Option.bind_eq_some_iff] at he
      obtain ⟨e', he', hadv⟩ := he
      unfold advance at hadv
      dsimp only at hadv
      split at hadv
      . cases hadv
      . next hempty =>
        cases hadv
        rw [Bool.not_eq_true, KeySet.isEmpty_eq_false_iff] at hempty
        exact ⟨e', hne, he', rfl, rfl, hempty⟩
  constructor
  . intro a entry he
    rw [horphans] at he
    obtain ⟨e', -, he', hb, -⟩ := hadvance a entry he
    rw [hb]
    exact hinv.own a e' he'
  . intro a entry he
    rw [horphans] at he
    obtain ⟨e', -, -, -, -, hw⟩ := hadvance a entry he
    exact hw
  . intro dependency a
    rw [horphans]
    have hdep : (topology.blockPersisted hash).1.dependents
        = (OrphanTopology.removeOrphan { topology with
            resolutionPending := topology.resolutionPending.erase hash } hash).dependents.erase hash :=
      rfl
    have hunInv : OrphanTopology.Inv { topology with
        resolutionPending := topology.resolutionPending.erase hash } :=
      ⟨hinv.own, hinv.waiting, hinv.inverse, hinv.noEmpty⟩
    rw [hdep, Multimap.holds_erase, (hunInv.removeOrphan hash).inverse, removeOrphan_orphans]
    constructor
    . rintro ⟨hne, entry, he, hmem⟩
      split at he
      . cases he
      . next hna =>
        have hkeep : dependency ∈ entry.missing.erase hash := by
          rw [KeySet.mem_erase]
          exact ⟨hne, hmem⟩
        refine ⟨{ entry with missing := entry.missing.erase hash }, ?_, hkeep⟩
        rw [if_neg hna, Option.bind_eq_some_iff]
        refine ⟨entry, he, ?_⟩
        have : (entry.missing.erase hash).isEmpty = false :=
          (KeySet.isEmpty_eq_false_iff _).mpr ⟨dependency, hkeep⟩
        simp [advance, this]
    . rintro ⟨entry, he, hmem⟩
      obtain ⟨e', hna, he', -, hm, -⟩ := hadvance a entry he
      rw [hm, KeySet.mem_erase] at hmem
      exact ⟨hmem.1, e', by rw [if_neg hna, he'], hmem.2⟩
  . have hunInv : OrphanTopology.Inv { topology with
        resolutionPending := topology.resolutionPending.erase hash } :=
      ⟨hinv.own, hinv.waiting, hinv.inverse, hinv.noEmpty⟩
    exact Multimap.noEmpty_erase (hunInv.removeOrphan hash).noEmpty hash

theorem blockPersisted_cancel (hash : BlockHash) :
    (∀ a, a ∈ (topology.blockPersisted hash).2.cancel ↔
      a ∈ topology.resolutionPending ∧
        a ∉ (topology.blockPersisted hash).1.resolutionPending) ∧
    (∀ a, a ∈ (topology.blockPersisted hash).1.resolutionPending →
      a ∈ topology.resolutionPending) ∧
    (topology.blockPersisted hash).2.cancel.Nodup := by
  unfold blockPersisted
  dsimp only
  generalize hres : OrphanTopology.mk _ _ _ _ = resolved
  have hpend : resolved.resolutionPending = topology.resolutionPending.erase hash := by
    rw [← hres, removeOrphan_resolutionPending]
  refine ⟨?_, ?_, ?_⟩
  . intro a
    rw [Std.ExtTreeSet.mem_toList, KeySet.mem_ofElems, List.mem_append,
      mem_removeUnneededPending_resolutionPending, mem_removeUnneededPending_snd, hpend,
      KeySet.mem_erase]
    by_cases heq : hash = a
    . subst heq
      by_cases hp : hash ∈ topology.resolutionPending
      . simp [hp]
      . simp [hp]
    . have hown : a ∉ (if topology.resolutionPending.contains hash then [hash] else []) := by
        split
        . simp [Ne.symm heq]
        . simp
      simp only [hown, heq, false_or, ne_eq, not_false_eq_true, true_and]
      tauto
  . intro a hmem
    rw [mem_removeUnneededPending_resolutionPending, hpend, KeySet.mem_erase] at hmem
    exact hmem.1.2
  . exact KeySet.nodup_toList _

end BlockPersisted

section TakeResolutionCandidates

variable (topology : OrphanTopology)

@[simp]
theorem takeResolutionCandidates_orphans :
    topology.takeResolutionCandidates.1.orphans = topology.orphans := by
  unfold takeResolutionCandidates
  split <;> rfl

@[simp]
theorem takeResolutionCandidates_dependents :
    topology.takeResolutionCandidates.1.dependents = topology.dependents := by
  unfold takeResolutionCandidates
  split <;> rfl

theorem Inv.takeResolutionCandidates {topology : OrphanTopology} (h : topology.Inv) :
    topology.takeResolutionCandidates.1.Inv := by
  constructor
  . rw [takeResolutionCandidates_orphans]
    exact h.own
  . rw [takeResolutionCandidates_orphans]
    exact h.waiting
  . rw [takeResolutionCandidates_orphans, takeResolutionCandidates_dependents]
    exact h.inverse
  . rw [takeResolutionCandidates_dependents]
    exact h.noEmpty

theorem takeResolutionCandidates_spec :
    (∀ hash, hash ∈ topology.takeResolutionCandidates.1.resolutionPending ↔
      hash ∈ topology.takeResolutionCandidates.2 ∨ hash ∈ topology.resolutionPending) ∧
    (∀ hash, hash ∈ topology.takeResolutionCandidates.2 →
      hash ∉ topology.resolutionPending) ∧
    topology.takeResolutionCandidates.2.Nodup := by
  unfold takeResolutionCandidates
  split
  . simp
  . dsimp only
    generalize hc : List.map (fun hash => (hash, topology.transitiveImpact hash)) _ = candidates
    have hperm : ((candidates.insertionSort
        (fun left right => candidateLe left right)).map Prod.fst).Perm (candidates.map Prod.fst) :=
      (List.perm_insertionSort _ candidates).map _
    have hfst : candidates.map Prod.fst = topology.dependents.keys.filter fun hash =>
        !topology.orphans.contains hash && !topology.resolutionPending.contains hash := by
      rw [← hc, List.map_map]
      exact List.map_id _
    refine ⟨?_, ?_, ?_⟩
    . intro hash
      rw [KeySet.mem_foldl_insert]
    . intro hash hmem
      rw [hperm.mem_iff, hfst, List.mem_filter] at hmem
      simp only [Bool.and_eq_true, Bool.not_eq_true'] at hmem
      rw [Std.ExtTreeSet.mem_iff_contains, hmem.2.2]
      simp
    . rw [hperm.nodup_iff, hfst]
      apply List.Nodup.filter
      have h := Std.ExtTreeMap.distinct_keys (t := topology.dependents)
      apply h.imp
      intro a b hab heq
      apply hab
      simp [heq]

end TakeResolutionCandidates

end OrphanTopology

end Kgi
