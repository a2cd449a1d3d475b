import GraphInspector.Data.Run
import GraphInspector.Data.Search
import GraphInspector.Processing.Lemmas.Orphan

/-!
The orphan topology over whole runs: what its maps hold, which resolutions are pending, and how the next
candidates are ranked.
-/

namespace Kgi

open Data

namespace OrphanTopology

variable {topology topology' : OrphanTopology}

section Impact

theorem transitiveImpactLoop_eq (topology : OrphanTopology) (fuel : Nat) (stack : List BlockHash)
    (visited : KeySet BlockHash) :
    topology.transitiveImpactLoop fuel stack visited
      =
    search topology.dependents.bucket fuel stack visited := by
  induction fuel generalizing stack visited with
  | zero => rfl
  | succ fuel ih =>
    cases stack with
    | nil => rfl
    | cons hash stack => exact ih _ _

def allDependents (topology : OrphanTopology) : List BlockHash :=
  topology.dependents.toList.flatMap fun entry => entry.2.toList

theorem transitiveImpactFuel_eq (topology : OrphanTopology) :
    topology.transitiveImpactFuel = 1 + topology.allDependents.length := by
  have hsum : ∀ (entries : List (BlockHash × KeySet BlockHash)) (total : Nat),
      entries.foldl (fun total entry => total + entry.2.size) total
        = total + (entries.flatMap fun entry => entry.2.toList).length := by
    intro entries
    induction entries with
    | nil => exact fun _ => rfl
    | cons entry entries ih =>
      intro total
      rw [List.foldl_cons, ih, List.flatMap_cons, List.length_append, Std.ExtTreeSet.length_toList,
        Nat.add_assoc]
  exact hsum _ 1

theorem mem_allDependents {a b : BlockHash} (h : b ∈ topology.dependents.bucket a) :
    b ∈ topology.allDependents := by
  rw [Multimap.mem_bucket] at h
  obtain ⟨bucket, hbucket, hmem⟩ := h
  exact List.mem_flatMap.mpr
    ⟨(a, bucket), (Map.mem_toList _ _ _).mpr hbucket, Std.ExtTreeSet.mem_toList.mpr hmem⟩

def Impacts (topology : OrphanTopology) (dependency orphan : BlockHash) : Prop :=
  Relation.TransGen topology.dependents.Holds dependency orphan

theorem transitiveImpactLoop_finishes {fuel : Nat} (hfuel : topology.transitiveImpactFuel ≤ fuel)
    (dependency : BlockHash) :
    (topology.transitiveImpactLoop fuel [dependency] ∅).1 = [] ∧
      ∀ orphan, orphan ∈ (topology.transitiveImpactLoop fuel [dependency] ∅).2 ↔
        topology.Impacts dependency orphan := by
  rw [transitiveImpactFuel_eq] at hfuel
  have himpacts : topology.Impacts = Reaches topology.dependents.bucket := by
    unfold Impacts Reaches
    simp only [Multimap.mem_bucket]
  rw [transitiveImpactLoop_eq, himpacts]
  exact search_start dependency (fun _ _ => mem_allDependents) hfuel

theorem transitiveImpactLoop_stable {fuel : Nat} (hfuel : topology.transitiveImpactFuel ≤ fuel)
    (dependency : BlockHash) :
    topology.transitiveImpactLoop fuel [dependency] ∅
      = topology.transitiveImpactLoop topology.transitiveImpactFuel [dependency] ∅ := by
  obtain ⟨hstack, hmem⟩ := transitiveImpactLoop_finishes hfuel dependency
  obtain ⟨hstack', hmem'⟩ := transitiveImpactLoop_finishes (le_refl topology.transitiveImpactFuel) dependency
  apply Prod.ext (hstack.trans hstack'.symm)
  apply Std.ExtTreeSet.ext_mem
  intro orphan
  rw [hmem, hmem']

theorem transitiveImpact_eq (topology : OrphanTopology) (dependency : BlockHash) :
    topology.transitiveImpact dependency = {orphan | topology.Impacts dependency orphan}.ncard := by
  unfold transitiveImpact
  rw [← KeySet.ncard_setOf_mem]
  congr 1
  ext orphan
  exact (transitiveImpactLoop_finishes (le_refl _) dependency).2 orphan

theorem Inv.impacts_retained (hinv : topology.Inv) {dependency orphan : BlockHash}
    (h : topology.Impacts dependency orphan) : ∃ entry, topology.orphans[orphan]? = some entry := by
  have hlast : ∃ last, topology.dependents.Holds last orphan := by
    cases h with
    | single hholds => exact ⟨_, hholds⟩
    | tail _ hholds => exact ⟨_, hholds⟩
  obtain ⟨last, hholds⟩ := hlast
  obtain ⟨entry, hentry, _⟩ := (hinv.inverse last orphan).mp hholds
  exact ⟨entry, hentry⟩

end Impact

section Candidates

def Precedes (topology : OrphanTopology) (left right : BlockHash) : Prop :=
  topology.transitiveImpact right < topology.transitiveImpact left ∨
    topology.transitiveImpact left = topology.transitiveImpact right ∧ left < right

theorem candidateLe_trans {a b c : BlockHash × Nat} (hab : candidateLe a b = true)
    (hbc : candidateLe b c = true) : candidateLe a c = true := by
  unfold candidateLe at *
  simp only [Bool.or_eq_true, decide_eq_true_eq, Bool.and_eq_true, beq_iff_eq, Fin.le_def] at *
  omega

theorem candidateLe_total (a b : BlockHash × Nat) : candidateLe a b = true ∨ candidateLe b a = true := by
  unfold candidateLe
  simp only [Bool.or_eq_true, decide_eq_true_eq, Bool.and_eq_true, beq_iff_eq, Fin.le_def]
  omega

theorem mem_candidates {hash : BlockHash} :
    (hash ∈ topology.dependents.keys.filter fun hash =>
        !topology.orphans.contains hash && !topology.resolutionPending.contains hash) ↔
      topology.dependents.contains hash = true ∧ topology.orphans[hash]? = none ∧
        hash ∉ topology.resolutionPending := by
  have hretained : topology.orphans.contains hash = false ↔ topology.orphans[hash]? = none := by
    rw [Std.ExtTreeMap.contains_eq_isSome_getElem?, Option.isSome_eq_false_iff,
      Option.isNone_iff_eq_none]
  rw [List.mem_filter, Std.ExtTreeMap.mem_keys, Std.ExtTreeMap.mem_iff_contains, Bool.and_eq_true,
    Bool.not_eq_true', Bool.not_eq_true', hretained, Std.ExtTreeSet.mem_iff_contains, Bool.not_eq_true]

theorem mem_takeResolutionCandidates (hactive : topology.resolutionActive = true) (hash : BlockHash) :
    hash ∈ topology.takeResolutionCandidates.2 ↔
      topology.dependents.contains hash = true ∧ topology.orphans[hash]? = none ∧
        hash ∉ topology.resolutionPending := by
  unfold takeResolutionCandidates
  rw [if_neg (by simp [hactive])]
  rw [List.mem_map]
  constructor
  . rintro ⟨⟨hash', impact⟩, hmem, rfl⟩
    rw [List.mem_insertionSort, List.mem_map] at hmem
    obtain ⟨hash, hmem, heq⟩ := hmem
    cases heq
    exact mem_candidates.mp hmem
  . intro h
    refine ⟨(hash, topology.transitiveImpact hash), ?_, rfl⟩
    rw [List.mem_insertionSort, List.mem_map]
    exact ⟨hash, mem_candidates.mpr h, rfl⟩

theorem takeResolutionCandidates_pairwise (topology : OrphanTopology) :
    topology.takeResolutionCandidates.2.Pairwise topology.Precedes := by
  have hnodup := (topology.takeResolutionCandidates_spec).2.2
  unfold takeResolutionCandidates at hnodup ⊢
  split at hnodup
  . next hactive =>
    rw [if_pos hactive]
    exact List.Pairwise.nil
  . next hactive =>
    rw [if_neg hactive]
    generalize hcandidates : List.map (fun hash => (hash, topology.transitiveImpact hash)) _
      = candidates at hnodup ⊢
    have : Std.Total fun left right : BlockHash × Nat => candidateLe left right = true :=
      ⟨candidateLe_total⟩
    have : IsTrans (BlockHash × Nat) fun left right => candidateLe left right = true :=
      ⟨fun _ _ _ => candidateLe_trans⟩
    have hsorted := List.pairwise_insertionSort (fun left right => candidateLe left right = true) candidates
    have himpact : ∀ entry ∈ candidates.insertionSort fun left right => candidateLe left right,
        entry.2 = topology.transitiveImpact entry.1 := by
      intro entry hmem
      rw [List.mem_insertionSort, ← hcandidates, List.mem_map] at hmem
      obtain ⟨hash, _, rfl⟩ := hmem
      rfl
    rw [List.Nodup, List.pairwise_map] at hnodup
    rw [List.pairwise_map]
    refine (hsorted.and hnodup).imp_of_mem ?_
    rintro left right hleft hright ⟨hle, hne⟩
    unfold candidateLe at hle
    simp only [Bool.or_eq_true, decide_eq_true_eq, Bool.and_eq_true, beq_iff_eq] at hle
    unfold Precedes
    rw [← himpact left hleft, ← himpact right hright]
    obtain hlt | ⟨heq, hle⟩ := hle
    . exact Or.inl hlt
    . exact Or.inr ⟨heq, lt_of_le_of_ne hle hne⟩

end Candidates

section Operations

variable {block : ValidatedNodeBlock} {missing : List BlockHash} {mutation : TopologyMutation}

structure Bounded (topology : OrphanTopology) : Prop where
  size_le : topology.orphans.size ≤ maxOrphanBlocks
  pending : ∀ hash ∈ topology.resolutionPending,
    topology.dependents.contains hash = true ∧ topology.orphans[hash]? = none

theorem mem_pending_iff_needed (topology : OrphanTopology) (hash : BlockHash) :
    hash ∈ topology.removeUnneededPending.1.resolutionPending ↔
      hash ∈ topology.resolutionPending ∧ topology.dependents.contains hash = true := by
  rw [mem_removeUnneededPending_resolutionPending, mem_removeUnneededPending_snd, not_and,
    Bool.not_eq_false]
  exact and_congr_right fun hmem => ⟨fun h => h hmem, fun h _ => h⟩

theorem Bounded.addOrphan (hbounded : topology.Bounded)
    (h : topology.addOrphan block missing = (topology', .ok mutation)) : topology'.Bounded := by
  have hnew := addOrphan_orphans h
  unfold OrphanTopology.addOrphan at h
  split at h
  . cases h
    exact hbounded
  . next hcontains =>
    split at h
    . cases h
    . next hsize =>
      dsimp only at h
      split at h
      . cases h
      . obtain ⟨hcontains', _⟩ | ⟨hnone, _⟩ := hnew
        . exact absurd hcontains' hcontains
        . cases h
          have hle := hbounded.size_le
          constructor
          case size_le =>
            have hgrow := Std.ExtTreeMap.size_insert_le (t := topology.orphans) (k := block.hash)
              (v := ⟨block, KeySet.ofElems missing⟩)
            have hlt := Nat.lt_of_le_of_ne hle hsize
            dsimp only [removeUnneededPending]
            omega
          case pending =>
            intro hash hmem
            rw [mem_pending_iff_needed] at hmem
            obtain ⟨hpending, hneeded⟩ := hmem
            refine ⟨hneeded, ?_⟩
            rw [KeySet.mem_erase] at hpending
            dsimp only [removeUnneededPending]
            rw [Map.get_insert, if_neg hpending.1]
            exact (hbounded.pending hash hpending.2).2

theorem Bounded.blockPersisted (hbounded : topology.Bounded) (hinv : topology.Inv) (hash : BlockHash) :
    (topology.blockPersisted hash).1.Bounded := by
  have horphans := blockPersisted_orphans hinv hash
  constructor
  case size_le =>
    refine le_trans (Map.size_le_of_forall ?_) hbounded.size_le
    intro a entry hentry
    rw [horphans] at hentry
    split at hentry
    . cases hentry
    . obtain ⟨entry', hentry', _⟩ := Option.bind_eq_some_iff.mp hentry
      exact ⟨entry', hentry'⟩
  case pending =>
    intro a hmem
    have hold := (@blockPersisted_cancel topology hash).2.1 a hmem
    refine ⟨?_, ?_⟩
    . unfold OrphanTopology.blockPersisted at hmem ⊢
      rw [mem_pending_iff_needed] at hmem
      exact hmem.2
    . rw [horphans, (hbounded.pending a hold).2]
      split
      . rfl
      . rfl

theorem Bounded.takeResolutionCandidates (hbounded : topology.Bounded) :
    topology.takeResolutionCandidates.1.Bounded := by
  constructor
  case size_le =>
    rw [takeResolutionCandidates_orphans]
    exact hbounded.size_le
  case pending =>
    intro hash hmem
    rw [takeResolutionCandidates_orphans, takeResolutionCandidates_dependents]
    rw [(topology.takeResolutionCandidates_spec).1] at hmem
    obtain hmem | hmem := hmem
    . cases hactive : topology.resolutionActive with
      | false =>
        unfold OrphanTopology.takeResolutionCandidates at hmem
        rw [if_pos (by simp [hactive])] at hmem
        cases hmem
      | true =>
        obtain ⟨hcontains, hnone, _⟩ := (mem_takeResolutionCandidates hactive hash).mp hmem
        exact ⟨hcontains, hnone⟩
    . exact hbounded.pending hash hmem

end Operations

end OrphanTopology

inductive TopologyEvent where
  | addOrphan (block : ValidatedNodeBlock) (missing : List BlockHash)
  | blockPersisted (hash : BlockHash)
  | takeResolutionCandidates

structure TopologyHistory where
  topology : OrphanTopology
  requested : List BlockHash
  cancelled : List BlockHash

namespace TopologyHistory

def empty : TopologyHistory :=
  ⟨.empty, [], []⟩

def step (history : TopologyHistory) : TopologyEvent → Option TopologyHistory
  | .addOrphan block missing =>
    let (topology, mutated) := history.topology.addOrphan block missing
    match mutated with
    | .ok mutation => some ⟨topology, history.requested, history.cancelled ++ mutation.cancel⟩
    | .error _ => some { history with topology := topology }
  | .blockPersisted hash =>
    let (topology, mutation) := history.topology.blockPersisted hash
    some ⟨topology, history.requested, history.cancelled ++ mutation.cancel⟩
  | .takeResolutionCandidates =>
    let (topology, hashes) := history.topology.takeResolutionCandidates
    some ⟨topology, history.requested ++ hashes, history.cancelled⟩

variable {history next reached : TopologyHistory} {events : List TopologyEvent}

structure Sound (history : TopologyHistory) : Prop where
  inv : history.topology.Inv
  bounded : history.topology.Bounded
  balance : ∀ hash, history.requested.count hash
    = history.cancelled.count hash + if hash ∈ history.topology.resolutionPending then 1 else 0

theorem Sound.empty : Sound empty where
  inv := .empty
  bounded := ⟨Nat.zero_le _, fun hash hmem => absurd hmem (KeySet.not_mem_empty hash)⟩
  balance _ := rfl

theorem count_append_cancel {requested cancelled cancel : List BlockHash}
    {pending pending' : KeySet BlockHash}
    (hbalance : ∀ hash, requested.count hash
      = cancelled.count hash + if hash ∈ pending then 1 else 0)
    (hcancel : ∀ hash, hash ∈ cancel ↔ hash ∈ pending ∧ hash ∉ pending')
    (hkept : ∀ hash, hash ∈ pending' → hash ∈ pending) (hnodup : cancel.Nodup) (hash : BlockHash) :
    requested.count hash
      = (cancelled ++ cancel).count hash + if hash ∈ pending' then 1 else 0 := by
  have hcount : cancel.count hash = if hash ∈ cancel then 1 else 0 := hnodup.count
  rw [List.count_append, hbalance, hcount]
  have hiff := hcancel hash
  by_cases hpending' : hash ∈ pending'
  . have hpending := hkept hash hpending'
    rw [if_pos hpending, if_pos hpending', if_neg fun hmem => (hiff.mp hmem).2 hpending']
  . rw [if_neg hpending']
    by_cases hpending : hash ∈ pending
    . rw [if_pos hpending, if_pos (hiff.mpr ⟨hpending, hpending'⟩)]
    . rw [if_neg hpending, if_neg fun hmem => hpending (hiff.mp hmem).1]

theorem Sound.step (h : history.Sound) {event : TopologyEvent} (hstep : history.step event = some next) :
    next.Sound := by
  cases event with
  | addOrphan block missing =>
    unfold TopologyHistory.step at hstep
    dsimp only at hstep
    rcases hadd : history.topology.addOrphan block missing with ⟨topology, mutated⟩
    rw [hadd] at hstep
    cases mutated with
    | error error =>
      cases hstep
      cases OrphanTopology.addOrphan_refused hadd
      exact h
    | ok mutation =>
      cases hstep
      obtain ⟨hcancel, hkept, hnodup⟩ := OrphanTopology.addOrphan_cancel hadd
      exact ⟨h.inv.addOrphan hadd, h.bounded.addOrphan hadd,
        count_append_cancel h.balance hcancel hkept hnodup⟩
  | blockPersisted hash =>
    cases hstep
    obtain ⟨hcancel, hkept, hnodup⟩ := @OrphanTopology.blockPersisted_cancel history.topology hash
    exact ⟨h.inv.blockPersisted hash, h.bounded.blockPersisted h.inv hash,
      count_append_cancel h.balance hcancel hkept hnodup⟩
  | takeResolutionCandidates =>
    have hnext : next = ⟨history.topology.takeResolutionCandidates.1,
        history.requested ++ history.topology.takeResolutionCandidates.2, history.cancelled⟩ :=
      (Option.some.inj hstep).symm
    subst hnext
    refine ⟨h.inv.takeResolutionCandidates, h.bounded.takeResolutionCandidates, ?_⟩
    obtain ⟨hpending, hnew, hnodup⟩ := history.topology.takeResolutionCandidates_spec
    intro hash
    have hcount : history.topology.takeResolutionCandidates.2.count hash
        = if hash ∈ history.topology.takeResolutionCandidates.2 then 1 else 0 := hnodup.count
    rw [List.count_append, h.balance, hcount]
    simp only [hpending]
    by_cases htaken : hash ∈ history.topology.takeResolutionCandidates.2
    . rw [if_pos htaken, if_neg (hnew hash htaken), if_pos (Or.inl htaken)]
    . rw [if_neg htaken]
      simp only [htaken, false_or, Nat.add_zero]

theorem Sound.run (hrun : run TopologyHistory.step .empty events = some reached) : reached.Sound :=
  run.invariant (fun _ _ _ h hstep => h.step hstep) Sound.empty hrun

/--
In every run the reverse index is the inverse of the missing sets, the orphans stay within capacity, every
pending resolution is one that an orphan waits for and no orphan itself, every hash that leaves the pending
set is cancelled once, and a refused addition changes nothing.
-/
theorem orphan_topology (hrun : run TopologyHistory.step .empty events = some reached) :
    ((∀ dependency orphan, reached.topology.dependents.Holds dependency orphan ↔
        ∃ entry, reached.topology.orphans[orphan]? = some entry ∧ dependency ∈ entry.missing) ∧
      reached.topology.dependents.NoEmpty) ∧
    reached.topology.orphans.size ≤ maxOrphanBlocks ∧
    (∀ hash ∈ reached.topology.resolutionPending,
      (∃ (orphan : BlockHash) (entry : OrphanEntry),
          reached.topology.orphans[orphan]? = some entry ∧ hash ∈ entry.missing) ∧
        reached.topology.orphans[hash]? = none) ∧
    (∀ hash, reached.requested.count hash
      = reached.cancelled.count hash + if hash ∈ reached.topology.resolutionPending then 1 else 0) ∧
    (∀ block missing topology mutation,
      reached.topology.addOrphan block missing = (topology, .ok mutation) →
      mutation.cancel.Nodup ∧ ∀ hash, hash ∈ mutation.cancel ↔
        hash ∈ reached.topology.resolutionPending ∧ hash ∉ topology.resolutionPending) ∧
    (∀ persisted, (reached.topology.blockPersisted persisted).2.cancel.Nodup ∧
      ∀ hash, hash ∈ (reached.topology.blockPersisted persisted).2.cancel ↔
        hash ∈ reached.topology.resolutionPending ∧
          hash ∉ (reached.topology.blockPersisted persisted).1.resolutionPending) ∧
    (∀ hash ∈ reached.topology.resolutionPending,
      hash ∈ reached.topology.takeResolutionCandidates.1.resolutionPending) ∧
    ∀ block missing topology error,
      reached.topology.addOrphan block missing = (topology, .error error) →
      topology = reached.topology ∧ reached.step (.addOrphan block missing) = some reached := by
  have hsound := Sound.run hrun
  refine ⟨⟨hsound.inv.inverse, hsound.inv.noEmpty⟩, hsound.bounded.size_le, ?_, hsound.balance, ?_, ?_,
    ?_, ?_⟩
  . intro hash hmem
    obtain ⟨hcontains, hnone⟩ := hsound.bounded.pending hash hmem
    obtain ⟨orphan, hholds⟩ := (Multimap.contains_iff hsound.inv.noEmpty hash).mp hcontains
    obtain ⟨entry, hentry, hmissing⟩ := (hsound.inv.inverse hash orphan).mp hholds
    exact ⟨⟨orphan, entry, hentry, hmissing⟩, hnone⟩
  . intro block missing topology mutation hadd
    obtain ⟨hcancel, _, hnodup⟩ := OrphanTopology.addOrphan_cancel hadd
    exact ⟨hnodup, hcancel⟩
  . intro persisted
    obtain ⟨hcancel, _, hnodup⟩ := @OrphanTopology.blockPersisted_cancel reached.topology persisted
    exact ⟨hnodup, hcancel⟩
  . intro hash hmem
    exact ((reached.topology.takeResolutionCandidates_spec).1 hash).mpr (Or.inr hmem)
  . intro block missing topology error hadd
    cases OrphanTopology.addOrphan_refused hadd
    unfold TopologyHistory.step
    dsimp only
    rw [hadd]
    exact ⟨rfl, rfl⟩

theorem cycle_ne : (2 : BlockHash) ≠ 1 := by decide

def cycleEvents : List TopologyEvent :=
  [.addOrphan (.ofParent 1 2 cycle_ne.symm) [2], .addOrphan (.ofParent 2 1 cycle_ne) [1, 3]]

theorem exists_cycle :
    ∃ reached, run TopologyHistory.step .empty cycleEvents = some reached ∧
      reached.topology.transitiveImpact 3 = 2 := by
  have h : (run TopologyHistory.step .empty cycleEvents).map
      (fun reached => reached.topology.transitiveImpact 3) = some 2 := by
    decide +kernel
  rw [Option.map_eq_some_iff] at h
  exact h

/--
An orphan of the cycle is found through the reverse index, and one that waits for nothing is refused.
-/
theorem orphan_topology_cycle :
    ∃ (reached : TopologyHistory) (entry : OrphanEntry),
      run TopologyHistory.step .empty cycleEvents = some reached ∧
      reached.topology.orphans[(2 : BlockHash)]? = some entry ∧ 3 ∈ entry.missing ∧
      reached.step (.addOrphan (.ofParent 4 1 (by decide)) []) = some reached := by
  have hobserved : (run TopologyHistory.step .empty cycleEvents).any (fun reached =>
      reached.topology.dependents.bucket 3 = [2] ∧
        (reached.topology.addOrphan (.ofParent 4 1 (by decide)) []).2 matches .error _) = true := by
    decide +kernel
  rw [Option.any_eq_true] at hobserved
  obtain ⟨reached, hrun, hobserved⟩ := hobserved
  obtain ⟨hbucket, hrefused⟩ := of_decide_eq_true hobserved
  obtain ⟨⟨hinverse, -⟩, -, -, -, -, -, -, hkept⟩ := orphan_topology hrun
  have hholds : reached.topology.dependents.Holds 3 2 := by
    rw [← Multimap.mem_bucket, hbucket]
    exact List.mem_singleton_self 2
  obtain ⟨entry, hentry, hmissing⟩ := (hinverse 3 2).mp hholds
  refine ⟨reached, entry, hrun, hentry, hmissing, ?_⟩
  split at hrefused
  . next error herror => exact (hkept _ _ _ error (Prod.ext rfl herror)).2
  . cases hrefused

end TopologyHistory

/--
In every topology the search for the impact of a hash ends with an empty stack, the impact is the number of
distinct hashes that are reached in one or more steps of the reverse index, and the candidates are the keys
of that index that are neither retained nor pending, ranked by descending impact and then ascending hash. In
a reachable topology what is reached are retained orphans, and the keys are the missing hashes.
-/
theorem resolution_candidates (topology : OrphanTopology) :
    (∀ dependency,
      (topology.transitiveImpactLoop topology.transitiveImpactFuel [dependency] ∅).1 = [] ∧
      ∀ fuel, topology.transitiveImpactFuel ≤ fuel →
        topology.transitiveImpactLoop fuel [dependency] ∅
          = topology.transitiveImpactLoop topology.transitiveImpactFuel [dependency] ∅) ∧
    (∀ dependency, topology.transitiveImpact dependency
      = {orphan | Relation.TransGen topology.dependents.Holds dependency orphan}.ncard) ∧
    (topology.resolutionActive = true → ∀ hash, hash ∈ topology.takeResolutionCandidates.2 ↔
      topology.dependents.contains hash = true ∧ topology.orphans[hash]? = none ∧
        hash ∉ topology.resolutionPending) ∧
    topology.takeResolutionCandidates.2.Pairwise (fun left right =>
      topology.transitiveImpact right < topology.transitiveImpact left ∨
        topology.transitiveImpact left = topology.transitiveImpact right ∧ left < right) ∧
    ∀ events history, run TopologyHistory.step .empty events = some history →
      history.topology = topology →
      (∀ dependency orphan, Relation.TransGen topology.dependents.Holds dependency orphan →
        ∃ entry, topology.orphans[orphan]? = some entry) ∧
      ∀ hash, topology.dependents.contains hash = true ↔ ∃ (orphan : BlockHash) (entry : OrphanEntry),
        topology.orphans[orphan]? = some entry ∧ hash ∈ entry.missing := by
  refine ⟨?_, topology.transitiveImpact_eq, ?_, topology.takeResolutionCandidates_pairwise, ?_⟩
  . intro dependency
    exact ⟨(OrphanTopology.transitiveImpactLoop_finishes (le_refl _) dependency).1,
      fun fuel hfuel => OrphanTopology.transitiveImpactLoop_stable hfuel dependency⟩
  . intro hactive hash
    exact OrphanTopology.mem_takeResolutionCandidates hactive hash
  . rintro events history hrun rfl
    have hsound := TopologyHistory.Sound.run hrun
    refine ⟨fun _ _ => hsound.inv.impacts_retained, ?_⟩
    intro hash
    rw [Multimap.contains_iff hsound.inv.noEmpty]
    simp only [hsound.inv.inverse]

/--
The orphans that wait for each other are counted once each.
-/
theorem resolution_candidates_cycle :
    ∃ reached, run TopologyHistory.step .empty TopologyHistory.cycleEvents = some reached ∧
      {orphan | Relation.TransGen reached.topology.dependents.Holds 3 orphan}.ncard = 2 := by
  obtain ⟨reached, hrun, himpact⟩ := TopologyHistory.exists_cycle
  exact ⟨reached, hrun, ((resolution_candidates reached.topology).2.1 3).symm.trans himpact⟩

end Kgi
