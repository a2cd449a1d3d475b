import GraphInspector.Processing.Impl.VspcProcessor

/-!
The history of persisted blocks: its two indexes agree, and pruning drops exactly the records below the sink.
-/

namespace Kgi

open Data

namespace MaterializedHistory

variable {history : MaterializedHistory}

structure Consistent (history : MaterializedHistory) : Prop where
  byHash : ∀ (hash : BlockHash) (block : PersistedBlock), history.byHash[hash]? = some block →
    block.point.hash = hash ∧ history.byOrder[block.point.order]? = some hash
  byOrder : ∀ (order : ConsensusOrder) (hash : BlockHash), history.byOrder[order]? = some hash →
    ∃ block, history.byHash[hash]? = some block ∧ block.point.order = order

theorem Consistent.empty : Consistent ⟨∅, ∅⟩ where
  byHash hash block h := by simp at h
  byOrder order hash h := by simp at h

theorem get_insert_of_absent {persisted : PersistedBlock}
    (habsent : history.byHash[persisted.point.hash]? = none) (hash : BlockHash) :
    (history.insert persisted).byHash[hash]?
      = if persisted.point.hash = hash then some persisted else history.byHash[hash]? := by
  unfold insert
  rw [if_neg]
  . exact Map.get_insert _ _ _ _
  . rw [Map.contains_iff, habsent]
    simp

theorem Consistent.insert (h : history.Consistent) (persisted : PersistedBlock) :
    (history.insert persisted).Consistent := by
  unfold MaterializedHistory.insert
  split
  . exact h
  . next habsent =>
    rw [Map.contains_iff, not_exists] at habsent
    constructor
    case byHash =>
      intro hash block hget
      have hget : (history.byHash.insert persisted.point.hash persisted)[hash]? = some block := hget
      rw [Map.get_insert] at hget ⊢
      split at hget
      . next heq =>
        cases hget
        exact ⟨heq, by rw [if_pos rfl, heq]⟩
      . next hne =>
        obtain ⟨hhash, horder⟩ := h.byHash hash block hget
        refine ⟨hhash, ?_⟩
        rw [if_neg]
        . exact horder
        . intro heq
          apply hne
          rw [← hhash]
          exact congrArg ConsensusOrder.hash heq
    case byOrder =>
      intro order hash hget
      have hget : (history.byOrder.insert persisted.point.order persisted.point.hash)[order]?
        = some hash := hget
      rw [Map.get_insert] at hget
      split at hget
      . next heq =>
        cases hget
        exact ⟨persisted, by rw [Map.get_insert, if_pos rfl], heq⟩
      . obtain ⟨block, hblock, horder⟩ := h.byOrder order hash hget
        refine ⟨block, ?_, horder⟩
        rw [Map.get_insert, if_neg]
        . exact hblock
        . rintro rfl
          exact habsent block hblock

theorem Consistent.new (anchor : MaterializedSyncAnchor) : (new anchor).Consistent :=
  Consistent.empty.insert _

variable (h : history.Consistent)
include h

theorem Consistent.get_remove (order : ConsensusOrder) (hash : BlockHash) :
    (history.remove order).byHash[hash]?
      = history.byHash[hash]?.filter fun block => block.point.order ≠ order := by
  unfold remove
  split
  . next hnone =>
    cases hget : history.byHash[hash]? with
    | none => rfl
    | some block =>
      rw [Option.filter_some, if_pos]
      have := (h.byHash hash block hget).2
      simp only [ne_eq, decide_not, Bool.not_eq_true', decide_eq_false_iff_not]
      rintro rfl
      rw [hnone] at this
      cases this
  . next other hother =>
    obtain ⟨block, hblock, horder⟩ := h.byOrder order other hother
    rw [Map.get_erase]
    split
    . next heq =>
      rw [← heq, hblock, Option.filter_some, if_neg]
      simp [horder]
    . next hne =>
      cases hget : history.byHash[hash]? with
      | none => rfl
      | some kept =>
        rw [Option.filter_some, if_pos]
        simp only [ne_eq, decide_not, Bool.not_eq_true', decide_eq_false_iff_not]
        intro hsame
        have := (h.byHash hash kept hget).2
        rw [hsame, hother] at this
        exact hne (Option.some.inj this)

theorem Consistent.remove (order : ConsensusOrder) : (history.remove order).Consistent := by
  constructor
  case byHash =>
    intro hash block hget
    rw [h.get_remove, Option.filter_eq_some_iff] at hget
    obtain ⟨hhash, horder⟩ := h.byHash hash block hget.1
    refine ⟨hhash, ?_⟩
    unfold MaterializedHistory.remove
    split
    . exact horder
    . dsimp only
      rw [Map.get_erase, if_neg]
      . exact horder
      . exact Ne.symm (of_decide_eq_true hget.2)
  case byOrder =>
    intro other hash hget
    have hkept : order ≠ other ∧ history.byOrder[other]? = some hash := by
      unfold MaterializedHistory.remove at hget
      split at hget
      . next hnone =>
        refine ⟨?_, hget⟩
        rintro rfl
        rw [hnone] at hget
        cases hget
      . dsimp only at hget
        rw [Map.get_erase] at hget
        split at hget
        . cases hget
        . next hne => exact ⟨hne, hget⟩
    obtain ⟨block, hblock, horder⟩ := h.byOrder other hash hkept.2
    refine ⟨block, ?_, horder⟩
    rw [h.get_remove, hblock, Option.filter_some, if_pos]
    rw [horder]
    exact decide_eq_true (Ne.symm hkept.1)

theorem Consistent.foldl_remove (orders : List ConsensusOrder) :
    (orders.foldl MaterializedHistory.remove history).Consistent ∧ ∀ hash : BlockHash,
      (orders.foldl MaterializedHistory.remove history).byHash[hash]?
        = history.byHash[hash]?.filter fun block => block.point.order ∉ orders := by
  induction orders generalizing history with
  | nil =>
    refine ⟨h, fun hash => ?_⟩
    cases hget : history.byHash[hash]? with
    | none => exact hget
    | some block =>
      rw [Option.filter_some, if_pos (by simp)]
      exact hget
  | cons order orders ih =>
    obtain ⟨hconsistent, hget⟩ := ih (h.remove order)
    refine ⟨hconsistent, fun hash => ?_⟩
    rw [List.foldl_cons, hget, h.get_remove, Option.filter_filter]
    congr 1
    funext block
    simp

theorem Consistent.get_pruneBelow (sink : VspcPoint) (hash : BlockHash) :
    (history.pruneBelow sink).byHash[hash]?
      = history.byHash[hash]?.filter fun block => sink.order ≤ block.point.order := by
  unfold pruneBelow
  rw [(h.foldl_remove _).2 hash]
  cases hget : history.byHash[hash]? with
  | none => rfl
  | some block =>
    have hmem : block.point.order ∈ history.byOrder.toList.map Prod.fst :=
      List.mem_map.mpr ⟨(block.point.order, hash), (Map.mem_toList _ _ _).mpr (h.byHash hash block hget).2,
        rfl⟩
    rw [Option.filter_some, Option.filter_some]
    congr 1
    simp only [List.mem_filter, hmem, true_and, decide_eq_true_eq, not_lt]

theorem Consistent.pruneBelow (sink : VspcPoint) : (history.pruneBelow sink).Consistent :=
  (h.foldl_remove _).1

end MaterializedHistory

end Kgi
