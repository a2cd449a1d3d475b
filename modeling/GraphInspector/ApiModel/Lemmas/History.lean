import GraphInspector.ApiModel.Impl.History

/-!
A history retains consecutive revisions up to the current one, at or above its replay floor, so a range
is a segment of its entries.
-/

namespace Kgi

open Data

variable {entry : GraphHistoryEntry}

def Consecutive (revision : Nat) (entries : List GraphHistoryEntry) : Prop :=
  ∀ (index : Nat) (entry : GraphHistoryEntry), entries[index]? = some entry →
    entry.delta.fromRevisionId = revision + index ∧
    entry.delta.toRevisionId = entry.delta.fromRevisionId + 1

namespace Consecutive

variable {revision : Nat} {entries : List GraphHistoryEntry}

theorem nil (revision : Nat) : Consecutive revision [] := by
  intro index entry h
  simp at h

theorem drop (h : Consecutive revision entries) (n : Nat) :
    Consecutive (revision + n) (entries.drop n) := by
  intro index entry hentry
  rw [List.getElem?_drop] at hentry
  obtain ⟨hfrom, hto⟩ := h _ _ hentry
  exact ⟨by omega, hto⟩

theorem take (h : Consecutive revision entries) (n : Nat) :
    Consecutive revision (entries.take n) := by
  intro index entry hentry
  rw [List.getElem?_take] at hentry
  split at hentry
  . exact h _ _ hentry
  . cases hentry

theorem append (h : Consecutive revision entries)
    (hfrom : entry.delta.fromRevisionId = revision + entries.length)
    (hto : entry.delta.toRevisionId = entry.delta.fromRevisionId + 1) :
    Consecutive revision (entries ++ [entry]) := by
  intro index entry' hentry
  rw [List.getElem?_append] at hentry
  split at hentry
  . exact h _ _ hentry
  . next hle =>
    rw [List.getElem?_singleton] at hentry
    split at hentry
    . cases hentry
      exact ⟨by omega, hto⟩
    . cases hentry

theorem cons_iff :
    Consecutive revision (entry :: entries) ↔
      entry.delta.fromRevisionId = revision ∧ entry.delta.toRevisionId = revision + 1 ∧
        Consecutive (revision + 1) entries := by
  constructor
  . intro h
    obtain ⟨hfrom, hto⟩ := h 0 entry rfl
    refine ⟨hfrom, by omega, ?_⟩
    exact h.drop 1
  . rintro ⟨hfrom, hto, htail⟩ index entry' hentry
    cases index with
    | zero =>
      cases hentry
      exact ⟨hfrom, by omega⟩
    | succ index =>
      rw [List.getElem?_cons_succ] at hentry
      obtain ⟨hfrom', hto'⟩ := htail index entry' hentry
      exact ⟨by omega, hto'⟩

theorem increasing (h : Consecutive revision entries) :
    Increasing (fun entry => entry.delta.fromRevisionId) entries := by
  intro i j a b ha hb hlt
  have := (h i a ha).1
  have := (h j b hb).1
  dsimp only
  omega

theorem selectEntries (h : Consecutive revision entries) {targetRevisionId : Nat}
    (hlt : revision < targetRevisionId) :
    GraphHistory.selectEntries targetRevisionId revision entries
      = (min targetRevisionId (revision + entries.length),
          entries.take (targetRevisionId - revision)) := by
  induction entries generalizing revision with
  | nil =>
    rw [List.length_nil, Nat.add_zero, Nat.min_eq_right (Nat.le_of_lt hlt), List.take_nil]
    rfl
  | cons entry entries ih =>
    rw [cons_iff] at h
    obtain ⟨_, hto, htail⟩ := h
    unfold GraphHistory.selectEntries
    rw [hto, List.length_cons]
    split
    . next heq =>
      subst heq
      rw [Nat.min_eq_left (by omega), Nat.add_sub_cancel_left]
      rfl
    . next hne =>
      obtain ⟨n, hn⟩ : ∃ n, targetRevisionId - revision = n + 1 := ⟨targetRevisionId - revision - 1, by omega⟩
      rw [ih htail (by omega), hn, List.take_succ_cons,
        show targetRevisionId - (revision + 1) = n by omega,
        show revision + 1 + entries.length = revision + (entries.length + 1) by omega]

end Consecutive

namespace GraphHistory

variable {outcome : Except GraphHistoryAppendError Unit} {replayability : GraphHistoryReplayability}
  {fromRevisionId targetRevisionId : Nat}

structure Gapless (history : GraphHistory) : Prop where
  length_le : history.replayFloorRevision + history.entries.length ≤ history.currentRevisionId
  consecutive : Consecutive (history.currentRevisionId - history.entries.length) history.entries

variable {history : GraphHistory}

theorem new_gapless : new.Gapless :=
  ⟨Nat.le_refl 0, Consecutive.nil 0⟩

section Gapless

variable (h : history.Gapless)
include h

theorem Gapless.oldestAvailableRevision_eq :
    history.oldestAvailableRevision = history.currentRevisionId - history.entries.length := by
  unfold oldestAvailableRevision
  cases hentries : history.entries with
  | nil => rfl
  | cons entry entries =>
    have hfirst := h.consecutive 0 entry (by rw [hentries]; rfl)
    rw [hentries] at hfirst
    exact hfirst.1

theorem Gapless.revision_of_mem (hentry : entry ∈ history.entries) :
    entry.delta.fromRevisionId < history.currentRevisionId ∧
      entry.delta.toRevisionId = entry.delta.fromRevisionId + 1 := by
  obtain ⟨index, hindex⟩ := List.getElem?_of_mem hentry
  obtain ⟨hfrom, hto⟩ := h.consecutive index entry hindex
  have hlt := (List.getElem?_eq_some_iff.mp hindex).1
  have := h.length_le
  exact ⟨by omega, hto⟩

theorem Gapless.prune (headLowLevel : Nat) : (history.prune headLowLevel).Gapless := by
  obtain ⟨pruned, hpruned⟩ := List.dropWhile_suffix
    (fun entry : GraphHistoryEntry => entry.delta.headLevel < headLowLevel) (l := history.entries)
  have hlength := congrArg List.length hpruned
  rw [List.length_append] at hlength
  have hdrop := h.consecutive.drop pruned.length
  nth_rewrite 2 [← hpruned] at hdrop
  rw [List.drop_left] at hdrop
  have hle := h.length_le
  unfold GraphHistory.prune
  constructor
  . dsimp only
    omega
  . dsimp only
    rw [show history.currentRevisionId - (history.entries.dropWhile
        fun entry => entry.delta.headLevel < headLowLevel).length
        = history.currentRevisionId - history.entries.length + pruned.length by omega]
    exact hdrop

theorem Gapless.exists_entry (holdest : history.oldestAvailableRevision ≤ fromRevisionId)
    (hcurrent : fromRevisionId < history.currentRevisionId) :
    ∃ entry, history.entries[fromRevisionId - history.oldestAvailableRevision]? = some entry ∧
      entry.delta.fromRevisionId = fromRevisionId ∧
      entry.delta.toRevisionId = fromRevisionId + 1 := by
  have hlength := h.length_le
  have heq := h.oldestAvailableRevision_eq
  have hbound : fromRevisionId - history.oldestAvailableRevision < history.entries.length := by omega
  have hentry := List.getElem?_eq_getElem hbound
  obtain ⟨hfrom, hto⟩ := h.consecutive _ _ hentry
  exact ⟨_, hentry, by omega, by omega⟩

theorem Gapless.findBoundaryIndex_eq_some
    (holdest : history.oldestAvailableRevision ≤ fromRevisionId)
    (hcurrent : fromRevisionId < history.currentRevisionId) :
    findBoundaryIndex history.entries fromRevisionId
      = some (fromRevisionId - history.oldestAvailableRevision) := by
  unfold findBoundaryIndex
  rw [binarySearch_eq_some_iff h.consecutive.increasing]
  obtain ⟨entry, hentry, hfrom, _⟩ := h.exists_entry holdest hcurrent
  exact ⟨entry, hentry, hfrom⟩

theorem Gapless.range_eq_deltas (hlt : fromRevisionId < targetRevisionId)
    (hfloor : history.replayFloorRevision ≤ fromRevisionId)
    (holdest : history.oldestAvailableRevision ≤ fromRevisionId)
    (hcurrent : fromRevisionId < history.currentRevisionId) :
    history.range fromRevisionId targetRevisionId
      = .ok (.deltas fromRevisionId targetRevisionId
          (min targetRevisionId history.currentRevisionId)
          ((history.entries.drop (fromRevisionId - history.oldestAvailableRevision)).take
            (targetRevisionId - fromRevisionId))) := by
  have hlength := h.length_le
  have heq := h.oldestAvailableRevision_eq
  have hstart := h.consecutive.drop (fromRevisionId - history.oldestAvailableRevision)
  rw [← heq, Nat.add_sub_cancel' holdest] at hstart
  unfold range
  rw [if_neg (by omega), if_neg (by omega), if_neg (by omega), if_neg (by omega), if_neg (by omega),
    h.findBoundaryIndex_eq_some holdest hcurrent]
  dsimp only
  rw [hstart.selectEntries hlt]
  rw [List.length_drop, show fromRevisionId +
    (history.entries.length - (fromRevisionId - history.oldestAvailableRevision))
      = history.currentRevisionId by omega]

theorem Gapless.range_isDeltas_iff (hlt : fromRevisionId < targetRevisionId) :
    (∃ start requested reached entries, history.range fromRevisionId targetRevisionId
        = .ok (.deltas start requested reached entries)) ↔
      history.replayFloorRevision ≤ fromRevisionId ∧
        history.oldestAvailableRevision ≤ fromRevisionId ∧
        fromRevisionId < history.currentRevisionId := by
  constructor
  . rintro ⟨start, requested, reached, entries, hrange⟩
    unfold range at hrange
    rw [if_neg (by omega), if_neg (by omega)] at hrange
    split at hrange
    . cases hrange
    . next hfloor =>
      split at hrange
      . cases hrange
      . next holdest =>
        split at hrange
        . cases hrange
        . split at hrange
          . cases hrange
          . next hindex =>
            unfold findBoundaryIndex at hindex
            rw [binarySearch_eq_some_iff h.consecutive.increasing] at hindex
            obtain ⟨entry, hentry, hfrom⟩ := hindex
            have hbound := (List.getElem?_eq_some_iff.mp hentry).1
            have := (h.consecutive _ _ hentry).1
            have := h.length_le
            exact ⟨by omega, by omega, by omega⟩
  . rintro ⟨hfloor, holdest, hcurrent⟩
    exact ⟨_, _, _, _, h.range_eq_deltas hlt hfloor holdest hcurrent⟩

end Gapless

variable {history' : GraphHistory} {delta : GraphDelta} {estimatedRawBytes : Nat}

theorem append_eq_ok (hfrom : delta.fromRevisionId = history.currentRevisionId)
    (hto : delta.toRevisionId = delta.fromRevisionId + 1)
    (hok : history.append delta estimatedRawBytes replayability = .ok (history', outcome)) :
    outcome = .ok () ∧
      history.currentCumulativeEstimatedBytes + estimatedRawBytes ≤ u64Max ∧
      history'.currentRevisionId = history.currentRevisionId + 1 ∧
      history'.currentCumulativeEstimatedBytes
        = history.currentCumulativeEstimatedBytes + estimatedRawBytes ∧
      (replayability = .replayable ∧ history'.replayFloorRevision = history.replayFloorRevision ∧
          history'.entries = history.entries ++ [⟨delta, estimatedRawBytes,
            history.currentCumulativeEstimatedBytes + estimatedRawBytes⟩] ∨
        replayability = .replayBarrier ∧
          history'.replayFloorRevision = history.currentRevisionId + 1 ∧ history'.entries = []) := by
  unfold GraphHistory.append at hok
  rw [if_neg (not_not.mpr hfrom.symm)] at hok
  simp only [bind_eq_ok, ensure_eq_ok] at hok
  obtain ⟨_, _, hok⟩ := hok
  rw [if_neg (not_not.mpr hto)] at hok
  simp only [bind_eq_ok, ensure_eq_ok] at hok
  obtain ⟨_, hfits, hok⟩ := hok
  have htarget : delta.toRevisionId = history.currentRevisionId + 1 := by rw [hto, hfrom]
  cases replayability with
  | replayable =>
    rw [pure_eq_ok, Prod.mk.injEq] at hok
    obtain ⟨rfl, rfl⟩ := hok
    exact ⟨rfl, hfits, htarget, rfl, Or.inl ⟨rfl, rfl, rfl⟩⟩
  | replayBarrier =>
    rw [pure_eq_ok, Prod.mk.injEq] at hok
    obtain ⟨rfl, rfl⟩ := hok
    exact ⟨rfl, hfits, htarget, rfl, Or.inr ⟨rfl, htarget, rfl⟩⟩

theorem Gapless.append (h : history.Gapless)
    (hfrom : delta.fromRevisionId = history.currentRevisionId)
    (hto : delta.toRevisionId = delta.fromRevisionId + 1)
    (hok : history.append delta estimatedRawBytes replayability = .ok (history', outcome)) :
    outcome = .ok () ∧ history'.Gapless ∧
      history'.currentRevisionId = history.currentRevisionId + 1 ∧
      ∀ entry ∈ history'.entries, entry ∈ history.entries ∨ entry.delta = delta := by
  have hlength := h.length_le
  obtain ⟨houtcome, _, hcurrent, _, ⟨_, hfloor, hentries⟩ | ⟨_, hfloor, hentries⟩⟩ :=
    append_eq_ok hfrom hto hok
  . refine ⟨houtcome, ⟨?_, ?_⟩, hcurrent, ?_⟩
    . rw [hfloor, hentries, hcurrent, List.length_append, List.length_singleton]
      omega
    . rw [hentries, hcurrent, List.length_append, List.length_singleton, Nat.add_sub_add_right]
      apply h.consecutive.append
      . dsimp only
        omega
      . exact hto
    . intro entry hentry
      rw [hentries, List.mem_append, List.mem_singleton] at hentry
      obtain hentry | rfl := hentry
      . exact Or.inl hentry
      . exact Or.inr rfl
  . refine ⟨houtcome, ⟨?_, ?_⟩, hcurrent, ?_⟩
    . rw [hfloor, hentries, hcurrent]
      exact Nat.le_refl _
    . rw [hentries]
      exact Consecutive.nil _
    . intro entry hentry
      rw [hentries] at hentry
      exact absurd hentry List.not_mem_nil

end GraphHistory

end Kgi
