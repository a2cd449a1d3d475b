import GraphInspector.ApiModel.Lemmas.History

/-!
Sizing a range of a history whose cumulative estimates follow a cost of the revisions.
-/

namespace Kgi

open Data

namespace GraphHistory

variable {candidateTargets : List Nat} {requestedTarget : Nat} {targetRevision : Nat}

structure Costed (cost : Nat → Nat) (history : GraphHistory) : Prop where
  cumulative : ∀ entry ∈ history.entries,
    entry.cumulativeEstimatedBytes = cost entry.delta.toRevisionId
  estimated : ∀ entry ∈ history.entries,
    cost entry.delta.fromRevisionId + entry.estimatedRawBytes = cost entry.delta.toRevisionId
  monotone : ∀ revision revision', revision ≤ revision' → revision' ≤ history.currentRevisionId →
    cost revision ≤ cost revision'

variable {history : GraphHistory} {cost : Nat → Nat} {fits : Nat → Bool} {fromRevisionId : Nat}

def fittingTo (history : GraphHistory) (fromRevisionId requestedTarget targetRevision : Nat) :
    GraphHistoryFittingRange :=
  ⟨targetRevision, targetRevision ≠ requestedTarget,
    (history.entries.drop (fromRevisionId - history.oldestAvailableRevision)).take
      (targetRevision - fromRevisionId)⟩

theorem Gapless.descendTargets_eq_ok (h : history.Gapless) (hcosted : history.Costed cost)
    {previousTarget : Option Nat} (holdest : history.oldestAvailableRevision ≤ fromRevisionId)
    (hrequested : requestedTarget ≤ history.currentRevisionId)
    (hwithin : ∀ target ∈ candidateTargets, fromRevisionId < target ∧ target ≤ requestedTarget)
    (hprevious : ∀ target ∈ candidateTargets, ∀ previous ∈ previousTarget, target < previous)
    (hdescending : candidateTargets.Pairwise (· > ·)) :
    descendTargets history.entries fits fromRevisionId requestedTarget
        (fromRevisionId - history.oldestAvailableRevision) (cost fromRevisionId) previousTarget
        candidateTargets
      = .ok ((candidateTargets.find? fun target => fits (cost target - cost fromRevisionId)).map
          (history.fittingTo fromRevisionId requestedTarget)) := by
  induction candidateTargets generalizing previousTarget with
  | nil => rfl
  | cons target candidateTargets ih =>
    obtain ⟨hlt, hle⟩ := hwithin target List.mem_cons_self
    obtain ⟨hsmaller, htail⟩ := List.pairwise_cons.mp hdescending
    -- the candidate is the right boundary of the entry that leaves the revision before it
    obtain ⟨entry, hentry, _, hto⟩ := h.exists_entry
      (show history.oldestAvailableRevision ≤ target - 1 by omega) (by omega)
    have hmem := List.mem_of_getElem? hentry
    have hcumulative := hcosted.cumulative entry hmem
    rw [hto, Nat.sub_add_cancel (by omega)] at hcumulative
    have hmonotone := hcosted.monotone fromRevisionId target (by omega) (by omega)
    rw [show target - 1 - history.oldestAvailableRevision
      = fromRevisionId - history.oldestAvailableRevision + (target - fromRevisionId - 1) by omega]
      at hentry
    rw [descendTargets, ensure_pos ⟨hlt, hle⟩, ok_bind, ensure_pos, ok_bind]
    . dsimp only
      rw [hentry, orError_eq_ok.mpr rfl, ok_bind, ensure_pos (by omega), ok_bind, hcumulative,
        ensure_pos hmonotone, ok_bind, List.find?_cons]
      by_cases hfits : fits (cost target - cost fromRevisionId) = true
      . rw [if_pos hfits, hfits]
        rfl
      . rw [if_neg hfits, Bool.not_eq_true] at *
        rw [hfits]
        apply ih
        . intro target' htarget'
          exact hwithin target' (List.mem_cons_of_mem target htarget')
        . intro target' htarget' previous hprevious'
          cases hprevious'
          exact hsmaller target' htarget'
        . exact htail
    . cases hcase : previousTarget with
      | none => rfl
      | some previous =>
        rw [Option.all_some, decide_eq_true_eq]
        exact hprevious target List.mem_cons_self previous hcase

theorem Gapless.fittingRange_eq_ok (h : history.Gapless) (hcosted : history.Costed cost)
    (hfloor : history.replayFloorRevision ≤ fromRevisionId)
    (holdest : history.oldestAvailableRevision ≤ fromRevisionId)
    (hrequested : requestedTarget ≤ history.currentRevisionId)
    (hlater : ∀ target ∈ requestedTarget :: candidateTargets, fromRevisionId < target)
    (hdescending : (requestedTarget :: candidateTargets).Pairwise (· > ·)) :
    history.fittingRange fromRevisionId (requestedTarget :: candidateTargets) fits
      = .ok (.ok (((requestedTarget :: candidateTargets).find? fun target =>
          fits (cost target - cost fromRevisionId)).map
            (history.fittingTo fromRevisionId requestedTarget))) := by
  have hlt := hlater requestedTarget List.mem_cons_self
  obtain ⟨entry, hentry, hfrom, hto⟩ := h.exists_entry holdest (by omega)
  have hmem := List.mem_of_getElem? hentry
  have hcumulative := hcosted.cumulative entry hmem
  have hestimated := hcosted.estimated entry hmem
  rw [hfrom] at hestimated
  unfold fittingRange
  dsimp only
  rw [if_neg (by omega), if_neg (by omega), if_neg (by omega), if_neg (by omega), if_neg (by omega),
    h.findBoundaryIndex_eq_some holdest (by omega)]
  dsimp only
  rw [hentry, orError_eq_ok.mpr rfl, ok_bind, ensure_pos (by omega), ok_bind,
    show entry.cumulativeEstimatedBytes - entry.estimatedRawBytes = cost fromRevisionId by omega,
    h.descendTargets_eq_ok hcosted holdest hrequested _ _ hdescending]
  . rfl
  . intro target htarget
    obtain rfl | htarget' := List.mem_cons.mp htarget
    . exact ⟨hlt, Nat.le_refl _⟩
    . refine ⟨hlater target htarget, ?_⟩
      exact Nat.le_of_lt ((List.pairwise_cons.mp hdescending).1 target htarget')
  . intro target _ previous hprevious
    cases hprevious

theorem fittingRange_eq_error (hlt : fromRevisionId < requestedTarget)
    (hgone : fromRevisionId < history.replayFloorRevision ∨
      fromRevisionId < history.oldestAvailableRevision) :
    ∃ error, history.fittingRange fromRevisionId (requestedTarget :: candidateTargets) fits
        = .ok (.error error) ∧
      (error = .startBeforeReplayFloor fromRevisionId history.replayFloorRevision ∨
        error = .startPruned fromRevisionId history.oldestAvailableRevision) := by
  unfold fittingRange
  dsimp only
  rw [if_neg (by omega), if_neg (by omega)]
  by_cases hfloor : fromRevisionId < history.replayFloorRevision
  . rw [if_pos hfloor]
    exact ⟨_, rfl, Or.inl rfl⟩
  . rw [if_neg hfloor, if_pos (hgone.resolve_left hfloor)]
    exact ⟨_, rfl, Or.inr rfl⟩

theorem Gapless.fittingTo_entries (h : history.Gapless) (requestedTarget : Nat)
    (holdest : history.oldestAvailableRevision ≤ fromRevisionId) (hlt : fromRevisionId < targetRevision)
    (htarget : targetRevision ≤ history.currentRevisionId) :
    ∃ first last, (history.fittingTo fromRevisionId requestedTarget targetRevision).entries.head?
        = some first ∧
      (history.fittingTo fromRevisionId requestedTarget targetRevision).entries.getLast? = some last ∧
      first ∈ history.entries ∧ last ∈ history.entries ∧
      first.delta.fromRevisionId = fromRevisionId ∧
      first.delta.toRevisionId = fromRevisionId + 1 ∧ last.delta.toRevisionId = targetRevision := by
  have hlength := h.length_le
  have heq := h.oldestAvailableRevision_eq
  obtain ⟨first, hfirst, hfrom, hto⟩ := h.exists_entry holdest (by omega)
  obtain ⟨last, hlast, _, hlastTo⟩ := h.exists_entry
    (show history.oldestAvailableRevision ≤ targetRevision - 1 by omega) (by omega)
  refine ⟨first, last, ?_, ?_, List.mem_of_getElem? hfirst, List.mem_of_getElem? hlast, hfrom, hto, ?_⟩
  . unfold fittingTo
    rw [List.head?_eq_getElem?, List.getElem?_take, if_pos (by omega), List.getElem?_drop,
      Nat.add_zero, hfirst]
  . unfold fittingTo
    rw [List.getLast?_eq_getElem?, List.length_take, List.length_drop, List.getElem?_take,
      if_pos (by omega), List.getElem?_drop]
    rw [← hlast]
    congr 1
    omega
  . omega

theorem Gapless.estimatedRawBytes_fittingTo (h : history.Gapless) (hcosted : history.Costed cost)
    {requestedTarget targetRevision : Nat} (holdest : history.oldestAvailableRevision ≤ fromRevisionId)
    (hlt : fromRevisionId < targetRevision) (htarget : targetRevision ≤ history.currentRevisionId) :
    (history.fittingTo fromRevisionId requestedTarget targetRevision).estimatedRawBytes
      = .ok (cost targetRevision - cost fromRevisionId) := by
  obtain ⟨first, last, hfirst, hlast, hmem, hmem', hfrom, hto, hlastTo⟩ :=
    h.fittingTo_entries requestedTarget holdest hlt htarget
  have hcumulative := hcosted.cumulative first hmem
  have hestimated := hcosted.estimated first hmem
  have hcumulative' := hcosted.cumulative last hmem'
  have hmonotone := hcosted.monotone fromRevisionId targetRevision (by omega) htarget
  rw [hfrom] at hestimated
  rw [hlastTo] at hcumulative'
  unfold GraphHistoryFittingRange.estimatedRawBytes
  rw [hfirst, hlast, orError_eq_ok.mpr rfl, ok_bind, orError_eq_ok.mpr rfl, ok_bind,
    ensure_pos (by omega), ok_bind]
  dsimp only
  rw [ensure_pos (by omega), ok_bind, pure_eq_ok]
  omega

section Reached

variable {outcome : Except GraphHistoryAppendError Unit} {replayability : GraphHistoryReplayability}

inductive Reached : GraphHistory → Prop where
  | new : Reached .new
  | append {history history' : GraphHistory} {delta : GraphDelta} {estimatedRawBytes : Nat}
      {replayability : GraphHistoryReplayability} {outcome : Except GraphHistoryAppendError Unit}
      (h : Reached history)
      (hok : history.append delta estimatedRawBytes replayability = .ok (history', outcome)) :
      Reached history'
  | prune {history : GraphHistory} (h : Reached history) (headLowLevel : Nat) :
      Reached (history.prune headLowLevel)

variable {history' : GraphHistory} {delta : GraphDelta} {estimatedRawBytes : Nat}

theorem append_cases
    (hok : history.append delta estimatedRawBytes replayability = .ok (history', outcome)) :
    history' = history ∨ delta.fromRevisionId = history.currentRevisionId ∧
      delta.toRevisionId = delta.fromRevisionId + 1 := by
  unfold GraphHistory.append at hok
  by_cases hfrom : history.currentRevisionId = delta.fromRevisionId
  . rw [if_neg (not_not.mpr hfrom)] at hok
    obtain ⟨_, _, hok⟩ := bind_eq_ok.mp hok
    by_cases hto : delta.toRevisionId = delta.fromRevisionId + 1
    . exact Or.inr ⟨hfrom.symm, hto⟩
    . rw [if_pos hto, pure_eq_ok, Prod.mk.injEq] at hok
      exact Or.inl hok.1.symm
  . rw [if_pos hfrom, pure_eq_ok, Prod.mk.injEq] at hok
    exact Or.inl hok.1.symm

theorem Costed.prune (h : history.Costed cost) (headLowLevel : Nat) :
    (history.prune headLowLevel).Costed cost where
  cumulative := fun entry hentry => h.cumulative entry ((List.dropWhile_suffix _).mem hentry)
  estimated := fun entry hentry => h.estimated entry ((List.dropWhile_suffix _).mem hentry)
  monotone := h.monotone

theorem Costed.append (h : history.Costed cost) (hgapless : history.Gapless)
    (hcurrent : cost history.currentRevisionId = history.currentCumulativeEstimatedBytes)
    (hfrom : delta.fromRevisionId = history.currentRevisionId)
    (hto : delta.toRevisionId = delta.fromRevisionId + 1)
    (hok : history.append delta estimatedRawBytes replayability = .ok (history', outcome)) :
    ∃ cost', history'.Costed cost' ∧
      cost' history'.currentRevisionId = history'.currentCumulativeEstimatedBytes := by
  obtain ⟨_, _, hrevision, hcumulative, happended⟩ := append_eq_ok hfrom hto hok
  have hkept : ∀ revision ≤ history.currentRevisionId, Function.update cost
      history'.currentRevisionId history'.currentCumulativeEstimatedBytes revision
        = cost revision := fun revision hle => Function.update_of_ne (by omega) _ _
  have hentries : ∀ entry ∈ history'.entries, entry ∈ history.entries ∨
      entry = ⟨delta, estimatedRawBytes,
        history.currentCumulativeEstimatedBytes + estimatedRawBytes⟩ := by
    intro entry hentry
    obtain ⟨_, _, hentries⟩ | ⟨_, _, hentries⟩ := happended
    . rw [hentries, List.mem_append, List.mem_singleton] at hentry
      exact hentry
    . rw [hentries] at hentry
      exact absurd hentry List.not_mem_nil
  refine ⟨_, ⟨?_, ?_, ?_⟩, Function.update_self history'.currentRevisionId
    history'.currentCumulativeEstimatedBytes cost⟩
  . intro entry hentry
    obtain hold | rfl := hentries entry hentry
    . obtain ⟨hlt, hnext⟩ := hgapless.revision_of_mem hold
      rw [hkept _ (by omega)]
      exact h.cumulative entry hold
    . dsimp only
      rw [hto, hfrom, ← hrevision, Function.update_self, hcumulative]
  . intro entry hentry
    obtain hold | rfl := hentries entry hentry
    . obtain ⟨hlt, hnext⟩ := hgapless.revision_of_mem hold
      rw [hkept _ (by omega), hkept _ (by omega)]
      exact h.estimated entry hold
    . dsimp only
      rw [hto, hfrom, ← hrevision, Function.update_self, hkept _ (Nat.le_refl _), hcurrent,
        hcumulative]
  . intro revision revision' hle hbound
    by_cases hold : revision' ≤ history.currentRevisionId
    . rw [hkept _ (by omega), hkept _ hold]
      exact h.monotone revision revision' hle hold
    . obtain rfl : revision' = history'.currentRevisionId := by omega
      rw [Function.update_self]
      by_cases hnew : revision = history'.currentRevisionId
      . rw [hnew, Function.update_self]
      . rw [hkept _ (by omega), hcumulative, ← hcurrent]
        exact Nat.le_trans (h.monotone revision _ (by omega) (Nat.le_refl _)) (Nat.le_add_right _ _)

theorem Reached.costed (h : history.Reached) : history.Gapless ∧
    ∃ cost, history.Costed cost ∧
      cost history.currentRevisionId = history.currentCumulativeEstimatedBytes := by
  induction h with
  | new =>
    refine ⟨new_gapless, fun _ => 0, ⟨?_, ?_, ?_⟩, rfl⟩
    . exact fun entry hentry => absurd hentry List.not_mem_nil
    . exact fun entry hentry => absurd hentry List.not_mem_nil
    . exact fun _ _ _ _ => Nat.le_refl 0
  | append h hok ih =>
    obtain ⟨hgapless, cost, hcosted, hcurrent⟩ := ih
    obtain rfl | ⟨hfrom, hto⟩ := append_cases hok
    . exact ⟨hgapless, cost, hcosted, hcurrent⟩
    . exact ⟨(hgapless.append hfrom hto hok).2.1,
        hcosted.append hgapless hcurrent hfrom hto hok⟩
  | prune h headLowLevel ih =>
    obtain ⟨hgapless, cost, hcosted, hcurrent⟩ := ih
    exact ⟨hgapless.prune headLowLevel, cost, hcosted.prune headLowLevel, hcurrent⟩

end Reached

section Farthest

def rangeEntries (history : GraphHistory) (fromRevisionId targetRevisionId : Nat) :
    List GraphHistoryEntry :=
  match history.range fromRevisionId targetRevisionId with
  | .ok (.deltas _ _ _ entries) => entries
  | _ => []

def summedEstimate (entries : List GraphHistoryEntry) : Nat :=
  (entries.map GraphHistoryEntry.estimatedRawBytes).sum

theorem summedEstimate_eq {revision : Nat} {entries : List GraphHistoryEntry}
    (h : Consecutive revision entries)
    (hestimated : ∀ entry ∈ entries,
      cost entry.delta.fromRevisionId + entry.estimatedRawBytes = cost entry.delta.toRevisionId) :
    cost revision + summedEstimate entries = cost (revision + entries.length) := by
  unfold summedEstimate
  induction entries generalizing revision with
  | nil => rfl
  | cons entry entries ih =>
    obtain ⟨hfrom, hto, htail⟩ := Consecutive.cons_iff.mp h
    have hfirst := hestimated entry List.mem_cons_self
    rw [hfrom, hto] at hfirst
    have hrest := ih htail fun entry' hentry' => hestimated entry' (List.mem_cons_of_mem _ hentry')
    rw [List.map_cons, List.sum_cons, List.length_cons,
      show revision + (entries.length + 1) = revision + 1 + entries.length by omega]
    omega

theorem Gapless.range_fittingTo (h : history.Gapless) (requestedTarget : Nat)
    (hfloor : history.replayFloorRevision ≤ fromRevisionId)
    (holdest : history.oldestAvailableRevision ≤ fromRevisionId) (hlt : fromRevisionId < targetRevision)
    (htarget : targetRevision ≤ history.currentRevisionId) :
    history.range fromRevisionId targetRevision = .ok (.deltas fromRevisionId targetRevision
      targetRevision (history.fittingTo fromRevisionId requestedTarget targetRevision).entries) := by
  rw [h.range_eq_deltas hlt hfloor holdest (by omega), Nat.min_eq_left htarget]
  rfl

theorem Gapless.summedEstimate_range (h : history.Gapless) (hcosted : history.Costed cost)
    (hfloor : history.replayFloorRevision ≤ fromRevisionId)
    (holdest : history.oldestAvailableRevision ≤ fromRevisionId) (hlt : fromRevisionId < targetRevision)
    (htarget : targetRevision ≤ history.currentRevisionId) :
    summedEstimate (history.rangeEntries fromRevisionId targetRevision)
      = cost targetRevision - cost fromRevisionId := by
  have hlength := h.length_le
  have heq := h.oldestAvailableRevision_eq
  unfold rangeEntries
  rw [h.range_fittingTo targetRevision hfloor holdest hlt htarget]
  have hconsecutive := (h.consecutive.drop (fromRevisionId - history.oldestAvailableRevision)).take
    (targetRevision - fromRevisionId)
  rw [← heq, Nat.add_sub_cancel' holdest] at hconsecutive
  have hsum := summedEstimate_eq hconsecutive
    fun entry hentry => hcosted.estimated entry (List.mem_of_mem_drop (List.mem_of_mem_take hentry))
  rw [List.length_take, List.length_drop, Nat.min_eq_left (by omega),
    Nat.add_sub_cancel' (Nat.le_of_lt hlt)] at hsum
  unfold fittingTo
  dsimp only
  omega

def Farthest (history : GraphHistory) (fromRevisionId : Nat) (candidateTargets : List Nat)
    (fits : Nat → Bool) : Option GraphHistoryFittingRange → Prop
  | none => ∀ target ∈ candidateTargets,
      fits (summedEstimate (history.rangeEntries fromRevisionId target)) = false
  | some fitting => fitting.targetRevision ∈ candidateTargets ∧
      fits (summedEstimate (history.rangeEntries fromRevisionId fitting.targetRevision)) = true ∧
      (∀ target ∈ candidateTargets,
        fits (summedEstimate (history.rangeEntries fromRevisionId target)) = true →
        target ≤ fitting.targetRevision) ∧
      history.range fromRevisionId fitting.targetRevision = .ok (.deltas fromRevisionId
        fitting.targetRevision fitting.targetRevision fitting.entries) ∧
      fitting.estimatedRawBytes = .ok (summedEstimate fitting.entries) ∧
      (fitting.shortened = true ↔ candidateTargets.head? ≠ some fitting.targetRevision)

theorem le_of_find?_descending {targets : List Nat} {p : Nat → Bool} {found : Nat}
    (hdescending : targets.Pairwise (· > ·)) (hfound : targets.find? p = some found)
    (target : Nat) (hmem : target ∈ targets) (hp : p target = true) : target ≤ found := by
  obtain ⟨_, before, after, rfl, hbefore⟩ := List.find?_eq_some_iff_append.mp hfound
  rw [List.pairwise_append, List.pairwise_cons] at hdescending
  rw [List.mem_append, List.mem_cons] at hmem
  obtain hmem | rfl | hmem := hmem
  . have hfalse := hbefore target hmem
    rw [hp] at hfalse
    cases hfalse
  . exact Nat.le_refl _
  . exact Nat.le_of_lt (hdescending.2.1.1 target hmem)

theorem Gapless.farthest (h : history.Gapless) (hcosted : history.Costed cost)
    (hfloor : history.replayFloorRevision ≤ fromRevisionId)
    (holdest : history.oldestAvailableRevision ≤ fromRevisionId)
    (hretained : ∀ target ∈ requestedTarget :: candidateTargets,
      fromRevisionId < target ∧ target ≤ history.currentRevisionId)
    (hdescending : (requestedTarget :: candidateTargets).Pairwise (· > ·)) :
    Farthest history fromRevisionId (requestedTarget :: candidateTargets) fits
      (((requestedTarget :: candidateTargets).find? fun target =>
        fits (cost target - cost fromRevisionId)).map
          (history.fittingTo fromRevisionId requestedTarget)) := by
  have hsummed : ∀ target ∈ requestedTarget :: candidateTargets,
      summedEstimate (history.rangeEntries fromRevisionId target)
        = cost target - cost fromRevisionId := fun target htarget =>
    h.summedEstimate_range hcosted hfloor holdest (hretained target htarget).1
      (hretained target htarget).2
  cases hfound : (requestedTarget :: candidateTargets).find? fun target =>
      fits (cost target - cost fromRevisionId) with
  | none =>
    intro target htarget
    rw [hsummed target htarget]
    exact Bool.eq_false_iff.mpr (List.find?_eq_none.mp hfound target htarget)
  | some target =>
    have hmem := List.mem_of_find?_eq_some hfound
    obtain ⟨hlt, hle⟩ := hretained target hmem
    have hrange := h.range_fittingTo requestedTarget hfloor holdest hlt hle
    have hsum := hsummed target hmem
    refine ⟨hmem, ?_, ?_, hrange, ?_, ?_⟩
    . change fits (summedEstimate (history.rangeEntries fromRevisionId target)) = true
      rw [hsum]
      have hfits := List.find?_some hfound
      exact hfits
    . intro target' htarget' hfits
      rw [hsummed target' htarget'] at hfits
      exact le_of_find?_descending hdescending hfound target' htarget' hfits
    . rw [h.estimatedRawBytes_fittingTo hcosted holdest hlt hle, ← hsum]
      unfold rangeEntries
      rw [hrange]
    . change decide (target ≠ requestedTarget) = true ↔ some requestedTarget ≠ some target
      rw [decide_eq_true_eq, ne_eq, ne_eq, Option.some.injEq, eq_comm (a := target)]

/--
Sizing a replayable source returns the farthest retained candidate that fits.
-/
theorem fittingRange_farthest (h : history.Reached)
    (hfloor : history.replayFloorRevision ≤ fromRevisionId)
    (holdest : history.oldestAvailableRevision ≤ fromRevisionId) (candidateTargets : List Nat)
    (hretained : ∀ target ∈ candidateTargets,
      fromRevisionId < target ∧ target ≤ history.currentRevisionId)
    (hdescending : candidateTargets.Pairwise (· > ·)) (fits : Nat → Bool) :
    ∃ fitting, history.fittingRange fromRevisionId candidateTargets fits = .ok (.ok fitting) ∧
      Farthest history fromRevisionId candidateTargets fits fitting := by
  obtain ⟨hgapless, cost, hcosted, _⟩ := h.costed
  cases candidateTargets with
  | nil => exact ⟨none, rfl, fun target htarget => absurd htarget List.not_mem_nil⟩
  | cons requestedTarget candidateTargets =>
    refine ⟨_, hgapless.fittingRange_eq_ok hcosted hfloor holdest
      (hretained requestedTarget List.mem_cons_self).2
      (fun target htarget => (hretained target htarget).1) hdescending, ?_⟩
    exact hgapless.farthest hcosted hfloor holdest hretained hdescending

def advancingDelta (revision : Nat) : GraphDelta :=
  ⟨revision, revision + 1, 0, 1, ∅, ∅, [], ∅, ∅, Nat.lt_succ_self revision, Nat.one_pos⟩

def threeDeltas : GraphHistory :=
  ⟨3, 60, 0, [⟨advancingDelta 0, 10, 10⟩, ⟨advancingDelta 1, 20, 30⟩, ⟨advancingDelta 2, 30, 60⟩]⟩

theorem threeDeltas_reached : threeDeltas.Reached := by
  let first : GraphHistory := ⟨1, 10, 0, [⟨advancingDelta 0, 10, 10⟩]⟩
  let second : GraphHistory := ⟨2, 30, 0, first.entries ++ [⟨advancingDelta 1, 20, 30⟩]⟩
  have hfirst : GraphHistory.new.append (advancingDelta 0) 10 .replayable = .ok (first, .ok ()) := rfl
  have hsecond : first.append (advancingDelta 1) 20 .replayable = .ok (second, .ok ()) := rfl
  have hthird : second.append (advancingDelta 2) 30 .replayable = .ok (threeDeltas, .ok ()) := rfl
  exact .append (.append (.append .new hfirst) hsecond) hthird

theorem fittingRange_farthest_shortened :
    threeDeltas.Reached ∧
      ∃ fitting, threeDeltas.fittingRange 0 [3, 1] (fun estimate => estimate < 40)
          = .ok (.ok fitting) ∧
        Farthest threeDeltas 0 [3, 1] (fun estimate => estimate < 40) fitting :=
  ⟨threeDeltas_reached, fittingRange_farthest threeDeltas_reached (Nat.zero_le 0) (Nat.zero_le 0)
    [3, 1] (by decide) (by decide) (fun estimate => estimate < 40)⟩

end Farthest

end GraphHistory

end Kgi
