import GraphInspector.ApiCore.Impl.Delta
import GraphInspector.Data.Sequence
import Mathlib.Data.List.TakeWhile
import Mathlib.Order.Bounds.Defs

/-!
The ladder of a source descends strictly from the ordinary successor to the next revision, and a completed
request is given one of its boundaries.
-/

namespace Kgi

open Data

def nextMultiple (revision span : Nat) : Nat :=
  (revision / span + 1) * span

theorem lt_nextMultiple (revision : Nat) {span : Nat} (h : 0 < span) :
    revision < nextMultiple revision span := by
  unfold nextMultiple
  rw [← Nat.div_lt_iff_lt_mul h]
  exact Nat.lt_succ_self _

theorem nextMultiple_le {revision span multiple : Nat} (hspan : 0 < span) (hdvd : span ∣ multiple)
    (hlt : revision < multiple) : nextMultiple revision span ≤ multiple := by
  obtain ⟨quotient, rfl⟩ := hdvd
  rw [Nat.mul_comm span] at hlt ⊢
  apply Nat.mul_le_mul_right
  exact (Nat.div_lt_iff_lt_mul hspan).mpr hlt

theorem isLeast_nextMultiple (revision : Nat) {span : Nat} (h : 0 < span) :
    IsLeast {multiple | span ∣ multiple ∧ revision < multiple} (nextMultiple revision span) := by
  constructor
  . exact ⟨Nat.dvd_mul_left span _, lt_nextMultiple revision h⟩
  . rintro multiple ⟨hdvd, hlt⟩
    exact nextMultiple_le h hdvd hlt

theorem nextMultiple_le_add (revision span : Nat) : nextMultiple revision span ≤ revision + span := by
  have := Nat.div_mul_le_self revision span
  unfold nextMultiple
  rw [Nat.add_mul, Nat.one_mul]
  omega

theorem nextMultiple_mono (revision : Nat) {j k : Nat} (h : j ≤ k) :
    nextMultiple revision (2 ^ j) ≤ nextMultiple revision (2 ^ k) := by
  apply nextMultiple_le (Nat.two_pow_pos j)
  . exact Nat.dvd_trans (Nat.pow_dvd_pow 2 h) (Nat.dvd_mul_left (2 ^ k) _)
  . exact lt_nextMultiple revision (Nat.two_pow_pos k)

theorem nextMultiple_one (revision : Nat) : nextMultiple revision (2 ^ 0) = revision + 1 := by
  unfold nextMultiple
  rw [Nat.pow_zero, Nat.div_one, Nat.mul_one]

theorem getLast?_of_pairwise {l : List Nat} {a : Nat} (h : l.Pairwise (· > ·)) (hmem : a ∈ l)
    (hle : ∀ b ∈ l, a ≤ b) : l.getLast? = some a := by
  obtain ⟨initial, last, rfl⟩ := (List.eq_nil_or_concat' l).resolve_left (List.ne_nil_of_mem hmem)
  rw [List.getLast?_concat, Option.some.injEq]
  obtain hmem | hmem := List.mem_append.mp hmem
  . have hbelow := (List.pairwise_append.mp h).2.2 a hmem last (List.mem_singleton_self last)
    have := hle last (List.mem_append_right _ (List.mem_singleton_self last))
    omega
  . exact (List.mem_singleton.mp hmem).symm

namespace DeltaTargetLadder

structure Descends (source : Nat) (targets : List Nat) : Prop where
  pairwise : targets.Pairwise (· > ·)
  later : ∀ target ∈ targets, source < target
  atomic : source + 1 ∈ targets

structure Covers (source successor low high : Nat) (targets : List Nat) : Prop where
  head : targets.head? = some successor
  pairwise : targets.Pairwise (· > ·)
  mem : ∀ target, target ∈ targets ↔ target = successor ∨
    ∃ k, low ≤ k ∧ k < high ∧ target = nextMultiple source (2 ^ k) ∧ target < successor
  length : targets.length + low ≤ high + 1

variable {source successor low high : Nat} {targets : List Nat}

theorem ordinarySuccessor_cases (h : ordinarySuccessor source = .ok successor) :
    successor ≤ u64Max ∧
      ((source = 0 ∨ isolateLowestOne source < 4) ∧ successor % 4 = 0 ∧ source + 4 ≤ successor ∧
          successor < source + 8 ∨
        (source ≠ 0 ∧ 4 ≤ isolateLowestOne source) ∧
          successor = source + min (isolateLowestOne source) 128) := by
  have hbase : deltaBaseRevisionSpan = 4 := rfl
  have hmax : maxDeltaRevisionSpan = 128 := rfl
  unfold ordinarySuccessor at h
  rw [hbase, hmax] at h
  dsimp only at h
  split at h
  . next hsmall =>
    obtain ⟨_, hminimum, h⟩ := bind_eq_ok.mp h
    rw [ensure_eq_ok] at hminimum
    split at h
    . cases h
      exact ⟨hminimum, Or.inl ⟨hsmall, by omega, by omega, by omega⟩⟩
    . obtain ⟨_, hboundary, h⟩ := bind_eq_ok.mp h
      rw [ensure_eq_ok] at hboundary
      cases h
      exact ⟨hboundary, Or.inl ⟨hsmall, by omega, by omega, by omega⟩⟩
  . next hlarge =>
    obtain ⟨_, hfits, h⟩ := bind_eq_ok.mp h
    rw [ensure_eq_ok] at hfits
    cases h
    exact ⟨hfits, Or.inr ⟨by omega, rfl⟩⟩

theorem ordinarySuccessor_bounds (h : ordinarySuccessor source = .ok successor) :
    source + 4 ≤ successor ∧ successor ≤ source + 128 ∧ successor ≤ u64Max := by
  obtain ⟨hfits, hcases⟩ := ordinarySuccessor_cases h
  omega

theorem ordinarySuccessor_isOk (h : source + 128 ≤ u64Max) :
    ∃ successor, ordinarySuccessor source = .ok successor := by
  have hbase : deltaBaseRevisionSpan = 4 := rfl
  have hmax : maxDeltaRevisionSpan = 128 := rfl
  unfold ordinarySuccessor
  rw [hbase, hmax]
  dsimp only
  split
  . rw [ensure_pos (by omega), ok_bind]
    split
    . exact ⟨_, rfl⟩
    . rw [ensure_pos (by omega), ok_bind]
      exact ⟨_, rfl⟩
  . rw [ensure_pos (by omega), ok_bind]
    exact ⟨_, rfl⟩

section Covers

variable (h : Covers source successor (low + 1) high targets)
include h

theorem Covers.le (hlt : nextMultiple source (2 ^ low) < successor) :
    ∀ target ∈ targets, nextMultiple source (2 ^ low) ≤ target := by
  intro target htarget
  obtain rfl | ⟨k, hlow, _, rfl, _⟩ := (h.mem target).mp htarget
  . exact Nat.le_of_lt hlt
  . exact nextMultiple_mono source (by omega)

theorem Covers.push (hlow : low < high) (hlt : nextMultiple source (2 ^ low) < successor)
    (hlast : targets.getLast? ≠ some (nextMultiple source (2 ^ low))) :
    Covers source successor low high (targets ++ [nextMultiple source (2 ^ low)]) where
  head := by
    rw [List.head?_append, h.head]
    rfl
  pairwise := by
    rw [List.pairwise_append]
    refine ⟨h.pairwise, List.pairwise_singleton _ _, ?_⟩
    intro target htarget boundary hboundary
    rw [List.mem_singleton] at hboundary
    subst hboundary
    apply Nat.lt_of_le_of_ne (h.le hlt target htarget)
    -- a boundary that is there already would be the last one
    rintro rfl
    exact hlast (getLast?_of_pairwise h.pairwise htarget (h.le hlt))
  mem := by
    intro target
    rw [List.mem_append, List.mem_singleton, h.mem]
    constructor
    . rintro ((heq | ⟨k, hk, hhigh, heq, hbefore⟩) | heq)
      . exact Or.inl heq
      . exact Or.inr ⟨k, by omega, hhigh, heq, hbefore⟩
      . exact Or.inr ⟨low, Nat.le_refl low, hlow, heq, heq ▸ hlt⟩
    . rintro (heq | ⟨k, hk, hhigh, heq, hbefore⟩)
      . exact Or.inl (Or.inl heq)
      . obtain rfl | hk := Nat.eq_or_lt_of_le hk
        . exact Or.inr heq
        . exact Or.inl (Or.inr ⟨k, hk, hhigh, heq, hbefore⟩)
  length := by
    have hlength := h.length
    rw [List.length_append, List.length_singleton]
    omega

theorem Covers.keep
    (hthere : nextMultiple source (2 ^ low) < successor → nextMultiple source (2 ^ low) ∈ targets) :
    Covers source successor low high targets where
  head := h.head
  pairwise := h.pairwise
  mem := by
    intro target
    rw [h.mem]
    constructor
    . rintro (heq | ⟨k, hk, hhigh, heq, hbefore⟩)
      . exact Or.inl heq
      . exact Or.inr ⟨k, by omega, hhigh, heq, hbefore⟩
    . rintro (heq | ⟨k, hk, hhigh, heq, hbefore⟩)
      . exact Or.inl heq
      . obtain rfl | hk := Nat.eq_or_lt_of_le hk
        . subst heq
          exact (h.mem _).mp (hthere hbefore)
        . exact Or.inr ⟨k, hk, hhigh, heq, hbefore⟩
  length := by
    have hlength := h.length
    omega

end Covers

theorem descendBoundaries_round (rounds : Nat) (h : Covers source successor (low + 1) high targets)
    (hlow : low < high) (hbound : source + 2 ^ low ≤ u64Max) :
    ∃ targets', descendBoundaries source successor (rounds + 1) (2 ^ low) targets
        = descendBoundaries source successor rounds (2 ^ low / 2) targets' ∧
      Covers source successor low high targets' := by
  have hle := nextMultiple_le_add source (2 ^ low)
  rw [descendBoundaries, if_neg (Nat.ne_of_gt (Nat.two_pow_pos low))]
  dsimp only
  rw [show (source / 2 ^ low + 1) * 2 ^ low = nextMultiple source (2 ^ low) from rfl,
    ensure_pos (by omega), ok_bind]
  split
  . next hpush => exact ⟨_, rfl, h.push hlow hpush.1 hpush.2⟩
  . next hpush =>
    refine ⟨_, rfl, h.keep fun hlt => ?_⟩
    rw [not_and, not_not] at hpush
    exact List.mem_of_getLast? (hpush hlt)

theorem descendBoundaries_eq_ok (rounds : Nat) (h : Covers source successor (low + 1) high targets)
    (hrounds : low + 1 < rounds) (hlow : low < high) (hbound : source + 2 ^ low ≤ u64Max) :
    ∃ targets', descendBoundaries source successor rounds (2 ^ low) targets = .ok targets' ∧
      Covers source successor 0 high targets' := by
  induction low generalizing rounds targets with
  | zero =>
    obtain ⟨rounds, rfl⟩ : ∃ n, rounds = n + 2 := ⟨rounds - 2, by omega⟩
    obtain ⟨targets', hround, hcovers⟩ := descendBoundaries_round (rounds + 1) h hlow hbound
    exact ⟨targets', hround, hcovers⟩
  | succ low ih =>
    obtain ⟨rounds, rfl⟩ : ∃ n, rounds = n + 1 := ⟨rounds - 1, by omega⟩
    obtain ⟨targets', hround, hcovers⟩ := descendBoundaries_round rounds h hlow hbound
    rw [hround, Nat.pow_succ, Nat.mul_div_cancel _ Nat.two_pos]
    rw [Nat.pow_succ] at hbound
    exact ih rounds hcovers (by omega) (by omega) (by omega)

theorem nextPowerOfTwo_eq {number : Nat} (h : 1 < number) :
    nextPowerOfTwo number = 2 ^ (Nat.log2 (number - 1) + 1) := by
  unfold nextPowerOfTwo
  rw [if_neg (by omega)]

theorem targetBoundaries_covers (h : ordinarySuccessor source = .ok successor) :
    ∃ targets, targetBoundaries source = .ok targets ∧
      Covers source successor 0 (Nat.log2 (successor - source - 1) + 1) targets := by
  obtain ⟨hlow, hhigh, hfits⟩ := ordinarySuccessor_bounds h
  have hlog : 2 ^ Nat.log2 (successor - source - 1) ≤ successor - source - 1 :=
    Nat.log2_self_le (by omega)
  have hrounds : Nat.log2 (successor - source - 1) < 7 := by
    rw [Nat.log2_lt (by omega)]
    omega
  have hstart : Covers source successor (Nat.log2 (successor - source - 1) + 1)
      (Nat.log2 (successor - source - 1) + 1) [successor] := by
    refine ⟨rfl, List.pairwise_singleton _ _, ?_, ?_⟩
    . intro target
      rw [List.mem_singleton]
      refine ⟨Or.inl, ?_⟩
      rintro (heq | ⟨k, hk, hk', -⟩)
      . exact heq
      . omega
    . rw [List.length_singleton]
      omega
  unfold targetBoundaries
  rw [h, ok_bind]
  dsimp only
  rw [nextPowerOfTwo_eq (by omega), Nat.pow_succ, Nat.mul_div_cancel _ Nat.two_pos]
  exact descendBoundaries_eq_ok 64 hstart (by omega) (Nat.lt_succ_self _) (by omega)

theorem Covers.descends (h : Covers source successor 0 (high + 1) targets)
    (hsuccessor : source + 1 < successor) : Descends source targets where
  pairwise := h.pairwise
  later := by
    intro target htarget
    obtain rfl | ⟨k, _, _, rfl, _⟩ := (h.mem target).mp htarget
    . omega
    . exact lt_nextMultiple source (Nat.two_pow_pos k)
  atomic := (h.mem _).mpr (Or.inr ⟨0, Nat.le_refl 0, Nat.succ_pos high,
    (nextMultiple_one source).symm, hsuccessor⟩)

theorem targetBoundaries_eq_ok (h : source + 128 ≤ u64Max) :
    ∃ successor more, targetBoundaries source = .ok (successor :: more) ∧
      Descends source (successor :: more) ∧
      ∀ target ∈ successor :: more, target ≤ source + 128 := by
  obtain ⟨successor, hsuccessor⟩ := ordinarySuccessor_isOk h
  obtain ⟨hlow, hhigh, _⟩ := ordinarySuccessor_bounds hsuccessor
  obtain ⟨targets, htargets, hcovers⟩ := targetBoundaries_covers hsuccessor
  obtain ⟨more, rfl⟩ := List.head?_eq_some_iff.mp hcovers.head
  refine ⟨successor, more, htargets, hcovers.descends (by omega), ?_⟩
  intro target htarget
  obtain rfl | ⟨k, _, _, _, hlt⟩ := (hcovers.mem target).mp htarget
  . exact hhigh
  . omega

def Eligible (state : GraphPublicationState) (interval source : Nat) (targets : List Nat)
    (target : Nat) : Prop :=
  target ∈ targets ∧
    (state = .stale ∨ targets.head? = some target ∨ interval ≤ target - source)

def Nearest (state : GraphPublicationState) (interval source : Nat) (targets : List Nat)
    (boundary : Nat) : Prop :=
  Eligible state interval source targets boundary ∧
    ∀ target, Eligible state interval source targets target → boundary ≤ target

section

variable {state : GraphPublicationState} {interval head : Nat} {more : List Nat} {current : Option Nat} {boundary : Nat}

theorem eligible_iff (state : GraphPublicationState) (interval source head successor : Nat)
    (more : List Nat) (current : Option Nat) (target : Nat) :
    target ∈ successor :: more ∧ eligible ⟨source, head, current, interval, successor :: more⟩ state
        successor target = true ↔
      Eligible state interval source (successor :: more) target := by
  unfold eligible Eligible
  simp only [Bool.or_eq_true, decide_eq_true_eq, List.head?_cons, Option.some.injEq, or_assoc]
  rw [eq_comm (a := target)]

theorem exists_nearest (state : GraphPublicationState) (interval source successor : Nat)
    (more : List Nat) :
    ∃ boundary, Nearest state interval source (successor :: more) boundary := by
  have hsuccessor : ∃ target, Eligible state interval source (successor :: more) target :=
    ⟨successor, List.mem_cons_self, Or.inr (Or.inl rfl)⟩
  classical
  exact ⟨Nat.find hsuccessor, Nat.find_spec hsuccessor, fun target h => Nat.find_min' hsuccessor h⟩

theorem Descends.later_of_nearest (h : Descends source targets)
    (hnearest : Nearest state interval source targets boundary) : source < boundary :=
  h.later boundary hnearest.1.1

theorem new_eq_ok (hsource : source < head) (hinterval : interval ∈ adaptiveDeltaIntervals)
    (htargets : targetBoundaries source = .ok targets) :
    new source head none interval = .ok ⟨source, head, none, interval, targets⟩ := by
  unfold new
  rw [ensure_pos hsource, ok_bind, ensure_pos hinterval, ok_bind, htargets, ok_bind]
  rfl

theorem select_range (hnearest : Nearest state interval source (successor :: more) boundary)
    (hle : boundary ≤ head) :
    ∃ target, select ⟨source, head, current, interval, successor :: more⟩ state
        = .ok (.range ⟨source, target⟩) ∧
      target ∈ successor :: more ∧ target ≤ head := by
  unfold select
  rw [List.head?_cons, orError_eq_ok.mpr rfl, ok_bind]
  by_cases hsuccessor : successor ≤ head
  . rw [if_pos hsuccessor]
    exact ⟨successor, rfl, List.mem_cons_self, hsuccessor⟩
  . rw [if_neg hsuccessor]
    split
    . next target hfound =>
      have hmem := List.mem_of_find?_eq_some hfound
      have hpred := List.find?_some hfound
      rw [Bool.and_eq_true, decide_eq_true_eq] at hpred
      exact ⟨target, rfl, hmem, hpred.1⟩
    . next hnone =>
      exfalso
      rw [List.find?_eq_none] at hnone
      obtain ⟨hmem, heligible⟩ :=
        (eligible_iff state interval source head successor more current boundary).mpr hnearest.1
      apply hnone boundary hmem
      rw [Bool.and_eq_true, decide_eq_true_eq]
      exact ⟨hle, heligible⟩

theorem select_wait (hnearest : Nearest state interval source (successor :: more) boundary)
    (hlt : head < boundary) :
    select ⟨source, head, current, interval, successor :: more⟩ state
      = .ok (.waitForWakeup boundary) := by
  have heligible := eligible_iff state interval source head successor more current
  have hbeyond : ∀ target, Eligible state interval source (successor :: more) target →
      head < target :=
    fun target htarget => Nat.lt_of_lt_of_le hlt (hnearest.2 target htarget)
  unfold select
  rw [List.head?_cons, orError_eq_ok.mpr rfl, ok_bind]
  dsimp only
  have hsuccessor := hbeyond successor ⟨List.mem_cons_self, Or.inr (Or.inl rfl)⟩
  rw [if_neg (by omega)]
  split
  . next target hfound =>
    exfalso
    have hpred := List.find?_some hfound
    rw [Bool.and_eq_true, decide_eq_true_eq] at hpred
    have := hbeyond target ((heligible target).mp ⟨List.mem_of_find?_eq_some hfound, hpred.2⟩)
    omega
  . rw [bind_eq_ok]
    refine ⟨boundary, orError_eq_ok.mpr ?_, rfl⟩
    rw [List.min?_eq_some_iff]
    simp only [List.mem_filter, Bool.and_eq_true, decide_eq_true_eq]
    constructor
    . obtain ⟨hmem, hpred⟩ := (heligible boundary).mpr hnearest.1
      exact ⟨hmem, hlt, hpred⟩
    . rintro target ⟨hmem, _, hpred⟩
      exact hnearest.2 target ((heligible target).mp ⟨hmem, hpred⟩)

theorem nextEligibleBoundaryFrom_eq_ok (hinterval : interval ∈ adaptiveDeltaIntervals)
    (htargets : targetBoundaries source = .ok (successor :: more)) (hstate : state ≠ .stale)
    (hnearest : Nearest state interval source (successor :: more) boundary) :
    nextEligibleBoundaryFrom source interval = .ok boundary := by
  have hiff : ∀ target, target ∈ (successor :: more).filter (fun target =>
      target = successor || interval ≤ target - source) ↔
        Eligible state interval source (successor :: more) target := by
    intro target
    unfold Eligible
    simp only [List.mem_filter, Bool.or_eq_true, decide_eq_true_eq, hstate, false_or, List.head?_cons,
      Option.some.injEq, eq_comm (a := target)]
  unfold nextEligibleBoundaryFrom
  rw [ensure_pos hinterval, ok_bind, htargets, ok_bind, List.head?_cons, orError_eq_ok.mpr rfl,
    ok_bind, orError_eq_ok, List.min?_eq_some_iff]
  exact ⟨(hiff boundary).mpr hnearest.1, fun target htarget =>
    hnearest.2 target ((hiff target).mp htarget)⟩

theorem fittingTargets_eq_ok {selectedTarget : Nat} (hdescends : Descends source targets)
    (hmem : selectedTarget ∈ targets) (hle : selectedTarget ≤ head)
    (hcurrent : ∀ cached ∈ current, cached ∈ targets ∧ cached ≤ selectedTarget) :
    ∃ rest, fittingTargets ⟨source, head, current, interval, targets⟩ ⟨source, selectedTarget⟩
        = .ok (selectedTarget :: rest) ∧
      (selectedTarget :: rest).Pairwise (· > ·) ∧
      (∀ target ∈ selectedTarget :: rest, target ∈ targets ∧ ∀ cached ∈ current, cached ≤ target) ∧
      ∀ target ∈ targets, target ≤ selectedTarget → (∀ cached ∈ current, cached ≤ target) →
        target ∈ selectedTarget :: rest := by
  obtain ⟨index, before, after, hindex, rfl, hdrop⟩ := exists_findIdx? hmem
  obtain ⟨_, hafter, hbefore⟩ := List.pairwise_append.mp hdescends.pairwise
  obtain ⟨hbelow, htail⟩ := List.pairwise_cons.mp hafter
  have hcovers : ∀ target, (current.all fun cached => decide (cached ≤ target)) = true ↔
      ∀ cached ∈ current, cached ≤ target := by
    intro target
    cases current with
    | none => simp
    | some cached => simp
  have hselected := (hcovers selectedTarget).mpr fun cached hcached => (hcurrent cached hcached).2
  refine ⟨after.takeWhile fun target => current.all fun cached => cached ≤ target, ?_, ?_, ?_, ?_⟩
  . unfold fittingTargets
    rw [ensure_pos rfl, ok_bind]
    rw [hindex, orError_eq_ok.mpr rfl, ok_bind, ensure_pos hle, ok_bind, ensure_pos hselected, ok_bind,
      hdrop, List.takeWhile_cons, if_pos hselected]
    rfl
  . rw [List.pairwise_cons]
    refine ⟨?_, htail.sublist (List.takeWhile_sublist _)⟩
    intro target htarget
    exact hbelow target ((List.takeWhile_sublist _).mem htarget)
  . intro target htarget
    obtain rfl | htarget := List.mem_cons.mp htarget
    . exact ⟨hmem, (hcovers target).mp hselected⟩
    . have htaken := List.mem_takeWhile_imp htarget
      refine ⟨?_, (hcovers target).mp htaken⟩
      exact List.mem_append_right _
        (List.mem_cons_of_mem _ ((List.takeWhile_sublist _).mem htarget))
  . intro target hin htarget hcovered
    rw [List.mem_append, List.mem_cons] at hin
    obtain hin | heq | hin := hin
    . -- what is before the selected target on the ladder lies beyond it
      have := hbefore _ hin selectedTarget List.mem_cons_self
      omega
    . rw [heq]
      exact List.mem_cons_self
    . refine List.mem_cons_of_mem _ (mem_takeWhile_of_pairwise htail ?_ hin ((hcovers _).mpr hcovered))
      intro b c hlt hc
      rw [hcovers] at hc ⊢
      intro cached hcached
      have := hc cached hcached
      omega

end

end DeltaTargetLadder

section Completion

open DeltaTargetLadder

variable {head : GraphDeltaTargetCapture} {returnedRevision activeInterval : Nat}

def NextBoundary (activeInterval revision boundary : Nat) : Prop :=
  ∃ targets, targetBoundaries revision = .ok targets ∧ Descends revision targets ∧
    Nearest .live activeInterval revision targets boundary

theorem NextBoundary.lt {revision boundary : Nat} (h : NextBoundary activeInterval revision boundary) :
    revision < boundary := by
  obtain ⟨targets, _, hdescends, hnearest⟩ := h
  exact hdescends.later_of_nearest hnearest

theorem exists_nextBoundary {revision : Nat} (hroom : revision + 128 ≤ u64Max)
    (hinterval : activeInterval ∈ adaptiveDeltaIntervals) :
    ∃ boundary, NextBoundary activeInterval revision boundary ∧ boundary ≤ revision + 128 ∧
      nextEligibleBoundaryFrom revision activeInterval = .ok boundary := by
  obtain ⟨successor, more, htargets, hdescends, hnear⟩ := targetBoundaries_eq_ok hroom
  obtain ⟨boundary, hnearest⟩ := exists_nearest .live activeInterval revision successor more
  refine ⟨boundary, ⟨_, htargets, hdescends, hnearest⟩, hnear boundary hnearest.1.1, ?_⟩
  exact nextEligibleBoundaryFrom_eq_ok hinterval htargets (by decide) hnearest

theorem completeDeltaSuccess_eq_ok (outcome : CanonicalDeltaSuccess) (client : Option Bool)
    (hreturned : returnedRevision ≤ head.revision) (hroom : head.revision + 128 ≤ u64Max)
    (hinterval : activeInterval ∈ adaptiveDeltaIntervals) :
    ∃ boundary retryAfterMs, NextBoundary activeInterval returnedRevision boundary ∧
      completeDeltaSuccess head outcome returnedRevision client activeInterval
        = .ok (if client = some false then .clientRegistrationRequired
          else .success head outcome (deltaContinuation head returnedRevision boundary)
            (if deltaContinuation head returnedRevision boundary = .waitForWakeup then some boundary
              else none) retryAfterMs) := by
  obtain ⟨boundary, hboundary, hnear, hnext⟩ := exists_nextBoundary
    (show returnedRevision + 128 ≤ u64Max by omega) hinterval
  have hlater := hboundary.lt
  have hu64 : 128 * 75 ≤ u64Max := by decide
  unfold completeDeltaSuccess
  rw [ensure_pos hreturned, ok_bind, hnext, ok_bind]
  dsimp only
  by_cases hclient : client = some false
  . rw [if_pos hclient]
    exact ⟨boundary, none, hboundary, by rw [if_pos hclient]; rfl⟩
  . rw [if_neg hclient]
    by_cases hhint : client.isSome ∨
        deltaContinuation head returnedRevision boundary = .continueImmediately
    . rw [if_pos hhint]
      exact ⟨boundary, none, hboundary, by rw [if_neg hclient]; rfl⟩
    . rw [if_neg hhint]
      by_cases hstale : head.state = .stale ∧ returnedRevision = head.revision
      . rw [if_pos hstale]
        exact ⟨boundary, some 1000, hboundary, by rw [if_neg hclient]; rfl⟩
      . -- without an immediate continuation the boundary is not yet reached
        have hahead : head.revision ≤ boundary := by
          have hcontinue : ¬deltaContinuation head returnedRevision boundary = .continueImmediately :=
            fun h => hhint (Or.inr h)
          unfold deltaContinuation at hcontinue
          split at hcontinue
          . omega
          . split at hcontinue
            . exact absurd rfl hcontinue
            . omega
        rw [if_neg hstale, ensure_pos hahead, ok_bind, ensure_pos (by omega), ok_bind]
        exact ⟨boundary, some (max (boundary - head.revision) 1 * 75), hboundary,
          by rw [if_neg hclient]; rfl⟩

end Completion

end Kgi
