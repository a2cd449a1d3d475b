import GraphInspector.ApiCore.Lemmas.Delta
import Mathlib.Data.Nat.Bitwise
import Mathlib.Data.Nat.Factorization.Basic
import Mathlib.Order.Bounds.Basic
import Mathlib.Tactic.Ring

/-!
The target ladder of a source is exactly its dyadic boundaries before the ordinary successor.
-/

namespace Kgi

open Data

theorem isolateLowestOne_eq {k m : Nat} (h : 2 ^ k * (2 * m + 1) < 2 ^ 64) :
    isolateLowestOne (2 ^ k * (2 * m + 1)) = 2 ^ k := by
  have hpos := Nat.two_pow_pos k
  -- one less clears the lowest set bit and sets those below it
  have hpred : 2 ^ k * (2 * m + 1) = 2 ^ (k + 1) * m + (2 ^ k - 1) + 1 := by
    rw [Nat.pow_succ, Nat.mul_add, ← Nat.mul_assoc]
    omega
  have hbelow : 2 ^ k - 1 < 2 ^ (k + 1) := by
    rw [Nat.pow_succ]
    omega
  unfold isolateLowestOne
  apply Nat.eq_of_testBit_eq
  intro i
  have hword : (2 ^ k * (2 * m + 1)).testBit i
      = (decide (k ≤ i) && (2 * m + 1).testBit (i - k)) := Nat.testBit_two_pow_mul
  have hcomplement : (2 ^ 64 - 2 ^ k * (2 * m + 1)).testBit i = (decide (i < 64) &&
      !(2 ^ (k + 1) * m + (2 ^ k - 1)).testBit i) := by
    rw [hpred]
    apply Nat.testBit_two_pow_sub_succ
    omega
  rw [Nat.testBit_and, hword, hcomplement, Nat.testBit_two_pow_mul_add m hbelow,
    Nat.testBit_two_pow_sub_one, Nat.testBit_two_pow]
  obtain hlt | rfl | hgt := Nat.lt_trichotomy i k
  . rw [decide_eq_false (Nat.not_le.mpr hlt), decide_eq_false (Nat.ne_of_gt hlt)]
    rfl
  . have hfits : i < 64 := by
      rw [← Nat.pow_lt_pow_iff_right (Nat.one_lt_two)]
      exact Nat.lt_of_le_of_lt (Nat.le_mul_of_pos_right _ (Nat.succ_pos _)) h
    rw [Nat.sub_self, Nat.testBit_zero, if_pos (Nat.lt_succ_self i)]
    simp [hfits]
  . obtain ⟨j, rfl⟩ := Nat.exists_eq_add_of_lt hgt
    rw [if_neg (by omega), decide_eq_false (Nat.ne_of_lt hgt),
      show k + j + 1 - k = j + 1 by omega, show k + j + 1 - (k + 1) = j by omega, Nat.testBit_succ,
      show (2 * m + 1) / 2 = m by omega]
    cases m.testBit j with
    | false => simp
    | true => simp

theorem exists_isolateLowestOne {word : Nat} (hpos : 0 < word) (hlt : word < 2 ^ 64) :
    ∃ k m, word = 2 ^ k * (2 * m + 1) ∧ isolateLowestOne word = 2 ^ k := by
  obtain ⟨k, odd, ⟨m, rfl⟩, rfl⟩ := Nat.exists_eq_two_pow_mul_odd (Nat.ne_of_gt hpos)
  exact ⟨k, m, rfl, isolateLowestOne_eq hlt⟩

namespace DeltaTargetLadder

variable {source successor : Nat} {targets : List Nat}

/--
What the ladder of a source is: the least multiples after the source, before the successor, of the powers
of two below the rounded span.
-/
structure Dyadic (source successor : Nat) (targets : List Nat) : Prop where
  descending : targets.Pairwise (· > ·)
  first : targets.head? = some successor
  boundaries : ∀ target, target ∈ targets ↔ target = successor ∨
    ∃ k, 2 ^ k < nextPowerOfTwo (successor - source) ∧
      IsLeast {multiple | 2 ^ k ∣ multiple ∧ source < multiple} target ∧ target < successor
  last : targets.getLast? = some (source + 1)
  length : targets.length ≤ 8

theorem Covers.dyadic (hsuccessor : ordinarySuccessor source = .ok successor)
    (h : Covers source successor 0 (Nat.log2 (successor - source - 1) + 1) targets) :
    Dyadic source successor targets := by
  obtain ⟨hlow, hhigh, _⟩ := ordinarySuccessor_bounds hsuccessor
  constructor
  case descending => exact h.pairwise
  case first => exact h.head
  case boundaries =>
    intro target
    rw [h.mem, nextPowerOfTwo_eq (by omega)]
    refine or_congr_right (exists_congr fun k => ?_)
    rw [Nat.pow_lt_pow_iff_right Nat.one_lt_two]
    constructor
    . rintro ⟨_, hk, rfl, hlt⟩
      exact ⟨hk, isLeast_nextMultiple source (Nat.two_pow_pos k), hlt⟩
    . rintro ⟨hk, hleast, hlt⟩
      exact ⟨Nat.zero_le k, hk, hleast.unique (isLeast_nextMultiple source (Nat.two_pow_pos k)), hlt⟩
  case last =>
    have hdescends := h.descends (by omega)
    exact getLast?_of_pairwise hdescends.pairwise hdescends.atomic hdescends.later
  case length =>
    have hlength := h.length
    have hlog : Nat.log2 (successor - source - 1) < 7 := by
      rw [Nat.log2_lt (by omega)]
      omega
    omega

def follow : (steps : Nat) → (source : Nat) → Panics Nat
  | 0, source => return source
  | steps + 1, source => do
    let successor ← ordinarySuccessor source
    follow steps successor

def Fits (source : Nat) : Prop :=
  ∃ successor, ordinarySuccessor source = .ok successor

theorem exists_lowest {k : Nat} (hpos : 0 < source) (hk : 2 ≤ k) (hdvd : 2 ^ k ∣ source)
    (h : ordinarySuccessor source = .ok successor) :
    ∃ j m, k ≤ j ∧ source = 2 ^ j * (2 * m + 1) ∧ successor = source + min (2 ^ j) (2 ^ 7) := by
  have hmax : u64Max < 2 ^ 64 := by decide
  have hbounds := ordinarySuccessor_bounds h
  obtain ⟨_, hcases⟩ := ordinarySuccessor_cases h
  obtain ⟨j, m, hsource, hlowest⟩ := exists_isolateLowestOne hpos (by omega)
  have hle : k ≤ j := by
    by_contra hlt
    have hodd : 2 ^ (j + 1) ∣ 2 ^ j * (2 * m + 1) :=
      hsource ▸ Nat.dvd_trans (Nat.pow_dvd_pow 2 (by omega)) hdvd
    rw [Nat.pow_succ] at hodd
    have := Nat.dvd_of_mul_dvd_mul_left (Nat.two_pow_pos j) hodd
    omega
  have hfour : 2 ^ 2 ≤ 2 ^ j := Nat.pow_le_pow_right Nat.two_pos (Nat.le_trans hk hle)
  rw [hlowest] at hcases
  exact ⟨j, m, hle, hsource, by omega⟩

theorem ordinarySuccessor_dvd {k : Nat} (hpos : 0 < source) (hk : 2 ≤ k) (hlt : k < 7)
    (hdvd : 2 ^ k ∣ source) (h : ordinarySuccessor source = .ok successor) :
    2 ^ (k + 1) ∣ successor := by
  obtain ⟨j, m, hle, hsource, rfl⟩ := exists_lowest hpos hk hdvd h
  by_cases hj : j < 7
  . have hspan : 2 ^ j ≤ 2 ^ 7 := Nat.pow_le_pow_right Nat.two_pos (Nat.le_of_lt hj)
    have hsum : 2 ^ j * (2 * m + 1) + 2 ^ j = 2 ^ (j + 1) * (m + 1) := by
      rw [Nat.pow_succ]
      ring
    rw [Nat.min_eq_left hspan, hsource, hsum]
    exact Nat.dvd_trans (Nat.pow_dvd_pow 2 (by omega)) (Nat.dvd_mul_right _ _)
  . have hspan : 2 ^ 7 ≤ 2 ^ j := Nat.pow_le_pow_right Nat.two_pos (by omega)
    rw [Nat.min_eq_right hspan, hsource]
    apply Nat.dvd_add
    . exact Nat.dvd_trans (Nat.pow_dvd_pow 2 (by omega)) (Nat.dvd_mul_right _ _)
    . exact Nat.pow_dvd_pow 2 (show k + 1 ≤ 7 by omega)

theorem ordinarySuccessor_aligned (hpos : 0 < source) (hdvd : 2 ^ 7 ∣ source)
    (hfits : source + 128 ≤ u64Max) : ordinarySuccessor source = .ok (source + 128) := by
  obtain ⟨successor, hsuccessor⟩ := ordinarySuccessor_isOk hfits
  obtain ⟨j, m, hle, -, heq⟩ := exists_lowest hpos (by omega) hdvd hsuccessor
  have hspan : 2 ^ 7 ≤ 2 ^ j := Nat.pow_le_pow_right Nat.two_pos hle
  rw [Nat.min_eq_right hspan] at heq
  exact hsuccessor.trans (congrArg Except.ok heq)

theorem follow_aligned (hpos : 0 < source) (hdvd : 2 ^ 7 ∣ source) (steps : Nat)
    (hfits : source + 128 * steps ≤ u64Max) :
    follow steps source = .ok (source + 128 * steps) := by
  induction steps generalizing source with
  | zero => rfl
  | succ steps ih =>
    rw [follow, ordinarySuccessor_aligned hpos hdvd (by omega), ok_bind,
      ih (by omega) (Nat.dvd_add hdvd (Nat.dvd_refl 128)) (by omega)]
    congr 1
    omega

theorem follow_add {steps more : Nat} {revision : Nat} (h : follow steps source = .ok revision) :
    follow (steps + more) source = follow more revision := by
  induction steps generalizing source with
  | zero =>
    cases h
    rw [Nat.zero_add]
  | succ steps ih =>
    rw [follow] at h
    obtain ⟨successor, hsuccessor, h⟩ := bind_eq_ok.mp h
    rw [Nat.add_right_comm, follow, hsuccessor, ok_bind, ih h]

def Settles (limit source : Nat) : Prop :=
  ∃ steps ≤ limit, ∃ revision, follow steps source = .ok revision ∧
    (0 < revision ∧ 2 ^ 7 ∣ revision ∨ ¬ Fits revision)

theorem Settles.cons {limit : Nat} (hsuccessor : ordinarySuccessor source = .ok successor)
    (h : Settles limit successor) : Settles (limit + 1) source := by
  obtain ⟨steps, hsteps, revision, hfollow, hrevision⟩ := h
  refine ⟨steps + 1, Nat.succ_le_succ hsteps, revision, ?_, hrevision⟩
  rw [follow, hsuccessor, ok_bind, hfollow]

theorem settles_of_dvd (limit : Nat) (hlimit : limit ≤ 5) (hpos : 0 < source)
    (hdvd : 2 ^ (7 - limit) ∣ source) : Settles limit source := by
  induction limit generalizing source with
  | zero => exact ⟨0, Nat.le_refl 0, source, rfl, Or.inl ⟨hpos, hdvd⟩⟩
  | succ limit ih =>
    by_cases hfits : Fits source
    . obtain ⟨successor, hsuccessor⟩ := hfits
      have hbounds := ordinarySuccessor_bounds hsuccessor
      have hnext := ordinarySuccessor_dvd hpos (by omega) (by omega) hdvd hsuccessor
      rw [show 7 - (limit + 1) + 1 = 7 - limit by omega] at hnext
      exact Settles.cons hsuccessor (ih (by omega) (by omega) hnext)
    . exact ⟨0, Nat.zero_le _, source, rfl, Or.inr hfits⟩

theorem settles (source : Nat) : Settles 6 source := by
  by_cases hfits : Fits source
  . obtain ⟨successor, hsuccessor⟩ := hfits
    obtain ⟨hlow, -⟩ := ordinarySuccessor_bounds hsuccessor
    have hfour : 2 ^ (7 - 5) ∣ successor := by
      obtain ⟨hmax, ⟨-, hmod, -⟩ | ⟨⟨hne, hlowest⟩, -⟩⟩ := ordinarySuccessor_cases hsuccessor
      . exact Nat.dvd_of_mod_eq_zero hmod
      . have hword : u64Max < 2 ^ 64 := by decide
        obtain ⟨j, m, hsource, heq⟩ := exists_isolateLowestOne (Nat.pos_of_ne_zero hne)
          (show source < 2 ^ 64 by omega)
        have hj : 2 ≤ j := by
          by_contra hlt
          have : 2 ^ j ≤ 2 ^ 1 := Nat.pow_le_pow_right Nat.two_pos (by omega)
          omega
        have hdvd : 2 ^ 2 ∣ source :=
          hsource ▸ Nat.dvd_trans (Nat.pow_dvd_pow 2 hj) (Nat.dvd_mul_right _ _)
        have hnext := ordinarySuccessor_dvd (Nat.pos_of_ne_zero hne) (Nat.le_refl 2) (by omega) hdvd
          hsuccessor
        exact Nat.dvd_trans (Nat.pow_dvd_pow 2 (by omega)) hnext
    exact Settles.cons hsuccessor (settles_of_dvd 5 (Nat.le_refl 5) (by omega) hfour)
  . exact ⟨0, Nat.zero_le _, source, rfl, Or.inr hfits⟩

/--
The ladder of every source whose arithmetic does not overflow is its dyadic ladder, and following ordinary
successors from any source settles on the multiples of the greatest span within six steps.
-/
theorem ladder_dyadic (source : Nat) :
    (source + 128 ≤ u64Max → Fits source) ∧
    (∀ successor, ordinarySuccessor source = .ok successor →
      ∃ targets, targetBoundaries source = .ok targets ∧ Dyadic source successor targets) ∧
    ∃ steps ≤ 6, ∃ revision, follow steps source = .ok revision ∧
      (¬ Fits revision ∨ 0 < revision ∧ 128 ∣ revision ∧
        ∀ more, revision + 128 * more ≤ u64Max →
          follow (steps + more) source = .ok (revision + 128 * more)) := by
  refine ⟨ordinarySuccessor_isOk, ?_, ?_⟩
  . intro successor hsuccessor
    obtain ⟨targets, htargets, hcovers⟩ := targetBoundaries_covers hsuccessor
    exact ⟨targets, htargets, hcovers.dyadic hsuccessor⟩
  . obtain ⟨steps, hsteps, revision, hfollow, ⟨hpos, hdvd⟩ | hfits⟩ := settles source
    . refine ⟨steps, hsteps, revision, hfollow, Or.inr ⟨hpos, hdvd, ?_⟩⟩
      intro more hmore
      rw [follow_add hfollow, follow_aligned hpos hdvd more hmore]
    . exact ⟨steps, hsteps, revision, hfollow, Or.inl hfits⟩

theorem ladder_dyadic_unaligned : ordinarySuccessor 5 = .ok 12 ∧
    ∃ targets, targetBoundaries 5 = .ok targets ∧ Dyadic 5 12 targets := by
  have hsuccessor : ordinarySuccessor 5 = .ok 12 := rfl
  exact ⟨hsuccessor, (ladder_dyadic 5).2.1 12 hsuccessor⟩

end DeltaTargetLadder

end Kgi
