import GraphInspector.Data.Map

/-!
A journal of the values that keys had before they were first touched.
-/

namespace Data

universe u v w

abbrev Journal (K : Type u) (B : Type v) [Ord K] := Map K B

namespace Journal

variable {K : Type u} {B : Type v} {V : Type w} [Ord K] [Std.TransOrd K]

def capture (j : Journal K B) (k : K) (before : B) : Journal K B :=
  j.insertIfNew k before

def Tracks (value : B → Option V) (base cur : K → Option V) (j : Journal K B) : Prop :=
  (∀ (k : K) (before : B), j[k]? = some before → value before = base k) ∧
  (∀ k : K, j[k]? = none → cur k = base k)

variable {value : B → Option V} {base cur cur' : K → Option V} {j : Journal K B}

theorem Tracks.empty (value : B → Option V) (base : K → Option V) :
    Tracks value base base (∅ : Journal K B) := by
  constructor
  . intro k before h
    simp at h
  . intro k _
    rfl

theorem Tracks.congr (h : Tracks value base cur j) (hcur : ∀ k, cur' k = cur k) :
    Tracks value base cur' j := by
  constructor
  . apply h.1
  . intro k hk
    rw [hcur k]
    apply h.2 k hk

variable [DecidableEq K] [Std.LawfulEqOrd K] {k : K} {before : B}

theorem Tracks.capture (h : Tracks value base cur j) (hbefore : value before = cur k)
    (hcur : ∀ a, k ≠ a → cur' a = cur a) : Tracks value base cur' (j.capture k before) := by
  unfold Journal.capture
  constructor
  . intro a b hb
    rw [Map.get_insertIfNew] at hb
    split at hb
    . next hk =>
      subst hk
      cases hj : j[k]? with
      | some c =>
        rw [hj] at hb
        cases hb
        apply h.1 k c hj
      | none =>
        rw [hj] at hb
        cases hb
        rw [Option.getD_none, hbefore]
        apply h.2 k hj
    . apply h.1 a b hb
  . intro a ha
    rw [Map.get_insertIfNew] at ha
    split at ha
    . cases ha
    . next hk =>
      rw [hcur a hk]
      apply h.2 a ha

theorem Tracks.capture_self (h : Tracks value base cur j) (hbefore : value before = cur k) :
    Tracks value base cur (j.capture k before) := by
  apply h.capture hbefore
  intro a _
  rfl

section Changes

variable [DecidableEq V]

def changes (value : B → Option V) (cur : K → Option V) (j : Journal K B) : Map K (Option V) :=
  Map.mapEntries j fun k before => if value before ≠ cur k then some (cur k) else none

theorem Tracks.get_changes (h : Tracks value base cur j) (k : K) :
    (changes value cur j)[k]? = if base k ≠ cur k then some (cur k) else none := by
  unfold changes
  rw [Map.get_mapEntries]
  cases hj : j[k]? with
  | some before =>
    rw [Option.bind_some, h.1 k before hj]
  | none =>
    rw [if_neg]
    . rfl
    . rw [not_not]
      exact (h.2 k hj).symm

theorem Tracks.getD_changes (h : Tracks value base cur j) (k : K) :
    (changes value cur j)[k]?.getD (base k) = cur k := by
  rw [h.get_changes]
  split
  . rfl
  . next heq =>
    rw [not_not] at heq
    exact heq

theorem Tracks.changes_isEmpty (h : Tracks value base cur j) :
    (changes value cur j).isEmpty = true ↔ ∀ k, cur k = base k := by
  rw [Map.isEmpty_iff_forall]
  constructor
  . intro hempty k
    have hk := hempty k
    rw [h.get_changes] at hk
    split at hk
    . cases hk
    . next heq =>
      rw [not_not] at heq
      exact heq.symm
  . intro heq k
    rw [h.get_changes, if_neg]
    rw [not_not]
    exact (heq k).symm

end Changes

end Journal

end Data
