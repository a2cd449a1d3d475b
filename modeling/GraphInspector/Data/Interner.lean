import GraphInspector.Data.Map

/-!
A table that gives every key a number from an increasing sequence, as an identity column with a unique
constraint on the key does.
-/

namespace Data

universe u

structure Interner (K : Type u) [Ord K] [Std.TransOrd K] where
  ids : Map K Nat
  keys : Map Nat K
  next : Nat
  inverse : ∀ (k : K) (i : Nat), ids[k]? = some i ↔ keys[i]? = some k
  lt_next : ∀ (k : K) (i : Nat), ids[k]? = some i → i < next

namespace Interner

variable {K : Type u} [Ord K] [Std.TransOrd K] {t t' : Interner K} {ks : List K}

theorem ids_injective (t : Interner K) {k l : K} {i : Nat} (hk : t.ids[k]? = some i)
    (hl : t.ids[l]? = some i) : k = l := by
  rw [t.inverse] at hk hl
  rw [hk] at hl
  injection hl

variable [DecidableEq K] [Std.LawfulEqOrd K]

def empty : Interner K where
  ids := ∅
  keys := ∅
  next := 1
  inverse := by simp
  lt_next := by simp

def push (t : Interner K) (k : K) (h : t.ids[k]? = none) : Interner K where
  ids := t.ids.insert k t.next
  keys := t.keys.insert t.next k
  next := t.next + 1
  inverse := by
    intro l i
    rw [Map.get_insert, Map.get_insert]
    by_cases hk : k = l
    . subst hk
      by_cases hi : t.next = i
      . simp [hi]
      . have hnone : t.keys[i]? ≠ some k := by
          rw [Ne, ← t.inverse, h]
          simp
        simp [hi, hnone]
    . by_cases hi : t.next = i
      . subst hi
        have hnone : t.ids[l]? ≠ some t.next := by
          intro hl
          have := t.lt_next l t.next hl
          omega
        simp [hk, hnone]
      . simp only [hk, hi, ↓reduceIte]
        exact t.inverse l i
  lt_next := by
    intro l i
    rw [Map.get_insert]
    split
    . intro hi
      cases hi
      omega
    . intro hi
      have := t.lt_next l i hi
      omega

def insertAll (t : Interner K) : List K → Option (Interner K)
  | [] => some t
  | k :: ks =>
    if h : t.ids[k]? = none then
      (t.push k h).insertAll ks
    else
      none

def skip (t : Interner K) (n : Nat) : Interner K where
  ids := t.ids
  keys := t.keys
  next := t.next + n
  inverse := t.inverse
  lt_next := by
    intro k i hi
    have := t.lt_next k i hi
    omega

theorem push_ids (t : Interner K) (k a : K) (h : t.ids[k]? = none) :
    (t.push k h).ids[a]? = if k = a then some t.next else t.ids[a]? :=
  Map.get_insert _ _ _ _

theorem insertAll_isSome {t : Interner K} (hnodup : ks.Nodup) (hnew : ∀ k ∈ ks, t.ids[k]? = none) :
    ∃ t', t.insertAll ks = some t' := by
  induction ks generalizing t with
  | nil => exact ⟨t, rfl⟩
  | cons k ks ih =>
    rw [List.nodup_cons] at hnodup
    have hk := hnew k List.mem_cons_self
    simp only [insertAll, hk, ↓reduceDIte]
    apply ih hnodup.2
    intro l hl
    rw [push_ids]
    split
    . next heq =>
      subst heq
      exact absurd hl hnodup.1
    . exact hnew l (List.mem_cons_of_mem k hl)

theorem insertAll_spec (h : t.insertAll ks = some t') :
    t.next ≤ t'.next ∧
    (∀ a : K, a ∉ ks → t'.ids[a]? = t.ids[a]?) ∧
    (∀ a ∈ ks, t.ids[a]? = none ∧ ∃ i, t'.ids[a]? = some i ∧ t.next ≤ i) := by
  induction ks generalizing t with
  | nil =>
    cases h
    simp
  | cons k ks ih =>
    simp only [insertAll] at h
    split at h
    . next hk =>
      obtain ⟨hle, hkeep, hnew⟩ := ih h
      have hnext : (t.push k hk).next = t.next + 1 := rfl
      have hmem : k ∉ ks := by
        intro hmem
        have := (hnew k hmem).1
        rw [push_ids] at this
        simp at this
      refine ⟨by omega, ?_, ?_⟩
      . intro a ha
        rw [List.mem_cons, not_or] at ha
        rw [hkeep a ha.2, push_ids, if_neg (Ne.symm ha.1)]
      . intro a ha
        rw [List.mem_cons] at ha
        obtain rfl | ha := ha
        . refine ⟨hk, t.next, ?_, le_refl _⟩
          rw [hkeep a hmem, push_ids, if_pos rfl]
        . obtain ⟨hnone, i, hi, hge⟩ := hnew a ha
          rw [push_ids] at hnone
          split at hnone
          . cases hnone
          . exact ⟨hnone, i, hi, by omega⟩
    . cases h

theorem insertAll_append {ks ls : List K} :
    t.insertAll (ks ++ ls) = some t' ↔ ∃ s, t.insertAll ks = some s ∧ s.insertAll ls = some t' := by
  induction ks generalizing t with
  | nil => simp [insertAll]
  | cons k ks ih =>
    simp only [List.cons_append, insertAll]
    split
    . exact ih
    . simp

theorem insertAll_last {k : K} (h : t.insertAll (ks ++ [k]) = some t') :
    ∃ i, t'.ids[k]? = some i ∧ t.next ≤ i ∧
      ∀ (a : K) (j : Nat), a ≠ k → t'.ids[a]? = some j → j < i := by
  rw [insertAll_append] at h
  obtain ⟨s, hs, h⟩ := h
  obtain ⟨hle, -⟩ := insertAll_spec hs
  simp only [insertAll] at h
  split at h
  . next hk =>
    cases h
    refine ⟨s.next, ?_, hle, ?_⟩
    . rw [push_ids, if_pos rfl]
    . intro a j ha hj
      rw [push_ids, if_neg (Ne.symm ha)] at hj
      exact s.lt_next a j hj
  . cases h

end Interner

end Data
