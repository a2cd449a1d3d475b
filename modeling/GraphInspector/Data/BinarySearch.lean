import Mathlib.Data.List.Basic

/-!
Binary search for an exact key in a list whose keys increase.
-/

namespace Data

universe u

variable {A : Type u} {key : A → Nat} {l : List A}

def binarySearchIn (key : A → Nat) (l : List A) (x low high : Nat) : Option Nat :=
  if low < high then
    let middle := low + (high - low) / 2
    match l[middle]? with
    | none => none
    | some a =>
      if key a < x then
        binarySearchIn key l x (middle + 1) high
      else if x < key a then
        binarySearchIn key l x low middle
      else
        some middle
  else
    none
termination_by high - low

def binarySearch (key : A → Nat) (l : List A) (x : Nat) : Option Nat :=
  binarySearchIn key l x 0 l.length

theorem key_of_binarySearchIn {x low high index : Nat}
    (h : binarySearchIn key l x low high = some index) :
    ∃ a, l[index]? = some a ∧ key a = x := by
  fun_induction binarySearchIn key l x low high with
  | case1 low high hlt middle hnone => cases h
  | case2 low high hlt middle a ha hless ih => exact ih h
  | case3 low high hlt middle a ha hless hgreater ih => exact ih h
  | case4 low high hlt middle a ha hless hgreater =>
    rw [Option.some.injEq] at h
    subst h
    exact ⟨a, ha, by omega⟩
  | case5 low high hlt => cases h

def Increasing (key : A → Nat) (l : List A) : Prop :=
  ∀ (i j : Nat) (a b : A), l[i]? = some a → l[j]? = some b → i < j → key a < key b

theorem binarySearchIn_eq_some {x low high index : Nat} {a : A} (hsorted : Increasing key l)
    (ha : l[index]? = some a) (hkey : key a = x) (hlow : low ≤ index) (hhigh : index < high)
    (hlength : high ≤ l.length) :
    binarySearchIn key l x low high = some index := by
  fun_induction binarySearchIn key l x low high with
  | case1 low high hlt middle hnone =>
    rw [List.getElem?_eq_none_iff] at hnone
    omega
  | case2 low high hlt middle b hb hless ih =>
    apply ih _ hhigh hlength
    rw [Nat.succ_le_iff, ← Nat.not_le]
    intro hle
    obtain heq | hindex := Nat.eq_or_lt_of_le hle
    . rw [heq, hb] at ha
      cases ha
      omega
    . have := hsorted index middle a b ha hb hindex
      omega
  | case3 low high hlt middle b hb hless hgreater ih =>
    apply ih hlow _ (by omega)
    rw [← Nat.not_le]
    intro hle
    obtain heq | hindex := Nat.eq_or_lt_of_le hle
    . rw [← heq, hb] at ha
      cases ha
      omega
    . have := hsorted middle index b a hb ha hindex
      omega
  | case4 low high hlt middle b hb hless hgreater =>
    congr 1
    obtain hindex | heq | hindex := Nat.lt_trichotomy middle index
    . have := hsorted middle index b a hb ha hindex
      omega
    . exact heq
    . have := hsorted index middle a b ha hb hindex
      omega
  | case5 low high hlt => omega

theorem binarySearch_eq_some_iff (hsorted : Increasing key l) (x index : Nat) :
    binarySearch key l x = some index ↔ ∃ a, l[index]? = some a ∧ key a = x := by
  constructor
  . intro h
    exact key_of_binarySearchIn h
  . rintro ⟨a, ha, hkey⟩
    have hlt : index < l.length := by
      rw [List.getElem?_eq_some_iff] at ha
      exact ha.1
    exact binarySearchIn_eq_some hsorted ha hkey (Nat.zero_le index) hlt (Nat.le_refl _)

end Data
