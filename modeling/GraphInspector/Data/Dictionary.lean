import GraphInspector.Data.Map
import GraphInspector.Data.Outcome
import Mathlib.Algebra.BigOperators.Group.List.Basic

/-!
A dictionary that numbers keys densely in the order of their first occurrence, and computations that
intern keys on the way to a value.
-/

namespace Data

universe u

structure Dictionary (K : Type u) [Ord K] [Std.TransOrd K] where
  entries : List K
  references : Map K Nat
  resolves : ∀ (k : K) (i : Nat), references[k]? = some i ↔ entries[i]? = some k

namespace Dictionary

variable {K : Type u} [Ord K] [Std.TransOrd K] {d : Dictionary K} {k : K}

def empty : Dictionary K where
  entries := []
  references := ∅
  resolves := by simp

theorem references_eq_none (d : Dictionary K) (k : K) : d.references[k]? = none ↔ k ∉ d.entries := by
  rw [Option.eq_none_iff_forall_ne_some, List.mem_iff_getElem?, not_exists]
  refine forall_congr' fun i => not_congr ?_
  exact d.resolves k i

theorem nodup_entries (d : Dictionary K) : d.entries.Nodup := by
  rw [List.nodup_iff_getElem?_ne_getElem?]
  intro i j hlt hj heq
  have hkey := List.getElem?_eq_getElem hj
  have hi := (d.resolves _ i).mpr (heq.trans hkey)
  rw [(d.resolves _ j).mpr hkey] at hi
  injection hi with hi
  omega

def Numbers (d : Dictionary K) (number : K → Nat) : Prop :=
  ∀ (k : K) (i : Nat), d.references[k]? = some i → number k = i

def number (d : Dictionary K) (k : K) : Nat :=
  d.references[k]?.getD 0

theorem numbers_number (d : Dictionary K) : d.Numbers d.number := by
  intro k i hk
  rw [number, hk, Option.getD_some]

theorem get_number (h : k ∈ d.entries) : d.entries[d.number k]? = some k := by
  cases hk : d.references[k]? with
  | none => exact absurd h ((d.references_eq_none k).mp hk)
  | some i =>
    rw [d.numbers_number k i hk]
    exact (d.resolves k i).mp hk

variable [DecidableEq K] [Std.LawfulEqOrd K]

def push (d : Dictionary K) (k : K) (h : d.references[k]? = none) : Dictionary K where
  entries := d.entries ++ [k]
  references := d.references.insert k d.entries.length
  resolves := by
    intro l i
    rw [Map.get_insert, List.getElem?_append]
    by_cases hi : i < d.entries.length
    . rw [if_pos hi, ← d.resolves]
      by_cases hl : k = l
      . subst hl
        simp [h, Nat.ne_of_gt hi]
      . rw [if_neg hl]
    . rw [if_neg hi]
      by_cases hl : k = l
      . subst hl
        rw [if_pos rfl, Option.some.injEq, List.getElem?_singleton]
        split <;> simp <;> omega
      . rw [if_neg hl, List.getElem?_singleton, d.resolves,
          List.getElem?_eq_none (Nat.le_of_not_lt hi)]
        split <;> simp [hl]

def record (d : Dictionary K) (k : K) : Dictionary K :=
  if h : d.references[k]? = none then d.push k h else d

def recordAll (d : Dictionary K) (ks : List K) : Dictionary K :=
  ks.foldl record d

theorem recordAll_append (d : Dictionary K) (ks ls : List K) :
    d.recordAll (ks ++ ls) = (d.recordAll ks).recordAll ls :=
  List.foldl_append

theorem entries_record (d : Dictionary K) (k : K) :
    (d.record k).entries = if k ∈ d.entries then d.entries else d.entries ++ [k] := by
  unfold record
  split
  . next h =>
    rw [if_neg ((d.references_eq_none k).mp h)]
    rfl
  . next h =>
    rw [references_eq_none, not_not] at h
    rw [if_pos h]

theorem entries_recordAll (d : Dictionary K) (ks : List K) :
    ∃ more, (d.recordAll ks).entries = d.entries ++ more ∧ ∀ k ∈ more, k ∈ ks := by
  induction ks generalizing d with
  | nil => exact ⟨[], (List.append_nil _).symm, by simp⟩
  | cons k ks ih =>
    obtain ⟨more, hmore, hsub⟩ := ih (d.record k)
    rw [entries_record] at hmore
    have hcons : d.recordAll (k :: ks) = (d.record k).recordAll ks := rfl
    rw [hcons, hmore]
    split
    . exact ⟨more, rfl, fun a ha => List.mem_cons_of_mem k (hsub a ha)⟩
    . refine ⟨k :: more, List.append_assoc _ _ _, ?_⟩
      intro a ha
      obtain rfl | ha := List.mem_cons.mp ha
      . exact List.mem_cons_self
      . exact List.mem_cons_of_mem k (hsub a ha)

theorem length_recordAll_le (d : Dictionary K) (ks : List K) :
    (d.recordAll ks).entries.length ≤ d.entries.length + (KeySet.ofElems ks).size := by
  obtain ⟨more, hmore, hsub⟩ := d.entries_recordAll ks
  have hnodup := (d.recordAll ks).nodup_entries
  rw [hmore] at hnodup ⊢
  rw [List.length_append, ← Std.ExtTreeSet.length_toList]
  apply Nat.add_le_add_left
  apply List.Subperm.length_le
  apply List.Nodup.subperm hnodup.of_append_right
  intro k hk
  rw [Std.ExtTreeSet.mem_toList, KeySet.mem_ofElems]
  exact hsub k hk

theorem length_recordAll_flatMap_le {α : Type*} (d : Dictionary K) (f : α → List K) (l : List α) :
    (d.recordAll (l.flatMap f)).entries.length ≤
      d.entries.length + (l.map fun a => (KeySet.ofElems (f a)).size).sum := by
  induction l generalizing d with
  | nil => exact Nat.le_refl _
  | cons a l ih =>
    rw [List.flatMap_cons, recordAll_append, List.map_cons, List.sum_cons]
    have htail := ih (d.recordAll (f a))
    have hhead := d.length_recordAll_le (f a)
    omega

theorem references_recordAll {i : Nat} (ks : List K) (hk : d.references[k]? = some i) :
    (d.recordAll ks).references[k]? = some i := by
  obtain ⟨more, hmore, _⟩ := d.entries_recordAll ks
  rw [resolves] at hk ⊢
  rw [hmore, List.getElem?_append_left (List.getElem?_eq_some_iff.mp hk).1, hk]

theorem record_of_some {i : Nat} (h : d.references[k]? = some i) :
    d.record k = d := by
  unfold record
  rw [dif_neg]
  rw [h]
  exact Option.some_ne_none i

theorem references_record_of_none (h : d.references[k]? = none) :
    (d.record k).references[k]? = some d.entries.length := by
  unfold record
  rw [dif_pos h]
  exact (Map.get_insert _ _ _ _).trans (if_pos rfl)

theorem Numbers.of_recordAll {ks : List K} {number : K → Nat} (h : (d.recordAll ks).Numbers number) :
    d.Numbers number :=
  fun k i hk => h k i (references_recordAll ks hk)

theorem mem_entries_recordAll {ks : List K} :
    k ∈ (d.recordAll ks).entries ↔ k ∈ d.entries ∨ k ∈ ks := by
  induction ks generalizing d with
  | nil => simp [recordAll]
  | cons l ks ih =>
    rw [show d.recordAll (l :: ks) = (d.record l).recordAll ks from rfl, ih, entries_record]
    split
    . next hl => grind
    . simp [or_assoc]

end Dictionary

abbrev Interning (K : Type) [Ord K] [Std.TransOrd K] (ε : Type) :=
  StateT (Dictionary K) (Except ε)

namespace Interning

variable {K ε α β : Type} [DecidableEq K] [Ord K] [Std.TransOrd K] [Std.LawfulEqOrd K]

def intern (capacity : Nat) (full : ε) (k : K) : Interning K ε Nat := fun d =>
  match d.references[k]? with
  | some i => .ok (i, d)
  | none =>
    if d.entries.length < capacity then
      .ok (d.entries.length, d.record k)
    else
      .error full

def Writes (capacity : Nat) (x : Interning K ε α) (ks : List K) (value : (K → Nat) → α) : Prop :=
  ∀ d number, (d.recordAll ks).entries.length ≤ capacity → (d.recordAll ks).Numbers number →
    x d = .ok (value number, d.recordAll ks)

variable {capacity : Nat}

theorem Writes.intern (full : ε) (k : K) :
    Writes capacity (Interning.intern capacity full k) [k] fun number => number k := by
  intro d number hfits hnumbers
  have hrecord : d.recordAll [k] = d.record k := rfl
  rw [hrecord] at hfits hnumbers ⊢
  unfold Interning.intern
  cases hk : d.references[k]? with
  | some i =>
    dsimp only
    rw [Dictionary.record_of_some hk] at hnumbers ⊢
    rw [hnumbers k i hk]
  | none =>
    have hlength : (d.record k).entries.length = d.entries.length + 1 := by
      rw [Dictionary.entries_record, if_neg ((d.references_eq_none k).mp hk), List.length_append]
      rfl
    dsimp only
    rw [if_pos (by omega), hnumbers k _ (Dictionary.references_record_of_none hk)]

theorem Writes.pure (a : α) : Writes capacity (Pure.pure a : Interning K ε α) [] fun _ => a :=
  fun _ _ _ _ => rfl

variable {f : α → Interning K ε β} {w : α → (K → Nat) → β}

theorem Writes.bind {x : Interning K ε α} {ks ls : List K} {v : (K → Nat) → α}
    (hx : Writes capacity x ks v) (hf : ∀ a, Writes capacity (f a) ls (w a)) :
    Writes capacity (x >>= f) (ks ++ ls) fun number => w (v number) number := by
  intro d number hfits hnumbers
  rw [Dictionary.recordAll_append] at hfits hnumbers ⊢
  have hle : (d.recordAll ks).entries.length ≤ capacity := by
    obtain ⟨more, hmore, _⟩ := (d.recordAll ks).entries_recordAll ls
    rw [hmore, List.length_append] at hfits
    omega
  have hbind : (x >>= f) d = x d >>= fun result => f result.1 result.2 := rfl
  rw [hbind, hx d number hle hnumbers.of_recordAll, ok_bind]
  exact hf (v number) (d.recordAll ks) number hfits hnumbers

theorem Writes.mapM {ks : α → List K} (hf : ∀ a, Writes capacity (f a) (ks a) (w a)) (l : List α) :
    Writes capacity (l.mapM f) (l.flatMap ks) fun number => l.map fun a => w a number := by
  induction l with
  | nil => exact Writes.pure []
  | cons a l ih =>
    rw [List.mapM_cons, List.flatMap_cons]
    have hrest : ∀ b, Writes capacity
        (l.mapM f >>= fun bs => (Pure.pure (b :: bs) : Interning K ε (List β))) (l.flatMap ks)
        fun number => b :: l.map fun a => w a number := by
      intro b
      have hpure : ∀ bs, Writes capacity (Pure.pure (b :: bs) : Interning K ε (List β)) []
          fun _ => b :: bs := fun bs => Writes.pure (b :: bs)
      have h := ih.bind hpure
      rw [List.append_nil] at h
      exact h
    exact (hf a).bind hrest

end Interning

end Data
