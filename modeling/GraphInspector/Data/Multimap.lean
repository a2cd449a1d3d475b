import GraphInspector.Data.Map

/-!
A finite relation stored as a map of buckets.
-/

namespace Data

universe u v w

/--
A finite relation between `K` and `V` with one bucket of values a key.
-/
abbrev Multimap (K : Type u) (V : Type v) [Ord K] [Ord V] := Map K (KeySet V)

namespace Multimap

variable {K : Type u} {V : Type v} [Ord K] [Std.TransOrd K] [Ord V] [Std.TransOrd V]

def Holds (m : Multimap K V) (k : K) (v : V) : Prop :=
  ∃ bucket, m[k]? = some bucket ∧ v ∈ bucket

def NoEmpty (m : Multimap K V) : Prop :=
  ∀ (k : K) (bucket : KeySet V), m[k]? = some bucket → ∃ v, v ∈ bucket

def add (m : Multimap K V) (k : K) (v : V) : Multimap K V :=
  m.alter k fun bucket => some ((bucket.getD ∅).insert v)

def remove (m : Multimap K V) (k : K) (v : V) : Multimap K V :=
  m.alter k fun bucket =>
    match bucket with
    | none => none
    | some bucket =>
      let bucket := bucket.erase v
      if bucket.isEmpty then none else some bucket

def bucket (m : Multimap K V) (k : K) : List V :=
  (m[k]?.getD ∅).toList

theorem not_holds_empty (k : K) (v : V) : ¬ Holds (∅ : Multimap K V) k v := by
  rintro ⟨b, hb, -⟩
  simp at hb

theorem noEmpty_empty : NoEmpty (∅ : Multimap K V) := by
  intro k b hb
  simp at hb

theorem contains_iff {m : Multimap K V} (hm : NoEmpty m) (k : K) :
    m.contains k = true ↔ ∃ v, Holds m k v := by
  rw [Map.contains_iff]
  constructor
  . rintro ⟨b, hb⟩
    obtain ⟨v, hv⟩ := hm k b hb
    exact ⟨v, b, hb, hv⟩
  . rintro ⟨v, b, hb, -⟩
    exact ⟨b, hb⟩

section Remove

variable [DecidableEq K] [Std.LawfulEqOrd K]

theorem holds_erase (m : Multimap K V) (k a : K) (b : V) :
    Holds (m.erase k) a b ↔ k ≠ a ∧ Holds m a b := by
  unfold Holds
  rw [Map.get_erase]
  by_cases h : k = a
  . simp [h]
  . simp [h]

variable {m : Multimap K V}

theorem noEmpty_erase (hm : NoEmpty m) (k : K) : NoEmpty (m.erase k : Map K (KeySet V)) := by
  intro a b hb
  rw [Map.get_erase] at hb
  split at hb
  . cases hb
  . exact hm a b hb

theorem noEmpty_remove (hm : NoEmpty m) (k : K) (v : V) : NoEmpty (remove m k v) := by
  intro a b hb
  unfold remove at hb
  rw [Map.get_alter] at hb
  split at hb
  . cases hk : m[k]? with
    | none => simp [hk] at hb
    | some s =>
      simp only [hk] at hb
      split at hb
      . cases hb
      . next he =>
        cases hb
        rw [Bool.not_eq_true] at he
        exact (KeySet.isEmpty_eq_false_iff _).mp he
  . exact hm a b hb

theorem noEmpty_foldl_remove {A : Type w} (l : List A) (key : A → K) (val : A → V) (hm : NoEmpty m) :
    NoEmpty (l.foldl (fun m a => remove m (key a) (val a)) m) := by
  induction l generalizing m with
  | nil => exact hm
  | cons a l ih =>
    rw [List.foldl_cons]
    apply ih
    apply noEmpty_remove hm

end Remove

variable [Std.LawfulEqOrd V]

theorem mem_bucket (m : Multimap K V) (k : K) (v : V) : v ∈ bucket m k ↔ Holds m k v := by
  unfold bucket Holds
  cases h : m[k]? with
  | none => simp
  | some b => simp [Std.ExtTreeSet.mem_toList]

theorem nodup_bucket (m : Multimap K V) (k : K) : (bucket m k).Nodup := by
  have h := Std.ExtTreeSet.distinct_toList (t := m[k]?.getD ∅)
  apply h.imp
  intro a b hab heq
  apply hab
  simp [heq]

variable [Std.LawfulEqOrd K]

theorem ext {m n : Multimap K V} (hm : NoEmpty m) (hn : NoEmpty n)
    (h : ∀ k v, Holds m k v ↔ Holds n k v) : m = n := by
  apply Std.ExtTreeMap.ext_getElem?
  intro k
  cases hmk : m[k]? with
  | none =>
    cases hnk : n[k]? with
    | none => rfl
    | some b =>
      obtain ⟨v, hv⟩ := hn k b hnk
      obtain ⟨b', hb', -⟩ := (h k v).mpr ⟨b, hnk, hv⟩
      rw [hmk] at hb'
      cases hb'
  | some b =>
    cases hnk : n[k]? with
    | none =>
      obtain ⟨v, hv⟩ := hm k b hmk
      obtain ⟨b', hb', -⟩ := (h k v).mp ⟨b, hmk, hv⟩
      rw [hnk] at hb'
      cases hb'
    | some b' =>
      congr 1
      apply Std.ExtTreeSet.ext_mem
      intro v
      have hv := h k v
      simp only [Holds, hmk, hnk, Option.some.injEq, exists_eq_left'] at hv
      exact hv

variable [DecidableEq K]

theorem holds_add (m : Multimap K V) (k a : K) (v b : V) :
    Holds (add m k v) a b ↔ (k = a ∧ v = b) ∨ Holds m a b := by
  unfold Holds add
  rw [Map.get_alter]
  by_cases h : k = a
  . subst h
    cases hk : m[k]? with
    | none => simp
    | some s => simp
  . simp [h]

theorem noEmpty_add {m : Multimap K V} (hm : NoEmpty m) (k : K) (v : V) : NoEmpty (add m k v) := by
  intro a b hb
  unfold add at hb
  rw [Map.get_alter] at hb
  split at hb
  . cases hb
    exact ⟨v, by simp⟩
  . exact hm a b hb

theorem holds_remove (m : Multimap K V) (k a : K) (v b : V) :
    Holds (remove m k v) a b ↔ ¬ (k = a ∧ v = b) ∧ Holds m a b := by
  unfold Holds remove
  rw [Map.get_alter]
  by_cases h : k = a
  . subst h
    cases hk : m[k]? with
    | none => simp
    | some s =>
      simp only [↓reduceIte, true_and, Option.some.injEq, exists_eq_left']
      by_cases he : (s.erase v).isEmpty = true
      . rw [if_pos he]
        rw [KeySet.isEmpty_iff_forall] at he
        have hb := he b
        rw [KeySet.mem_erase] at hb
        constructor
        . rintro ⟨c, hc, -⟩
          cases hc
        . intro hc
          exact absurd hc hb
      . rw [if_neg he]
        simp
  . simp [h]

section Fold

variable {A : Type w}

theorem holds_foldl_add (l : List A) (key : A → K) (val : A → V) (m : Multimap K V) (k : K) (v : V) :
    Holds (l.foldl (fun m a => add m (key a) (val a)) m) k v
      ↔
    (∃ a ∈ l, key a = k ∧ val a = v) ∨ Holds m k v := by
  induction l generalizing m with
  | nil => simp
  | cons a l ih =>
    rw [List.foldl_cons, ih, holds_add]
    simp only [List.mem_cons, exists_eq_or_imp]
    rw [or_left_comm, or_assoc]

theorem noEmpty_foldl_add (l : List A) (key : A → K) (val : A → V) {m : Multimap K V}
    (hm : NoEmpty m) : NoEmpty (l.foldl (fun m a => add m (key a) (val a)) m) := by
  induction l generalizing m with
  | nil => exact hm
  | cons a l ih =>
    rw [List.foldl_cons]
    apply ih
    apply noEmpty_add hm

theorem holds_foldl_remove (l : List A) (key : A → K) (val : A → V) (m : Multimap K V)
    (k : K) (v : V) :
    Holds (l.foldl (fun m a => remove m (key a) (val a)) m) k v
      ↔
    (∀ a ∈ l, ¬ (key a = k ∧ val a = v)) ∧ Holds m k v := by
  induction l generalizing m with
  | nil => simp
  | cons a l ih =>
    rw [List.foldl_cons, ih, holds_remove]
    simp only [List.mem_cons, forall_eq_or_imp]
    constructor
    . rintro ⟨h1, h2, h3⟩
      exact ⟨⟨h2, h1⟩, h3⟩
    . rintro ⟨⟨h2, h1⟩, h3⟩
      exact ⟨h1, h2, h3⟩

end Fold

end Multimap

abbrev NestedMultimap (K : Type u) (L : Type w) (V : Type v) [Ord K] [Ord L] [Ord V] :=
  Map K (Multimap L V)

namespace NestedMultimap

variable {K : Type u} {L : Type w} {V : Type v}
variable [Ord K] [Std.TransOrd K] [Ord L] [Std.TransOrd L] [Ord V] [Std.TransOrd V]

def Holds (m : NestedMultimap K L V) (k : K) (l : L) (v : V) : Prop :=
  ∃ inner, m[k]? = some inner ∧ Multimap.Holds inner l v

def NoEmpty (m : NestedMultimap K L V) : Prop :=
  ∀ (k : K) (inner : Multimap L V), m[k]? = some inner →
    Multimap.NoEmpty inner ∧ ∃ l v, Multimap.Holds inner l v

def add (m : NestedMultimap K L V) (k : K) (l : L) (v : V) : NestedMultimap K L V :=
  m.alter k fun inner => some (Multimap.add (inner.getD ∅) l v)

def remove (m : NestedMultimap K L V) (k : K) (l : L) (v : V) : NestedMultimap K L V :=
  m.alter k fun inner =>
    match inner with
    | none => none
    | some inner =>
      let inner := Multimap.remove inner l v
      if inner.isEmpty then none else some inner

theorem noEmpty_empty : NoEmpty (∅ : NestedMultimap K L V) := by
  intro k inner hk
  simp at hk

theorem not_holds_empty (k : K) (l : L) (v : V) : ¬ Holds (∅ : NestedMultimap K L V) k l v := by
  rintro ⟨inner, hinner, -⟩
  simp at hinner

theorem isEmpty_iff {inner : Multimap L V} (h : Multimap.NoEmpty inner) :
    inner.isEmpty = true ↔ ∀ l v, ¬ Multimap.Holds inner l v := by
  rw [Map.isEmpty_iff_forall]
  constructor
  . rintro hnone l v ⟨bucket, hbucket, -⟩
    rw [hnone l] at hbucket
    cases hbucket
  . intro hno l
    cases hl : inner[l]? with
    | none => rfl
    | some bucket =>
      obtain ⟨v, hv⟩ := h l bucket hl
      exact absurd ⟨bucket, hl, hv⟩ (hno l v)

variable [Std.LawfulEqOrd K] [Std.LawfulEqOrd L] [Std.LawfulEqOrd V] {m : NestedMultimap K L V}

theorem ext {n : NestedMultimap K L V} (hm : NoEmpty m) (hn : NoEmpty n)
    (h : ∀ k l v, Holds m k l v ↔ Holds n k l v) : m = n := by
  apply Std.ExtTreeMap.ext_getElem?
  intro k
  cases hmk : m[k]? with
  | none =>
    cases hnk : n[k]? with
    | none => rfl
    | some inner =>
      obtain ⟨-, l, v, hv⟩ := hn k inner hnk
      obtain ⟨inner', hinner', -⟩ := (h k l v).mpr ⟨inner, hnk, hv⟩
      rw [hmk] at hinner'
      cases hinner'
  | some inner =>
    cases hnk : n[k]? with
    | none =>
      obtain ⟨-, l, v, hv⟩ := hm k inner hmk
      obtain ⟨inner', hinner', -⟩ := (h k l v).mp ⟨inner, hmk, hv⟩
      rw [hnk] at hinner'
      cases hinner'
    | some inner' =>
      congr 1
      apply Multimap.ext (hm k inner hmk).1 (hn k inner' hnk).1
      intro l v
      have hv := h k l v
      simp only [Holds, hmk, hnk, Option.some.injEq, exists_eq_left'] at hv
      exact hv

variable [DecidableEq K] [DecidableEq L]

theorem holds_add (m : NestedMultimap K L V) (k a : K) (l b : L) (v c : V) :
    Holds (add m k l v) a b c ↔ (k = a ∧ l = b ∧ v = c) ∨ Holds m a b c := by
  unfold Holds add
  rw [Map.get_alter]
  by_cases h : k = a
  . subst h
    cases hk : m[k]? with
    | none => simp [Multimap.holds_add, Multimap.not_holds_empty]
    | some inner => simp [Multimap.holds_add]
  . simp [h]

theorem noEmpty_add (hm : NoEmpty m) (k : K) (l : L) (v : V) : NoEmpty (add m k l v) := by
  intro a inner hinner
  unfold add at hinner
  rw [Map.get_alter] at hinner
  split at hinner
  . cases hinner
    constructor
    . apply Multimap.noEmpty_add
      cases hk : m[k]? with
      | none => apply Multimap.noEmpty_empty
      | some inner => exact (hm k inner hk).1
    . exact ⟨l, v, (Multimap.holds_add _ _ _ _ _).mpr (Or.inl ⟨rfl, rfl⟩)⟩
  . apply hm a inner hinner

theorem holds_remove (hm : NoEmpty m) (k a : K) (l b : L) (v c : V) :
    Holds (remove m k l v) a b c ↔ ¬ (k = a ∧ l = b ∧ v = c) ∧ Holds m a b c := by
  unfold Holds remove
  rw [Map.get_alter]
  by_cases h : k = a
  . subst h
    cases hk : m[k]? with
    | none => simp
    | some inner =>
      have hinner := Multimap.noEmpty_remove (hm k inner hk).1 l v
      simp only [↓reduceIte, true_and, Option.some.injEq, exists_eq_left']
      by_cases he : (Multimap.remove inner l v).isEmpty = true
      . rw [if_pos he]
        rw [isEmpty_iff hinner] at he
        have hb := he b c
        rw [Multimap.holds_remove] at hb
        constructor
        . rintro ⟨_, hc, -⟩
          cases hc
        . intro hc
          exact absurd hc hb
      . rw [if_neg he]
        simp only [Option.some.injEq, exists_eq_left', Multimap.holds_remove]
  . simp [h]

omit [Std.LawfulEqOrd V] in
theorem noEmpty_remove (hm : NoEmpty m) (k : K) (l : L) (v : V) : NoEmpty (remove m k l v) := by
  intro a inner hinner
  unfold remove at hinner
  rw [Map.get_alter] at hinner
  split at hinner
  . cases hk : m[k]? with
    | none => simp [hk] at hinner
    | some old =>
      have hold := Multimap.noEmpty_remove (hm k old hk).1 l v
      simp only [hk] at hinner
      split at hinner
      . cases hinner
      . next he =>
        cases hinner
        rw [isEmpty_iff hold] at he
        push Not at he
        exact ⟨hold, he⟩
  . apply hm a inner hinner

theorem holds_foldl_add {A : Type*} (as : List A) (key : A → K) (sub : A → L) (val : A → V)
    (m : NestedMultimap K L V) (k : K) (l : L) (v : V) :
    Holds (as.foldl (fun m a => add m (key a) (sub a) (val a)) m) k l v
      ↔
    (∃ a ∈ as, key a = k ∧ sub a = l ∧ val a = v) ∨ Holds m k l v := by
  induction as generalizing m with
  | nil => simp
  | cons a as ih =>
    rw [List.foldl_cons, ih, holds_add]
    simp only [List.mem_cons, exists_eq_or_imp]
    rw [or_left_comm, or_assoc]

theorem noEmpty_foldl_add {A : Type*} (as : List A) (key : A → K) (sub : A → L) (val : A → V)
    (hm : NoEmpty m) : NoEmpty (as.foldl (fun m a => add m (key a) (sub a) (val a)) m) := by
  induction as generalizing m with
  | nil => exact hm
  | cons a as ih =>
    rw [List.foldl_cons]
    apply ih
    apply noEmpty_add hm

end NestedMultimap

end Data
