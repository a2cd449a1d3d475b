import Mathlib.Data.List.Sort
import Mathlib.Data.Finset.Card
import Mathlib.Algebra.GroupWithZero.Nat

/-!
Finite maps and finite sets with extensional equality.
-/

namespace Data

universe u v w

/--
A finite map, equal to another one as soon as all lookups agree.
-/
abbrev Map (K : Type u) (V : Type v) [Ord K] := Std.ExtTreeMap K V compare

/--
A finite set, equal to another one as soon as it has the same members.
-/
abbrev KeySet (K : Type u) [Ord K] := Std.ExtTreeSet K compare

namespace Map

variable {K : Type u} {V : Type v} [Ord K] [Std.TransOrd K] {m : Map K V} {k : K} {v : V}

theorem contains_iff (m : Map K V) (k : K) : m.contains k = true ↔ ∃ v, m[k]? = some v := by
  rw [← Std.ExtTreeMap.mem_iff_contains, Std.ExtTreeMap.mem_iff_isSome_getElem?,
    Option.isSome_iff_exists]

theorem isEmpty_iff_forall (m : Map K V) : m.isEmpty = true ↔ ∀ k : K, m[k]? = none := by
  rw [Std.ExtTreeMap.isEmpty_iff, Std.ExtTreeMap.eq_empty_iff_forall_not_mem]
  apply forall_congr'
  intro k
  rw [Std.ExtTreeMap.mem_iff_isSome_getElem?]
  simp

variable [Std.LawfulEqOrd K]

theorem mem_toList (m : Map K V) (k : K) (v : V) : (k, v) ∈ m.toList ↔ m[k]? = some v :=
  Std.ExtTreeMap.mem_toList_iff_getElem?_eq_some

theorem nodup_keys_toList (m : Map K V) : (m.toList.map Prod.fst).Nodup := by
  have h := Std.ExtTreeMap.distinct_keys_toList (t := m)
  rw [List.Nodup, List.pairwise_map]
  apply h.imp
  intro a b hab heq
  apply hab
  simp [heq]

theorem nodup_keys (m : Map K V) : m.keys.Nodup := by
  rw [← Std.ExtTreeMap.map_fst_toList_eq_keys]
  exact nodup_keys_toList m

theorem nodup_keys_filterMap {W : Type w} {f : K × V → Option W} {key : W → K}
    (hf : ∀ x y, f x = some y → key y = x.1) (m : Map K V) :
    ((m.toList.filterMap f).map key).Nodup := by
  have hsub : ((m.toList.filterMap f).map key).Sublist (m.toList.map Prod.fst) := by
    induction m.toList with
    | nil => exact List.Sublist.refl _
    | cons x l ih =>
      rw [List.filterMap_cons, List.map_cons]
      split
      . exact ih.cons _
      . next y hy =>
        rw [List.map_cons, hf x y hy]
        exact ih.cons_cons _
  exact hsub.nodup (nodup_keys_toList m)

theorem size_eq_length {l : List K} (hl : l.Nodup) (h : ∀ a : K, a ∈ l ↔ m[a]?.isSome = true) :
    m.size = l.length := by
  rw [← Std.ExtTreeMap.length_keys]
  apply List.Perm.length_eq
  rw [List.perm_ext_iff_of_nodup _ hl]
  . intro a
    rw [h, Std.ExtTreeMap.mem_keys, Std.ExtTreeMap.mem_iff_isSome_getElem?]
  . apply (Std.ExtTreeMap.distinct_keys (t := m)).imp
    intro a b hab heq
    apply hab
    simp [heq]

def count (m : Map K V) (p : K → V → Bool) : Nat :=
  (m.filter p).size

theorem count_eq_countP (m : Map K V) (p : K → V → Bool) :
    count m p = m.toList.countP fun e => p e.1 e.2 := by
  unfold count
  rw [← Std.ExtTreeMap.length_toList, List.countP_eq_length_filter]
  apply List.Perm.length_eq
  rw [List.perm_ext_iff_of_nodup]
  . rintro ⟨k, v⟩
    rw [List.mem_filter, mem_toList, mem_toList, Std.ExtTreeMap.getElem?_filter',
      Option.filter_eq_some_iff]
  . exact List.Nodup.of_map _ (nodup_keys_toList _)
  . exact (List.Nodup.of_map _ (nodup_keys_toList _)).filter _

theorem count_pos_iff (m : Map K V) (p : K → V → Bool) :
    0 < count m p ↔ ∃ k v, m[k]? = some v ∧ p k v = true := by
  unfold count
  rw [← Std.ExtTreeMap.length_toList, List.length_pos_iff_exists_mem]
  constructor
  . rintro ⟨⟨k, v⟩, hmem⟩
    rw [mem_toList, Std.ExtTreeMap.getElem?_filter', Option.filter_eq_some_iff] at hmem
    exact ⟨k, v, hmem⟩
  . rintro ⟨k, v, hkv⟩
    refine ⟨(k, v), ?_⟩
    rw [mem_toList, Std.ExtTreeMap.getElem?_filter', Option.filter_eq_some_iff]
    exact hkv

theorem size_le_of_forall {W : Type w} {n : Map K W}
    (h : ∀ (k : K) (v : V), m[k]? = some v → ∃ v', n[k]? = some v') : m.size ≤ n.size := by
  have hsub : m.toList.map Prod.fst ⊆ n.toList.map Prod.fst := by
    intro k hk
    rw [List.mem_map] at hk ⊢
    obtain ⟨⟨k, v⟩, hmem, rfl⟩ := hk
    obtain ⟨v', hv'⟩ := h k v ((mem_toList m k v).mp hmem)
    exact ⟨(k, v'), (mem_toList n k v').mpr hv', rfl⟩
  have hle := (List.subperm_of_subset (nodup_keys_toList m) hsub).length_le
  rw [List.length_map, List.length_map] at hle
  rw [← Std.ExtTreeMap.length_toList, ← Std.ExtTreeMap.length_toList]
  exact hle

variable [DecidableEq K]

theorem get_insert (m : Map K V) (k a : K) (v : V) :
    (m.insert k v)[a]? = if k = a then some v else m[a]? := by
  rw [Std.ExtTreeMap.getElem?_insert]
  simp only [Std.LawfulEqCmp.compare_eq_iff_eq]

theorem get_insert_of_ne (m : Map K V) {k a : K} (v : V) (h : k ≠ a) :
    (m.insert k v)[a]? = m[a]? := by
  rw [get_insert]
  simp [h]

section Alter

variable (m) (k) (a : K)

theorem get_erase : (m.erase k)[a]? = if k = a then none else m[a]? := by
  rw [Std.ExtTreeMap.getElem?_erase]
  simp only [Std.LawfulEqCmp.compare_eq_iff_eq]

theorem get_alter (f : Option V → Option V) :
    (m.alter k f)[a]? = if k = a then f m[k]? else m[a]? := by
  rw [Std.ExtTreeMap.getElem?_alter]
  simp only [Std.LawfulEqCmp.compare_eq_iff_eq]

theorem get_modify (f : V → V) : (m.modify k f)[a]? = if k = a then m[k]?.map f else m[a]? := by
  rw [Std.ExtTreeMap.getElem?_modify]
  simp only [Std.LawfulEqCmp.compare_eq_iff_eq]

theorem get_insertIfNew (v : V) :
    (m.insertIfNew k v)[a]? = if k = a then some (m[k]?.getD v) else m[a]? := by
  rw [Std.ExtTreeMap.getElem?_insertIfNew]
  simp only [Std.LawfulEqCmp.compare_eq_iff_eq]
  by_cases h : k = a
  . subst h
    cases hk : m[k]? with
    | none => simp [Std.ExtTreeMap.mem_iff_isSome_getElem?, hk]
    | some w => simp [Std.ExtTreeMap.mem_iff_isSome_getElem?, hk]
  . simp [h]

end Alter

theorem insert_eq_self (h : m[k]? = some v) : m.insert k v = m := by
  apply Std.ExtTreeMap.ext_getElem?
  intro a
  rw [get_insert]
  split
  . next heq => rw [← heq, h]
  . rfl

theorem get_of_get_foldl_erase {l : List K} {a : K}
    (h : (l.foldl (fun (m : Map K V) k => m.erase k) m)[a]? = some v) : m[a]? = some v := by
  induction l generalizing m with
  | nil => exact h
  | cons k l ih =>
    have hget := ih h
    rw [get_erase] at hget
    split at hget
    . cases hget
    . exact hget

theorem erase_eq_self (h : m[k]? = none) : m.erase k = m := by
  apply Std.ExtTreeMap.ext_getElem?
  intro a
  rw [get_erase]
  split
  . next heq => rw [← heq, h]
  . rfl

def insertSome (m : Map K V) (k : K) (v : Option V) : Map K V :=
  match v with
  | some v => m.insert k v
  | none => m

theorem get_insertSome (m : Map K V) (k a : K) (v : Option V) :
    (insertSome m k v)[a]? = if k = a then v.or m[a]? else m[a]? := by
  unfold insertSome
  cases v with
  | none => simp
  | some v =>
    rw [get_insert]
    split
    . simp
    . rfl

theorem get_foldl_insertSome (f : K → Option V) (l : List K) (m : Map K V) (a : K) :
    (l.foldl (fun m k => insertSome m k (f k)) m)[a]? = if a ∈ l then (f a).or m[a]? else m[a]? := by
  induction l generalizing m with
  | nil => simp
  | cons k l ih =>
    rw [List.foldl_cons, ih, get_insertSome]
    by_cases hk : k = a
    . subst hk
      simp only [↓reduceIte, List.mem_cons, true_or]
      split
      . cases f k with
        | none => simp
        | some v => simp
      . rfl
    . simp [hk, Ne.symm hk]

theorem get_foldl_insert {l : List (K × V)} {f : K → V} (hf : ∀ x ∈ l, x.2 = f x.1) (m : Map K V)
    (a : K) :
    (l.foldl (fun (m : Map K V) x => m.insert x.1 x.2) m)[a]?
      =
    if a ∈ l.map Prod.fst then some (f a) else m[a]? := by
  induction l generalizing m with
  | nil => simp
  | cons x l ih =>
    rw [List.foldl_cons, ih (fun y hy => hf y (List.mem_cons_of_mem x hy)), get_insert,
      hf x List.mem_cons_self]
    rw [List.map_cons]
    by_cases hx : x.1 = a
    . subst hx
      simp
    . simp only [hx, ↓reduceIte, List.mem_cons, Ne.symm hx, false_or]

theorem get_foldl_insert_eq_some {U : Type w} {key : U → K} {value : U → V} {l : List U}
    (hl : ∀ x ∈ l, ∀ y ∈ l, key x = key y → value x = value y) (a : K) (v : V) :
    (l.foldl (fun (m : Map K V) x => m.insert (key x) (value x)) ∅)[a]? = some v ↔
      ∃ x ∈ l, key x = a ∧ value x = v := by
  induction l using List.reverseRecOn with
  | nil => simp
  | append_singleton l x ih =>
    have hinit : ∀ y ∈ l, ∀ z ∈ l, key y = key z → value y = value z := fun y hy z hz =>
      hl y (List.mem_append_left _ hy) z (List.mem_append_left _ hz)
    have hx : x ∈ l ++ [x] := List.mem_append_right _ List.mem_cons_self
    rw [List.foldl_append, List.foldl_cons, List.foldl_nil, get_insert]
    split
    . next hkey =>
      rw [Option.some.injEq]
      constructor
      . intro hv
        exact ⟨x, hx, hkey, hv⟩
      . rintro ⟨y, hy, hy', rfl⟩
        exact hl x hx y hy (hkey.trans hy'.symm)
    . next hkey =>
      rw [ih hinit]
      constructor
      . rintro ⟨y, hy, hy'⟩
        exact ⟨y, List.mem_append_left _ hy, hy'⟩
      . rintro ⟨y, hy, hy', hv⟩
        rw [List.mem_append, List.mem_singleton] at hy
        obtain hy | rfl := hy
        . exact ⟨y, hy, hy', hv⟩
        . exact absurd hy' hkey

theorem get_foldl_modify {f : V → V} (hf : ∀ v, f (f v) = f v) (l : List K) (m : Map K V) (a : K) :
    (l.foldl (fun (m : Map K V) k => m.modify k f) m)[a]?
      =
    if a ∈ l then m[a]?.map f else m[a]? := by
  induction l generalizing m with
  | nil => simp
  | cons k l ih =>
    rw [List.foldl_cons, ih, get_modify]
    simp only [List.mem_cons]
    by_cases hk : k = a
    . subst hk
      simp only [↓reduceIte, true_or, Option.map_map]
      split
      . congr 1
        funext v
        exact hf v
      . rfl
    . simp [hk, Ne.symm hk]

theorem map_get_foldl_modify {U : Type w} {P : Type w} (key : U → K) (f : U → V → V) (p : V → P)
    (hp : ∀ u v, p (f u v) = p v) (l : List U) (m : Map K V) (a : K) :
    ((l.foldl (fun (m : Map K V) u => m.modify (key u) (f u)) m)[a]?).map p = m[a]?.map p := by
  induction l generalizing m with
  | nil => rfl
  | cons u l ih =>
    rw [List.foldl_cons, ih, get_modify]
    split
    . next hk =>
      subst hk
      rw [Option.map_map]
      congr 1
      funext v
      exact hp u v
    . rfl

theorem get_foldl_modify_pairs {U : Type w} (f : U → V → V) {l : List (K × U)}
    (hl : (l.map Prod.fst).Nodup) (m : Map K V) (a : K) :
    (∀ u, (a, u) ∈ l →
      (l.foldl (fun (m : Map K V) x => m.modify x.1 (f x.2)) m)[a]? = m[a]?.map (f u)) ∧
    (a ∉ l.map Prod.fst →
      (l.foldl (fun (m : Map K V) x => m.modify x.1 (f x.2)) m)[a]? = m[a]?) := by
  induction l generalizing m with
  | nil => simp
  | cons x l ih =>
    rw [List.map_cons, List.nodup_cons] at hl
    rw [List.foldl_cons]
    obtain ⟨ih1, ih2⟩ := ih hl.2 (m.modify x.1 (f x.2))
    constructor
    . intro u hu
      rw [List.mem_cons] at hu
      obtain rfl | hu := hu
      . rw [ih2 hl.1, get_modify, if_pos rfl]
      . rw [ih1 u hu, get_modify, if_neg]
        rintro rfl
        exact hl.1 (List.mem_map.mpr ⟨(x.1, u), hu, rfl⟩)
    . intro ha
      rw [List.map_cons, List.mem_cons, not_or] at ha
      rw [ih2 ha.2, get_modify, if_neg (Ne.symm ha.1)]

theorem get_foldl_modify_toList {U : Type w} (changes : Map K U) (f : U → V → V) (m : Map K V)
    (a : K) :
    (changes.toList.foldl (fun (m : Map K V) x => m.modify x.1 (f x.2)) m)[a]?
      =
    m[a]?.map fun v => changes[a]?.elim v fun u => f u v := by
  obtain ⟨hmem, habsent⟩ := get_foldl_modify_pairs f (nodup_keys_toList changes) m a
  cases h : changes[a]? with
  | some u => apply hmem u ((mem_toList changes a u).mpr h)
  | none =>
    rw [habsent]
    . simp
    . intro ha
      rw [List.mem_map] at ha
      obtain ⟨⟨k, u⟩, hk, rfl⟩ := ha
      rw [mem_toList, h] at hk
      cases hk

theorem get_foldl_alter {U : Type w} (key : U → K) (f : U → Option V → Option V) {l : List U}
    (hl : (l.map key).Nodup) (m : Map K V) :
    (∀ u ∈ l, (l.foldl (fun (m : Map K V) u => m.alter (key u) (f u)) m)[key u]? = f u m[key u]?) ∧
    (∀ a, a ∉ l.map key → (l.foldl (fun (m : Map K V) u => m.alter (key u) (f u)) m)[a]? = m[a]?) := by
  induction l generalizing m with
  | nil => simp
  | cons x l ih =>
    rw [List.map_cons, List.nodup_cons] at hl
    rw [List.foldl_cons]
    obtain ⟨hmem, habsent⟩ := ih hl.2 (m.alter (key x) (f x))
    constructor
    . intro u hu
      rw [List.mem_cons] at hu
      obtain rfl | hu := hu
      . rw [habsent _ hl.1, get_alter, if_pos rfl]
      . rw [hmem u hu, get_alter, if_neg]
        intro heq
        exact hl.1 (List.mem_map.mpr ⟨u, hu, heq.symm⟩)
    . intro a ha
      rw [List.map_cons, List.mem_cons, not_or] at ha
      rw [habsent a ha.2, get_alter, if_neg (Ne.symm ha.1)]

def extend (m n : Map K V) : Map K V :=
  n.toList.foldl (fun (m : Map K V) x => m.insert x.1 x.2) m

theorem get_extend (m n : Map K V) (a : K) : (extend m n)[a]? = n[a]?.or m[a]? := by
  unfold extend
  cases h : n[a]? with
  | some v =>
    rw [get_foldl_insert (f := fun k => n[k]?.getD v)]
    . rw [if_pos (List.mem_map.mpr ⟨(a, v), (mem_toList n a v).mpr h, rfl⟩), h]
      rfl
    . rintro ⟨k, w⟩ hmem
      rw [mem_toList] at hmem
      rw [hmem]
      rfl
  | none =>
    have habsent : a ∉ n.toList.map Prod.fst := by
      rw [List.mem_map]
      rintro ⟨⟨k, v⟩, hmem, rfl⟩
      rw [mem_toList, h] at hmem
      cases hmem
    generalize n.toList = l at habsent
    induction l generalizing m with
    | nil => rfl
    | cons x l ih =>
      rw [List.map_cons, List.mem_cons, not_or] at habsent
      rw [List.foldl_cons, ih _ habsent.2, get_insert_of_ne m x.2 (Ne.symm habsent.1)]

def put (m : Map K V) (k : K) (v : Option V) : Map K V :=
  match v with
  | some v => m.insert k v
  | none => m.erase k

theorem get_put (m : Map K V) (k a : K) (v : Option V) :
    (put m k v)[a]? = if k = a then v else m[a]? := by
  cases v with
  | none =>
    unfold put
    rw [get_erase]
  | some v =>
    unfold put
    rw [get_insert]

theorem get_foldl_put {l : List (K × Option V)} (hl : (l.map Prod.fst).Nodup) (m : Map K V) (a : K) :
    (∀ v, (a, v) ∈ l → (l.foldl (fun m x => put m x.1 x.2) m)[a]? = v) ∧
    (a ∉ l.map Prod.fst → (l.foldl (fun m x => put m x.1 x.2) m)[a]? = m[a]?) := by
  induction l generalizing m with
  | nil => simp
  | cons x l ih =>
    rw [List.map_cons, List.nodup_cons] at hl
    rw [List.foldl_cons]
    obtain ⟨hmem, habsent⟩ := ih hl.2 (put m x.1 x.2)
    constructor
    . intro v hv
      rw [List.mem_cons] at hv
      obtain rfl | hv := hv
      . rw [habsent hl.1, get_put, if_pos rfl]
      . apply hmem v hv
    . intro ha
      rw [List.map_cons, List.mem_cons, not_or] at ha
      rw [habsent ha.2, get_put, if_neg (Ne.symm ha.1)]

theorem get_foldl_put_toList (changes : Map K (Option V)) (m : Map K V) (a : K) :
    (changes.toList.foldl (fun m x => put m x.1 x.2) m)[a]? = changes[a]?.getD m[a]? := by
  obtain ⟨hmem, habsent⟩ := get_foldl_put (nodup_keys_toList changes) m a
  cases h : changes[a]? with
  | some v => apply hmem v ((mem_toList changes a v).mpr h)
  | none =>
    apply habsent
    intro ha
    rw [List.mem_map] at ha
    obtain ⟨⟨k, v⟩, hk, rfl⟩ := ha
    rw [mem_toList, h] at hk
    cases hk

def mapEntries {W : Type w} (m : Map K V) (f : K → V → Option W) : Map K W :=
  m.toList.foldl (fun n x => insertSome n x.1 (f x.1 x.2)) ∅

theorem get_mapEntries {W : Type w} (m : Map K V) (f : K → V → Option W) (a : K) :
    (mapEntries m f)[a]? = m[a]?.bind (f a) := by
  have hfold : ∀ (l : List (K × V)) (n : Map K W), (l.map Prod.fst).Nodup →
      (∀ v, (a, v) ∈ l →
        (l.foldl (fun n x => insertSome n x.1 (f x.1 x.2)) n)[a]? = (f a v).or n[a]?) ∧
      (a ∉ l.map Prod.fst →
        (l.foldl (fun n x => insertSome n x.1 (f x.1 x.2)) n)[a]? = n[a]?) := by
    intro l
    induction l with
    | nil => simp
    | cons x l ih =>
      intro n hl
      rw [List.map_cons, List.nodup_cons] at hl
      rw [List.foldl_cons]
      obtain ⟨hmem, habsent⟩ := ih (insertSome n x.1 (f x.1 x.2)) hl.2
      constructor
      . intro v hv
        rw [List.mem_cons] at hv
        obtain rfl | hv := hv
        . rw [habsent hl.1, get_insertSome, if_pos rfl]
        . rw [hmem v hv, get_insertSome, if_neg]
          rintro rfl
          apply hl.1
          rw [List.mem_map]
          exact ⟨(x.1, v), hv, rfl⟩
      . intro ha
        rw [List.map_cons, List.mem_cons, not_or] at ha
        rw [habsent ha.2, get_insertSome, if_neg (Ne.symm ha.1)]
  obtain ⟨hmem, habsent⟩ := hfold m.toList ∅ (nodup_keys_toList m)
  unfold mapEntries
  cases h : m[a]? with
  | some v =>
    rw [hmem v ((mem_toList m a v).mpr h)]
    simp
  | none =>
    rw [habsent]
    . rfl
    . intro ha
      rw [List.mem_map] at ha
      obtain ⟨⟨k, v⟩, hk, rfl⟩ := ha
      rw [mem_toList, h] at hk
      cases hk

theorem filter_insert_new (p : K → V → Bool) (h : m[k]? = none) :
    (m.insert k v).filter p = if p k v then (m.filter p).insert k v else m.filter p := by
  apply Std.ExtTreeMap.ext_getElem?
  intro a
  rw [Std.ExtTreeMap.getElem?_filter', get_insert]
  by_cases heq : k = a
  . subst heq
    cases hp : p k v with
    | true => simp [hp]
    | false => simp [hp, h]
  . cases hp : p k v with
    | true => simp [heq, get_insert]
    | false => simp [heq]

theorem count_insert_new (p : K → V → Bool) (h : m[k]? = none) :
    count (m.insert k v) p = count m p + if p k v then 1 else 0 := by
  unfold count
  rw [filter_insert_new p h]
  cases hp : p k v with
  | true =>
    have hmem : k ∉ m.filter p := by
      rw [Std.ExtTreeMap.mem_iff_isSome_getElem?, Std.ExtTreeMap.getElem?_filter', h]
      simp
    simp [Std.ExtTreeMap.size_insert, hmem]
  | false => simp

theorem insert_erase_same (m : Map K V) (k : K) (v : V) : (m.erase k).insert k v = m.insert k v := by
  apply Std.ExtTreeMap.ext_getElem?
  intro a
  rw [get_insert, get_insert, get_erase]
  split
  . rfl
  . rfl

theorem insert_erase (h : m[k]? = some v) :
    (m.erase k).insert k v = m := by
  rw [insert_erase_same, insert_eq_self h]

theorem modify_eq_insert (f : V → V) (h : m[k]? = some v) :
    m.modify k f = m.insert k (f v) := by
  apply Std.ExtTreeMap.ext_getElem?
  intro a
  rw [get_modify, get_insert]
  split
  . rw [h, Option.map_some]
  . rfl

theorem count_erase (p : K → V → Bool) (h : m[k]? = some v) :
    count m p = count (m.erase k) p + if p k v then 1 else 0 := by
  have hnew : (m.erase k)[k]? = none := by
    rw [get_erase]
    simp
  rw [← count_insert_new p hnew, insert_erase h]

end Map

namespace KeySet

variable {K : Type u} [Ord K] [Std.TransOrd K]

theorem not_mem_empty (a : K) : a ∉ (∅ : KeySet K) := by
  simp

theorem isEmpty_iff_forall (s : KeySet K) : s.isEmpty = true ↔ ∀ a, a ∉ s := by
  rw [Std.ExtTreeSet.isEmpty_iff, Std.ExtTreeSet.eq_empty_iff_forall_not_mem]

theorem isEmpty_eq_false_iff (s : KeySet K) : s.isEmpty = false ↔ ∃ a, a ∈ s := by
  rw [← Bool.not_eq_true, isEmpty_iff_forall]
  simp

variable [Std.LawfulEqOrd K]

theorem mem_insert (s : KeySet K) (k a : K) : a ∈ s.insert k ↔ k = a ∨ a ∈ s := by
  rw [Std.ExtTreeSet.mem_insert, Std.LawfulEqCmp.compare_eq_iff_eq]

theorem mem_erase (s : KeySet K) (k a : K) : a ∈ s.erase k ↔ k ≠ a ∧ a ∈ s := by
  rw [Std.ExtTreeSet.mem_erase, ne_eq, ne_eq, Std.LawfulEqCmp.compare_eq_iff_eq]

def ofElems (l : List K) : KeySet K :=
  l.foldl (fun s a => s.insert a) ∅

theorem mem_foldl_insert (l : List K) (s : KeySet K) (a : K) :
    a ∈ l.foldl (fun s a => s.insert a) s ↔ a ∈ l ∨ a ∈ s := by
  induction l generalizing s with
  | nil => simp
  | cons b l ih =>
    simp only [List.foldl_cons, ih, mem_insert, List.mem_cons]
    constructor
    . rintro (h | rfl | h)
      . exact Or.inl (Or.inr h)
      . exact Or.inl (Or.inl rfl)
      . exact Or.inr h
    . rintro ((rfl | h) | h)
      . exact Or.inr (Or.inl rfl)
      . exact Or.inl h
      . exact Or.inr (Or.inr h)

theorem mem_ofElems (l : List K) (a : K) : a ∈ ofElems l ↔ a ∈ l := by
  unfold ofElems
  rw [mem_foldl_insert]
  simp

theorem nodup_toList (s : KeySet K) : s.toList.Nodup := by
  have h := Std.ExtTreeSet.distinct_toList (t := s)
  apply h.imp
  intro a b hab heq
  apply hab
  simp [heq]

end KeySet

end Data
