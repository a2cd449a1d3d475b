import GraphInspector.Data.Multimap

/-!
Secondary indexes of a table of records: by a unique key, by a set of keys, and by a predicate.
-/

namespace Data

universe u v w

variable {K : Type u} {I : Type v} {R : Type w} [Ord K] [Std.TransOrd K]

namespace Indexes

def eraseKey (index : Map K I) (k : Option K) : Map K I :=
  match k with
  | some k => index.erase k
  | none => index

def insertKey (index : Map K I) (k : Option K) (id : I) : Map K I :=
  match k with
  | some k => index.insert k id
  | none => index

variable [DecidableEq K] [Std.LawfulEqOrd K]

theorem get_eraseKey (index : Map K I) (k : Option K) (a : K) :
    (eraseKey index k)[a]? = if k = some a then none else index[a]? := by
  unfold eraseKey
  cases k with
  | none => simp
  | some k => simpa using Map.get_erase index k a

theorem get_insertKey (index : Map K I) (k : Option K) (id : I) (a : K) :
    (insertKey index k id)[a]? = if k = some a then some id else index[a]? := by
  unfold insertKey
  cases k with
  | none => simp
  | some k => simpa using Map.get_insert index k a id

end Indexes

variable [Ord I] [Std.TransOrd I]

def Indexes (index : Map K I) (records : Map I R) (key : R → Option K) : Prop :=
  ∀ (k : K) (id : I), index[k]? = some id ↔ ∃ r, records[id]? = some r ∧ key r = some k

namespace Indexes

variable {index : Map K I} {records : Map I R} {key : R → Option K} {id : I} {r r' : R}

theorem empty : Indexes (∅ : Map K I) (∅ : Map I R) key := by
  intro k id
  simp

theorem id_eq (h : Indexes index records key) {other : I} {k : K} (hid : records[id]? = some r)
    (hk : key r = some k) (hother : records[other]? = some r') (hk' : key r' = some k) : id = other := by
  have hget := (h k id).mpr ⟨r, hid, hk⟩
  have hget' := (h k other).mpr ⟨r', hother, hk'⟩
  rw [hget] at hget'
  exact Option.some.inj hget'

section Records

variable [DecidableEq I] [Std.LawfulEqOrd I]

theorem update (h : Indexes index records key) (hget : records[id]? = some r) (hkey : key r' = key r) :
    Indexes index (records.insert id r') key := by
  intro k other
  rw [h k other, Map.get_insert]
  by_cases hid : id = other
  . subst hid
    simp [hget, hkey]
  . rw [if_neg hid]

end Records

variable [DecidableEq K] [Std.LawfulEqOrd K] [Std.LawfulEqOrd I]

def build (records : Map I R) (key : R → Option K) : Map K I :=
  (records.toList.filterMap fun entry => (key entry.2).map (·, entry.1)).foldl
    (fun (index : Map K I) posting => index.insert posting.1 posting.2) ∅

theorem eq_build (h : Indexes index records key) : index = build records key := by
  have hmem : ∀ (k : K) (id : I),
      (k, id) ∈ (records.toList.filterMap fun entry => (key entry.2).map (·, entry.1)) ↔
        index[k]? = some id := by
    intro k id
    rw [h k id, List.mem_filterMap]
    constructor
    . rintro ⟨⟨other, r⟩, hentry, hkey⟩
      obtain ⟨k', hk, heq⟩ := Option.map_eq_some_iff.mp hkey
      cases heq
      exact ⟨r, (Map.mem_toList _ _ _).mp hentry, hk⟩
    . rintro ⟨r, hget, hk⟩
      exact ⟨(id, r), (Map.mem_toList _ _ _).mpr hget, Option.map_eq_some_iff.mpr ⟨k, hk, rfl⟩⟩
  apply Std.ExtTreeMap.ext_getElem?
  intro k
  apply Option.ext
  intro id
  unfold build
  rw [Map.get_foldl_insert_eq_some]
  . constructor
    . exact fun hget => ⟨(k, id), (hmem k id).mpr hget, rfl, rfl⟩
    . rintro ⟨⟨_, _⟩, hposting, rfl, rfl⟩
      exact (hmem _ _).mp hposting
  . rintro ⟨k, id⟩ hposting ⟨_, other⟩ hother rfl
    have hget := (hmem k id).mp hposting
    rw [(hmem k other).mp hother] at hget
    exact (Option.some.inj hget).symm

variable [DecidableEq I]

theorem erase (h : Indexes index records key) (hget : records[id]? = some r) :
    Indexes (eraseKey index (key r)) (records.erase id) key := by
  intro k other
  rw [get_eraseKey, Map.get_erase]
  by_cases hid : id = other
  . subst hid
    rw [if_pos rfl]
    constructor
    . intro hindex
      split at hindex
      . cases hindex
      . next hne =>
        obtain ⟨r', hget', hk⟩ := (h k id).mp hindex
        rw [hget] at hget'
        cases hget'
        exact absurd hk hne
    . rintro ⟨r', hget', -⟩
      cases hget'
  . rw [if_neg hid, ← h k other]
    split
    . next hk =>
      constructor
      . intro hnone
        cases hnone
      . intro hindex
        have := (h k id).mpr ⟨r, hget, hk⟩
        rw [this] at hindex
        exact absurd (Option.some.inj hindex) hid
    . exact Iff.rfl

theorem insert (h : Indexes index records key) (hfresh : records[id]? = none)
    (hkey : ∀ k, key r = some k → index[k]? = none) :
    Indexes (insertKey index (key r) id) (records.insert id r) key := by
  intro k other
  rw [get_insertKey, Map.get_insert]
  by_cases hid : id = other
  . subst hid
    rw [if_pos rfl]
    constructor
    . intro hindex
      split at hindex
      . next hk => exact ⟨r, rfl, hk⟩
      . obtain ⟨r', hget', -⟩ := (h k id).mp hindex
        rw [hfresh] at hget'
        cases hget'
    . rintro ⟨r', hr, hk⟩
      cases hr
      rw [if_pos hk]
  . rw [if_neg hid, ← h k other]
    split
    . next hk =>
      rw [hkey k hk]
      constructor
      . intro hsome
        exact absurd (Option.some.inj hsome) hid
      . intro hnone
        cases hnone
    . exact Iff.rfl

theorem replace (h : Indexes index records key) (hget : records[id]? = some r)
    (hkey : ∀ k other, key r' = some k → index[k]? = some other → other = id) :
    Indexes (insertKey (eraseKey index (key r)) (key r') id) (records.insert id r') key := by
  rw [← Map.insert_erase_same records id r']
  apply (h.erase hget).insert
  . rw [Map.get_erase, if_pos rfl]
  . intro k hk
    rw [get_eraseKey]
    split
    . rfl
    . next hne =>
      cases hindex : index[k]? with
      | none => rfl
      | some other =>
        have hother := (h k other).mp hindex
        rw [hkey k other hk hindex, hget] at hother
        obtain ⟨_, hr, hk'⟩ := hother
        cases hr
        exact absurd hk' hne

end Indexes

def Postings (index : Multimap K I) (records : Map I R) (keys : R → KeySet K) : Prop :=
  ∀ (k : K) (id : I), Multimap.Holds index k id ↔ ∃ r, records[id]? = some r ∧ k ∈ keys r

namespace Postings

variable {index : Multimap K I} {records : Map I R} {keys : R → KeySet K} {id : I} {r : R}

theorem empty : Postings (∅ : Multimap K I) (∅ : Map I R) keys := by
  intro k id
  simp [Multimap.not_holds_empty]

section Records

variable [DecidableEq I] [Std.LawfulEqOrd I]

theorem update (h : Postings index records keys) (hget : records[id]? = some r) {r' : R}
    (hkeys : keys r' = keys r) : Postings index (records.insert id r') keys := by
  intro k other
  rw [h k other, Map.get_insert]
  by_cases hid : id = other
  . subst hid
    simp [hget, hkeys]
  . rw [if_neg hid]

end Records

variable [DecidableEq K] [Std.LawfulEqOrd K] [Std.LawfulEqOrd I]

def build (records : Map I R) (keys : R → KeySet K) : Multimap K I :=
  (records.toList.flatMap fun entry => (keys entry.2).toList.map (·, entry.1)).foldl
    (fun index posting => Multimap.add index posting.1 posting.2) ∅

theorem eq_build (h : Postings index records keys) (hempty : Multimap.NoEmpty index) :
    index = build records keys := by
  apply Multimap.ext hempty (Multimap.noEmpty_foldl_add _ _ _ Multimap.noEmpty_empty)
  intro k id
  rw [h k id, Multimap.holds_foldl_add]
  constructor
  . rintro ⟨r, hget, hk⟩
    refine Or.inl ⟨(k, id), ?_, rfl, rfl⟩
    rw [List.mem_flatMap]
    exact ⟨(id, r), (Map.mem_toList _ _ _).mpr hget,
      List.mem_map.mpr ⟨k, Std.ExtTreeSet.mem_toList.mpr hk, rfl⟩⟩
  . rintro (⟨⟨_, _⟩, hposting, rfl, rfl⟩ | hholds)
    . obtain ⟨⟨other, r⟩, hentry, hposting⟩ := List.mem_flatMap.mp hposting
      obtain ⟨k, hk, heq⟩ := List.mem_map.mp hposting
      cases heq
      exact ⟨r, (Map.mem_toList _ _ _).mp hentry, Std.ExtTreeSet.mem_toList.mp hk⟩
    . exact absurd hholds (Multimap.not_holds_empty _ _)

variable [DecidableEq I]

theorem erase (h : Postings index records keys) (hget : records[id]? = some r) :
    Postings ((keys r).toList.foldl (fun index k => Multimap.remove index k id) index)
      (records.erase id) keys := by
  intro k other
  rw [Multimap.holds_foldl_remove, h k other, Map.get_erase]
  by_cases hid : id = other
  . subst hid
    rw [if_pos rfl]
    constructor
    . rintro ⟨hnot, r', hget', hk⟩
      rw [hget] at hget'
      cases hget'
      exact absurd ⟨rfl, rfl⟩ (hnot k (Std.ExtTreeSet.mem_toList.mpr hk))
    . rintro ⟨r', hnone, -⟩
      cases hnone
  . rw [if_neg hid]
    constructor
    . exact fun hholds => hholds.2
    . exact fun hholds => ⟨fun _ _ heq => hid heq.2, hholds⟩

theorem insert (h : Postings index records keys) (hfresh : records[id]? = none) :
    Postings ((keys r).toList.foldl (fun index k => Multimap.add index k id) index)
      (records.insert id r) keys := by
  intro k other
  rw [Multimap.holds_foldl_add, h k other, Map.get_insert]
  by_cases hid : id = other
  . subst hid
    rw [if_pos rfl]
    constructor
    . rintro (⟨a, ha, rfl, -⟩ | ⟨r', hget, -⟩)
      . exact ⟨r, rfl, Std.ExtTreeSet.mem_toList.mp ha⟩
      . rw [hfresh] at hget
        cases hget
    . rintro ⟨r', hr, hk⟩
      cases hr
      exact Or.inl ⟨k, Std.ExtTreeSet.mem_toList.mpr hk, rfl, rfl⟩
  . rw [if_neg hid]
    constructor
    . rintro (⟨_, _, -, heq⟩ | hget)
      . exact absurd heq hid
      . exact hget
    . exact Or.inr

theorem replace (h : Postings index records keys) (hget : records[id]? = some r) (r' : R) :
    Postings
      ((keys r').toList.foldl (fun index k => Multimap.add index k id)
        ((keys r).toList.foldl (fun index k => Multimap.remove index k id) index))
      (records.insert id r') keys := by
  rw [← Map.insert_erase_same records id r']
  apply (h.erase hget).insert
  rw [Map.get_erase, if_pos rfl]

end Postings

def Lists (ids : List I) (records : Map I R) (p : R → Prop) : Prop :=
  ∀ id : I, id ∈ ids ↔ ∃ r, records[id]? = some r ∧ p r

namespace Lists

variable {ids : List I} {records : Map I R} {p : R → Prop} {id : I} {r : R}

theorem empty : Lists ([] : List I) (∅ : Map I R) p := by
  intro id
  simp

variable [Std.LawfulEqOrd I]

def build (records : Map I R) (p : R → Prop) [DecidablePred p] : List I :=
  (records.toList.filter fun entry => p entry.2).map Prod.fst

theorem eq_build [DecidablePred p] (h : Lists ids records p)
    (hsorted : ids.Pairwise fun a b => compare a b = .lt) : ids = build records p := by
  have hasymm : Std.Asymm fun a b : I => compare a b = .lt := by
    constructor
    intro a b hlt hgt
    rw [Std.OrientedCmp.gt_of_lt hlt] at hgt
    cases hgt
  have hbuilt : (build records p).Pairwise fun a b => compare a b = .lt := by
    unfold build
    rw [List.pairwise_map]
    exact Std.ExtTreeMap.ordered_keys_toList.filter _
  apply hsorted.eq_of_mem_iff hbuilt
  intro id
  unfold build
  rw [h id, List.mem_map]
  constructor
  . rintro ⟨r, hget, hp⟩
    exact ⟨(id, r), List.mem_filter.mpr ⟨(Map.mem_toList _ _ _).mpr hget, decide_eq_true hp⟩, rfl⟩
  . rintro ⟨⟨_, r⟩, hentry, rfl⟩
    obtain ⟨hentry, hp⟩ := List.mem_filter.mp hentry
    exact ⟨r, (Map.mem_toList _ _ _).mp hentry, of_decide_eq_true hp⟩

variable [DecidableEq I]

theorem erase (h : Lists ids records p) (id : I) :
    Lists (ids.filter fun other => other ≠ id) (records.erase id) p := by
  intro other
  rw [List.mem_filter, h other, Map.get_erase]
  by_cases hid : id = other
  . simp [hid]
  . simp [hid, Ne.symm hid]

theorem erase_of_not (h : Lists ids records p) (hget : records[id]? = some r) (hp : ¬ p r) :
    Lists ids (records.erase id) p := by
  intro other
  rw [h other, Map.get_erase]
  by_cases hid : id = other
  . subst hid
    rw [if_pos rfl, hget]
    simp [hp]
  . rw [if_neg hid]

theorem insert (h : Lists ids records p) (hp : p r) :
    Lists (ids ++ [id]) (records.insert id r) p := by
  intro other
  rw [List.mem_append, List.mem_singleton, h other, Map.get_insert]
  by_cases hid : id = other
  . subst hid
    simp [hp]
  . simp [hid, Ne.symm hid]

theorem insert_of_not (h : Lists ids records p) (hfresh : records[id]? = none) (hp : ¬ p r) :
    Lists ids (records.insert id r) p := by
  intro other
  rw [h other, Map.get_insert]
  by_cases hid : id = other
  . subst hid
    rw [if_pos rfl, hfresh]
    simp [hp]
  . rw [if_neg hid]

theorem update (h : Lists ids records p) (hget : records[id]? = some r) {r' : R} (hp : p r' ↔ p r) :
    Lists ids (records.insert id r') p := by
  intro other
  rw [h other, Map.get_insert]
  by_cases hid : id = other
  . subst hid
    simp [hget, hp]
  . rw [if_neg hid]

end Lists

end Data
