import GraphInspector.Data.Map
import Mathlib.Algebra.Order.BigOperators.Group.Finset

/-!
The total of a weight over the entries of a map.
-/

namespace Data

namespace Map

universe u v

variable {K : Type u} {V : Type v} [DecidableEq K] [Ord K] [Std.TransOrd K] [Std.LawfulEqOrd K]

def total (m : Map K V) (weight : V → Nat) : Nat :=
  (m.toList.map fun entry => weight entry.2).sum

theorem total_eq_sum (m : Map K V) (weight : V → Nat) {s : Finset K}
    (hs : ∀ (k : K) (v : V), m[k]? = some v → k ∈ s) :
    total m weight = s.sum fun k => m[k]?.elim 0 weight := by
  have hkeys : total m weight = ((m.toList.map Prod.fst).map fun k => m[k]?.elim 0 weight).sum := by
    unfold total
    rw [List.map_map]
    congr 1
    apply List.map_congr_left
    rintro ⟨k, v⟩ hentry
    simp [(mem_toList m k v).mp hentry]
  rw [hkeys, ← List.sum_toFinset _ (nodup_keys_toList m)]
  apply Finset.sum_subset
  . intro k hk
    obtain ⟨⟨_, v⟩, hentry, rfl⟩ := List.mem_map.mp (List.mem_toFinset.mp hk)
    exact hs _ v ((mem_toList m _ v).mp hentry)
  . intro k _ hk
    cases hget : m[k]? with
    | none => rfl
    | some v =>
      apply absurd _ hk
      exact List.mem_toFinset.mpr (List.mem_map.mpr ⟨(k, v), (mem_toList m k v).mpr hget, rfl⟩)

theorem total_lt {m n : Map K V} {weight : V → Nat}
    (hle : ∀ (k : K) (v : V), n[k]? = some v → ∃ w, m[k]? = some w ∧ weight v ≤ weight w)
    {k : K} {w : V} (hget : m[k]? = some w) (hlt : n[k]?.elim 0 weight < weight w) :
    total n weight < total m weight := by
  have hm : ∀ (a : K) (v : V), m[a]? = some v → a ∈ (m.toList.map Prod.fst).toFinset := by
    intro a v hv
    exact List.mem_toFinset.mpr (List.mem_map.mpr ⟨(a, v), (mem_toList m a v).mpr hv, rfl⟩)
  have hn : ∀ (a : K) (v : V), n[a]? = some v → a ∈ (m.toList.map Prod.fst).toFinset := by
    intro a v hv
    obtain ⟨w, hw, -⟩ := hle a v hv
    exact hm a w hw
  rw [total_eq_sum n weight hn, total_eq_sum m weight hm]
  apply Finset.sum_lt_sum
  . intro a _
    cases hv : n[a]? with
    | none => exact Nat.zero_le _
    | some v =>
      obtain ⟨w, hw, hvw⟩ := hle a v hv
      rw [hw]
      exact hvw
  . refine ⟨k, hm k w hget, ?_⟩
    rw [hget]
    exact hlt

end Map

end Data
