import GraphInspector.Data.Map
import GraphInspector.Data.Outcome

/-!
Slots that register at most one entry of a list each.
-/

namespace Data

universe u v w

variable {K : Type u} {R : Type v} {J : Type w} {owns : K → R → J → Prop} {index : R → Nat}
variable {registry registry' : K → Option R} {jobs : List J}

def Registered (owns : K → R → J → Prop) (index : R → Nat) (registry : K → Option R)
    (jobs : List J) : Prop :=
  ∀ k r, registry k = some r → ∃ job, jobs[index r]? = some job ∧ owns k r job

namespace Registered

variable {k : K} {r : R} (h : Registered owns index registry jobs)
include h

theorem shrink (hsub : ∀ k r, registry' k = some r → registry k = some r) :
    Registered owns index registry' jobs :=
  fun k r hr => h k r (hsub k r hr)

theorem elect {job : J} (hindex : index r = jobs.length) (howns : owns k r job)
    (hsub : ∀ k' r', registry' k' = some r' → registry k' = some r' ∨ k' = k ∧ r' = r) :
    Registered owns index registry' (jobs ++ [job]) := by
  intro k' r' hr
  obtain hold | ⟨rfl, rfl⟩ := hsub k' r' hr
  . obtain ⟨job', hjob', howns'⟩ := h k' r' hold
    refine ⟨job', ?_, howns'⟩
    rw [List.getElem?_append_left (List.getElem?_eq_some_iff.mp hjob').1]
    exact hjob'
  . exact ⟨job, hindex ▸ List.getElem?_concat_length, howns⟩

theorem set {i : Nat} (job : J)
    (hsub : ∀ k r, registry' k = some r → registry k = some r ∧ index r ≠ i) :
    Registered owns index registry' (jobs.set i job) := by
  intro k r hr
  obtain ⟨hold, hne⟩ := hsub k r hr
  obtain ⟨job', hjob', howns⟩ := h k r hold
  exact ⟨job', by rw [List.getElem?_set_ne (Ne.symm hne), hjob'], howns⟩

theorem injective (howns : ∀ k k' r r' job, owns k r job → owns k' r' job → k = k') {k' : K}
    {r' : R} (hr : registry k = some r) (hr' : registry k' = some r') (hindex : index r = index r') :
    k = k' := by
  obtain ⟨job, hjob, hk⟩ := h k r hr
  obtain ⟨job', hjob', hk'⟩ := h k' r' hr'
  rw [hindex, hjob', Option.some.injEq] at hjob
  subst hjob
  exact howns k k' r r' job' hk hk'

theorem nodup_indexes {V : Type w} [DecidableEq K] [Ord K] [Std.TransOrd K] [Std.LawfulEqOrd K]
    (howns : ∀ k k' r r' job, owns k r job → owns k' r' job → k = k') {slots : Map K V}
    {running : V → Option R}
    (hslots : ∀ (k : K) (v : V) (r : R), slots[k]? = some v → running v = some r →
      registry k = some r) :
    (slots.toList.filterMap fun slot => (running slot.2).map index).Nodup := by
  have hkeys := Map.nodup_keys_toList slots
  rw [List.Nodup, List.pairwise_map] at hkeys
  rw [List.Nodup, List.pairwise_filterMap]
  apply List.Pairwise.imp_of_mem _ hkeys
  rintro ⟨k, v⟩ ⟨k', v'⟩ hmem hmem' hne i hi i' hi' heq
  rw [Option.map_eq_some_iff] at hi hi'
  obtain ⟨r, hr, rfl⟩ := hi
  obtain ⟨r', hr', rfl⟩ := hi'
  exact hne (h.injective howns (hslots k v r ((Map.mem_toList slots k v).mp hmem) hr)
    (hslots k' v' r' ((Map.mem_toList slots k' v').mp hmem') hr') heq)

end Registered

variable {ready : J → Prop} {g : J → J}

theorem foldlM_set {ε : Type u} {f : List J → Nat → Except ε (List J)}
    (hf : ∀ jobs i job, jobs[i]? = some job → ready job → f jobs i = .ok (jobs.set i (g job)))
    {indexes : List Nat} (hnodup : indexes.Nodup)
    (hready : ∀ i ∈ indexes, ∃ job, jobs[i]? = some job ∧ ready job) :
    ∃ jobs', indexes.foldlM f jobs = .ok jobs' ∧
      ∀ i, jobs'[i]? = if i ∈ indexes then jobs[i]?.map g else jobs[i]? := by
  induction indexes generalizing jobs with
  | nil => exact ⟨jobs, rfl, fun i => by rw [if_neg List.not_mem_nil]⟩
  | cons i indexes ih =>
    obtain ⟨hfresh, hnodup⟩ := List.nodup_cons.mp hnodup
    obtain ⟨job, hjob, hjobReady⟩ := hready i List.mem_cons_self
    have hother : ∀ j ∈ indexes, (jobs.set i (g job))[j]? = jobs[j]? := by
      intro j hj
      rw [List.getElem?_set_ne]
      rintro rfl
      exact hfresh hj
    have hrest : ∀ j ∈ indexes, ∃ job', (jobs.set i (g job))[j]? = some job' ∧ ready job' := by
      intro j hj
      rw [hother j hj]
      exact hready j (List.mem_cons_of_mem i hj)
    obtain ⟨jobs', hfold, hget⟩ := ih hnodup hrest
    refine ⟨jobs', ?_, ?_⟩
    . rw [List.foldlM_cons, hf jobs i job hjob hjobReady]
      exact hfold
    . intro j
      rw [hget j]
      by_cases hj : j ∈ indexes
      . rw [if_pos hj, if_pos (List.mem_cons_of_mem i hj), hother j hj]
      . rw [if_neg hj]
        by_cases hij : j = i
        . subst hij
          rw [if_pos List.mem_cons_self, List.getElem?_set_self (List.getElem?_eq_some_iff.mp hjob).1,
            hjob, Option.map_some]
        . rw [if_neg, List.getElem?_set_ne (Ne.symm hij)]
          rw [List.mem_cons, not_or]
          exact ⟨hij, hj⟩

theorem Registered.retire {V : Type w} [DecidableEq K] [Ord K] [Std.TransOrd K] [Std.LawfulEqOrd K]
    {ε : Type u} {f : List J → Nat → Except ε (List J)} (h : Registered owns index registry jobs)
    (howns : ∀ k k' r r' job, owns k r job → owns k' r' job → k = k')
    (hf : ∀ jobs i job, jobs[i]? = some job → ready job → f jobs i = .ok (jobs.set i (g job)))
    (hready : ∀ k r job, owns k r job → ready job) {slots : Map K V} {running : V → Option R}
    (hslots : ∀ (k : K) (v : V) (r : R), slots[k]? = some v → running v = some r →
      registry k = some r)
    (hrest : ∀ k r, registry' k = some r → registry k = some r ∧ slots[k]? = none) :
    ∃ jobs', (slots.toList.filterMap fun slot => (running slot.2).map index).foldlM f jobs
        = .ok jobs' ∧
      Registered owns index registry' jobs' ∧
      ∀ i : Nat, jobs'[i]? = jobs[i]? ∨
        ∃ k r job, jobs[i]? = some job ∧ owns k r job ∧ jobs'[i]? = some (g job) := by
  have hindexes : ∀ i, i ∈ slots.toList.filterMap (fun slot => (running slot.2).map index) →
      ∃ k v r, slots[k]? = some v ∧ registry k = some r ∧ index r = i := by
    intro i hi
    obtain ⟨⟨k, v⟩, hmem, hmap⟩ := List.mem_filterMap.mp hi
    obtain ⟨r, hr, rfl⟩ := Option.map_eq_some_iff.mp hmap
    have hv := (Map.mem_toList slots k v).mp hmem
    exact ⟨k, v, r, hv, hslots k v r hv hr, rfl⟩
  obtain ⟨jobs', hfold, hget⟩ := foldlM_set hf (h.nodup_indexes howns hslots) (by
    intro i hi
    obtain ⟨k, v, r, _, hr, rfl⟩ := hindexes i hi
    obtain ⟨job, hjob, hserves⟩ := h k r hr
    exact ⟨job, hjob, hready k r job hserves⟩)
  refine ⟨jobs', hfold, ?_, ?_⟩
  . intro k r hr
    obtain ⟨hold, hnone⟩ := hrest k r hr
    obtain ⟨job, hjob, hserves⟩ := h k r hold
    refine ⟨job, ?_, hserves⟩
    rw [hget, if_neg, hjob]
    intro hi
    obtain ⟨k', v, r', hv, hr', hindex⟩ := hindexes _ hi
    have hkey := h.injective howns hr' hold hindex
    subst hkey
    rw [hnone] at hv
    cases hv
  . intro i
    rw [hget i]
    split
    . next hi =>
      obtain ⟨k, v, r, _, hr, rfl⟩ := hindexes i hi
      obtain ⟨job, hjob, hserves⟩ := h k r hr
      rw [hjob, Option.map_some]
      exact Or.inr ⟨k, r, job, rfl, hserves, rfl⟩
    . exact Or.inl rfl

end Data
