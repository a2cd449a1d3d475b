import Mathlib.Data.List.Basic

/-!
Runs of a transition function. A step may be refused, and a run is a list of events none of which is
refused.
-/

namespace Data

universe u v

variable {σ : Type u} {ε : Type v}

def run (step : σ → ε → Option σ) (s : σ) : List ε → Option σ
  | [] => some s
  | e :: es =>
    match step s e with
    | none => none
    | some s' => run step s' es

namespace run

variable {step : σ → ε → Option σ}

theorem cons_eq_some {s t : σ} {e : ε} {es : List ε} :
    run step s (e :: es) = some t ↔ ∃ s', step s e = some s' ∧ run step s' es = some t := by
  simp only [run]
  split
  . next h => simp [h]
  . next s' h => simp [h]

theorem append_eq_some {s t : σ} {es fs : List ε} :
    run step s (es ++ fs) = some t ↔ ∃ s', run step s es = some s' ∧ run step s' fs = some t := by
  induction es generalizing s with
  | nil => simp [run]
  | cons e es ih =>
    simp only [List.cons_append, cons_eq_some, ih]
    constructor
    . rintro ⟨a, ha, b, hb, hc⟩
      exact ⟨b, ⟨a, ha, hb⟩, hc⟩
    . rintro ⟨b, ⟨a, ha, hb⟩, hc⟩
      exact ⟨a, ha, b, hb, hc⟩

theorem append {s t u : σ} {es fs : List ε} (h : run step s es = some t)
    (h' : run step t fs = some u) : run step s (es ++ fs) = some u :=
  append_eq_some.mpr ⟨t, h, h'⟩

theorem initial_cases {es done rest : List ε} {e : ε} (h : es ++ [e] = done ++ rest) :
    (done = es ++ [e] ∧ rest = []) ∨ ∃ rest', es = done ++ rest' := by
  obtain rfl | ⟨rest', f, rfl⟩ := List.eq_nil_or_concat' rest
  . exact Or.inl ⟨by simpa using h.symm, rfl⟩
  . rw [← List.append_assoc] at h
    exact Or.inr ⟨rest', (List.append_inj' h rfl).1⟩

theorem invariant {Inv : σ → Prop} (hstep : ∀ s e s', Inv s → step s e = some s' → Inv s')
    {s t : σ} {es : List ε} (hs : Inv s) (h : run step s es = some t) : Inv t := by
  induction es generalizing s with
  | nil =>
    cases h
    exact hs
  | cons e es ih =>
    rw [cons_eq_some] at h
    obtain ⟨s', hs', h⟩ := h
    exact ih (hstep s e s' hs hs') h

theorem invariant_of_guard {Inv : σ → Prop} {Guard : σ → ε → Prop}
    (hstep : ∀ s e s', Inv s → Guard s e → step s e = some s' → Inv s')
    {s t : σ} {es : List ε} (hs : Inv s)
    (hguard : ∀ pre e post u, es = pre ++ e :: post → run step s pre = some u → Guard u e)
    (h : run step s es = some t) : Inv t := by
  induction es generalizing s with
  | nil =>
    cases h
    exact hs
  | cons e es ih =>
    rw [cons_eq_some] at h
    obtain ⟨s', hs', h⟩ := h
    have hg := hguard [] e es s rfl rfl
    apply ih (hstep s e s' hs hg hs') _ h
    intro pre f post u heq hu
    apply hguard (e :: pre) f post u
    . rw [heq]
      rfl
    . rw [cons_eq_some]
      exact ⟨s', hs', hu⟩

def checks (step : σ → ε → Option σ) (check : σ → ε → Bool) (s : σ) : List ε → Bool
  | [] => true
  | e :: es => check s e && (step s e).all fun s' => checks step check s' es

theorem guard_of_checks {Guard : σ → ε → Prop} {check : σ → ε → Bool}
    (hcheck : ∀ s e, check s e = true → Guard s e) {s u : σ} {es pre post : List ε} {e : ε}
    (h : checks step check s es = true) (hes : es = pre ++ e :: post) (hrun : run step s pre = some u) :
    Guard u e := by
  induction pre generalizing s es with
  | nil =>
    cases hrun
    rw [hes, List.nil_append, checks, Bool.and_eq_true] at h
    exact hcheck _ e h.1
  | cons f pre ih =>
    obtain ⟨s', hs', hrun⟩ := cons_eq_some.mp hrun
    rw [hes, List.cons_append, checks, Bool.and_eq_true, hs'] at h
    exact ih h.2 rfl hrun

theorem exists_rest {Inv Rest : σ → Prop} {measure : σ → Nat} {s : σ} (events : Nat → ε)
    (hstep : ∀ n t, run step s ((List.range n).map events) = some t → Inv t → ¬ Rest t →
      ∃ t', step t (events n) = some t' ∧ (Rest t' ∨ Inv t' ∧ measure t' < measure t))
    (hs : Inv s) :
    ∃ n t, n ≤ measure s + 1 ∧ run step s ((List.range n).map events) = some t ∧ Rest t := by
  by_contra hnone
  -- A run of any length can be continued, and each of its steps has lowered the measure.
  have hrun : ∀ n, n ≤ measure s + 1 →
      ∃ t, run step s ((List.range n).map events) = some t ∧ Inv t ∧ measure t + n ≤ measure s := by
    intro n
    induction n with
    | zero => exact fun _ => ⟨s, rfl, hs, Nat.le_refl _⟩
    | succ n ih =>
      intro hn
      obtain ⟨t, hrun, hinv, hmeasure⟩ := ih (by omega)
      have hrest : ¬ Rest t := fun hrest => hnone ⟨n, t, by omega, hrun, hrest⟩
      obtain ⟨t', ht', hnext⟩ := hstep n t hrun hinv hrest
      have hrun' : run step s ((List.range (n + 1)).map events) = some t' := by
        rw [List.range_succ, List.map_append, append_eq_some]
        exact ⟨t, hrun, cons_eq_some.mpr ⟨t', ht', rfl⟩⟩
      obtain hrest | ⟨hinv', hlt⟩ := hnext
      . exact absurd ⟨n + 1, t', hn, hrun', hrest⟩ hnone
      . exact ⟨t', hrun', hinv', by omega⟩
  obtain ⟨t, -, -, hmeasure⟩ := hrun (measure s + 1) (Nat.le_refl _)
  omega

end run

end Data
