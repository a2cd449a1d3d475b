import Mathlib.Data.List.Basic

/-!
Computations that may fail. The lemmas take a successful computation apart into its steps.
-/

namespace Data

universe u v w

variable {ε : Type u} {α β : Type v}

def orError (value : Option α) (error : ε) : Except ε α :=
  match value with
  | some a => .ok a
  | none => .error error

def ensure (condition : Prop) [Decidable condition] (error : ε) : Except ε PUnit :=
  if condition then .ok ⟨⟩ else .error error

variable {x : Except ε α} {e error : ε} {a : α} {condition : Prop} {r : List α} {R : α → β → Prop}

theorem bind_eq_ok {f : α → Except ε β} {b : β} :
    (x >>= f) = .ok b ↔ ∃ a, x = .ok a ∧ f a = .ok b := by
  cases x with
  | error e => simp [bind, Except.bind]
  | ok a => simp [bind, Except.bind]

theorem bind_eq_error {f : α → Except ε β} :
    (x >>= f) = .error e ↔ x = .error e ∨ ∃ a, x = .ok a ∧ f a = .error e := by
  cases x with
  | error error => simp [bind, Except.bind]
  | ok a => simp [bind, Except.bind]

theorem ok_bind (a : α) (f : α → Except ε β) : (Except.ok a >>= f) = f a :=
  rfl

theorem toOption_eq_some : x.toOption = some a ↔ x = .ok a := by
  cases x with
  | error e => simp [Except.toOption]
  | ok b => simp [Except.toOption]

theorem pure_eq_ok {b : α} : (pure a : Except ε α) = .ok b ↔ a = b := by
  simp [pure, Except.pure]

theorem orError_eq_ok {value : Option α} : orError value error = .ok a ↔ value = some a := by
  cases value with
  | none => simp [orError]
  | some b => simp [orError]

theorem ensure_eq_ok [Decidable condition] {u : PUnit} :
    ensure condition error = .ok u ↔ condition := by
  unfold ensure
  split
  . next h => simp [h]
  . next h => simp [h]

theorem ensure_pos [Decidable condition] (h : condition) (error : ε) :
    ensure condition error = .ok ⟨⟩ :=
  ensure_eq_ok.mpr h

theorem ensure_eq_error [Decidable condition] :
    ensure condition error = .error e ↔ ¬ condition ∧ error = e := by
  unfold ensure
  split
  . next h => simp [h]
  . next h => simp [h]

theorem foldlM_eq_error {γ : Type w} {f : α → γ → Except ε α} {P : ε → Prop}
    (hf : ∀ a b e, f a b = .error e → P e) {l : List γ} {a : α} {e : ε}
    (h : l.foldlM f a = .error e) : P e := by
  induction l generalizing a with
  | nil => cases h
  | cons b l ih =>
    rw [List.foldlM_cons, bind_eq_error] at h
    obtain h | ⟨a', -, h⟩ := h
    . exact hf a b e h
    . exact ih h

theorem foldlM_congr {γ : Type w} {f g : α → γ → Except ε α} {l : List γ}
    (h : ∀ c ∈ l, ∀ a, f a c = g a c) (a : α) : l.foldlM f a = l.foldlM g a := by
  induction l generalizing a with
  | nil => rfl
  | cons c l ih =>
    rw [List.foldlM_cons, List.foldlM_cons, h c List.mem_cons_self]
    congr 1
    exact funext (ih fun d hd => h d (List.mem_cons_of_mem c hd))

theorem mapM_orError_eq_ok {γ : Type w} {f : γ → Option α} {l : List γ} :
    l.mapM (fun c => orError (f c) error) = .ok r ↔ l.map f = r.map some := by
  induction l generalizing r with
  | nil =>
    rw [List.mapM_nil, pure_eq_ok]
    cases r with
    | nil => simp
    | cons a r => simp
  | cons c l ih =>
    rw [List.mapM_cons, bind_eq_ok]
    simp only [bind_eq_ok, orError_eq_ok, pure_eq_ok, ih]
    cases r with
    | nil => simp
    | cons a r =>
      simp only [List.map_cons, List.cons.injEq]
      constructor
      . rintro ⟨a', ha, r', hr, rfl, rfl⟩
        exact ⟨ha, hr⟩
      . rintro ⟨ha, hr⟩
        exact ⟨a, ha, r, hr, rfl, rfl⟩

theorem isOk_of_mapM_eq_ok {γ : Type w} {f : γ → Except ε α} {l : List γ} (h : l.mapM f = .ok r)
    {c : γ} (hc : c ∈ l) : ∃ a, f c = .ok a := by
  induction l generalizing r with
  | nil => exact absurd hc List.not_mem_nil
  | cons d l ih =>
    rw [List.mapM_cons, bind_eq_ok] at h
    obtain ⟨a, ha, h⟩ := h
    rw [bind_eq_ok] at h
    obtain ⟨rest, hrest, _⟩ := h
    obtain rfl | hc := List.mem_cons.mp hc
    . exact ⟨a, ha⟩
    . exact ih hrest hc

theorem mem_of_mapM_eq_ok {γ : Type w} {f : γ → Except ε α} {l : List γ} (h : l.mapM f = .ok r) :
    a ∈ r ↔ ∃ c ∈ l, f c = .ok a := by
  induction l generalizing r with
  | nil =>
    rw [List.mapM_nil, pure_eq_ok] at h
    subst h
    simp
  | cons c l ih =>
    rw [List.mapM_cons, bind_eq_ok] at h
    obtain ⟨b, hb, h⟩ := h
    rw [bind_eq_ok] at h
    obtain ⟨rest, hrest, h⟩ := h
    rw [pure_eq_ok] at h
    subst h
    rw [List.mem_cons, ih hrest, List.exists_mem_cons_iff, hb, Except.ok.injEq, eq_comm]

theorem mapM_eq_ok_of_forall {γ : Type w} {f : γ → Except ε α} {g : γ → α} {l : List γ}
    (h : ∀ c ∈ l, f c = .ok (g c)) : l.mapM f = .ok (l.map g) := by
  induction l with
  | nil => rfl
  | cons c l ih =>
    rw [List.mapM_cons, h c List.mem_cons_self, ih fun d hd => h d (List.mem_cons_of_mem c hd)]
    rfl

/--
Two computations that fail alike, or succeed with related results.
-/
inductive Alike (R : α → β → Prop) : Except ε α → Except ε β → Prop
  | error (e : ε) : Alike R (.error e) (.error e)
  | ok {a : α} {b : β} (h : R a b) : Alike R (.ok a) (.ok b)

theorem Alike.bind {γ : Type v} {x : Except ε γ} {f : γ → Except ε α} {g : γ → Except ε β}
    (h : ∀ c, x = .ok c → Alike R (f c) (g c)) : Alike R (x >>= f) (x >>= g) := by
  cases x with
  | error e => exact .error e
  | ok c => exact h c rfl

theorem Alike.map {γ δ : Type v} {T : γ → δ → Prop} {y : Except ε β} {f : α → γ} {g : β → δ}
    (h : Alike R x y) (hfg : ∀ a b, R a b → T (f a) (g b)) :
    Alike T (x >>= fun a => pure (f a)) (y >>= fun b => pure (g b)) := by
  cases h with
  | error e => exact .error e
  | ok h => exact .ok (hfg _ _ h)

end Data
