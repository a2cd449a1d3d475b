import GraphInspector.Data.Map
import Mathlib.Data.Set.Card
import Mathlib.Logic.Relation

/-!
Depth first search with an explicit stack.
-/

namespace Data

universe u

variable {K : Type u} [Ord K] [Std.TransOrd K] {nodes : List K}

def visit (state : List K × KeySet K) (child : K) : List K × KeySet K :=
  if state.2.contains child then state else (child :: state.1, state.2.insert child)

def search (next : K → List K) : Nat → List K → KeySet K → List K × KeySet K
  | 0, stack, visited => (stack, visited)
  | _ + 1, [], visited => ([], visited)
  | fuel + 1, a :: stack, visited =>
    let (stack, visited) := (next a).foldl visit (stack, visited)
    search next fuel stack visited

def Reaches (next : K → List K) : K → K → Prop :=
  Relation.TransGen fun a b => b ∈ next a

section Visit

variable {stack : List K} {visited : KeySet K} {child : K}

theorem visit_seen (h : visited.contains child = true) :
    visit (stack, visited) child = (stack, visited) :=
  if_pos h

theorem visit_new (h : visited.contains child = false) :
    visit (stack, visited) child = (child :: stack, visited.insert child) :=
  if_neg (Bool.eq_false_iff.mp h)

def unvisited (nodes : List K) (visited : KeySet K) : Nat :=
  nodes.countP fun a => !visited.contains a

theorem unvisited_insert_lt (hmem : child ∈ nodes) (hchild : visited.contains child = false) :
    unvisited nodes (visited.insert child) < unvisited nodes visited := by
  have himp : ∀ a, (!(visited.insert child).contains a) = true → (!visited.contains a) = true := by
    intro a hnot
    rw [Std.ExtTreeSet.contains_insert] at hnot
    simp only [Bool.not_eq_true', Bool.or_eq_false_iff] at hnot ⊢
    exact hnot.2
  unfold unvisited
  induction nodes with
  | nil => cases hmem
  | cons a nodes ih =>
    rw [List.countP_cons, List.countP_cons]
    obtain rfl | hmem := List.mem_cons.mp hmem
    . have hle := List.countP_mono_left (l := nodes) fun b _ => himp b
      simp only [Std.ExtTreeSet.contains_insert_self, hchild]
      simp only [Bool.not_true, Bool.not_false, Bool.false_eq_true, if_false, if_true]
      omega
    . have hlt := ih hmem
      by_cases hinserted : (!(visited.insert child).contains a) = true
      . rw [if_pos hinserted, if_pos (himp a hinserted)]
        omega
      . rw [if_neg hinserted]
        omega

theorem length_foldl_visit (children : List K) (hchildren : ∀ b ∈ children, b ∈ nodes) (stack : List K)
    (visited : KeySet K) :
    (children.foldl visit (stack, visited)).1.length
        + unvisited nodes (children.foldl visit (stack, visited)).2
      ≤ stack.length + unvisited nodes visited := by
  induction children generalizing stack visited with
  | nil => exact le_refl _
  | cons child children ih =>
    have hrest := ih fun b hb => hchildren b (List.mem_cons_of_mem _ hb)
    rw [List.foldl_cons]
    cases hseen : visited.contains child with
    | true =>
      rw [visit_seen hseen]
      exact hrest stack visited
    | false =>
      rw [visit_new hseen]
      have hlt := unvisited_insert_lt (hchildren child List.mem_cons_self) hseen
      have hstep := hrest (child :: stack) (visited.insert child)
      rw [List.length_cons] at hstep
      omega

variable [Std.LawfulEqOrd K]

theorem mem_foldl_visit_snd (children : List K) (stack : List K) (visited : KeySet K) (b : K) :
    b ∈ (children.foldl visit (stack, visited)).2 ↔ b ∈ children ∨ b ∈ visited := by
  induction children generalizing stack visited with
  | nil => simp
  | cons child children ih =>
    rw [List.foldl_cons]
    cases hseen : visited.contains child with
    | true =>
      rw [visit_seen hseen, ih, List.mem_cons]
      constructor
      . rintro (hmem | hmem)
        . exact Or.inl (Or.inr hmem)
        . exact Or.inr hmem
      . rintro ((rfl | hmem) | hmem)
        . exact Or.inr (Std.ExtTreeSet.mem_iff_contains.mpr hseen)
        . exact Or.inl hmem
        . exact Or.inr hmem
    | false =>
      rw [visit_new hseen, ih, List.mem_cons, KeySet.mem_insert, eq_comm]
      tauto

theorem mem_foldl_visit_fst (children : List K) (stack : List K) (visited : KeySet K) (b : K) :
    b ∈ (children.foldl visit (stack, visited)).1 ↔ b ∈ stack ∨ (b ∈ children ∧ b ∉ visited) := by
  induction children generalizing stack visited with
  | nil => simp
  | cons child children ih =>
    rw [List.foldl_cons]
    cases hseen : visited.contains child with
    | true =>
      rw [visit_seen hseen, ih, List.mem_cons]
      have hchild := Std.ExtTreeSet.mem_iff_contains.mpr hseen
      constructor
      . rintro (hmem | ⟨hmem, hnot⟩)
        . exact Or.inl hmem
        . exact Or.inr ⟨Or.inr hmem, hnot⟩
      . rintro (hmem | ⟨rfl | hmem, hnot⟩)
        . exact Or.inl hmem
        . exact absurd hchild hnot
        . exact Or.inr ⟨hmem, hnot⟩
    | false =>
      rw [visit_new hseen, ih, List.mem_cons, List.mem_cons, KeySet.mem_insert]
      have hchild : child ∉ visited := by
        rw [Std.ExtTreeSet.mem_iff_contains, hseen]
        exact Bool.false_ne_true
      by_cases heq : b = child
      . subst heq
        simp [hchild]
      . simp [heq, Ne.symm heq]

end Visit

section Search

variable {next : K → List K} {start : K} {stack : List K} {visited : KeySet K}

structure Searching (next : K → List K) (start : K) (stack : List K) (visited : KeySet K) : Prop where
  sound : ∀ a ∈ visited, Reaches next start a
  stacked : ∀ a ∈ stack, a = start ∨ a ∈ visited
  done : ∀ a, a = start ∨ a ∈ visited → a ∈ stack ∨ ∀ b ∈ next a, b ∈ visited

theorem Searching.init (next : K → List K) (start : K) : Searching next start [start] ∅ where
  sound a hmem := absurd hmem (KeySet.not_mem_empty a)
  stacked a hmem := Or.inl (List.mem_singleton.mp hmem)
  done a h := by
    obtain rfl | hmem := h
    . exact Or.inl (List.mem_singleton_self _)
    . exact absurd hmem (KeySet.not_mem_empty a)

theorem Searching.finished (h : Searching next start [] visited) (b : K) :
    b ∈ visited ↔ Reaches next start b := by
  have hclosed : ∀ a, a = start ∨ a ∈ visited → ∀ b ∈ next a, b ∈ visited := by
    intro a ha
    obtain hmem | hnext := h.done a ha
    . cases hmem
    . exact hnext
  constructor
  . exact h.sound b
  . intro hreach
    induction hreach with
    | single hb => exact hclosed start (Or.inl rfl) _ hb
    | tail _ hb ih => exact hclosed _ (Or.inr ih) _ hb

variable [Std.LawfulEqOrd K]

theorem Searching.step {a : K} (h : Searching next start (a :: stack) visited) :
    Searching next start ((next a).foldl visit (stack, visited)).1
      ((next a).foldl visit (stack, visited)).2 := by
  have hstart : ∀ b ∈ next a, Reaches next start b := by
    intro b hb
    obtain rfl | hmem := h.stacked a List.mem_cons_self
    . exact Relation.TransGen.single hb
    . exact Relation.TransGen.tail (h.sound a hmem) hb
  constructor
  case sound =>
    intro b hb
    rw [mem_foldl_visit_snd] at hb
    obtain hb | hb := hb
    . exact hstart b hb
    . exact h.sound b hb
  case stacked =>
    intro b hb
    rw [mem_foldl_visit_fst] at hb
    rw [mem_foldl_visit_snd]
    obtain hb | ⟨hb, _⟩ := hb
    . obtain heq | hmem := h.stacked b (List.mem_cons_of_mem _ hb)
      . exact Or.inl heq
      . exact Or.inr (Or.inr hmem)
    . exact Or.inr (Or.inl hb)
  case done =>
    intro b hb
    rw [mem_foldl_visit_snd] at hb
    simp only [mem_foldl_visit_fst, mem_foldl_visit_snd]
    by_cases hold : b = start ∨ b ∈ visited
    . obtain hstack | hnext := h.done b hold
      . rw [List.mem_cons] at hstack
        obtain rfl | hstack := hstack
        . exact Or.inr fun c hc => Or.inl hc
        . exact Or.inl (Or.inl hstack)
      . exact Or.inr fun c hc => Or.inr (hnext c hc)
    . -- A node that is visited in this round is pushed.
      rw [not_or] at hold
      obtain heq | hchild | hvisited := hb
      . exact absurd heq hold.1
      . exact Or.inl (Or.inr ⟨hchild, hold.2⟩)
      . exact absurd hvisited hold.2

theorem search_finishes (hnodes : ∀ a, ∀ b ∈ next a, b ∈ nodes) {fuel : Nat}
    (hfuel : stack.length + unvisited nodes visited ≤ fuel) (h : Searching next start stack visited) :
    (search next fuel stack visited).1 = [] ∧
      ∀ b, b ∈ (search next fuel stack visited).2 ↔ Reaches next start b := by
  induction fuel generalizing stack visited with
  | zero =>
    have hnil : stack = [] := List.length_eq_zero_iff.mp (by omega)
    subst hnil
    exact ⟨rfl, h.finished⟩
  | succ fuel ih =>
    cases stack with
    | nil => exact ⟨rfl, h.finished⟩
    | cons a stack =>
      have hround := length_foldl_visit (next a) (hnodes a) stack visited
      rw [List.length_cons] at hfuel
      exact ih (by omega) h.step

theorem search_start (start : K) (hnodes : ∀ a, ∀ b ∈ next a, b ∈ nodes) {fuel : Nat}
    (hfuel : 1 + nodes.length ≤ fuel) :
    (search next fuel [start] ∅).1 = [] ∧
      ∀ b, b ∈ (search next fuel [start] ∅).2 ↔ Reaches next start b := by
  apply search_finishes hnodes ?_ (Searching.init next start)
  have hle : unvisited nodes ∅ ≤ nodes.length := List.countP_le_length
  rw [List.length_singleton]
  omega

end Search

theorem KeySet.ncard_setOf_mem [Std.LawfulEqOrd K] (s : KeySet K) : {a | a ∈ s}.ncard = s.size := by
  classical
  have hset : {a | a ∈ s} = (s.toList.toFinset : Set K) := by
    ext a
    simp [Std.ExtTreeSet.mem_toList]
  rw [hset, Set.ncard_coe_finset, List.toFinset_card_of_nodup (KeySet.nodup_toList s),
    Std.ExtTreeSet.length_toList]

end Data
