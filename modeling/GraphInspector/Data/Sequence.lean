import Mathlib.Data.List.Chain
import Mathlib.Data.List.Nodup

/-!
Sequences: distinct elements in first occurrence order, the consecutive pairs of a path, the iterates of a
function along a list, and lists whose entries change in place while new ones are appended.
-/

namespace Data

universe u

variable {α : Type u} {a : α}

def firstOccurrences [BEq α] (l : List α) : List α :=
  l.foldl (fun seen a => if seen.contains a then seen else seen ++ [a]) []

section FirstOccurrences

variable [BEq α] [LawfulBEq α]

private theorem foldl_firstOccurrences (l seen : List α) (hseen : seen.Nodup) :
    (∀ a, a ∈ l.foldl (fun seen a => if seen.contains a then seen else seen ++ [a]) seen ↔
      a ∈ seen ∨ a ∈ l) ∧
    (l.foldl (fun seen a => if seen.contains a then seen else seen ++ [a]) seen).Nodup := by
  induction l generalizing seen with
  | nil => simp [hseen]
  | cons b l ih =>
    rw [List.foldl_cons]
    split
    . next hb =>
      have hmem : b ∈ seen := by simpa using hb
      obtain ⟨h1, h2⟩ := ih seen hseen
      refine ⟨?_, h2⟩
      intro a
      rw [h1, List.mem_cons]
      constructor
      . rintro (h | h)
        . exact Or.inl h
        . exact Or.inr (Or.inr h)
      . rintro (h | rfl | h)
        . exact Or.inl h
        . exact Or.inl hmem
        . exact Or.inr h
    . next hb =>
      have hmem : b ∉ seen := by simpa using hb
      have hnodup : (seen ++ [b]).Nodup := by
        rw [List.nodup_append]
        refine ⟨hseen, List.nodup_singleton b, ?_⟩
        intro a ha c hc heq
        rw [List.mem_singleton] at hc
        subst hc heq
        exact hmem ha
      obtain ⟨h1, h2⟩ := ih (seen ++ [b]) hnodup
      refine ⟨?_, h2⟩
      intro a
      rw [h1, List.mem_append, List.mem_singleton, List.mem_cons, or_assoc]

theorem mem_firstOccurrences (l : List α) (a : α) : a ∈ firstOccurrences l ↔ a ∈ l := by
  have h := (foldl_firstOccurrences l [] List.nodup_nil).1 a
  simp only [List.not_mem_nil, false_or] at h
  exact h

theorem nodup_firstOccurrences (l : List α) : (firstOccurrences l).Nodup :=
  (foldl_firstOccurrences l [] List.nodup_nil).2

end FirstOccurrences

def windows (path : List α) : List (α × α) :=
  path.zip path.tail

theorem windows_cons (a b : α) (path : List α) :
    windows (a :: b :: path) = (a, b) :: windows (b :: path) := rfl

variable {R : α → α → Prop} {l : List α}

theorem forall_mem_windows {path : List α} :
    (∀ pair ∈ windows path, R pair.1 pair.2) ↔ path.IsChain R := by
  induction path with
  | nil => simp [windows]
  | cons a path ih =>
    cases path with
    | nil => simp [windows]
    | cons b path =>
      rw [windows_cons, List.forall_mem_cons, ih, List.isChain_cons_cons]

def Walk {β : Type u} (source target : α → β) (start : β) : List α → β → Prop
  | [], finish => start = finish
  | a :: l, finish => source a = start ∧ Walk source target (target a) l finish

theorem Walk.append_singleton {β : Type u} {source target : α → β} {start finish : β}
    (h : Walk source target start l finish) (ha : source a = finish) :
    Walk source target start (l ++ [a]) (target a) := by
  induction l generalizing start with
  | nil => exact ⟨ha.trans (Eq.symm h), rfl⟩
  | cons b l ih => exact ⟨h.1, ih h.2⟩

theorem map_eq_filterMap_some {β : Type u} {f : α → Option β} (h : ∀ a ∈ l, ∃ b, f a = some b) :
    l.map f = (l.filterMap f).map some := by
  induction l with
  | nil => rfl
  | cons a l ih =>
    obtain ⟨b, hb⟩ := h a List.mem_cons_self
    rw [List.map_cons, List.filterMap_cons_some hb, List.map_cons, hb,
      ih fun c hc => h c (List.mem_cons_of_mem a hc)]

section Resolved

variable {β γ : Type u} {r : List β} {f : α → Option β} (h : l.map f = r.map some)
include h

theorem exists_of_map_eq (ha : a ∈ l) : ∃ b, f a = some b := by
  have hmem : f a ∈ r.map some := by
    rw [← h]
    exact List.mem_map_of_mem ha
  obtain ⟨b, -, hb⟩ := List.mem_map.mp hmem
  exact ⟨b, hb.symm⟩

theorem mem_iff_of_map_eq (b : β) : b ∈ r ↔ ∃ a ∈ l, f a = some b := by
  have hmem : b ∈ r ↔ some b ∈ r.map some := by simp
  rw [hmem, ← h, List.mem_map]

theorem filterMap_eq_of_map_eq {g : β → Option γ} :
    r.filterMap g = l.filterMap fun a => (f a).bind g := by
  have hr : r.filterMap g = (r.map some).filterMap (fun b => b.bind g) := by
    rw [List.filterMap_map]
    rfl
  rw [hr, ← h, List.filterMap_map]
  rfl

theorem map_map_eq_of_map_eq {g : β → γ} : (l.map fun a => (f a).map g) = (r.map g).map some := by
  have hl : (l.map fun a => (f a).map g) = (l.map f).map (Option.map g) := by
    rw [List.map_map]
    rfl
  rw [hl, h, List.map_map, List.map_map]
  rfl

theorem zip_map_eq_of_map_eq {g : α → β → γ} {g' : α → γ}
    (hg : ∀ a ∈ l, ∀ b, f a = some b → g a b = g' a) :
    (l.zip r).map (fun x => g x.1 x.2) = l.map g' := by
  induction l generalizing r with
  | nil => simp
  | cons a l ih =>
    cases r with
    | nil => simp at h
    | cons b r =>
      simp only [List.map_cons, List.cons.injEq] at h
      rw [List.zip_cons_cons, List.map_cons, List.map_cons,
        ih h.2 (fun a' ha' => hg a' (List.mem_cons_of_mem a ha')), hg a List.mem_cons_self b h.1]

end Resolved

theorem split_append {r before after : List α} (h : l ++ r = before ++ a :: after) :
    (∃ rest, after = rest ++ r ∧ l = before ++ a :: rest) ∨
      ∃ rest, before = l ++ rest ∧ r = rest ++ a :: after := by
  rw [List.append_eq_append_iff] at h
  obtain ⟨rest, hbefore, hr⟩ | ⟨rest, hl, hafter⟩ := h
  . exact Or.inr ⟨rest, hbefore, hr⟩
  . cases rest with
    | nil => exact Or.inr ⟨[], by simpa using hl.symm, hafter.symm⟩
    | cons b rest =>
      rw [List.cons_append] at hafter
      cases hafter
      exact Or.inl ⟨rest, rfl, hl⟩

theorem mem_takeWhile_of_pairwise {p : α → Bool} (h : l.Pairwise R)
    (hp : ∀ b c, R b c → p c = true → p b = true) (ha : a ∈ l) (hpa : p a = true) :
    a ∈ l.takeWhile p := by
  induction l with
  | nil => exact absurd ha List.not_mem_nil
  | cons b l ih =>
    obtain ⟨hfirst, htail⟩ := List.pairwise_cons.mp h
    obtain rfl | hmem := List.mem_cons.mp ha
    . rw [List.takeWhile_cons_of_pos hpa]
      exact List.mem_cons_self
    . rw [List.takeWhile_cons_of_pos (hp b a (hfirst a hmem) hpa)]
      exact List.mem_cons_of_mem b (ih htail hmem)

theorem exists_findIdx? [DecidableEq α] (h : a ∈ l) :
    ∃ index before after, l.findIdx? (fun b => b = a) = some index ∧ l = before ++ a :: after ∧
      l.drop index = a :: after := by
  induction l with
  | nil => exact absurd h List.not_mem_nil
  | cons b l ih =>
    rw [List.findIdx?_cons]
    by_cases hb : b = a
    . subst hb
      exact ⟨0, [], l, if_pos (decide_eq_true rfl), rfl, rfl⟩
    . obtain ⟨index, before, after, hindex, hl, hdrop⟩ :=
        ih ((List.mem_cons.mp h).resolve_left (Ne.symm hb))
      refine ⟨index + 1, b :: before, after, ?_, ?_, hdrop⟩
      . rw [if_neg (by simpa using hb), hindex]
        rfl
      . rw [hl]
        rfl

section Greatest

variable {l : List Nat}

theorem le_foldr_max {a : Nat} (h : a ∈ l) : a ≤ l.foldr max 0 := by
  induction l with
  | nil => exact absurd h List.not_mem_nil
  | cons b l ih =>
    rw [List.foldr_cons]
    obtain rfl | h := List.mem_cons.mp h
    . exact Nat.le_max_left _ _
    . exact (ih h).trans (Nat.le_max_right _ _)

theorem foldr_max_le {bound : Nat} (h : ∀ a ∈ l, a ≤ bound) :
    l.foldr max 0 ≤ bound := by
  induction l with
  | nil => exact Nat.zero_le _
  | cons b l ih =>
    rw [List.foldr_cons, Nat.max_le]
    exact ⟨h b List.mem_cons_self, ih fun a ha => h a (List.mem_cons_of_mem b ha)⟩

theorem foldr_max_of_max? {a : Nat} (h : l.max? = some a) : l.foldr max 0 = a := by
  rw [List.max?_eq_some_iff] at h
  exact Nat.le_antisymm (foldr_max_le h.2) (le_foldr_max h.1)

end Greatest

/-!
Looking up in a table of pairs.
-/

theorem exists_lookup_zip {β : Type u} [DecidableEq α] {l : List α} {values : List β} (h : a ∈ l)
    (hlength : l.length ≤ values.length) : ∃ b, (l.zip values).lookup a = some b := by
  induction l generalizing values with
  | nil => cases h
  | cons head l ih =>
    cases values with
    | nil => cases hlength
    | cons b values =>
      rw [List.zip_cons_cons, List.lookup_cons]
      by_cases hhead : a = head
      . exact ⟨b, by simp [hhead]⟩
      . have hmem := (List.mem_cons.mp h).resolve_left hhead
        obtain ⟨found, hfound⟩ := ih hmem (Nat.le_of_succ_le_succ hlength)
        refine ⟨found, ?_⟩
        have hne : (a == head) = false := by simpa using hhead
        rw [hne]
        exact hfound

theorem exists_mapM_eq_some {β : Type u} {f : α → Option β} {l : List α} (h : ∀ a ∈ l, ∃ b, f a = some b) :
    ∃ values, l.mapM f = some values := by
  induction l with
  | nil => exact ⟨[], rfl⟩
  | cons a l ih =>
    obtain ⟨b, hb⟩ := h a List.mem_cons_self
    obtain ⟨values, hvalues⟩ := ih fun a ha => h a (List.mem_cons_of_mem _ ha)
    exact ⟨b :: values, by simp [List.mapM_cons, hb, hvalues]⟩

/--
What `l'` holds at a place and `l` does not hold there satisfies `p`.
-/
def Renewed (p : α → Prop) (l l' : List α) : Prop :=
  ∀ (index : Nat) (a : α), l'[index]? = some a → l[index]? = some a ∨ p a

namespace Renewed

variable {p q : α → Prop} {l' l'' : List α}

theorem refl (p : α → Prop) (l : List α) : Renewed p l l :=
  fun _ _ h => Or.inl h

theorem set (index : Nat) (h : p a) : Renewed p l (l.set index a) := by
  intro index' b hget
  by_cases heq : index = index'
  . subst heq
    have hlength := (List.getElem?_eq_some_iff.mp hget).1
    rw [List.length_set] at hlength
    rw [List.getElem?_set_self hlength, Option.some.injEq] at hget
    exact Or.inr (hget ▸ h)
  . rw [List.getElem?_set_ne heq] at hget
    exact Or.inl hget

theorem append (h : p a) : Renewed p l (l ++ [a]) := by
  intro index b hget
  rw [List.getElem?_append] at hget
  split at hget
  . exact Or.inl hget
  . exact Or.inr (List.mem_singleton.mp (List.mem_of_getElem? hget) ▸ h)

theorem trans (h : Renewed p l l') (h' : Renewed q l' l'') (himp : ∀ a, q a → p a) :
    Renewed p l l'' := by
  intro index a hget
  obtain hget | ha := h' index a hget
  . exact h index a hget
  . exact Or.inr (himp a ha)

end Renewed

/-!
Infinite sequences, and the iterates of a function along a list.
-/

def stack : List α → (Nat → α) → Nat → α
  | [], rest, n => rest n
  | a :: _, _, 0 => a
  | _ :: l, rest, n + 1 => stack l rest n

theorem stack_append (l r : List α) (rest : Nat → α) : stack (l ++ r) rest = stack l (stack r rest) := by
  induction l with
  | nil => rfl
  | cons a l ih =>
    funext n
    cases n with
    | zero => rfl
    | succ n => exact congrFun ih n

def iterates (f : α → α) (a : α) (n : Nat) : α :=
  f^[n] a

theorem iterates_eq_stack (f : α → α) (a : α) : iterates f a = stack [a] (iterates f (f a)) := by
  funext n
  cases n with
  | zero => rfl
  | succ n => exact Function.iterate_succ_apply f n a

variable {f : α → α} {last : α}

theorem iterates_down (h : (a :: l).IsChain fun x y => f x = y)
    (hlast : (a :: l).getLast? = some last) :
    iterates f a = stack (a :: l) (iterates f (f last)) := by
  induction l generalizing a with
  | nil =>
    cases hlast
    exact iterates_eq_stack f a
  | cons b l ih =>
    obtain ⟨rfl, hrest⟩ := List.isChain_cons_cons.mp h
    rw [iterates_eq_stack, ih hrest (by simpa using hlast)]
    exact (stack_append [a] _ _).symm

theorem iterates_up (h : (a :: l).IsChain fun x y => f y = x)
    (hlast : (a :: l).getLast? = some last) : iterates f last = stack l.reverse (iterates f a) := by
  induction l generalizing a with
  | nil =>
    cases hlast
    rfl
  | cons b l ih =>
    obtain ⟨rfl, hrest⟩ := List.isChain_cons_cons.mp h
    rw [ih hrest (by simpa using hlast), List.reverse_cons, stack_append, iterates_eq_stack f b]

section Evolution

variable {xs ys zs : List α}

def Evolves (R : α → α → Prop) (xs ys : List α) : Prop :=
  ∀ (i : Nat) (a : α), xs[i]? = some a → ∃ b, ys[i]? = some b ∧ R a b

namespace Evolves

theorem refl (hR : ∀ a, R a a) (xs : List α) : Evolves R xs xs :=
  fun _ a ha => ⟨a, ha, hR a⟩

theorem trans (hR : ∀ a b c, R a b → R b c → R a c) (h : Evolves R xs ys) (h' : Evolves R ys zs) :
    Evolves R xs zs := by
  intro i a ha
  obtain ⟨b, hb, hab⟩ := h i a ha
  obtain ⟨c, hc, hbc⟩ := h' i b hb
  exact ⟨c, hc, hR a b c hab hbc⟩

theorem append (hR : ∀ a, R a a) (xs new : List α) : Evolves R xs (xs ++ new) := by
  intro i a ha
  refine ⟨a, ?_, hR a⟩
  rw [List.getElem?_append_left (List.getElem?_eq_some_iff.mp ha).1, ha]

theorem set (hR : ∀ a, R a a) {i : Nat} {a b : α} (ha : xs[i]? = some a) (hab : R a b) :
    Evolves R xs (xs.set i b) := by
  intro j c hc
  by_cases hij : i = j
  . subst hij
    rw [ha, Option.some.injEq] at hc
    subst hc
    exact ⟨b, List.getElem?_set_self (List.getElem?_eq_some_iff.mp ha).1, hab⟩
  . exact ⟨c, by rw [List.getElem?_set_ne hij, hc], hR c⟩

end Evolves

end Evolution

end Data
