import GraphInspector.ApiCore.Impl.Cache

/-!
What the operations of the delta cache do to its slots, and when pruning panics.
-/

namespace Kgi

open Data

namespace DeltaCache

variable {cache cache' : DeltaCache} {headRevisionTimestampMs : Nat}
  {result : Except CacheBuildError CachedDelta} {slot : DeltaCacheSlot}
  {sourceRevision targetRevision : Nat}

def Within (cache' cache : DeltaCache) : Prop :=
  ∀ (source : Nat) (slot : DeltaCacheSlot), cache'[source]? = some slot → cache[source]? = some slot

theorem Within.refl (cache : DeltaCache) : Within cache cache :=
  fun _ _ h => h

theorem Within.filter (cache : DeltaCache) (p : Nat → DeltaCacheSlot → Bool) :
    Within (cache.filter p) cache := by
  intro source slot h
  rw [Std.ExtTreeMap.getElem?_filter', Option.filter_eq_some_iff] at h
  exact h.1

theorem Within.empty (cache : DeltaCache) : Within ∅ cache := by
  intro source slot h
  rw [Std.ExtTreeMap.getElem?_empty] at h
  cases h

section Prune

variable {entry entry' : Nat × DeltaCacheSlot}

theorem isExpired_eq_ok {expired : Bool} :
    isExpired slot headRevisionTimestampMs = .ok expired ↔
      slot.firstRevisionTimestampMs ≤ headRevisionTimestampMs ∧ expired = decide (deltaCacheMaxAgeMs
        ≤ headRevisionTimestampMs - slot.firstRevisionTimestampMs) := by
  unfold isExpired
  simp only [bind_eq_ok, ensure_eq_ok, pure_eq_ok]
  constructor
  . rintro ⟨_, hle, rfl⟩
    exact ⟨hle, rfl⟩
  . rintro ⟨hle, rfl⟩
    exact ⟨⟨⟩, hle, rfl⟩

theorem isExpired_eq_error (h : headRevisionTimestampMs < slot.firstRevisionTimestampMs) :
    isExpired slot headRevisionTimestampMs
      = .error "a delta source timestamp does not postdate its publication Head" := by
  unfold isExpired ensure
  rw [if_neg (by omega)]
  rfl

def Chronological (cache : DeltaCache) : Prop :=
  ∀ (source source' : Nat) (slot slot' : DeltaCacheSlot), cache[source]? = some slot →
    cache[source']? = some slot' → source ≤ source' →
    slot.firstRevisionTimestampMs ≤ slot'.firstRevisionTimestampMs

variable {expired revision retained : Nat} {last found : Nat × DeltaCacheSlot}

theorem source_le_of_getLast? (hlast : cache.toList.getLast? = some last)
    (hentry : entry ∈ cache.toList) : entry.1 ≤ last.1 := by
  obtain ⟨initial, hinitial⟩ := List.getLast?_eq_some_iff.mp hlast
  have hordered := Std.ExtTreeMap.ordered_keys_toList (t := cache)
  rw [hinitial, List.pairwise_append] at hordered
  rw [hinitial, List.mem_append, List.mem_singleton] at hentry
  obtain hentry | rfl := hentry
  . have hlt := hordered.2.2 entry hentry last (List.mem_singleton_self last)
    rw [Nat.compare_eq_lt] at hlt
    exact Nat.le_of_lt hlt
  . exact Nat.le_refl _

theorem exists_rangeFrom (hlast : cache.toList.getLast? = some last) (hle : revision ≤ last.1) :
    ∃ entry, cache.rangeFrom revision = some entry ∧ entry ∈ cache.toList := by
  have hsome : (cache.rangeFrom revision).isSome = true := by
    unfold rangeFrom
    rw [List.find?_isSome]
    exact ⟨last, List.mem_of_getLast? hlast, decide_eq_true hle⟩
  obtain ⟨entry, hentry⟩ := Option.isSome_iff_exists.mp hsome
  exact ⟨entry, hentry, List.mem_of_find?_eq_some hentry⟩

theorem source_le_of_head? {first : Nat × DeltaCacheSlot}
    (hfirst : cache.toList.head? = some first) (hentry : entry ∈ cache.toList) :
    first.1 ≤ entry.1 := by
  obtain ⟨rest, hrest⟩ := List.head?_eq_some_iff.mp hfirst
  have hordered := Std.ExtTreeMap.ordered_keys_toList (t := cache)
  rw [hrest, List.pairwise_cons] at hordered
  rw [hrest, List.mem_cons] at hentry
  obtain rfl | hentry := hentry
  . exact Nat.le_refl _
  . exact Nat.le_of_lt (Nat.compare_eq_lt.mp (hordered.1 entry hentry))

theorem rangeFrom_eq_some (hfound : cache.rangeFrom revision = some found)
    (hentry : entry ∈ cache.toList) (hle : revision ≤ entry.1) : found.1 ≤ entry.1 := by
  obtain ⟨_, before, after, hlist, hbefore⟩ := List.find?_eq_some_iff_append.mp hfound
  have hordered := Std.ExtTreeMap.ordered_keys_toList (t := cache)
  rw [hlist, List.pairwise_append, List.pairwise_cons] at hordered
  rw [hlist, List.mem_append, List.mem_cons] at hentry
  obtain hentry | rfl | hentry := hentry
  . have hearlier := hbefore entry hentry
    rw [Bool.not_eq_true', decide_eq_false_iff_not] at hearlier
    omega
  . exact Nat.le_refl _
  . exact Nat.le_of_lt (Nat.compare_eq_lt.mp (hordered.2.1.1 entry hentry))

abbrev Expired (headRevisionTimestampMs : Nat) (slot : DeltaCacheSlot) : Prop :=
  deltaCacheMaxAgeMs ≤ headRevisionTimestampMs - slot.firstRevisionTimestampMs

structure Separates (cache : DeltaCache) (headRevisionTimestampMs expired retained : Nat) : Prop where
  expired : ∀ entry ∈ cache.toList, entry.1 ≤ expired → Expired headRevisionTimestampMs entry.2
  retained : ∀ entry ∈ cache.toList, retained ≤ entry.1 → ¬Expired headRevisionTimestampMs entry.2

theorem Chronological.le_of_mem (h : Chronological cache) (hentry : entry ∈ cache.toList)
    (hentry' : entry' ∈ cache.toList) (hle : entry.1 ≤ entry'.1) :
    entry.2.firstRevisionTimestampMs ≤ entry'.2.firstRevisionTimestampMs :=
  h entry.1 entry'.1 entry.2 entry'.2 ((Map.mem_toList cache _ _).mp hentry)
    ((Map.mem_toList cache _ _).mp hentry') hle

theorem Chronological.expired_of_le (h : Chronological cache) (hentry : entry ∈ cache.toList)
    (hentry' : entry' ∈ cache.toList) (hle : entry.1 ≤ entry'.1)
    (hexpired : Expired headRevisionTimestampMs entry'.2) :
    Expired headRevisionTimestampMs entry.2 := by
  have := h.le_of_mem hentry hentry' hle
  omega

theorem Separates.probe (h : Chronological cache) {midpoint : Nat}
    (hseparates : Separates cache headRevisionTimestampMs expired retained)
    (hfound : cache.rangeFrom midpoint = some found) (hmem : found ∈ cache.toList) :
    (Expired headRevisionTimestampMs found.2 →
        Separates cache headRevisionTimestampMs midpoint retained) ∧
      (¬Expired headRevisionTimestampMs found.2 →
        Separates cache headRevisionTimestampMs expired midpoint) := by
  constructor
  . intro hexpired
    refine ⟨?_, hseparates.retained⟩
    intro entry hentry hle
    have hmidpoint := List.find?_some hfound
    rw [decide_eq_true_eq] at hmidpoint
    exact h.expired_of_le hentry hmem (by omega) hexpired
  . intro hfresh
    refine ⟨hseparates.expired, ?_⟩
    intro entry hentry hle hexpired
    exact hfresh (h.expired_of_le hmem hentry (rangeFrom_eq_some hfound hentry hle) hexpired)

theorem Chronological.searchRetained_eq_ok (h : Chronological cache)
    (hlast : cache.toList.getLast? = some last)
    (hle : last.2.firstRevisionTimestampMs ≤ headRevisionTimestampMs) (rounds : Nat)
    (hlt : expired < retained) (hretained : retained ≤ last.1)
    (hrounds : retained - expired ≤ rounds + 1)
    (hseparates : Separates cache headRevisionTimestampMs expired retained) :
    ∃ bound, searchRetained cache headRevisionTimestampMs rounds expired retained = .ok (bound + 1) ∧
      bound + 1 ≤ last.1 ∧ Separates cache headRevisionTimestampMs bound (bound + 1) := by
  induction rounds generalizing expired retained with
  | zero =>
    obtain rfl : retained = expired + 1 := by omega
    exact ⟨expired, rfl, hretained, hseparates⟩
  | succ rounds ih =>
    rw [searchRetained]
    by_cases hclose : retained - expired ≤ 1
    . rw [if_pos hclose]
      obtain rfl : retained = expired + 1 := by omega
      exact ⟨expired, rfl, hretained, hseparates⟩
    . rw [if_neg hclose]
      have hmidpoint : expired + (retained - expired) / 2 ≤ last.1 := by omega
      obtain ⟨⟨source, slot⟩, hfound, hmem⟩ := exists_rangeFrom hlast hmidpoint
      have hslot := h.le_of_mem hmem (List.mem_of_getLast? hlast) (source_le_of_getLast? hlast hmem)
      have hprobe := hseparates.probe h hfound hmem
      dsimp only at hslot ⊢
      rw [hfound, orError_eq_ok.mpr rfl, ok_bind]
      dsimp only
      rw [isExpired_eq_ok.mpr ⟨by omega, rfl⟩, ok_bind]
      split
      . next hexpired =>
        exact ih (by omega) hretained (by omega) (hprobe.1 (of_decide_eq_true hexpired))
      . next hfresh =>
        exact ih (by omega) hmidpoint (by omega)
          (hprobe.2 fun hexpired => hfresh (decide_eq_true hexpired))

def Postdates (cache : DeltaCache) (headRevisionTimestampMs : Nat) : Prop :=
  ∃ first last, cache.toList.head? = some first ∧ cache.toList.getLast? = some last ∧
    (headRevisionTimestampMs < first.2.firstRevisionTimestampMs ∨
      deltaCacheMaxAgeMs ≤ headRevisionTimestampMs - first.2.firstRevisionTimestampMs ∧
        headRevisionTimestampMs < last.2.firstRevisionTimestampMs)

theorem pruneExpired_eq_error (h : Postdates cache headRevisionTimestampMs) :
    pruneExpired cache headRevisionTimestampMs
      = .error "a delta source timestamp does not postdate its publication Head" := by
  obtain ⟨first, last, hfirst, hlast, hlater⟩ := h
  unfold pruneExpired
  rw [hfirst]
  dsimp only
  by_cases hlt : headRevisionTimestampMs < first.2.firstRevisionTimestampMs
  . rw [isExpired_eq_error hlt]
    rfl
  . obtain ⟨hexpired, hlt'⟩ := hlater.resolve_left hlt
    rw [isExpired_eq_ok.mpr ⟨by omega, rfl⟩, ok_bind, decide_eq_true hexpired, hlast,
      orError_eq_ok.mpr rfl]
    rw [Bool.not_true, if_neg Bool.false_ne_true, ok_bind, isExpired_eq_error hlt']
    rfl

def Unexpired (cache : DeltaCache) (headRevisionTimestampMs : Nat) (cache' : DeltaCache) : Prop :=
  ∀ source : Nat, cache'[source]? = cache[source]?.filter fun slot =>
    decide (headRevisionTimestampMs - slot.firstRevisionTimestampMs < deltaCacheMaxAgeMs)

theorem unexpired_self
    (h : ∀ entry ∈ cache.toList, ¬Expired headRevisionTimestampMs entry.2) :
    Unexpired cache headRevisionTimestampMs cache := by
  intro source
  cases hslot : cache[source]? with
  | none => rfl
  | some slot =>
    have hfresh := h (source, slot) ((Map.mem_toList cache _ _).mpr hslot)
    rw [Option.filter_some_pos]
    exact decide_eq_true (Nat.not_le.mp hfresh)

theorem unexpired_empty (h : ∀ entry ∈ cache.toList, Expired headRevisionTimestampMs entry.2) :
    Unexpired cache headRevisionTimestampMs ∅ := by
  intro source
  rw [Std.ExtTreeMap.getElem?_empty]
  cases hslot : cache[source]? with
  | none => rfl
  | some slot =>
    have hexpired := h (source, slot) ((Map.mem_toList cache _ _).mpr hslot)
    rw [Option.filter_some_neg]
    exact decide_eq_false (Nat.not_lt.mpr hexpired)

theorem Separates.unexpired_splitOff {bound : Nat}
    (h : Separates cache headRevisionTimestampMs bound (bound + 1))
    (hfound : cache.rangeFrom (bound + 1) = some found) :
    Unexpired cache headRevisionTimestampMs (cache.splitOff found.1).2 := by
  intro source
  have hafter := List.find?_some hfound
  rw [decide_eq_true_eq] at hafter
  unfold splitOff
  rw [Std.ExtTreeMap.getElem?_filter']
  cases hslot : cache[source]? with
  | none => rfl
  | some slot =>
    have hentry := (Map.mem_toList cache source slot).mpr hslot
    by_cases hle : source ≤ bound
    . have hexpired := h.expired _ hentry hle
      rw [Option.filter_some_neg, Option.filter_some_neg]
      . exact decide_eq_false (Nat.not_lt.mpr hexpired)
      . exact decide_eq_false (by omega)
    . have hfresh := h.retained _ hentry (by omega)
      have hsource := rangeFrom_eq_some hfound hentry (by omega)
      rw [Option.filter_some_pos, Option.filter_some_pos]
      . exact decide_eq_true (Nat.not_le.mp hfresh)
      . exact decide_eq_true hsource

theorem Chronological.pruneExpired_eq_ok (h : Chronological cache)
    (hpostdates : ¬Postdates cache headRevisionTimestampMs) :
    ∃ cache', pruneExpired cache headRevisionTimestampMs = .ok cache' ∧
      Unexpired cache headRevisionTimestampMs cache' := by
  unfold pruneExpired
  cases hfirst : cache.toList.head? with
  | none =>
    rw [List.head?_eq_none_iff] at hfirst
    exact ⟨cache, rfl, unexpired_self (by simp [hfirst])⟩
  | some first =>
    obtain ⟨last, hlast⟩ : ∃ last, cache.toList.getLast? = some last := by
      rw [← Option.isSome_iff_exists, List.getLast?_isSome]
      rintro hnil
      rw [hnil] at hfirst
      cases hfirst
    have hmem := List.mem_of_head? hfirst
    have hmem' := List.mem_of_getLast? hlast
    have hle : first.2.firstRevisionTimestampMs ≤ headRevisionTimestampMs := by
      rw [← Nat.not_lt]
      intro hlt
      exact hpostdates ⟨first, last, hfirst, hlast, Or.inl hlt⟩
    dsimp only
    rw [isExpired_eq_ok.mpr ⟨hle, rfl⟩, ok_bind]
    by_cases hexpired : Expired headRevisionTimestampMs first.2
    . have hle' : last.2.firstRevisionTimestampMs ≤ headRevisionTimestampMs := by
        rw [← Nat.not_lt]
        intro hlt
        exact hpostdates ⟨first, last, hfirst, hlast, Or.inr ⟨hexpired, hlt⟩⟩
      rw [decide_eq_true hexpired, Bool.not_true, if_neg Bool.false_ne_true, hlast,
        orError_eq_ok.mpr rfl, ok_bind, isExpired_eq_ok.mpr ⟨hle', rfl⟩, ok_bind]
      by_cases hexpired' : Expired headRevisionTimestampMs last.2
      . rw [decide_eq_true hexpired', if_pos rfl]
        refine ⟨∅, rfl, unexpired_empty ?_⟩
        intro entry hentry
        exact h.expired_of_le hentry hmem' (source_le_of_getLast? hlast hentry) hexpired'
      . rw [decide_eq_false hexpired', if_neg Bool.false_ne_true]
        -- the first slot and the last one start the search
        have hlt : first.1 < last.1 := by
          rw [← Nat.not_le]
          intro hle
          exact hexpired' (h.expired_of_le hmem' hmem hle hexpired)
        have hseparates : Separates cache headRevisionTimestampMs first.1 last.1 := by
          constructor
          . intro entry hentry hle
            exact h.expired_of_le hentry hmem hle hexpired
          . intro entry hentry hle hexpired
            exact hexpired' (h.expired_of_le hmem' hentry hle hexpired)
        obtain ⟨bound, hbound, hboundLe, hseparates⟩ := h.searchRetained_eq_ok hlast hle'
          (last.1 - first.1) hlt (Nat.le_refl last.1) (Nat.le_succ _) hseparates
        obtain ⟨entry, hentry, _⟩ := exists_rangeFrom hlast hboundLe
        rw [hbound, ok_bind, hentry, orError_eq_ok.mpr rfl, ok_bind]
        exact ⟨_, rfl, hseparates.unexpired_splitOff hentry⟩
    . rw [decide_eq_false hexpired, Bool.not_false, if_pos rfl]
      refine ⟨cache, rfl, unexpired_self ?_⟩
      intro entry hentry hexpired'
      exact hexpired (h.expired_of_le hmem hentry (source_le_of_head? hfirst hentry) hexpired')

/--
Pruning removes the expired slots and no others, however sparse the sources are.
-/
theorem pruneExpired_removes_expired (h : Chronological cache)
    (hhead : ∀ (source : Nat) (slot : DeltaCacheSlot), cache[source]? = some slot →
      slot.firstRevisionTimestampMs ≤ headRevisionTimestampMs) :
    ∃ cache', pruneExpired cache headRevisionTimestampMs = .ok cache' ∧
      ∀ source : Nat, cache'[source]? = cache[source]?.filter fun slot =>
        decide (headRevisionTimestampMs - slot.firstRevisionTimestampMs < deltaCacheMaxAgeMs) := by
  apply h.pruneExpired_eq_ok
  rintro ⟨first, last, hfirst, hlast, hlater⟩
  have := hhead first.1 first.2 ((Map.mem_toList cache _ _).mp (List.mem_of_head? hfirst))
  have := hhead last.1 last.2 ((Map.mem_toList cache _ _).mp (List.mem_of_getLast? hlast))
  omega

def sparseCache : DeltaCache :=
  ((∅ : DeltaCache).insert 3 ⟨10, none, none⟩).insert 5000 ⟨20, none, none⟩

theorem sparseCache_get (source : Nat) : sparseCache[source]? =
    if 5000 = source then some ⟨20, none, none⟩ else
      if 3 = source then some ⟨10, none, none⟩ else none := by
  unfold sparseCache
  rw [Map.get_insert, Map.get_insert, Std.ExtTreeMap.getElem?_empty]

theorem pruneExpired_removes_expired_sparse :
    ∃ cache', pruneExpired sparseCache 300010 = .ok cache' ∧
      cache'[3]? = none ∧ cache'[5000]? = some ⟨20, none, none⟩ := by
  have hslot : ∀ (source : Nat) (slot : DeltaCacheSlot), sparseCache[source]? = some slot →
      source = 3 ∧ slot = ⟨10, none, none⟩ ∨ source = 5000 ∧ slot = ⟨20, none, none⟩ := by
    intro source slot hslot
    rw [sparseCache_get] at hslot
    split at hslot
    . next heq => exact Or.inr ⟨heq.symm, (Option.some.inj hslot).symm⟩
    . split at hslot
      . next heq => exact Or.inl ⟨heq.symm, (Option.some.inj hslot).symm⟩
      . cases hslot
  have hchronological : Chronological sparseCache := by
    intro source source' slot slot' hget hget' hle
    obtain ⟨rfl, rfl⟩ | ⟨rfl, rfl⟩ := hslot source slot hget
    all_goals
      obtain ⟨rfl, rfl⟩ | ⟨rfl, rfl⟩ := hslot source' slot' hget'
      all_goals
        dsimp only
        omega
  have hhead : ∀ (source : Nat) (slot : DeltaCacheSlot), sparseCache[source]? = some slot →
      slot.firstRevisionTimestampMs ≤ 300010 := by
    intro source slot hget
    obtain ⟨_, rfl⟩ | ⟨_, rfl⟩ := hslot source slot hget
    . decide
    . decide
  obtain ⟨cache', hok, hget⟩ := pruneExpired_removes_expired hchronological hhead
  refine ⟨cache', hok, ?_, ?_⟩
  . rw [hget 3, sparseCache_get]
    rfl
  . rw [hget 5000, sparseCache_get]
    rfl

theorem pruneExpired_within (h : pruneExpired cache headRevisionTimestampMs = .ok cache') :
    Within cache' cache := by
  unfold pruneExpired at h
  split at h
  . rw [pure_eq_ok] at h
    subst h
    exact Within.refl cache
  . obtain ⟨expired, _, h⟩ := bind_eq_ok.mp h
    split at h
    . rw [pure_eq_ok] at h
      subst h
      exact Within.refl cache
    . obtain ⟨last, _, h⟩ := bind_eq_ok.mp h
      obtain ⟨expired', _, h⟩ := bind_eq_ok.mp h
      split at h
      . rw [pure_eq_ok] at h
        subst h
        exact Within.empty cache
      . obtain ⟨retained, _, h⟩ := bind_eq_ok.mp h
        obtain ⟨entry, _, h⟩ := bind_eq_ok.mp h
        rw [pure_eq_ok] at h
        subst h
        exact Within.filter cache _

end Prune

inductive Finds (cache : DeltaCache) (sourceRevision targetRevision : Nat) :
    DeltaCacheLookup → Prop where
  | completed (slot : DeltaCacheSlot) (value : CachedDelta) (hslot : cache[sourceRevision]? = some slot)
      (hvalue : slot.completed = some value) (hadequate : value.isAdequateFor targetRevision = true) :
      Finds cache sourceRevision targetRevision (.completed value)
  | running (slot : DeltaCacheSlot) (running : RunningDeltaJob)
      (hslot : cache[sourceRevision]? = some slot) (hrunning : slot.running = some running) :
      Finds cache sourceRevision targetRevision (.running running.job)
  | absent (hslot : cache[sourceRevision]? = none) :
      Finds cache sourceRevision targetRevision (.constructionRequired none)
  | short (slot : DeltaCacheSlot) (hslot : cache[sourceRevision]? = some slot)
      (hshort : ∀ value ∈ slot.completed, value.isAdequateFor targetRevision = false) :
      Finds cache sourceRevision targetRevision
        (.constructionRequired (slot.completed.map CachedDelta.toRevisionId))

theorem lookup_eq_ok {found : DeltaCacheLookup}
    (h : lookup cache sourceRevision targetRevision headRevisionTimestampMs = .ok (cache', found)) :
    Within cache' cache ∧ Finds cache' sourceRevision targetRevision found := by
  obtain ⟨pruned, hpruned, h⟩ := bind_eq_ok.mp h
  have hwithin := pruneExpired_within hpruned
  split at h
  . next hslot =>
    rw [pure_eq_ok, Prod.mk.injEq] at h
    obtain ⟨rfl, rfl⟩ := h
    exact ⟨hwithin, .absent hslot⟩
  . next slot hslot =>
    split at h
    . next value hvalue =>
      rw [pure_eq_ok, Prod.mk.injEq] at h
      obtain ⟨rfl, rfl⟩ := h
      rw [Option.filter_eq_some_iff] at hvalue
      exact ⟨hwithin, .completed slot value hslot hvalue.1 hvalue.2⟩
    . next hnone =>
      split at h
      . next running hrunning =>
        rw [pure_eq_ok, Prod.mk.injEq] at h
        obtain ⟨rfl, rfl⟩ := h
        exact ⟨hwithin, .running slot running hslot hrunning⟩
      . rw [pure_eq_ok, Prod.mk.injEq] at h
        obtain ⟨rfl, rfl⟩ := h
        refine ⟨hwithin, .short slot hslot ?_⟩
        intro value hvalue
        rw [Option.filter_eq_none_iff] at hnone
        simpa using hnone value hvalue

theorem lookup_eq_error {message : String} :
    lookup cache sourceRevision targetRevision headRevisionTimestampMs = .error message ↔
      pruneExpired cache headRevisionTimestampMs = .error message := by
  unfold lookup
  cases pruneExpired cache headRevisionTimestampMs with
  | error message' =>
    change Except.error message' = Except.error message ↔ _
    rw [Except.error.injEq, Except.error.injEq]
  | ok pruned =>
    rw [ok_bind]
    constructor
    . intro h
      split at h
      . cases h
      . split at h
        . cases h
        . split at h
          . cases h
          . cases h
    . intro h
      cases h

inductive Elects (cache : DeltaCache)
    (sourceRevision firstRevisionTimestampMs targetRevision : Nat) (sizeLimited : Bool) (job : Nat) :
    DeltaCache × CacheAccess CachedDelta × Bool → Prop where
  | reclassified (slot : DeltaCacheSlot) (value : CachedDelta)
      (hslot : cache[sourceRevision]? = some slot) (hvalue : slot.completed = some value)
      (hlimited : sizeLimited = true) (htarget : value.toRevisionId = targetRevision) :
      Elects cache sourceRevision firstRevisionTimestampMs targetRevision sizeLimited job
        (cache.insert sourceRevision { slot with completed := some { value with sizeLimited := true } },
          .completed { value with sizeLimited := true }, false)
  | completed (slot : DeltaCacheSlot) (value : CachedDelta)
      (hslot : cache[sourceRevision]? = some slot) (hvalue : slot.completed = some value) :
      Elects cache sourceRevision firstRevisionTimestampMs targetRevision sizeLimited job
        (cache, .completed value, false)
  | running (slot : DeltaCacheSlot) (running : RunningDeltaJob)
      (hslot : cache[sourceRevision]? = some slot) (hrunning : slot.running = some running) :
      Elects cache sourceRevision firstRevisionTimestampMs targetRevision sizeLimited job
        (cache, .job running.job, false)
  | extended (slot : DeltaCacheSlot) (hslot : cache[sourceRevision]? = some slot)
      (hrunning : slot.running = none) :
      Elects cache sourceRevision firstRevisionTimestampMs targetRevision sizeLimited job
        (cache.insert sourceRevision
          { slot with running := some ⟨targetRevision, sizeLimited, job⟩ }, .job job, true)
  | opened (hslot : cache[sourceRevision]? = none) :
      Elects cache sourceRevision firstRevisionTimestampMs targetRevision sizeLimited job
        (cache.insert sourceRevision
          ⟨firstRevisionTimestampMs, none, some ⟨targetRevision, sizeLimited, job⟩⟩, .job job, true)

theorem elects_elect (cache : DeltaCache)
    (sourceRevision firstRevisionTimestampMs targetRevision : Nat) (sizeLimited : Bool) (job : Nat) :
    Elects cache sourceRevision firstRevisionTimestampMs targetRevision sizeLimited job
      (elect cache sourceRevision firstRevisionTimestampMs targetRevision sizeLimited job) := by
  unfold elect
  split
  . next slot hslot =>
    split
    . next value hvalue =>
      rw [Option.filter_eq_some_iff, Bool.and_eq_true, Bool.and_eq_true, decide_eq_true_eq] at hvalue
      exact .reclassified slot value hslot hvalue.1 hvalue.2.1.1 hvalue.2.1.2
    . split
      . next value hvalue =>
        rw [Option.filter_eq_some_iff] at hvalue
        exact .completed slot value hslot hvalue.1
      . split
        . next running hrunning => exact .running slot running hslot hrunning
        . next hrunning => exact .extended slot hslot hrunning
  . next hslot => exact .opened hslot

inductive Finishes (cache : DeltaCache) (sourceRevision job : Nat)
    (result : Except CacheBuildError CachedDelta) : DeltaCache → Prop where
  | detached (hother : ∀ slot running, cache[sourceRevision]? = some slot →
        slot.running = some running → running.job ≠ job) :
      Finishes cache sourceRevision job result cache
  | removed (slot : DeltaCacheSlot) (running : RunningDeltaJob)
      (hslot : cache[sourceRevision]? = some slot) (hrunning : slot.running = some running)
      (hjob : running.job = job) (hempty : slot.completed = none) :
      Finishes cache sourceRevision job result (cache.erase sourceRevision)
  | installed (slot : DeltaCacheSlot) (running : RunningDeltaJob) (value : CachedDelta)
      (hslot : cache[sourceRevision]? = some slot) (hrunning : slot.running = some running)
      (hjob : running.job = job)
      (hvalue : slot.completed = some value ∨ result = .ok value ∧
        ∀ completed ∈ slot.completed, completed.toRevisionId < value.toRevisionId) :
      Finishes cache sourceRevision job result
        (cache.insert sourceRevision ⟨slot.firstRevisionTimestampMs, some value, none⟩)

variable {job : Nat}

theorem completedAfter_eq_ok {running : RunningDeltaJob} {completed : Option CachedDelta}
    (h : completedAfter slot running sourceRevision result = .ok completed) :
    completed = slot.completed ∨ ∃ value, completed = some value ∧ result = .ok value ∧
      ∀ completed ∈ slot.completed, completed.toRevisionId < value.toRevisionId := by
  unfold completedAfter at h
  split at h
  . rw [pure_eq_ok] at h
    exact Or.inl h.symm
  . next value =>
    simp only [bind_eq_ok] at h
    obtain ⟨_, _, _, _, _, _, h⟩ := h
    split at h
    . next hless =>
      rw [pure_eq_ok] at h
      refine Or.inr ⟨value, h.symm, rfl, ?_⟩
      intro completed hcompleted
      rw [hcompleted, Option.all_some, decide_eq_true_eq] at hless
      exact hless
    . rw [pure_eq_ok] at h
      exact Or.inl h.symm

theorem finish_eq_ok (h : finish cache sourceRevision job result = .ok cache') :
    Finishes cache sourceRevision job result cache' := by
  unfold finish at h
  split at h
  . next hslot =>
    rw [pure_eq_ok] at h
    subst h
    refine .detached ?_
    intro slot running hslot'
    rw [hslot] at hslot'
    cases hslot'
  . next slot hslot =>
    split at h
    . next hrunning =>
      rw [pure_eq_ok] at h
      subst h
      refine .detached ?_
      intro slot' running hslot' hrunning' hjob
      rw [hslot, Option.some.injEq] at hslot'
      subst hslot'
      rw [hrunning', Option.filter_some_pos] at hrunning
      . cases hrunning
      . exact decide_eq_true hjob
    . next running hrunning =>
      rw [Option.filter_eq_some_iff, decide_eq_true_eq] at hrunning
      obtain ⟨hrunning, hjob⟩ := hrunning
      obtain ⟨completed, hcompleted, h⟩ := bind_eq_ok.mp h
      have hafter := completedAfter_eq_ok hcompleted
      split at h
      . rw [pure_eq_ok] at h
        subst h
        obtain hempty | ⟨_, hsome, _⟩ := hafter
        . exact .removed slot running hslot hrunning hjob hempty.symm
        . cases hsome
      . next value =>
        rw [pure_eq_ok] at h
        subst h
        refine .installed slot running value hslot hrunning hjob ?_
        obtain hkept | ⟨value', hsome, hresult, hless⟩ := hafter
        . exact Or.inl hkept.symm
        . cases hsome
          exact Or.inr ⟨hresult, hless⟩

theorem exists_finish
    (hvalue : ∀ slot running value, cache[sourceRevision]? = some slot →
      slot.running = some running → running.job = job → result = .ok value →
      value = ⟨sourceRevision, running.targetRevision, running.sizeLimited⟩) :
    ∃ cache', finish cache sourceRevision job result = .ok cache' := by
  unfold finish
  split
  . exact ⟨_, rfl⟩
  . next slot hslot =>
    split
    . exact ⟨_, rfl⟩
    . next running hrunning =>
      rw [Option.filter_eq_some_iff, decide_eq_true_eq] at hrunning
      have hcompleted : ∃ completed,
          completedAfter slot running sourceRevision result = .ok completed := by
        unfold completedAfter
        cases result with
        | error error => exact ⟨_, rfl⟩
        | ok value =>
          obtain rfl := hvalue slot running value hslot hrunning.1 hrunning.2 rfl
          dsimp only
          rw [ensure_pos rfl, ok_bind, ensure_pos rfl, ok_bind, ensure_pos rfl, ok_bind]
          split
          . exact ⟨_, rfl⟩
          . exact ⟨_, rfl⟩
      obtain ⟨completed, hcompleted⟩ := hcompleted
      rw [hcompleted, ok_bind]
      split
      . exact ⟨_, rfl⟩
      . exact ⟨_, rfl⟩

end DeltaCache

end Kgi
