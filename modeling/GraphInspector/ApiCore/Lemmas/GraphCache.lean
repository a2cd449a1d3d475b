import GraphInspector.ApiCore.Impl.GraphCache
import GraphInspector.ApiCore.Lemmas.Cache
import GraphInspector.Data.Sequence
import GraphInspector.Data.Registry
import GraphInspector.Data.Run

/-!
The protocol of the shared jobs.
-/

namespace Kgi

open Data

def DeltaCacheSlot.Grows (slot slot' : DeltaCacheSlot) : Prop :=
  ∀ value, slot.completed = some value → ∃ value', slot'.completed = some value' ∧
    value.toRevisionId ≤ value'.toRevisionId ∧
    (value'.toRevisionId = value.toRevisionId → value.sizeLimited = true → value'.sizeLimited = true)

theorem DeltaCacheSlot.Grows.refl (slot : DeltaCacheSlot) : slot.Grows slot :=
  fun value hvalue => ⟨value, hvalue, Nat.le_refl _, fun _ h => h⟩

theorem DeltaCacheSlot.Grows.trans {slot slot' slot'' : DeltaCacheSlot} (h : slot.Grows slot')
    (h' : slot'.Grows slot'') : slot.Grows slot'' := by
  intro value hvalue
  obtain ⟨value', hvalue', hle, hmark⟩ := h value hvalue
  obtain ⟨value'', hvalue'', hle', hmark'⟩ := h' value' hvalue'
  refine ⟨value'', hvalue'', Nat.le_trans hle hle', ?_⟩
  intro heq hlimited
  exact hmark' (by omega) (hmark (by omega) hlimited)

namespace DeltaCache

variable {cache cache' : DeltaCache} {sourceRevision job : Nat}

def running (cache : DeltaCache) (source : Nat) : Option RunningDeltaJob :=
  cache[source]?.bind DeltaCacheSlot.running

theorem running_eq_some {source : Nat} {registered : RunningDeltaJob} :
    cache.running source = some registered ↔
      ∃ slot, cache[source]? = some slot ∧ slot.running = some registered :=
  Option.bind_eq_some_iff

theorem running_insert {slot : DeltaCacheSlot} (source : Nat) :
    running (cache.insert sourceRevision slot) source
      = if sourceRevision = source then slot.running else cache.running source := by
  unfold running
  rw [Map.get_insert]
  split
  . rfl
  . rfl

theorem running_erase (source : Nat) :
    running (cache.erase sourceRevision) source
      = if sourceRevision = source then none else cache.running source := by
  unfold running
  rw [Map.get_erase]
  split
  . rfl
  . rfl

theorem Within.running (h : Within cache' cache) (source : Nat) (registered : RunningDeltaJob)
    (hrunning : cache'.running source = some registered) : cache.running source = some registered := by
  obtain ⟨slot, hslot, hregistered⟩ := running_eq_some.mp hrunning
  exact running_eq_some.mpr ⟨slot, h source slot hslot, hregistered⟩

def Grows (cache cache' : DeltaCache) : Prop :=
  ∀ (source : Nat) (slot slot' : DeltaCacheSlot), cache[source]? = some slot →
    cache'[source]? = some slot' → slot.Grows slot'

theorem Within.grows (h : Within cache' cache) : Grows cache cache' := by
  intro source slot slot' hslot hslot'
  have hsame := h source slot' hslot'
  rw [hslot, Option.some.injEq] at hsame
  exact hsame ▸ DeltaCacheSlot.Grows.refl slot

theorem Grows.insert {slot slot' : DeltaCacheSlot} (hslot : cache[sourceRevision]? = some slot)
    (h : slot.Grows slot') : Grows cache (cache.insert sourceRevision slot') := by
  intro source old new hold hnew
  rw [Map.get_insert] at hnew
  split at hnew
  . next heq =>
    subst heq
    cases hnew
    rw [hslot, Option.some.injEq] at hold
    exact hold ▸ h
  . rw [hold, Option.some.injEq] at hnew
    exact hnew ▸ DeltaCacheSlot.Grows.refl old

section Elect

variable {firstRevisionTimestampMs targetRevision : Nat} {sizeLimited : Bool}
  {access : CacheAccess CachedDelta} {elected : Bool}
variable (h : Elects cache sourceRevision firstRevisionTimestampMs targetRevision sizeLimited job
  (cache', access, elected))
include h

theorem Elects.grows : Grows cache cache' := by
  cases h with
  | reclassified slot value hslot hvalue =>
    apply Grows.insert hslot
    intro value' hvalue'
    rw [hvalue, Option.some.injEq] at hvalue'
    subst hvalue'
    exact ⟨_, rfl, Nat.le_refl _, fun _ _ => rfl⟩
  | completed => exact (Within.refl cache).grows
  | running => exact (Within.refl cache).grows
  | extended slot hslot => exact Grows.insert hslot (DeltaCacheSlot.Grows.refl slot)
  | opened hslot =>
    intro source old new hold hnew
    rw [Map.get_insert] at hnew
    split at hnew
    . next heq =>
      subst heq
      rw [hslot] at hold
      cases hold
    . rw [hold, Option.some.injEq] at hnew
      exact hnew ▸ DeltaCacheSlot.Grows.refl old

theorem Elects.registers (source : Nat) (registered : RunningDeltaJob)
    (hrunning : cache'.running source = some registered) :
    cache.running source = some registered ∨ elected = true ∧ source = sourceRevision ∧
      registered = ⟨targetRevision, sizeLimited, job⟩ := by
  cases h with
  | reclassified slot value hslot hvalue =>
    rw [running_insert] at hrunning
    split at hrunning
    . next heq => exact Or.inl (running_eq_some.mpr ⟨slot, heq ▸ hslot, hrunning⟩)
    . exact Or.inl hrunning
  | completed => exact Or.inl hrunning
  | running => exact Or.inl hrunning
  | extended slot hslot =>
    rw [running_insert] at hrunning
    split at hrunning
    . next heq => exact Or.inr ⟨rfl, heq.symm, (Option.some.inj hrunning).symm⟩
    . exact Or.inl hrunning
  | opened hslot =>
    rw [running_insert] at hrunning
    split at hrunning
    . next heq => exact Or.inr ⟨rfl, heq.symm, (Option.some.inj hrunning).symm⟩
    . exact Or.inl hrunning

end Elect

section Finish

variable {result : Except CacheBuildError CachedDelta}

theorem Finishes.grows (h : Finishes cache sourceRevision job result cache') :
    Grows cache cache' := by
  cases h with
  | detached => exact (Within.refl cache).grows
  | removed slot running hslot hrunning hjob hempty =>
    intro source old new hold hnew
    rw [Map.get_erase] at hnew
    split at hnew
    . cases hnew
    . rw [hold, Option.some.injEq] at hnew
      exact hnew ▸ DeltaCacheSlot.Grows.refl old
  | installed slot running value hslot hrunning hjob hvalue =>
    apply Grows.insert hslot
    intro old hold
    refine ⟨value, rfl, ?_⟩
    obtain hkept | ⟨_, hless⟩ := hvalue
    . rw [hold, Option.some.injEq] at hkept
      subst hkept
      exact ⟨Nat.le_refl _, fun _ h => h⟩
    . have hlt := hless old hold
      exact ⟨Nat.le_of_lt hlt, fun heq => by omega⟩

theorem Finishes.unregisters (h : Finishes cache sourceRevision job result cache') (source : Nat)
    (registered : RunningDeltaJob) (hrunning : cache'.running source = some registered) :
    cache.running source = some registered ∧ (source = sourceRevision → registered.job ≠ job) := by
  cases h with
  | detached hother =>
    refine ⟨hrunning, ?_⟩
    rintro rfl
    obtain ⟨slot, hslot, hregistered⟩ := running_eq_some.mp hrunning
    exact hother slot registered hslot hregistered
  | removed =>
    rw [running_erase] at hrunning
    split at hrunning
    . cases hrunning
    . next hne => exact ⟨hrunning, fun heq => absurd heq.symm hne⟩
  | installed =>
    rw [running_insert] at hrunning
    split at hrunning
    . cases hrunning
    . next hne => exact ⟨hrunning, fun heq => absurd heq.symm hne⟩

end Finish

end DeltaCache

namespace HeadCache

variable {cache cache' : HeadCache} {depth job : Nat} {boundary : HeadEligibilityBoundary}

def running (cache : HeadCache) (depth : Nat) : Option Nat :=
  cache[depth]?.bind HeadCacheSlot.running

variable {slot : HeadCacheSlot} {result : Except CacheBuildError CachedHeadSnapshot}

theorem running_insert (tier : Nat) :
    running (cache.insert depth slot) tier
      = if depth = tier then slot.running else cache.running tier := by
  unfold running
  rw [Map.get_insert]
  split
  . rfl
  . rfl

theorem running_erase (tier : Nat) :
    running (cache.erase depth) tier = if depth = tier then none else cache.running tier := by
  unfold running
  rw [Map.get_erase]
  split
  . rfl
  . rfl

theorem running_of_get (hslot : cache[depth]? = some slot) :
    cache.running depth = slot.running := by
  unfold running
  rw [hslot]
  rfl

theorem lookup_registers {found : HeadCacheLookup}
    (h : lookup cache depth boundary = .ok (cache', found)) (tier registered : Nat)
    (hrunning : cache'.running tier = some registered) : cache.running tier = some registered := by
  unfold lookup at h
  split at h
  . rw [pure_eq_ok, Prod.mk.injEq] at h
    exact h.1 ▸ hrunning
  . next slot hslot =>
    obtain ⟨admitted, _, h⟩ := bind_eq_ok.mp h
    split at h
    . rw [pure_eq_ok, Prod.mk.injEq] at h
      exact h.1 ▸ hrunning
    . split at h
      . next job hjob =>
        rw [pure_eq_ok, Prod.mk.injEq] at h
        rw [← h.1, running_insert] at hrunning
        split at hrunning
        . next heq =>
          rw [← heq, running_of_get hslot, hjob]
          exact hrunning
        . exact hrunning
      . rw [pure_eq_ok, Prod.mk.injEq] at h
        rw [← h.1, running_erase] at hrunning
        split at hrunning
        . cases hrunning
        . exact hrunning

theorem elect_registers {access : CacheAccess CachedHeadSnapshot} {elected : Bool}
    (h : elect cache depth boundary job = .ok (cache', access, elected)) (tier registered : Nat)
    (hrunning : cache'.running tier = some registered) :
    cache.running tier = some registered ∨ elected = true ∧ tier = depth ∧ registered = job := by
  -- a tier without a slot registers nothing
  have hslot : cache.running depth = (cache[depth]?.getD ⟨none, none⟩).running := by
    unfold running
    cases cache[depth]? with
    | none => rfl
    | some slot => rfl
  obtain ⟨admitted, _, h⟩ := bind_eq_ok.mp h
  split at h
  . rw [pure_eq_ok, Prod.mk.injEq] at h
    rw [← h.1, running_insert] at hrunning
    split at hrunning
    . next heq => exact Or.inl (by rw [← heq, hslot, hrunning])
    . exact Or.inl hrunning
  . split at h
    . next running hrunning' =>
      rw [pure_eq_ok, Prod.mk.injEq] at h
      rw [← h.1, running_insert] at hrunning
      split at hrunning
      . next heq =>
        rw [← heq, hslot, hrunning']
        exact Or.inl hrunning
      . exact Or.inl hrunning
    . rw [pure_eq_ok, Prod.mk.injEq, Prod.mk.injEq] at h
      rw [← h.1, running_insert] at hrunning
      split at hrunning
      . next heq => exact Or.inr ⟨h.2.2.symm, heq.symm, (Option.some.inj hrunning).symm⟩
      . exact Or.inl hrunning

theorem finish_unregisters (h : finish cache depth job result = .ok cache') (tier registered : Nat)
    (hrunning : cache'.running tier = some registered) :
    cache.running tier = some registered ∧ (tier = depth → registered ≠ job) := by
  unfold finish at h
  split at h
  . next hslot =>
    rw [pure_eq_ok] at h
    subst h
    refine ⟨hrunning, ?_⟩
    rintro rfl
    unfold running at hrunning
    rw [hslot] at hrunning
    cases hrunning
  . next slot hslot =>
    split at h
    . next hother =>
      rw [pure_eq_ok] at h
      subst h
      refine ⟨hrunning, ?_⟩
      rintro rfl hjob
      rw [running_of_get hslot] at hrunning
      rw [hrunning, Option.filter_some_pos] at hother
      . cases hother
      . exact decide_eq_true hjob
    . obtain ⟨completed, _, h⟩ := bind_eq_ok.mp h
      split at h
      . rw [pure_eq_ok] at h
        rw [← h, running_erase] at hrunning
        split at hrunning
        . cases hrunning
        . next hne => exact ⟨hrunning, fun heq => absurd heq.symm hne⟩
      . rw [pure_eq_ok] at h
        rw [← h, running_insert] at hrunning
        split at hrunning
        . cases hrunning
        . next hne => exact ⟨hrunning, fun heq => absurd heq.symm hne⟩

theorem exists_finish (hdepth : ∀ value, result = .ok value → value.depth = depth) :
    ∃ cache', finish cache depth job result = .ok cache' := by
  unfold finish
  split
  . exact ⟨_, rfl⟩
  . next slot _ =>
    split
    . exact ⟨_, rfl⟩
    . have hcompleted : ∃ completed, completedAfter slot depth result = .ok completed := by
        unfold completedAfter
        cases result with
        | error error => exact ⟨_, rfl⟩
        | ok value =>
          dsimp only
          rw [ensure_pos (hdepth value rfl), ok_bind]
          exact ⟨_, rfl⟩
      obtain ⟨completed, hcompleted⟩ := hcompleted
      rw [hcompleted, ok_bind]
      split
      . exact ⟨_, rfl⟩
      . exact ⟨_, rfl⟩

end HeadCache

structure CacheJobState.Settled {α : Type} (state : CacheJobState α) (finished : Prop) : Prop where
  opened : ¬finished → ∀ result, state ≠ .complete result
  closed : finished → state ≠ .pending

structure CacheJobState.Ends {α : Type} (state : CacheJobState α) (result : Except CacheBuildError α)
    (state' : CacheJobState α) : Prop where
  closed : state' ≠ .pending
  first : state = .pending → state' = .complete result
  kept : state ≠ .pending → state' = state

theorem CacheJobState.Settled.finish {α : Type} {state : CacheJobState α} {finished : Prop}
    (h : state.Settled finished) (hopen : ¬finished) (result : Except CacheBuildError α) :
    ∃ state', state.finish result = .ok state' ∧ state.Ends result state' := by
  cases hcase : state with
  | pending => exact ⟨_, rfl, nofun, fun _ => rfl, fun hne => absurd rfl hne⟩
  | complete result' => exact absurd hcase (h.opened hopen result')
  | invalidatedByReplayFloor floor => exact ⟨_, rfl, nofun, nofun, fun _ => rfl⟩

structure DeltaJob.Serves (source : Nat) (registered : RunningDeltaJob) (job : DeltaJob) : Prop where
  keyed : job.sourceRevision = source
  value : job.value = ⟨source, registered.targetRevision, registered.sizeLimited⟩
  pending : job.state = .pending
  building : job.task = .building

structure HeadCacheJob.Serves (depth : Nat) (registered : Nat) (job : HeadCacheJob) : Prop where
  keyed : job.depth = depth
  pending : job.state = .pending
  building : job.task = .building

def JobKept {α J : Type} (state : J → CacheJobState α) (job job' : J) : Prop :=
  state job ≠ .pending → state job' = state job

theorem JobKept.refl {α J : Type} (state : J → CacheJobState α) (job : J) :
    JobKept state job job :=
  fun _ => rfl

theorem JobKept.trans {α J : Type} (state : J → CacheJobState α) (job job' job'' : J)
    (h : JobKept state job job') (h' : JobKept state job' job'') : JobKept state job job'' := by
  intro hne
  have hstate := h hne
  rw [h' (hstate.symm ▸ hne), hstate]

namespace GraphCache

variable {cache cache' : GraphCache} {index : Nat} {deltas : DeltaCache}
  {result : Except CacheBuildError CachedDelta}

structure Coherent (cache : GraphCache) : Prop where
  deltas : Registered DeltaJob.Serves RunningDeltaJob.job cache.deltas.running cache.deltaJobs
  heads : Registered HeadCacheJob.Serves (fun registered => registered) cache.heads.running
    cache.headJobs
  deltaSettled : ∀ job ∈ cache.deltaJobs, job.state.Settled (job.task = .finished)
  headSettled : ∀ job ∈ cache.headJobs, job.state.Settled (job.task = .finished)

structure Follows (cache cache' : GraphCache) : Prop where
  deltas : DeltaCache.Grows cache.deltas cache'.deltas
  deltaJobs : Evolves (JobKept DeltaJob.state) cache.deltaJobs cache'.deltaJobs
  headJobs : Evolves (JobKept HeadCacheJob.state) cache.headJobs cache'.headJobs

theorem Follows.of_same (hdeltas : DeltaCache.Grows cache.deltas cache'.deltas)
    (hdeltaJobs : cache'.deltaJobs = cache.deltaJobs) (hheadJobs : cache'.headJobs = cache.headJobs) :
    Follows cache cache' where
  deltas := hdeltas
  deltaJobs := hdeltaJobs ▸ Evolves.refl (JobKept.refl DeltaJob.state) cache.deltaJobs
  headJobs := hheadJobs ▸ Evolves.refl (JobKept.refl HeadCacheJob.state) cache.headJobs

theorem settled_pending {α : Type} {finished : Prop} (h : ¬finished) :
    (CacheJobState.pending : CacheJobState α).Settled finished where
  opened := fun _ _ heq => by cases heq
  closed := fun hfinished => absurd hfinished h

section Deltas

variable {job : DeltaJob}
variable (h : Coherent cache)
include h

theorem Coherent.shrinkDeltas (hwithin : deltas.Within cache.deltas) :
    Coherent { cache with deltas := deltas } ∧ Follows cache { cache with deltas := deltas } :=
  ⟨⟨h.deltas.shrink hwithin.running, h.heads, h.deltaSettled, h.headSettled⟩,
    .of_same hwithin.grows rfl rfl⟩

theorem Coherent.pruneDeltas (headRevisionTimestampMs : Nat) :
    Coherent (cache.pruneDeltas headRevisionTimestampMs) ∧
      Follows cache (cache.pruneDeltas headRevisionTimestampMs) := by
  unfold GraphCache.pruneDeltas
  split
  . exact h.shrinkDeltas (DeltaCache.Within.refl _)
  . next deltas hdeltas => exact h.shrinkDeltas (DeltaCache.pruneExpired_within hdeltas)

theorem Coherent.lookupDelta (sourceRevision targetRevision headRevisionTimestampMs : Nat) :
    Coherent (cache.lookupDelta sourceRevision targetRevision headRevisionTimestampMs) ∧
      Follows cache (cache.lookupDelta sourceRevision targetRevision headRevisionTimestampMs) := by
  unfold GraphCache.lookupDelta
  split
  . exact h.shrinkDeltas (DeltaCache.Within.refl _)
  . next deltas _ hdeltas => exact h.shrinkDeltas (DeltaCache.lookup_eq_ok hdeltas).1

theorem Coherent.electDelta (sourceRevision firstRevisionTimestampMs targetRevision : Nat)
    (sizeLimited : Bool) :
    Coherent (cache.electDelta sourceRevision firstRevisionTimestampMs targetRevision sizeLimited) ∧
      Follows cache (cache.electDelta sourceRevision firstRevisionTimestampMs targetRevision
        sizeLimited) := by
  have helects := DeltaCache.elects_elect cache.deltas sourceRevision firstRevisionTimestampMs
    targetRevision sizeLimited cache.deltaJobs.length
  unfold GraphCache.electDelta
  generalize DeltaCache.elect _ _ _ _ _ _ = outcome at helects ⊢
  obtain ⟨deltas, access, elected⟩ := outcome
  have hregisters := helects.registers
  cases elected with
  | false =>
    refine ⟨⟨h.deltas.shrink ?_, h.heads, h.deltaSettled, h.headSettled⟩,
      .of_same helects.grows rfl rfl⟩
    intro source registered hrunning
    obtain hold | ⟨hfalse, _⟩ := hregisters source registered hrunning
    . exact hold
    . cases hfalse
  | true =>
    constructor
    . have hserves : DeltaJob.Serves sourceRevision
          ⟨targetRevision, sizeLimited, cache.deltaJobs.length⟩
          (.pending sourceRevision ⟨sourceRevision, targetRevision, sizeLimited⟩) :=
        ⟨rfl, rfl, rfl, rfl⟩
      refine ⟨h.deltas.elect rfl hserves ?_, h.heads, ?_, h.headSettled⟩
      . intro source registered hrunning
        exact (hregisters source registered hrunning).imp_right fun hnew => hnew.2
      . intro job hjob
        obtain hjob | hjob := List.mem_append.mp hjob
        . exact h.deltaSettled job hjob
        . rw [List.mem_singleton] at hjob
          subst hjob
          exact settled_pending nofun
    . exact ⟨helects.grows, Evolves.append (JobKept.refl DeltaJob.state) _ _,
        Evolves.refl (JobKept.refl HeadCacheJob.state) _⟩

theorem Coherent.setDeltaJob {job job' : DeltaJob} (hjob : cache.deltaJobs[index]? = some job)
    (hgrows : DeltaCache.Grows cache.deltas deltas)
    (hfree : ∀ source registered, deltas.running source = some registered →
      cache.deltas.running source = some registered ∧ registered.job ≠ index)
    (hsettled : job'.state.Settled (job'.task = .finished))
    (hkeeps : JobKept DeltaJob.state job job') :
    Coherent { cache with deltas := deltas, deltaJobs := cache.deltaJobs.set index job' } ∧
      Follows cache { cache with deltas := deltas, deltaJobs := cache.deltaJobs.set index job' } := by
  constructor
  . refine ⟨h.deltas.set job' hfree, h.heads, ?_, h.headSettled⟩
    intro job'' hmem
    obtain hmem | rfl := List.mem_or_eq_of_mem_set hmem
    . exact h.deltaSettled job'' hmem
    . exact hsettled
  . exact ⟨hgrows, Evolves.set (JobKept.refl DeltaJob.state) hjob hkeeps,
      Evolves.refl (JobKept.refl HeadCacheJob.state) _⟩

theorem Coherent.deltaServes {index source : Nat} {registered : RunningDeltaJob}
    (hjob : cache.deltaJobs[index]? = some job)
    (hrunning : cache.deltas.running source = some registered) (hindex : registered.job = index) :
    job.Serves source registered := by
  obtain ⟨job', hjob', hserves⟩ := h.deltas source registered hrunning
  rw [hindex, hjob, Option.some.injEq] at hjob'
  exact hjob' ▸ hserves

theorem Coherent.finishDelta {failure : Option CacheBuildError}
    (hjob : cache.deltaJobs[index]? = some job) (hbuilding : job.task = .building) :
    ∃ cache', cache.finishDelta index job (GraphPublication.buildResult job failure) = .ok cache' ∧
      cache'.deltaJobs[index]? = some { job with
        task := .installed (GraphPublication.buildResult job failure) } ∧
      Coherent cache' ∧ Follows cache cache' := by
  -- only the job of the slot is looked at, and it hands over what it was elected for
  obtain ⟨deltas, hdeltas⟩ : ∃ deltas, cache.deltas.finish job.sourceRevision index
      (GraphPublication.buildResult job failure) = .ok deltas := by
    apply DeltaCache.exists_finish
    intro slot registered value hslot hregistered hindex hvalue
    have hserves := h.deltaServes hjob
      (DeltaCache.running_eq_some.mpr ⟨slot, hslot, hregistered⟩) hindex
    cases failure with
    | none =>
      cases hvalue
      exact hserves.value
    | some error => cases hvalue
  have hfinishes := DeltaCache.finish_eq_ok hdeltas
  refine ⟨_, by unfold GraphCache.finishDelta; rw [hdeltas, ok_bind]; rfl,
    List.getElem?_set_self (List.getElem?_eq_some_iff.mp hjob).1, ?_⟩
  apply h.setDeltaJob hjob hfinishes.grows
  . intro source registered hrunning
    obtain ⟨hold, hne⟩ := hfinishes.unregisters source registered hrunning
    refine ⟨hold, ?_⟩
    intro hindex
    exact hne (h.deltaServes hjob hold hindex).keyed.symm hindex
  . have hsettled := h.deltaSettled job (List.mem_of_getElem? hjob)
    rw [hbuilding] at hsettled
    exact ⟨fun _ => hsettled.opened nofun, fun hfinished => by cases hfinished⟩
  . exact fun _ => rfl

theorem Coherent.completeDelta (hjob : cache.deltaJobs[index]? = some job)
    (hinstalled : job.task = .installed result) :
    ∃ cache', cache.completeDelta index job result = .ok cache' ∧
      (∃ state, cache'.deltaJobs[index]? = some { job with state := state, task := .finished } ∧
        job.state.Ends result state) ∧
      Coherent cache' ∧ Follows cache cache' := by
  have hsettled := h.deltaSettled job (List.mem_of_getElem? hjob)
  rw [hinstalled] at hsettled
  obtain ⟨state, hstate, hends⟩ := hsettled.finish nofun result
  refine ⟨_, by unfold GraphCache.completeDelta; rw [hstate, ok_bind]; rfl,
    ⟨state, List.getElem?_set_self (List.getElem?_eq_some_iff.mp hjob).1, hends⟩, ?_⟩
  apply h.setDeltaJob hjob (DeltaCache.Within.refl _).grows
  . intro source registered hrunning
    refine ⟨hrunning, ?_⟩
    intro hindex
    have hbuilding := (h.deltaServes hjob hrunning hindex).building
    rw [hinstalled] at hbuilding
    cases hbuilding
  . exact ⟨fun hopen => absurd rfl hopen, fun _ => hends.closed⟩
  . exact hends.kept

end Deltas

section Heads

variable {job : HeadCacheJob}
variable {result : Except CacheBuildError CachedHeadSnapshot} (h : Coherent cache)
include h

theorem Coherent.lookupHead (depth : Nat) (boundary : HeadEligibilityBoundary) :
    Coherent (cache.lookupHead depth boundary) ∧ Follows cache (cache.lookupHead depth boundary) := by
  have hgrows := (DeltaCache.Within.refl cache.deltas).grows
  unfold GraphCache.lookupHead
  split
  . exact ⟨h, .of_same hgrows rfl rfl⟩
  . next heads _ hheads =>
    exact ⟨⟨h.deltas, h.heads.shrink (HeadCache.lookup_registers hheads), h.deltaSettled,
      h.headSettled⟩, .of_same hgrows rfl rfl⟩

theorem Coherent.electHead (depth : Nat) (boundary : HeadEligibilityBoundary) :
    Coherent (cache.electHead depth boundary) ∧ Follows cache (cache.electHead depth boundary) := by
  have hgrows := (DeltaCache.Within.refl cache.deltas).grows
  unfold GraphCache.electHead
  split
  . exact ⟨h, .of_same hgrows rfl rfl⟩
  . next heads _ hheads =>
    refine ⟨⟨h.deltas, h.heads.shrink ?_, h.deltaSettled, h.headSettled⟩, .of_same hgrows rfl rfl⟩
    intro tier registered hrunning
    obtain hold | ⟨hfalse, _⟩ := HeadCache.elect_registers hheads tier registered hrunning
    . exact hold
    . cases hfalse
  . next heads _ hheads =>
    constructor
    . refine ⟨h.deltas, h.heads.elect rfl ⟨rfl, rfl, rfl⟩ ?_, h.deltaSettled, ?_⟩
      . intro tier registered hrunning
        exact (HeadCache.elect_registers hheads tier registered hrunning).imp_right
          fun hnew => hnew.2
      . intro job hjob
        obtain hjob | hjob := List.mem_append.mp hjob
        . exact h.headSettled job hjob
        . rw [List.mem_singleton] at hjob
          subst hjob
          exact settled_pending nofun
    . exact ⟨hgrows, Evolves.refl (JobKept.refl DeltaJob.state) _,
        Evolves.append (JobKept.refl HeadCacheJob.state) _ _⟩

theorem Coherent.setHeadJob {heads : HeadCache} {job job' : HeadCacheJob}
    (hjob : cache.headJobs[index]? = some job)
    (hfree : ∀ depth registered, heads.running depth = some registered →
      cache.heads.running depth = some registered ∧ registered ≠ index)
    (hsettled : job'.state.Settled (job'.task = .finished))
    (hkeeps : JobKept HeadCacheJob.state job job') :
    Coherent { cache with heads := heads, headJobs := cache.headJobs.set index job' } ∧
      Follows cache { cache with heads := heads, headJobs := cache.headJobs.set index job' } := by
  constructor
  . refine ⟨h.deltas, h.heads.set job' hfree, h.deltaSettled, ?_⟩
    intro job'' hmem
    obtain hmem | rfl := List.mem_or_eq_of_mem_set hmem
    . exact h.headSettled job'' hmem
    . exact hsettled
  . exact ⟨(DeltaCache.Within.refl _).grows, Evolves.refl (JobKept.refl DeltaJob.state) _,
      Evolves.set (JobKept.refl HeadCacheJob.state) hjob hkeeps⟩

theorem Coherent.headServes {index depth : Nat} {registered : Nat}
    (hjob : cache.headJobs[index]? = some job)
    (hrunning : cache.heads.running depth = some registered) (hindex : registered = index) :
    job.Serves depth registered := by
  obtain ⟨job', hjob', hserves⟩ := h.heads depth registered hrunning
  rw [hindex, hjob, Option.some.injEq] at hjob'
  exact hjob' ▸ hserves

theorem Coherent.finishHead (hjob : cache.headJobs[index]? = some job)
    (hbuilding : job.task = .building) (hserves : servesTier job result = true) :
    ∃ cache', cache.finishHead index job result = .ok cache' ∧
      cache'.headJobs[index]? = some { job with
        task := .installed result } ∧
      Coherent cache' ∧ Follows cache cache' := by
  obtain ⟨heads, hheads⟩ : ∃ heads, cache.heads.finish job.depth index result = .ok heads := by
    apply HeadCache.exists_finish
    rintro value rfl
    exact of_decide_eq_true hserves
  refine ⟨_, by unfold GraphCache.finishHead; rw [hheads, ok_bind]; rfl,
    List.getElem?_set_self (List.getElem?_eq_some_iff.mp hjob).1, ?_⟩
  apply h.setHeadJob hjob
  . intro depth registered hrunning
    obtain ⟨hold, hne⟩ := HeadCache.finish_unregisters hheads depth registered hrunning
    refine ⟨hold, ?_⟩
    intro hindex
    exact hne (h.headServes hjob hold hindex).keyed.symm hindex
  . have hsettled := h.headSettled job (List.mem_of_getElem? hjob)
    rw [hbuilding] at hsettled
    exact ⟨fun _ => hsettled.opened nofun, fun hfinished => by cases hfinished⟩
  . exact fun _ => rfl

theorem Coherent.completeHead (hjob : cache.headJobs[index]? = some job)
    (hinstalled : job.task = .installed result) :
    ∃ cache', cache.completeHead index job result = .ok cache' ∧
      (∃ state, cache'.headJobs[index]? = some { job with state := state, task := .finished } ∧
        job.state.Ends result state) ∧
      Coherent cache' ∧ Follows cache cache' := by
  have hsettled := h.headSettled job (List.mem_of_getElem? hjob)
  rw [hinstalled] at hsettled
  obtain ⟨state, hstate, hends⟩ := hsettled.finish nofun result
  refine ⟨_, by unfold GraphCache.completeHead; rw [hstate, ok_bind]; rfl,
    ⟨state, List.getElem?_set_self (List.getElem?_eq_some_iff.mp hjob).1, hends⟩, ?_⟩
  apply h.setHeadJob hjob
  . intro depth registered hrunning
    refine ⟨hrunning, ?_⟩
    intro hindex
    have hbuilding := (h.headServes hjob hrunning hindex).building
    rw [hinstalled] at hbuilding
    cases hbuilding
  . exact ⟨fun hopen => absurd rfl hopen, fun _ => hends.closed⟩
  . exact hends.kept

end Heads

section Invalidation

theorem deltaServes_injective (source source' : Nat) (registered registered' : RunningDeltaJob)
    (job : DeltaJob) (h : job.Serves source registered) (h' : job.Serves source' registered') :
    source = source' :=
  h.keyed.symm.trans h'.keyed

theorem headServes_injective (depth depth' : Nat) (registered registered' : Nat)
    (job : HeadCacheJob) (h : job.Serves depth registered) (h' : job.Serves depth' registered') :
    depth = depth' :=
  h.keyed.symm.trans h'.keyed

theorem invalidateJob_pending {α J : Type} {state : J → CacheJobState α}
    (settle : J → CacheJobState α → J) (replayFloorRevision : Nat) (jobs : List J) (index : Nat) (job : J)
    (hjob : jobs[index]? = some job) (hpending : state job = .pending) :
    CacheJobState.invalidateJob state settle replayFloorRevision jobs index
      = .ok (jobs.set index (settle job (.invalidatedByReplayFloor replayFloorRevision))) := by
  unfold CacheJobState.invalidateJob
  rw [hjob, orError_eq_ok.mpr rfl, ok_bind, hpending]
  rfl

theorem settled_invalidated {α : Type} (replayFloorRevision : Nat) (finished : Prop) :
    (CacheJobState.invalidatedByReplayFloor replayFloorRevision : CacheJobState α).Settled finished :=
  ⟨fun _ _ => nofun, fun _ => nofun⟩

theorem Coherent.invalidateDeltas (h : Coherent cache) (replayFloorRevision : Nat) :
    ∃ deltaJobs, (cache.deltas.detachBeforeReplayFloor replayFloorRevision).2.foldlM
        (GraphPublication.invalidateDeltaJob replayFloorRevision) cache.deltaJobs = .ok deltaJobs ∧
      Registered DeltaJob.Serves RunningDeltaJob.job (DeltaCache.running
        (cache.deltas.detachBeforeReplayFloor replayFloorRevision).1) deltaJobs ∧
      ∀ i : Nat, deltaJobs[i]? = cache.deltaJobs[i]? ∨
        ∃ source registered job, cache.deltaJobs[i]? = some job ∧ job.Serves source registered ∧
          deltaJobs[i]? = some { job with
            state := .invalidatedByReplayFloor replayFloorRevision } := by
  have hslots : ∀ (source : Nat) (slot : DeltaCacheSlot) (registered : RunningDeltaJob),
      (cache.deltas.splitOff replayFloorRevision).1[source]? = some slot →
      slot.running = some registered → cache.deltas.running source = some registered := by
    intro source slot registered hslot hregistered
    exact DeltaCache.running_eq_some.mpr
      ⟨slot, DeltaCache.Within.filter cache.deltas _ source slot hslot, hregistered⟩
  have hrest : ∀ (source : Nat) (registered : RunningDeltaJob),
      DeltaCache.running (cache.deltas.splitOff replayFloorRevision).2 source = some registered →
      cache.deltas.running source = some registered ∧
        (cache.deltas.splitOff replayFloorRevision).1[source]? = none := by
    intro source registered hrunning
    refine ⟨(DeltaCache.Within.filter cache.deltas _).running source registered hrunning, ?_⟩
    obtain ⟨slot, hslot, _⟩ := DeltaCache.running_eq_some.mp hrunning
    unfold DeltaCache.splitOff at hslot ⊢
    rw [Std.ExtTreeMap.getElem?_filter', Option.filter_eq_some_iff, decide_eq_true_eq] at hslot
    rw [Std.ExtTreeMap.getElem?_filter', hslot.1, Option.filter_some_neg]
    exact decide_eq_false (by omega)
  exact h.deltas.retire deltaServes_injective (invalidateJob_pending _ replayFloorRevision)
    (fun _ _ _ hserves => hserves.pending) hslots hrest

theorem Coherent.invalidateHeads (h : Coherent cache) (replayFloorRevision : Nat) :
    ∃ headJobs, (cache.heads.detachBeforeReplayFloor replayFloorRevision).2.foldlM
        (invalidateHeadJob replayFloorRevision) cache.headJobs = .ok headJobs ∧
      Registered HeadCacheJob.Serves (fun registered => registered) (HeadCache.running
        (cache.heads.detachBeforeReplayFloor replayFloorRevision).1) headJobs ∧
      ∀ i : Nat, headJobs[i]? = cache.headJobs[i]? ∨
        ∃ depth registered job, cache.headJobs[i]? = some job ∧ job.Serves depth registered ∧
          headJobs[i]? = some { job with
            state := .invalidatedByReplayFloor replayFloorRevision } := by
  have hslots : ∀ (depth : Nat) (slot : HeadCacheSlot) (registered : Nat),
      cache.heads[depth]? = some slot → slot.running = some registered →
      cache.heads.running depth = some registered := by
    intro depth slot registered hslot hregistered
    rw [HeadCache.running_of_get hslot, hregistered]
  have hrest : ∀ depth registered : Nat,
      HeadCache.running (cache.heads.detachBeforeReplayFloor replayFloorRevision).1 depth
        = some registered →
      cache.heads.running depth = some registered ∧ cache.heads[depth]? = none := by
    intro depth registered hrunning
    unfold HeadCache.running HeadCache.detachBeforeReplayFloor at hrunning
    rw [Map.get_mapEntries, Option.bind_eq_some_iff] at hrunning
    obtain ⟨slot, hslot, hregistered⟩ := hrunning
    rw [Option.bind_eq_some_iff] at hslot
    obtain ⟨old, _, hslot⟩ := hslot
    obtain ⟨value, _, rfl⟩ := Option.map_eq_some_iff.mp hslot
    cases hregistered
  have hretire := h.heads.retire headServes_injective
    (invalidateJob_pending (fun job state => { job with state := state }) replayFloorRevision)
    (fun _ _ _ hserves => hserves.pending) hslots hrest
  simp only [Option.map_id'] at hretire
  exact hretire

theorem Coherent.invalidateReplayFloor (h : Coherent cache) (replayFloorRevision : Nat) :
    ∃ cache', cache.invalidateReplayFloor replayFloorRevision = .ok cache' ∧
      Coherent cache' ∧ Follows cache cache' := by
  obtain ⟨deltaJobs, hdeltaJobs, hdeltas, hdeltaGet⟩ := h.invalidateDeltas replayFloorRevision
  obtain ⟨headJobs, hheadJobs, hheads, hheadGet⟩ := h.invalidateHeads replayFloorRevision
  refine ⟨⟨_, _, deltaJobs, headJobs⟩, ?_, ⟨hdeltas, hheads, ?_, ?_⟩, ⟨?_, ?_, ?_⟩⟩
  . unfold GraphCache.invalidateReplayFloor
    dsimp only
    rw [hdeltaJobs, ok_bind, hheadJobs, ok_bind]
    rfl
  . intro job hjob
    obtain ⟨index, hindex⟩ := List.getElem?_of_mem hjob
    obtain hsame | ⟨_, _, _, _, _, hnew⟩ := hdeltaGet index
    . rw [hsame] at hindex
      exact h.deltaSettled job (List.mem_of_getElem? hindex)
    . rw [hindex, Option.some.injEq] at hnew
      rw [hnew]
      exact settled_invalidated _ _
  . intro job hjob
    obtain ⟨index, hindex⟩ := List.getElem?_of_mem hjob
    obtain hsame | ⟨_, _, _, _, _, hnew⟩ := hheadGet index
    . rw [hsame] at hindex
      exact h.headSettled job (List.mem_of_getElem? hindex)
    . rw [hindex, Option.some.injEq] at hnew
      rw [hnew]
      exact settled_invalidated _ _
  . exact (DeltaCache.Within.filter cache.deltas _).grows
  . intro index job hjob
    obtain hsame | ⟨_, _, job', hjob', hserves, hnew⟩ := hdeltaGet index
    . exact ⟨job, hsame ▸ hjob, fun _ => rfl⟩
    . rw [hjob, Option.some.injEq] at hjob'
      subst hjob'
      exact ⟨_, hnew, fun hne => absurd hserves.pending hne⟩
  . intro index job hjob
    obtain hsame | ⟨_, _, job', hjob', hserves, hnew⟩ := hheadGet index
    . exact ⟨job, hsame ▸ hjob, fun _ => rfl⟩
    . rw [hjob, Option.some.injEq] at hjob'
      subst hjob'
      exact ⟨_, hnew, fun hne => absurd hserves.pending hne⟩

end Invalidation

section Run

theorem Coherent.new : Coherent .new where
  deltas := by
    intro source registered hrunning
    unfold DeltaCache.running GraphCache.new at hrunning
    rw [Std.ExtTreeMap.getElem?_empty] at hrunning
    cases hrunning
  heads := by
    intro depth registered hrunning
    unfold HeadCache.running GraphCache.new at hrunning
    rw [Std.ExtTreeMap.getElem?_empty] at hrunning
    cases hrunning
  deltaSettled := fun job hjob => absurd hjob List.not_mem_nil
  headSettled := fun job hjob => absurd hjob List.not_mem_nil

theorem Coherent.step (h : Coherent cache) {event : GraphCacheEvent}
    (hstep : cache.step event = some cache') : Coherent cache' ∧ Follows cache cache' := by
  unfold GraphCache.step at hstep
  cases event with
  | pruneDeltas headRevisionTimestampMs =>
    cases hstep
    exact h.pruneDeltas headRevisionTimestampMs
  | lookupDelta sourceRevision targetRevision headRevisionTimestampMs =>
    cases hstep
    exact h.lookupDelta sourceRevision targetRevision headRevisionTimestampMs
  | electDelta sourceRevision firstRevisionTimestampMs targetRevision sizeLimited =>
    cases hstep
    exact h.electDelta sourceRevision firstRevisionTimestampMs targetRevision sizeLimited
  | finishDelta index failure =>
    dsimp only at hstep
    split at hstep
    . next job hjob =>
      split at hstep
      . next hbuilding =>
        obtain ⟨cache'', hok, -, hcoherent⟩ := h.finishDelta hjob hbuilding
        rw [hok] at hstep
        cases hstep
        exact hcoherent
      . cases hstep
    . cases hstep
  | completeDelta index =>
    dsimp only at hstep
    split at hstep
    . next job hjob =>
      split at hstep
      . next hinstalled =>
        obtain ⟨cache'', hok, -, hcoherent⟩ := h.completeDelta hjob hinstalled
        rw [hok] at hstep
        cases hstep
        exact hcoherent
      . cases hstep
    . cases hstep
  | lookupHead depth boundary =>
    dsimp only at hstep
    split at hstep
    . cases hstep
      exact h.lookupHead depth boundary
    . cases hstep
  | electHead depth boundary =>
    dsimp only at hstep
    split at hstep
    . cases hstep
      exact h.electHead depth boundary
    . cases hstep
  | finishHead index result =>
    dsimp only at hstep
    split at hstep
    . next job hjob =>
      split at hstep
      . next hbuilding =>
        split at hstep
        . next hserves =>
          obtain ⟨cache'', hok, -, hcoherent⟩ := h.finishHead hjob hbuilding hserves
          rw [hok] at hstep
          cases hstep
          exact hcoherent
        . cases hstep
      . cases hstep
    . cases hstep
  | completeHead index =>
    dsimp only at hstep
    split at hstep
    . next job hjob =>
      split at hstep
      . next hinstalled =>
        obtain ⟨cache'', hok, -, hcoherent⟩ := h.completeHead hjob hinstalled
        rw [hok] at hstep
        cases hstep
        exact hcoherent
      . cases hstep
    . cases hstep
  | invalidateReplayFloor replayFloorRevision =>
    dsimp only at hstep
    obtain ⟨cache'', hok, hcoherent⟩ := h.invalidateReplayFloor replayFloorRevision
    rw [hok] at hstep
    cases hstep
    exact hcoherent

variable {events : List GraphCacheEvent} {source depth : Nat} {heads : HeadCache}

theorem Coherent.run (h : Coherent cache)
    (hrun : Data.run GraphCache.step cache events = some cache') : Coherent cache' :=
  Data.run.invariant (fun _ _ _ hinv hstep => (Coherent.step hinv hstep).1) h hrun

/--
What holds of the slots and jobs at any time. Every slot registers at most one job, which is its own and
still pending. A job that is built hands over its result, which takes it out of its slot: the value is
installed if the job is the registered one and nothing is if it is not. Then it is completed, which ends it
unless an invalidation has. Nothing of this panics.
-/
structure JobProtocol (cache : GraphCache) : Prop where
  deltaRegistered : ∀ source registered, cache.deltas.running source = some registered →
    ∃ job, cache.deltaJobs[registered.job]? = some job ∧ job.sourceRevision = source ∧
      job.state = .pending
  headRegistered : ∀ depth registered, cache.heads.running depth = some registered →
    ∃ job, cache.headJobs[registered]? = some job ∧ job.depth = depth ∧ job.state = .pending
  deltaFinishes : ∀ index job failure, cache.deltaJobs[index]? = some job → job.task = .building →
    ∃ cache', cache.finishDelta index job (GraphPublication.buildResult job failure) = .ok cache' ∧
      cache'.deltaJobs[index]? = some { job with
        task := .installed (GraphPublication.buildResult job failure) } ∧
      ∀ source registered, cache'.deltas.running source = some registered → registered.job ≠ index
  headFinishes : ∀ index job result, cache.headJobs[index]? = some job → job.task = .building →
    servesTier job result = true → ∃ cache', cache.finishHead index job result = .ok cache' ∧
      cache'.headJobs[index]? = some { job with task := .installed result } ∧
      ∀ depth, cache'.heads.running depth ≠ some index
  deltaInstalls : ∀ (source : Nat) (slot : DeltaCacheSlot) registered job, cache.deltas[source]? = some slot →
    slot.running = some registered → cache.deltaJobs[registered.job]? = some job →
    ∃ cache' value, cache.finishDelta registered.job job (.ok job.value) = .ok cache' ∧
      cache'.deltas[source]? = some ⟨slot.firstRevisionTimestampMs, some value, none⟩ ∧
      (value = job.value ∨
        slot.completed = some value ∧ job.value.toRevisionId ≤ value.toRevisionId)
  headInstalls : ∀ depth index job (value : CachedHeadSnapshot), cache.heads.running depth = some index →
    cache.headJobs[index]? = some job → value.depth = depth →
    ∃ cache', cache.finishHead index job (.ok value) = .ok cache' ∧
      cache'.heads[depth]? = some ⟨some value, none⟩
  deltaDetached : ∀ index job failure, cache.deltaJobs[index]? = some job → job.task = .building →
    (∀ registered, cache.deltas.running job.sourceRevision = some registered →
      registered.job ≠ index) →
    ∃ cache', cache.finishDelta index job (GraphPublication.buildResult job failure) = .ok cache' ∧
      cache'.deltas = cache.deltas
  headDetached : ∀ index job result, cache.headJobs[index]? = some job → job.task = .building →
    servesTier job result = true → cache.heads.running job.depth ≠ some index →
    ∃ cache', cache.finishHead index job result = .ok cache' ∧ cache'.heads = cache.heads
  deltaCompletes : ∀ index job result, cache.deltaJobs[index]? = some job →
    job.task = .installed result → ∃ cache', cache.completeDelta index job result = .ok cache' ∧
      ∃ state, cache'.deltaJobs[index]? = some { job with state := state, task := .finished } ∧
        job.state.Ends result state
  headCompletes : ∀ index job result, cache.headJobs[index]? = some job →
    job.task = .installed result → ∃ cache', cache.completeHead index job result = .ok cache' ∧
      ∃ state, cache'.headJobs[index]? = some { job with state := state, task := .finished } ∧
        job.state.Ends result state
  invalidates : ∀ replayFloorRevision,
    ∃ cache', cache.invalidateReplayFloor replayFloorRevision = .ok cache'
  deltaSettled : ∀ job ∈ cache.deltaJobs, job.task = .finished → job.state ≠ .pending
  headSettled : ∀ job ∈ cache.headJobs, job.task = .finished → job.state ≠ .pending

theorem finish_detached
    (h : ∀ registered, deltas.running source = some registered → registered.job ≠ index) :
    deltas.finish source index result = .ok deltas := by
  unfold DeltaCache.finish
  split
  . rfl
  . next slot hslot =>
    split
    . rfl
    . next registered hregistered =>
      rw [Option.filter_eq_some_iff, decide_eq_true_eq] at hregistered
      exact absurd hregistered.2
        (h registered (DeltaCache.running_eq_some.mpr ⟨slot, hslot, hregistered.1⟩))

theorem finish_head_detached {result : Except CacheBuildError CachedHeadSnapshot}
    (h : heads.running depth ≠ some index) : heads.finish depth index result = .ok heads := by
  unfold HeadCache.finish
  split
  . rfl
  . next slot hslot =>
    split
    . rfl
    . next registered hregistered =>
      rw [Option.filter_eq_some_iff, decide_eq_true_eq] at hregistered
      rw [HeadCache.running_of_get hslot, hregistered.1, hregistered.2] at h
      exact absurd rfl h

theorem finish_registered {slot : DeltaCacheSlot} {registered : RunningDeltaJob}
    (hslot : deltas[source]? = some slot) (hregistered : slot.running = some registered) :
    ∃ value, deltas.finish source registered.job
        (.ok ⟨source, registered.targetRevision, registered.sizeLimited⟩)
        = .ok (deltas.insert source ⟨slot.firstRevisionTimestampMs, some value, none⟩) ∧
      (value = ⟨source, registered.targetRevision, registered.sizeLimited⟩ ∨
        slot.completed = some value ∧ registered.targetRevision ≤ value.toRevisionId) := by
  unfold DeltaCache.finish
  rw [hslot]
  dsimp only
  rw [hregistered, Option.filter_some, if_pos (decide_eq_true rfl)]
  dsimp only [DeltaCache.completedAfter]
  rw [ensure_pos rfl, ok_bind, ensure_pos rfl, ok_bind, ensure_pos rfl, ok_bind]
  split
  . exact ⟨_, rfl, Or.inl rfl⟩
  . next hcovered =>
    cases hcompleted : slot.completed with
    | none =>
      rw [hcompleted] at hcovered
      exact absurd rfl hcovered
    | some value =>
      rw [hcompleted, Option.all_some, decide_eq_true_eq, Nat.not_lt] at hcovered
      exact ⟨value, rfl, Or.inr ⟨rfl, hcovered⟩⟩

theorem finish_head_registered {value : CachedHeadSnapshot} (h : heads.running depth = some index)
    (hdepth : value.depth = depth) :
    heads.finish depth index (.ok value) = .ok (heads.insert depth ⟨some value, none⟩) := by
  obtain ⟨slot, hslot, hrunning⟩ := Option.bind_eq_some_iff.mp h
  unfold HeadCache.finish
  rw [hslot]
  dsimp only
  rw [hrunning, Option.filter_some, if_pos (decide_eq_true rfl)]
  dsimp only [HeadCache.completedAfter]
  rw [ensure_pos hdepth, ok_bind]
  rfl

theorem Coherent.protocol (h : Coherent cache) : JobProtocol cache where
  deltaRegistered := by
    intro source registered hrunning
    obtain ⟨job, hjob, hserves⟩ := h.deltas source registered hrunning
    exact ⟨job, hjob, hserves.keyed, hserves.pending⟩
  headRegistered := by
    intro depth registered hrunning
    obtain ⟨job, hjob, hserves⟩ := h.heads depth registered hrunning
    exact ⟨job, hjob, hserves.keyed, hserves.pending⟩
  deltaDetached := by
    intro index job failure _ _ hother
    unfold GraphCache.finishDelta
    rw [finish_detached hother, ok_bind]
    exact ⟨_, rfl, rfl⟩
  headDetached := by
    intro index job result _ _ _ hother
    unfold GraphCache.finishHead
    rw [finish_head_detached hother, ok_bind]
    exact ⟨_, rfl, rfl⟩
  deltaFinishes := by
    intro index job failure hjob hbuilding
    obtain ⟨cache', hok, hinstalled, h', -⟩ := h.finishDelta hjob hbuilding
    refine ⟨cache', hok, hinstalled, ?_⟩
    -- a registered job is still being built
    intro source registered hrunning hindex
    cases (h'.deltaServes hinstalled hrunning hindex).building
  headFinishes := by
    intro index job result hjob hbuilding hserves
    obtain ⟨cache', hok, hinstalled, h', -⟩ := h.finishHead hjob hbuilding hserves
    refine ⟨cache', hok, hinstalled, ?_⟩
    intro depth hrunning
    cases (h'.headServes hinstalled hrunning rfl).building
  deltaInstalls := by
    intro source slot registered job hslot hregistered hjob
    have hserves := h.deltaServes hjob (DeltaCache.running_eq_some.mpr ⟨slot, hslot, hregistered⟩) rfl
    obtain ⟨value, hfinish, hvalue⟩ := finish_registered hslot hregistered
    rw [← hserves.value, ← hserves.keyed] at hfinish
    unfold GraphCache.finishDelta
    rw [hfinish, ok_bind]
    refine ⟨_, value, rfl, ?_, ?_⟩
    . rw [← hserves.keyed]
      exact Std.ExtTreeMap.getElem?_insert_self
    . rw [hserves.value]
      exact hvalue
  headInstalls := by
    intro depth index job value hrunning hjob hdepth
    have hserves := h.headServes hjob hrunning rfl
    unfold GraphCache.finishHead
    rw [hserves.keyed, finish_head_registered hrunning hdepth, ok_bind]
    exact ⟨_, rfl, Std.ExtTreeMap.getElem?_insert_self⟩
  deltaCompletes := by
    intro index job result hjob hinstalled
    obtain ⟨cache', hok, hends, -⟩ := h.completeDelta hjob hinstalled
    exact ⟨cache', hok, hends⟩
  headCompletes := by
    intro index job result hjob hinstalled
    obtain ⟨cache', hok, hends, -⟩ := h.completeHead hjob hinstalled
    exact ⟨cache', hok, hends⟩
  invalidates := by
    intro replayFloorRevision
    obtain ⟨cache', hok, _⟩ := h.invalidateReplayFloor replayFloorRevision
    exact ⟨cache', hok⟩
  deltaSettled := fun job hjob => (h.deltaSettled job hjob).closed
  headSettled := fun job hjob => (h.headSettled job hjob).closed

def Survives (cache : GraphCache) (events : List GraphCacheEvent) (source : Nat) : Prop :=
  ∀ pre post mid, events = pre ++ post → Data.run GraphCache.step cache pre = some mid →
    ∃ slot, mid.deltas[source]? = some slot

theorem Coherent.follows (h : Coherent cache)
    (hrun : Data.run GraphCache.step cache events = some cache') :
    Evolves (JobKept DeltaJob.state) cache.deltaJobs cache'.deltaJobs ∧
      Evolves (JobKept HeadCacheJob.state) cache.headJobs cache'.headJobs ∧
      ∀ source slot, Survives cache events source → cache.deltas[source]? = some slot →
        ∃ slot', cache'.deltas[source]? = some slot' ∧ slot.Grows slot' := by
  induction events generalizing cache with
  | nil =>
    cases hrun
    exact ⟨Evolves.refl (JobKept.refl DeltaJob.state) _, Evolves.refl (JobKept.refl HeadCacheJob.state) _,
      fun source slot _ hslot => ⟨slot, hslot, DeltaCacheSlot.Grows.refl slot⟩⟩
  | cons event events ih =>
    obtain ⟨next, hstep, hrest⟩ := Data.run.cons_eq_some.mp hrun
    obtain ⟨hnext, hfollows⟩ := h.step hstep
    obtain ⟨hdeltaJobs, hheadJobs, hslots⟩ := ih hnext hrest
    refine ⟨hfollows.deltaJobs.trans (JobKept.trans DeltaJob.state) hdeltaJobs,
      hfollows.headJobs.trans (JobKept.trans HeadCacheJob.state) hheadJobs, ?_⟩
    intro source slot hsurvives hslot
    -- the slot is still there after the first step
    obtain ⟨slot', hslot'⟩ := hsurvives [event] events next rfl
      (Data.run.cons_eq_some.mpr ⟨next, hstep, rfl⟩)
    have hlater : Survives next events source := by
      intro pre post mid hevents hmid
      exact hsurvives (event :: pre) post mid (by rw [hevents]; rfl)
        (Data.run.cons_eq_some.mpr ⟨next, hstep, hmid⟩)
    obtain ⟨slot'', hslot'', hgrows⟩ := hslots source slot' hlater hslot'
    exact ⟨slot'', hslot'', (hfollows.deltas source slot slot' hslot hslot').trans hgrows⟩

/--
The shared jobs of the cache, for any interleaving of accesses, completions and invalidations.
-/
theorem shared_jobs (events : List GraphCacheEvent)
    (hrun : Data.run GraphCache.step .new events = some cache) :
    JobProtocol cache ∧
      ∀ later cache', Data.run GraphCache.step cache later = some cache' →
        (∀ (index : Nat) (job : DeltaJob), cache.deltaJobs[index]? = some job →
          job.state ≠ .pending →
          ∃ job', cache'.deltaJobs[index]? = some job' ∧ job'.state = job.state) ∧
        (∀ (index : Nat) (job : HeadCacheJob), cache.headJobs[index]? = some job →
          job.state ≠ .pending →
          ∃ job', cache'.headJobs[index]? = some job' ∧ job'.state = job.state) ∧
        ∀ source slot, Survives cache later source → cache.deltas[source]? = some slot →
          ∃ slot', cache'.deltas[source]? = some slot' ∧ slot.Grows slot' := by
  have hcoherent := Coherent.new.run hrun
  refine ⟨hcoherent.protocol, ?_⟩
  intro later cache' hlater
  obtain ⟨hdeltaJobs, hheadJobs, hslots⟩ := hcoherent.follows hlater
  refine ⟨?_, ?_, hslots⟩
  . intro index job hjob hne
    obtain ⟨job', hjob', hkeeps⟩ := hdeltaJobs index job hjob
    exact ⟨job', hjob', hkeeps hne⟩
  . intro index job hjob hne
    obtain ⟨job', hjob', hkeeps⟩ := hheadJobs index job hjob
    exact ⟨job', hjob', hkeeps hne⟩

def reelection : List GraphCacheEvent :=
  [.electDelta 0 10 4 false, .electHead 20 ⟨10, 0, 0⟩, .invalidateReplayFloor 1,
    .electDelta 0 10 8 false, .finishDelta 0 none, .completeDelta 0]

theorem shared_jobs_reelection :
    ∃ cache, Data.run GraphCache.step .new reelection = some cache ∧ JobProtocol cache ∧
      cache.deltas.running 0 = some ⟨8, false, 1⟩ := by
  have hobserved : (Data.run GraphCache.step .new reelection).any
      (fun cache => cache.deltas.running 0 == some ⟨8, false, 1⟩) = true := by
    decide +kernel
  rw [Option.any_eq_true] at hobserved
  obtain ⟨cache, hrun, hrunning⟩ := hobserved
  exact ⟨cache, hrun, (shared_jobs reelection hrun).1, eq_of_beq hrunning⟩

end Run

end GraphCache

end Kgi
