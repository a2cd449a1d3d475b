import GraphInspector.ApiCore.Impl.Scheduler

/-!
The slots and the queues of the encoding scheduler.
-/

namespace Kgi

open Data

namespace SchedulerState

variable {state state' : SchedulerState} {job : QueuedJob} {rest : List QueuedJob}
  {started : List QueuedJob} {jobClass : JobClass} {id : Nat}

def waiting (state : SchedulerState) : JobClass → List QueuedJob
  | .priority => state.priorityQueue
  | .historical => state.historicalQueue

structure Balanced (state : SchedulerState) : Prop where
  total : state.activeTotal = state.active.size
  historical : state.activeHistorical
    = Map.count state.active fun _ jobClass => decide (jobClass = .historical)
  total_le : state.activeTotal ≤ maxGraphEncodingJobs
  historical_le : state.activeHistorical ≤ maxHistoricalEncodingJobs
  classes : ∀ jobClass, ∀ job ∈ state.waiting jobClass, job.jobClass = jobClass

def Conserving (state : SchedulerState) : Prop :=
  ∀ jobClass, state.waiting jobClass ≠ [] → state.canStart jobClass = false

structure Fresh (state : SchedulerState) : Prop where
  inactive : ∀ jobClass, ∀ job ∈ state.waiting jobClass, state.active[job.id]? = none
  distinct : ((state.priorityQueue ++ state.historicalQueue).map QueuedJob.id).Nodup

theorem canStart_iff : state.canStart jobClass = true ↔
    state.activeTotal < maxGraphEncodingJobs ∧
      (jobClass = .priority ∨ state.activeHistorical < maxHistoricalEncodingJobs) := by
  unfold canStart
  rw [Bool.and_eq_true, decide_eq_true_eq, Bool.or_eq_true, decide_eq_true_eq, decide_eq_true_eq]

def activated (state : SchedulerState) (job : QueuedJob) : SchedulerState :=
  { state with
    active := state.active.insert job.id job.jobClass
    activeTotal := state.activeTotal + 1
    activeHistorical :=
      if job.jobClass = .historical then state.activeHistorical + 1 else state.activeHistorical }

theorem start_eq_ok (h : state.active[job.id]? = none) : state.start job = .ok (state.activated job) := by
  unfold start
  rw [ensure_pos h, ok_bind]
  rfl

theorem size_insert_new {active : Map Nat JobClass} (h : active[id]? = none) :
    (active.insert id jobClass).size = active.size + 1 := by
  have hnew : ¬active.contains id = true := by
    rw [Map.contains_iff, h]
    rintro ⟨_, ⟨⟩⟩
  rw [Std.ExtTreeMap.size_insert, if_neg hnew]

theorem Balanced.activated (h : state.Balanced) (hnew : state.active[job.id]? = none)
    (hcan : state.canStart job.jobClass = true) : (state.activated job).Balanced := by
  obtain ⟨hslot, hclass⟩ := canStart_iff.mp hcan
  have hcount := Map.count_insert_new (v := job.jobClass)
    (fun _ jobClass => decide (jobClass = JobClass.historical)) hnew
  constructor
  case total =>
    change state.activeTotal + 1 = (state.active.insert job.id job.jobClass).size
    rw [size_insert_new hnew, h.total]
  case historical =>
    change (if job.jobClass = .historical then state.activeHistorical + 1 else
      state.activeHistorical) = Map.count (state.active.insert job.id job.jobClass) _
    rw [hcount, h.historical]
    by_cases hhistorical : job.jobClass = .historical
    . rw [if_pos hhistorical, if_pos (decide_eq_true hhistorical)]
    . rw [if_neg hhistorical, if_neg (mt of_decide_eq_true hhistorical)]
      rfl
  case total_le => exact hslot
  case historical_le =>
    change (if job.jobClass = .historical then state.activeHistorical + 1 else
      state.activeHistorical) ≤ maxHistoricalEncodingJobs
    split
    . next hhistorical =>
      obtain hpriority | hfree := hclass
      . rw [hpriority] at hhistorical
        cases hhistorical
      . exact hfree
    . exact h.historical_le
  case classes =>
    intro jobClass
    cases jobClass with
    | priority => exact h.classes .priority
    | historical => exact h.classes .historical

inductive Dispatches : SchedulerState → List QueuedJob → SchedulerState → Prop where
  | done {state : SchedulerState} (hidle : state.Conserving) : Dispatches state [] state
  | priority {state state' : SchedulerState} {job : QueuedJob} {rest started : List QueuedJob}
      (hqueue : state.priorityQueue = job :: rest) (hcan : state.canStart .priority = true)
      (hrest : Dispatches ({ state with priorityQueue := rest }.activated job) started state') :
      Dispatches state (job :: started) state'
  | historical {state state' : SchedulerState} {job : QueuedJob} {rest started : List QueuedJob}
      (hempty : state.priorityQueue = []) (hqueue : state.historicalQueue = job :: rest)
      (hcan : state.canStart .historical = true)
      (hrest : Dispatches ({ state with historicalQueue := rest }.activated job) started state') :
      Dispatches state (job :: started) state'

theorem Conserving.of_full (h : maxGraphEncodingJobs ≤ state.activeTotal) : state.Conserving := by
  intro jobClass _
  rw [← Bool.not_eq_true, canStart_iff]
  omega

theorem Balanced.pop_priority (h : state.Balanced) (hqueue : state.priorityQueue = job :: rest) :
    ({ state with priorityQueue := rest } : SchedulerState).Balanced := by
  refine ⟨h.total, h.historical, h.total_le, h.historical_le, ?_⟩
  intro jobClass job' hjob'
  cases jobClass with
  | priority =>
    refine h.classes .priority job' ?_
    change job' ∈ state.priorityQueue
    rw [hqueue]
    exact List.mem_cons_of_mem _ hjob'
  | historical => exact h.classes .historical job' hjob'

theorem Balanced.pop_historical (h : state.Balanced) (hqueue : state.historicalQueue = job :: rest) :
    ({ state with historicalQueue := rest } : SchedulerState).Balanced := by
  refine ⟨h.total, h.historical, h.total_le, h.historical_le, ?_⟩
  intro jobClass job' hjob'
  cases jobClass with
  | priority => exact h.classes .priority job' hjob'
  | historical =>
    refine h.classes .historical job' ?_
    change job' ∈ state.historicalQueue
    rw [hqueue]
    exact List.mem_cons_of_mem _ hjob'

theorem Fresh.activated (h : state.Fresh)
    (hperm : (state.priorityQueue ++ state.historicalQueue).Perm (job :: rest))
    (hrest : state'.priorityQueue ++ state'.historicalQueue = rest)
    (hactive : state'.active = state.active) : (state'.activated job).Fresh := by
  have hdistinct := (hperm.map QueuedJob.id).nodup_iff.mp h.distinct
  rw [List.map_cons, List.nodup_cons] at hdistinct
  have hmem : ∀ jobClass, ∀ job' ∈ state'.waiting jobClass, job' ∈ rest := by
    intro jobClass job' hjob'
    rw [← hrest, List.mem_append]
    cases jobClass with
    | priority => exact Or.inl hjob'
    | historical => exact Or.inr hjob'
  have hold : ∀ job' ∈ rest, state.active[job'.id]? = none := by
    intro job' hjob'
    have hin := hperm.mem_iff.mpr (List.mem_cons_of_mem job hjob')
    obtain hin | hin := List.mem_append.mp hin
    . exact h.inactive .priority job' hin
    . exact h.inactive .historical job' hin
  constructor
  case inactive =>
    intro jobClass job' hjob'
    have hjob' : job' ∈ rest := by
      cases jobClass with
      | priority => exact hmem .priority job' hjob'
      | historical => exact hmem .historical job' hjob'
    change (state'.active.insert job.id job.jobClass)[job'.id]? = none
    rw [Map.get_insert_of_ne, hactive]
    . exact hold job' hjob'
    . intro heq
      exact hdistinct.1 (heq ▸ List.mem_map_of_mem hjob')
  case distinct =>
    change ((state'.priorityQueue ++ state'.historicalQueue).map QueuedJob.id).Nodup
    rw [hrest]
    exact hdistinct.2

theorem Fresh.activated_priority (h : state.Fresh) (hqueue : state.priorityQueue = job :: rest) :
    ({ state with priorityQueue := rest }.activated job).Fresh :=
  h.activated (by rw [hqueue]; exact List.Perm.refl _) rfl rfl

theorem Fresh.activated_historical (h : state.Fresh) (hqueue : state.historicalQueue = job :: rest) :
    ({ state with historicalQueue := rest }.activated job).Fresh :=
  h.activated (by rw [hqueue]; exact List.perm_middle) rfl rfl

theorem Balanced.activated_priority (h : state.Balanced) (hfresh : state.Fresh)
    (hqueue : state.priorityQueue = job :: rest) (hcan : state.canStart .priority = true) :
    state.active[job.id]? = none ∧ job.jobClass = .priority ∧
      ({ state with priorityQueue := rest }.activated job).Balanced := by
  have hmem : job ∈ state.waiting .priority := by
    change job ∈ state.priorityQueue
    rw [hqueue]
    exact List.mem_cons_self
  have hclass := h.classes .priority job hmem
  have hinactive := hfresh.inactive .priority job hmem
  refine ⟨hinactive, hclass, (h.pop_priority hqueue).activated hinactive ?_⟩
  rw [hclass]
  exact hcan

theorem Balanced.activated_historical (h : state.Balanced) (hfresh : state.Fresh)
    (hqueue : state.historicalQueue = job :: rest) (hcan : state.canStart .historical = true) :
    state.active[job.id]? = none ∧ job.jobClass = .historical ∧
      ({ state with historicalQueue := rest }.activated job).Balanced := by
  have hmem : job ∈ state.waiting .historical := by
    change job ∈ state.historicalQueue
    rw [hqueue]
    exact List.mem_cons_self
  have hclass := h.classes .historical job hmem
  have hinactive := hfresh.inactive .historical job hmem
  refine ⟨hinactive, hclass, (h.pop_historical hqueue).activated hinactive ?_⟩
  rw [hclass]
  exact hcan

theorem popNext_cases (state : SchedulerState) :
    (∃ job rest, state.priorityQueue = job :: rest ∧
      state.popNext = some (job, { state with priorityQueue := rest })) ∨
    (∃ job rest, state.priorityQueue = [] ∧ state.historicalQueue = job :: rest ∧
      state.activeHistorical < maxHistoricalEncodingJobs ∧
      state.popNext = some (job, { state with historicalQueue := rest })) ∨
    (state.popNext = none ∧ state.priorityQueue = [] ∧
      (state.historicalQueue = [] ∨ maxHistoricalEncodingJobs ≤ state.activeHistorical)) := by
  unfold popNext
  split
  . next job rest hqueue => exact Or.inl ⟨job, rest, hqueue, rfl⟩
  . next hempty =>
    split
    . next hfree =>
      split
      . next job rest hqueue => exact Or.inr (Or.inl ⟨job, rest, hempty, hqueue, hfree, rfl⟩)
      . next hnone => exact Or.inr (Or.inr ⟨rfl, hempty, Or.inl hnone⟩)
    . next hfull => exact Or.inr (Or.inr ⟨rfl, hempty, Or.inr (Nat.le_of_not_lt hfull)⟩)

theorem dispatchRounds_eq_ok {rounds : Nat} (h : state.Balanced) (hfresh : state.Fresh)
    (hrounds : maxGraphEncodingJobs ≤ state.activeTotal + rounds) :
    ∃ state' started, dispatchRounds rounds state = .ok (state', started) ∧
      Dispatches state started state' := by
  induction rounds generalizing state with
  | zero => exact ⟨state, [], rfl, .done (.of_full hrounds)⟩
  | succ rounds ih =>
    unfold dispatchRounds
    by_cases hslot : state.activeTotal < maxGraphEncodingJobs
    . rw [if_pos hslot]
      have hrounds' : maxGraphEncodingJobs ≤ state.activeTotal + 1 + rounds := by omega
      obtain ⟨job, rest, hqueue, hpop⟩ | ⟨job, rest, hempty, hqueue, hfree, hpop⟩ |
        ⟨hpop, hempty, hnone⟩ := popNext_cases state
      . have hcan : state.canStart .priority = true := canStart_iff.mpr ⟨hslot, Or.inl rfl⟩
        obtain ⟨hinactive, _, hbalanced⟩ := h.activated_priority hfresh hqueue hcan
        obtain ⟨state', started, hok, hdispatches⟩ :=
          ih hbalanced (hfresh.activated_priority hqueue) hrounds'
        have hstart : ({ state with priorityQueue := rest } : SchedulerState).start job = .ok _ :=
          start_eq_ok hinactive
        rw [hpop]
        dsimp only
        rw [hstart, ok_bind, hok, ok_bind]
        exact ⟨state', job :: started, rfl, .priority hqueue hcan hdispatches⟩
      . have hcan : state.canStart .historical = true := canStart_iff.mpr ⟨hslot, Or.inr hfree⟩
        obtain ⟨hinactive, _, hbalanced⟩ := h.activated_historical hfresh hqueue hcan
        obtain ⟨state', started, hok, hdispatches⟩ :=
          ih hbalanced (hfresh.activated_historical hqueue) hrounds'
        have hstart : ({ state with historicalQueue := rest } : SchedulerState).start job = .ok _ :=
          start_eq_ok hinactive
        rw [hpop]
        dsimp only
        rw [hstart, ok_bind, hok, ok_bind]
        exact ⟨state', job :: started, rfl, .historical hempty hqueue hcan hdispatches⟩
      . rw [hpop]
        refine ⟨state, [], rfl, .done ?_⟩
        intro jobClass hwaiting
        cases jobClass with
        | priority => exact absurd hempty hwaiting
        | historical =>
          have hfull := hnone.resolve_left hwaiting
          rw [← Bool.not_eq_true, canStart_iff]
          rintro ⟨_, hpriority | hfree⟩
          . cases hpriority
          . omega
    . rw [if_neg hslot]
      exact ⟨state, [], rfl, .done (.of_full (Nat.le_of_not_lt hslot))⟩

theorem dispatch_eq_ok (h : state.Balanced) (hfresh : state.Fresh) :
    ∃ state' started, state.dispatch = .ok (state', started) ∧ Dispatches state started state' :=
  dispatchRounds_eq_ok h hfresh (by omega)

structure Dispatched (state : SchedulerState) (started : List QueuedJob) (state' : SchedulerState) :
    Prop where
  balanced : state'.Balanced
  conserving : state'.Conserving
  accepting : state'.accepting = state.accepting
  nextId : state'.nextId = state.nextId
  reservations : state'.reservations = state.reservations
  waiting : ∀ jobClass, state.waiting jobClass
    = started.filter (fun job => job.jobClass = jobClass) ++ state'.waiting jobClass
  active : ∀ (id : Nat) (jobClass : JobClass), state'.active[id]? = some jobClass ↔
    state.active[id]? = some jobClass ∨ ⟨id, jobClass⟩ ∈ started
  keys : state'.active.keys.Perm (state.active.keys ++ started.map QueuedJob.id)
  priorityFirst : ∀ pre job post, started = pre ++ job :: post → job.jobClass = .historical →
    ∀ waits ∈ state.priorityQueue, waits ∈ pre

theorem get_activated (hnew : state.active[job.id]? = none) (id : Nat) (jobClass : JobClass) :
    (state.activated job).active[id]? = some jobClass ↔
      state.active[id]? = some jobClass ∨ ⟨id, jobClass⟩ = job := by
  change (state.active.insert job.id job.jobClass)[id]? = some jobClass ↔ _
  obtain ⟨id', jobClass'⟩ := job
  rw [Map.get_insert, QueuedJob.mk.injEq]
  split
  . next heq =>
    subst heq
    rw [hnew]
    simp [eq_comm]
  . next hne =>
    refine ⟨Or.inl, ?_⟩
    rintro (h | ⟨rfl, _⟩)
    . exact h
    . exact absurd rfl hne

theorem keys_activated (hnew : state.active[job.id]? = none) :
    (state.activated job).active.keys.Perm (job.id :: state.active.keys) := by
  have hnot : job.id ∉ state.active.keys := by
    rw [Std.ExtTreeMap.mem_keys, Std.ExtTreeMap.mem_iff_isSome_getElem?, hnew]
    exact Bool.false_ne_true
  rw [List.perm_ext_iff_of_nodup (Map.nodup_keys _) (List.nodup_cons.mpr ⟨hnot, Map.nodup_keys _⟩)]
  intro id
  rw [List.mem_cons, Std.ExtTreeMap.mem_keys, Std.ExtTreeMap.mem_keys]
  change id ∈ state.active.insert job.id job.jobClass ↔ _
  rw [Std.ExtTreeMap.mem_insert, Std.LawfulEqCmp.compare_eq_iff_eq, eq_comm]

theorem filter_cons_self (h : job.jobClass = jobClass) :
    (job :: started).filter (fun job => job.jobClass = jobClass)
      = job :: started.filter fun job => job.jobClass = jobClass :=
  List.filter_cons_of_pos (decide_eq_true h)

theorem filter_cons_other (h : job.jobClass ≠ jobClass) :
    (job :: started).filter (fun job => job.jobClass = jobClass)
      = started.filter fun job => job.jobClass = jobClass :=
  List.filter_cons_of_neg (mt of_decide_eq_true h)

theorem Dispatched.cons {popped : SchedulerState} (h : Dispatched (popped.activated job) started state')
    (hnew : state.active[job.id]? = none) (hactive : popped.active = state.active)
    (haccepting : popped.accepting = state.accepting) (hnextId : popped.nextId = state.nextId)
    (hreservations : popped.reservations = state.reservations)
    (hwaiting : state.waiting job.jobClass = job :: popped.waiting job.jobClass)
    (hother : ∀ jobClass, job.jobClass ≠ jobClass → state.waiting jobClass = popped.waiting jobClass)
    (hfirst : job.jobClass = .historical → state.priorityQueue = []) :
    Dispatched state (job :: started) state' := by
  have hwaiting' : ∀ jobClass, (popped.activated job).waiting jobClass = popped.waiting jobClass := by
    intro jobClass
    cases jobClass with
    | priority => rfl
    | historical => rfl
  rw [← hactive] at hnew
  constructor
  case balanced => exact h.balanced
  case conserving => exact h.conserving
  case accepting => exact h.accepting.trans haccepting
  case nextId => exact h.nextId.trans hnextId
  case reservations => exact h.reservations.trans hreservations
  case waiting =>
    intro jobClass
    have hrest := h.waiting jobClass
    rw [hwaiting'] at hrest
    by_cases hclass : job.jobClass = jobClass
    . subst hclass
      rw [hwaiting, hrest, filter_cons_self rfl, List.cons_append]
    . rw [hother jobClass hclass, hrest, filter_cons_other hclass]
  case active =>
    intro id jobClass
    rw [h.active, get_activated hnew, hactive, List.mem_cons, or_assoc]
  case keys =>
    refine h.keys.trans (((keys_activated hnew).append_right _).trans ?_)
    rw [hactive, List.map_cons]
    exact List.perm_middle.symm
  case priorityFirst =>
    intro pre job' post hstarted hhistorical waits hwaits
    cases pre with
    | nil =>
      obtain ⟨rfl, _⟩ := List.cons_eq_cons.mp hstarted
      rw [hfirst hhistorical] at hwaits
      exact absurd hwaits List.not_mem_nil
    | cons first pre =>
      obtain ⟨rfl, hrest⟩ := List.cons_eq_cons.mp hstarted
      by_cases hclass : job.jobClass = .priority
      . have hqueue : state.priorityQueue = job :: popped.priorityQueue := by
          rw [hclass] at hwaiting
          exact hwaiting
        rw [hqueue] at hwaits
        obtain rfl | hwaits := List.mem_cons.mp hwaits
        . exact List.mem_cons_self
        . exact List.mem_cons_of_mem _ (h.priorityFirst pre job' post hrest hhistorical waits hwaits)
      . have hhistorical' : job.jobClass = .historical := by
          cases hjob : job.jobClass with
          | priority => exact absurd hjob hclass
          | historical => rfl
        rw [hfirst hhistorical'] at hwaits
        exact absurd hwaits List.not_mem_nil

theorem Dispatches.dispatched (h : Dispatches state started state') (hbalanced : state.Balanced)
    (hfresh : state.Fresh) : Dispatched state started state' := by
  induction h with
  | done hidle =>
    constructor
    case balanced => exact hbalanced
    case conserving => exact hidle
    case accepting => rfl
    case nextId => rfl
    case reservations => rfl
    case waiting => exact fun jobClass => rfl
    case active =>
      intro id jobClass
      exact ⟨Or.inl, fun h => h.resolve_right List.not_mem_nil⟩
    case keys =>
      rw [List.map_nil, List.append_nil]
    case priorityFirst =>
      intro pre job post hstarted
      exact absurd hstarted.symm (List.append_ne_nil_of_right_ne_nil _ (List.cons_ne_nil _ _))
  | priority hqueue hcan hrest ih =>
    obtain ⟨hinactive, hclass, hbalanced'⟩ := hbalanced.activated_priority hfresh hqueue hcan
    have hdispatched := ih hbalanced' (hfresh.activated_priority hqueue)
    refine hdispatched.cons hinactive rfl rfl rfl rfl ?_ ?_ ?_
    . rw [hclass]
      exact hqueue
    . intro jobClass hother
      cases jobClass with
      | priority => exact absurd hclass hother
      | historical => rfl
    . rw [hclass]
      nofun
  | historical hempty hqueue hcan hrest ih =>
    obtain ⟨hinactive, hclass, hbalanced'⟩ := hbalanced.activated_historical hfresh hqueue hcan
    have hdispatched := ih hbalanced' (hfresh.activated_historical hqueue)
    refine hdispatched.cons hinactive rfl rfl rfl rfl ?_ ?_ (fun _ => hempty)
    . rw [hclass]
      exact hqueue
    . intro jobClass hother
      cases jobClass with
      | priority => rfl
      | historical => exact absurd hclass hother

structure Removes (state : SchedulerState) (job : QueuedJob) (state' : SchedulerState) : Prop where
  member : job ∈ state.waiting job.jobClass
  sublist : ∀ jobClass, (state'.waiting jobClass).Sublist (state.waiting jobClass)
  kept : ∀ jobClass, ∀ job' ∈ state.waiting jobClass, job'.id ≠ job.id → job' ∈ state'.waiting jobClass
  gone : ∀ jobClass, ∀ job' ∈ state'.waiting jobClass, job'.id ≠ job.id
  accepting : state'.accepting = state.accepting
  nextId : state'.nextId = state.nextId
  reservations : state'.reservations = state.reservations
  active : state'.active = state.active
  activeTotal : state'.activeTotal = state.activeTotal
  activeHistorical : state'.activeHistorical = state.activeHistorical

theorem removeJob_eq_some {queue queue' : List QueuedJob} (h : removeJob queue id = some queue')
    (hdistinct : (queue.map QueuedJob.id).Nodup) :
    ∃ job ∈ queue, job.id = id ∧ queue'.Sublist queue ∧
      (∀ job' ∈ queue, job'.id ≠ id → job' ∈ queue') ∧ ∀ job' ∈ queue', job'.id ≠ id := by
  unfold removeJob at h
  rw [Option.map_eq_some_iff] at h
  obtain ⟨job, hfound, rfl⟩ := h
  have hmem := List.mem_of_find?_eq_some hfound
  have hid := List.find?_some hfound
  rw [decide_eq_true_eq] at hid
  refine ⟨job, hmem, hid, List.eraseP_sublist, ?_, ?_⟩
  . intro job' hjob' hne
    exact (List.mem_eraseP_of_neg (p := fun job => decide (job.id = id))
      (mt of_decide_eq_true hne)).mpr hjob'
  . obtain ⟨job', before, after, hbefore, hjob', rfl, herase⟩ :=
      List.exists_of_eraseP (p := fun job => decide (job.id = id)) hmem (decide_eq_true hid)
    rw [decide_eq_true_eq] at hjob'
    rw [herase]
    rw [List.map_append, List.map_cons, List.nodup_append, List.nodup_cons] at hdistinct
    obtain ⟨_, ⟨hafter, _⟩, hdisjoint⟩ := hdistinct
    intro other hother heq
    obtain hother | hother := List.mem_append.mp hother
    . exact hbefore other hother (decide_eq_true heq)
    . exact hafter (hjob' ▸ heq ▸ List.mem_map_of_mem hother)

theorem removeJob_eq_none {queue : List QueuedJob} (h : removeJob queue id = none) :
    ∀ job ∈ queue, job.id ≠ id := by
  unfold removeJob at h
  rw [Option.map_eq_none_iff, List.find?_eq_none] at h
  intro job hjob heq
  exact h job hjob (decide_eq_true heq)

theorem removeQueued_eq_some (h : state.removeQueued id = some state') (hbalanced : state.Balanced)
    (hfresh : state.Fresh) :
    ∃ job, job.id = id ∧ Removes state job state' := by
  have hdistinct := hfresh.distinct
  rw [List.map_append, List.nodup_append] at hdistinct
  obtain ⟨hpriority, hhistorical, hdisjoint⟩ := hdistinct
  unfold removeQueued at h
  split at h
  . next queue hqueue =>
    cases h
    obtain ⟨job, hmem, rfl, hsublist, hkept, hgone⟩ := removeJob_eq_some hqueue hpriority
    have hclass := hbalanced.classes .priority job hmem
    refine ⟨job, rfl, hclass ▸ hmem, ?_, ?_, ?_, rfl, rfl, rfl, rfl, rfl, rfl⟩
    . intro jobClass
      cases jobClass with
      | priority => exact hsublist
      | historical => exact List.Sublist.refl _
    . intro jobClass job' hjob' hne
      cases jobClass with
      | priority => exact hkept job' hjob' hne
      | historical => exact hjob'
    . intro jobClass job' hjob' heq
      cases jobClass with
      | priority => exact hgone job' hjob' heq
      | historical =>
        exact hdisjoint job.id (List.mem_map_of_mem hmem) job'.id (List.mem_map_of_mem hjob') heq.symm
  . next hnone =>
    rw [Option.map_eq_some_iff] at h
    obtain ⟨queue, hqueue, rfl⟩ := h
    obtain ⟨job, hmem, rfl, hsublist, hkept, hgone⟩ := removeJob_eq_some hqueue hhistorical
    have hclass := hbalanced.classes .historical job hmem
    refine ⟨job, rfl, hclass ▸ hmem, ?_, ?_, ?_, rfl, rfl, rfl, rfl, rfl, rfl⟩
    . intro jobClass
      cases jobClass with
      | priority => exact List.Sublist.refl _
      | historical => exact hsublist
    . intro jobClass job' hjob' hne
      cases jobClass with
      | priority => exact hjob'
      | historical => exact hkept job' hjob' hne
    . intro jobClass job' hjob' heq
      cases jobClass with
      | priority => exact removeJob_eq_none hnone job' hjob' heq
      | historical => exact hgone job' hjob' heq

theorem removeQueued_eq_none (h : state.removeQueued id = none) :
    ∀ jobClass, ∀ job ∈ state.waiting jobClass, job.id ≠ id := by
  unfold removeQueued at h
  split at h
  . cases h
  . next hnone =>
    rw [Option.map_eq_none_iff] at h
    intro jobClass
    cases jobClass with
    | priority => exact removeJob_eq_none hnone
    | historical => exact removeJob_eq_none h

theorem queueOccupancy_eq (state : SchedulerState) : state.queueOccupancy
    = state.reservations.size + (state.waiting .priority).length
      + (state.waiting .historical).length :=
  rfl

theorem canStart_congr (htotal : state'.activeTotal = state.activeTotal)
    (hhistorical : state'.activeHistorical = state.activeHistorical) (jobClass : JobClass) :
    state'.canStart jobClass = state.canStart jobClass := by
  unfold canStart
  rw [htotal, hhistorical]

theorem Removes.balanced (h : Removes state job state') (hbalanced : state.Balanced) :
    state'.Balanced where
  total := by rw [h.activeTotal, h.active, hbalanced.total]
  historical := by rw [h.activeHistorical, h.active, hbalanced.historical]
  total_le := h.activeTotal ▸ hbalanced.total_le
  historical_le := h.activeHistorical ▸ hbalanced.historical_le
  classes := fun jobClass job' hjob' =>
    hbalanced.classes jobClass job' ((h.sublist jobClass).subset hjob')

theorem Removes.conserving (h : Removes state job state') (hconserving : state.Conserving) :
    state'.Conserving := by
  intro jobClass hwaiting
  rw [canStart_congr h.activeTotal h.activeHistorical]
  apply hconserving
  intro hempty
  have hsublist := h.sublist jobClass
  rw [hempty, List.sublist_nil] at hsublist
  exact hwaiting hsublist

theorem Removes.occupancy_le (h : Removes state job state') :
    state'.queueOccupancy ≤ state.queueOccupancy := by
  have hpriority := (h.sublist .priority).length_le
  have hhistorical := (h.sublist .historical).length_le
  rw [queueOccupancy_eq, queueOccupancy_eq, h.reservations]
  omega

end SchedulerState

end Kgi
