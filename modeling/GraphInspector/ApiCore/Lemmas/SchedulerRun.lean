import GraphInspector.ApiCore.Lemmas.Scheduler

/-!
The guarantees of the encoding scheduler over its runs.
-/

namespace Kgi

open Data

def SchedulerState.vacated (state : SchedulerState) (id : Nat) (jobClass : JobClass) : SchedulerState :=
  { state with
    active := state.active.erase id
    activeTotal := state.activeTotal - 1
    activeHistorical :=
      if jobClass = .historical then state.activeHistorical - 1 else state.activeHistorical }

namespace EncodingScheduler

variable {Body : Type} {scheduler scheduler' : EncodingScheduler Body} {jobClass : JobClass}
  {id : Nat}

namespace Sound

variable {state : SchedulerState}

theorem active_counted (h : scheduler.Sound) (hactive : scheduler.state.active[id]? = some jobClass) :
    scheduler.state.activeTotal = (scheduler.state.active.erase id).size + 1 ∧
      scheduler.state.activeHistorical
        = Map.count (scheduler.state.active.erase id)
            (fun _ jobClass => decide (jobClass = .historical))
          + if jobClass = .historical then 1 else 0 := by
  have hcontains : scheduler.state.active.contains id = true :=
    (Map.contains_iff _ _).mpr ⟨jobClass, hactive⟩
  have hpos : 0 < scheduler.state.active.size := by
    rw [← Std.ExtTreeMap.length_keys]
    exact List.length_pos_of_mem
      (Std.ExtTreeMap.mem_keys.mpr (Std.ExtTreeMap.mem_iff_contains.mpr hcontains))
  constructor
  . rw [h.balanced.total, Std.ExtTreeMap.size_erase, if_pos hcontains]
    omega
  . rw [h.balanced.historical, Map.count_erase _ hactive]
    simp only [decide_eq_true_eq]

theorem vacated_balanced (h : scheduler.Sound) (hactive : scheduler.state.active[id]? = some jobClass) :
    (scheduler.state.vacated id jobClass).Balanced := by
  obtain ⟨htotal, hhistorical⟩ := h.active_counted hactive
  have htotalLe := h.balanced.total_le
  have hhistoricalLe := h.balanced.historical_le
  constructor
  case total =>
    change scheduler.state.activeTotal - 1 = (scheduler.state.active.erase id).size
    omega
  case historical =>
    change (if jobClass = .historical then scheduler.state.activeHistorical - 1 else
      scheduler.state.activeHistorical) = Map.count (scheduler.state.active.erase id) _
    split at hhistorical
    . next hclass =>
      rw [if_pos hclass]
      omega
    . next hclass =>
      rw [if_neg hclass]
      omega
  case total_le =>
    change scheduler.state.activeTotal - 1 ≤ _
    omega
  case historical_le =>
    change (if jobClass = .historical then scheduler.state.activeHistorical - 1 else
      scheduler.state.activeHistorical) ≤ _
    split
    . omega
    . exact hhistoricalLe
  case classes =>
    intro jobClass'
    cases jobClass' with
    | priority => exact h.balanced.classes .priority
    | historical => exact h.balanced.classes .historical

theorem get_vacated (id' : Nat) :
    (state.vacated id jobClass).active[id']? = if id = id' then none else state.active[id']? :=
  Map.get_erase _ _ _

theorem waiting_vacated (state : SchedulerState) (id : Nat) (jobClass jobClass' : JobClass) :
    (state.vacated id jobClass).waiting jobClass' = state.waiting jobClass' := by
  cases jobClass' with
  | priority => rfl
  | historical => rfl

theorem vacated_fresh (h : scheduler.Sound) (id : Nat) (jobClass : JobClass) :
    (scheduler.state.vacated id jobClass).Fresh where
  inactive := by
    intro jobClass' job hjob
    rw [waiting_vacated] at hjob
    rw [get_vacated]
    split
    . rfl
    . exact h.fresh.inactive jobClass' job hjob
  distinct := h.fresh.distinct

theorem keys_erase {active : Map Nat JobClass} (hactive : active[id]? = some jobClass) :
    active.keys.Perm (id :: (active.erase id).keys) := by
  have hnot : id ∉ (active.erase id).keys := by
    rw [Std.ExtTreeMap.mem_keys, Std.ExtTreeMap.mem_erase]
    simp
  rw [List.perm_ext_iff_of_nodup (Map.nodup_keys _) (List.nodup_cons.mpr ⟨hnot, Map.nodup_keys _⟩)]
  intro id'
  rw [List.mem_cons, Std.ExtTreeMap.mem_keys, Std.ExtTreeMap.mem_keys, Std.ExtTreeMap.mem_erase,
    ne_eq, Std.LawfulEqCmp.compare_eq_iff_eq]
  constructor
  . intro hmem
    by_cases heq : id' = id
    . exact Or.inl heq
    . exact Or.inr ⟨fun h => heq h.symm, hmem⟩
  . rintro (rfl | ⟨_, hmem⟩)
    . rw [Std.ExtTreeMap.mem_iff_isSome_getElem?, hactive]
      rfl
    . exact hmem

theorem finish_eq_ok (h : scheduler.Sound) {worker id : Nat}
    (hworker : scheduler.workers[worker]? = some id) (result : BlockingResult Body) :
    ∃ jobClass state started, scheduler.state.active[id]? = some jobClass ∧
      (scheduler.state.vacated id jobClass).Dispatched started state ∧
      { scheduler with workers := scheduler.workers.eraseIdx worker }.finish id result
        = .ok { state := state
                workers := scheduler.workers.eraseIdx worker ++ started.map QueuedJob.id
                spawned := scheduler.spawned ++ started
                admitted := scheduler.admitted
                completing := scheduler.completing ++
                  [(id, terminal scheduler.state.accepting result)]
                completed := scheduler.completed } := by
  have hmem : id ∈ scheduler.state.active.keys :=
    h.workers.subset (List.mem_of_getElem? hworker)
  rw [Std.ExtTreeMap.mem_keys, Std.ExtTreeMap.mem_iff_isSome_getElem?, Option.isSome_iff_exists]
    at hmem
  obtain ⟨jobClass, hactive⟩ := hmem
  obtain ⟨htotal, hhistorical⟩ := h.active_counted hactive
  have hbalanced := h.vacated_balanced hactive
  have hfresh := h.vacated_fresh id jobClass
  obtain ⟨state, started, hdispatch, hdispatches⟩ := SchedulerState.dispatch_eq_ok hbalanced hfresh
  refine ⟨jobClass, state, started, hactive, hdispatches.dispatched hbalanced hfresh, ?_⟩
  have hcounted : jobClass = .priority ∨ 0 < scheduler.state.activeHistorical := by
    cases jobClass with
    | priority => exact Or.inl rfl
    | historical =>
      rw [if_pos rfl] at hhistorical
      exact Or.inr (by omega)
  unfold EncodingScheduler.finish
  dsimp only
  rw [hactive, orError_eq_ok.mpr rfl, ok_bind, ensure_pos (by omega), ok_bind, ensure_pos hcounted,
    ok_bind]
  change (scheduler.state.vacated id jobClass).dispatch >>= _ = _
  rw [hdispatch, ok_bind]
  rfl

theorem finish (h : scheduler.Sound) {worker id : Nat} {started : List QueuedJob}
    (hworker : scheduler.workers[worker]? = some id)
    (hactive : scheduler.state.active[id]? = some jobClass)
    (hdispatched : (scheduler.state.vacated id jobClass).Dispatched started state)
    (result : Except EncodingSchedulerError Body) :
    Sound { state := state
            workers := scheduler.workers.eraseIdx worker ++ started.map QueuedJob.id
            spawned := scheduler.spawned ++ started
            admitted := scheduler.admitted
            completing := scheduler.completing ++ [(id, result)]
            completed := scheduler.completed } := by
  have hspawned := h.running id jobClass hactive
  have hwaiting : ∀ jobClass', scheduler.state.waiting jobClass'
      = ofClass started jobClass' ++ state.waiting jobClass' := by
    intro jobClass'
    rw [← waiting_vacated scheduler.state id jobClass]
    exact hdispatched.waiting jobClass'
  have hstill : ∀ jobClass', ∀ job ∈ state.waiting jobClass',
      job ∈ scheduler.state.waiting jobClass' := by
    intro jobClass' job hjob
    rw [hwaiting]
    exact List.mem_append_right _ hjob
  have hsettled : ∀ id', (id' ∈ (scheduler.completing ++ [(id, result)]).map Prod.fst ∨
      id' ∈ scheduler.completed.map Prod.fst) ↔ scheduler.Settled id' ∨ id' = id := by
    intro id'
    rw [List.map_append, List.mem_append, List.map_singleton, List.mem_singleton, or_right_comm]
    rfl
  constructor
  case balanced => exact hdispatched.balanced
  case occupancy =>
    refine Nat.le_trans ?_ h.occupancy
    have hpriority := congrArg List.length (hwaiting .priority)
    have hhistorical := congrArg List.length (hwaiting .historical)
    rw [List.length_append] at hpriority hhistorical
    change state.queueOccupancy ≤ scheduler.state.queueOccupancy
    rw [SchedulerState.queueOccupancy_eq, SchedulerState.queueOccupancy_eq,
      show state.reservations = scheduler.state.reservations from hdispatched.reservations]
    omega
  case conserving => exact fun _ => hdispatched.conserving
  case closed =>
    intro hclosed
    obtain ⟨hreservations, hempty⟩ := h.closed (hdispatched.accepting.symm.trans hclosed)
    refine ⟨hdispatched.reservations.symm ▸ hreservations, ?_⟩
    intro jobClass'
    have hnil := hempty jobClass'
    rw [hwaiting, List.append_eq_nil_iff] at hnil
    exact hnil.2
  case distinct => exact h.distinct
  case allocated => exact hdispatched.nextId.symm ▸ h.allocated
  case reserved =>
    intro id' hid'
    rw [show state.nextId = scheduler.state.nextId from hdispatched.nextId]
    exact h.reserved id' (hdispatched.reservations ▸ hid')
  case ordered =>
    intro jobClass'
    rw [ofClass_append, List.append_assoc, ← hwaiting]
    exact h.ordered jobClass'
  case running =>
    intro id' jobClass' hget
    rw [List.mem_append]
    obtain hget | hstarted := (hdispatched.active id' jobClass').mp hget
    . rw [get_vacated] at hget
      split at hget
      . cases hget
      . exact Or.inl (h.running id' jobClass' hget)
    . exact Or.inr hstarted
  case workers =>
    refine List.Perm.trans ?_ hdispatched.keys.symm
    refine List.Perm.append_right _ ?_
    have hindex := (List.getElem?_eq_some_iff.mp hworker).1
    have hfirst := (List.getElem_cons_eraseIdx_perm hindex).trans
      (h.workers.trans (keys_erase hactive))
    rw [(List.getElem?_eq_some_iff.mp hworker).2] at hfirst
    exact hfirst.cons_inv
  case covered =>
    intro job hjob
    obtain hwaits | hruns | hold := h.covered job hjob
    . rw [hwaiting] at hwaits
      obtain hstarted | hwaits := List.mem_append.mp hwaits
      . exact Or.inr (Or.inl ((hdispatched.active _ _).mpr (Or.inr (mem_ofClass.mp hstarted).1)))
      . exact Or.inl hwaits
    . by_cases hid : job.id = id
      . exact Or.inr (Or.inr ((hsettled _).mpr (Or.inr hid)))
      . refine Or.inr (Or.inl ((hdispatched.active _ _).mpr (Or.inl ?_)))
        rw [get_vacated, if_neg (fun heq => hid heq.symm)]
        exact hruns
    . exact Or.inr (Or.inr ((hsettled _).mpr (Or.inl hold)))
  case unsettled =>
    intro jobClass' job hjob hnow
    obtain hold | hid := (hsettled _).mp hnow
    . exact h.unsettled jobClass' job (hstill jobClass' job hjob) hold
    . exact h.not_spawned_of_waiting (hstill jobClass' job hjob) hspawned hid.symm
  case settled =>
    intro id' hnow
    obtain hold | rfl := (hsettled _).mp hnow
    . exact h.settled id' hold
    . exact List.mem_map_of_mem (f := QueuedJob.id) (h.mem_jobs_of_spawned hspawned)
  case once => exact h.once
  case returned =>
    intro admitted hadmitted hwait
    exact (hsettled _).mpr (Or.inl (h.returned admitted hadmitted hwait))

theorem waiting_closed (state : SchedulerState) (jobClass : JobClass) :
    ({ state with
      accepting := false
      reservations := ∅
      priorityQueue := []
      historicalQueue := [] } : SchedulerState).waiting jobClass = [] := by
  cases jobClass with
  | priority => rfl
  | historical => rfl

def outstanding (state : SchedulerState) : List Nat :=
  state.priorityQueue.map QueuedJob.id ++ state.historicalQueue.map QueuedJob.id ++ state.active.keys

theorem mem_outstanding : id ∈ outstanding state ↔
    (∃ jobClass, ∃ job ∈ state.waiting jobClass, job.id = id) ∨
      ∃ jobClass, state.active[id]? = some jobClass := by
  unfold outstanding
  rw [List.mem_append, List.mem_append, List.mem_map, List.mem_map, Std.ExtTreeMap.mem_keys,
    Std.ExtTreeMap.mem_iff_isSome_getElem?, Option.isSome_iff_exists]
  refine or_congr_left ?_
  constructor
  . rintro (⟨job, hjob, hid⟩ | ⟨job, hjob, hid⟩)
    . exact ⟨.priority, job, hjob, hid⟩
    . exact ⟨.historical, job, hjob, hid⟩
  . rintro ⟨jobClass, job, hjob, hid⟩
    cases jobClass with
    | priority => exact Or.inl ⟨job, hjob, hid⟩
    | historical => exact Or.inr ⟨job, hjob, hid⟩

theorem settled_shutdown :
    (id ∈ (scheduler.completing ++ (outstanding scheduler.state).map
        fun id => (id, (.error .shuttingDown : Except EncodingSchedulerError Body))).map Prod.fst ∨
      id ∈ scheduler.completed.map Prod.fst) ↔
    scheduler.Settled id ∨ id ∈ outstanding scheduler.state := by
  rw [List.map_append, List.mem_append, List.map_map, or_right_comm]
  have hids : (outstanding scheduler.state).map
      (Prod.fst ∘ fun id => (id, (.error .shuttingDown : Except EncodingSchedulerError Body)))
        = outstanding scheduler.state :=
    List.map_id _
  rw [hids]
  rfl

theorem beginShutdown (h : scheduler.Sound) : scheduler.beginShutdown.Sound := by
  unfold EncodingScheduler.beginShutdown
  dsimp only
  split
  . exact h
  . constructor
    case balanced =>
      refine ⟨h.balanced.total, h.balanced.historical, h.balanced.total_le,
        h.balanced.historical_le, ?_⟩
      intro jobClass job hjob
      rw [waiting_closed] at hjob
      exact absurd hjob List.not_mem_nil
    case occupancy => exact Nat.zero_le _
    case conserving => nofun
    case closed => exact fun _ => ⟨KeySet.not_mem_empty, waiting_closed scheduler.state⟩
    case distinct => exact h.distinct
    case allocated => exact h.allocated
    case reserved => exact fun id hid => absurd hid (KeySet.not_mem_empty id)
    case ordered =>
      intro jobClass
      rw [waiting_closed, List.append_nil]
      exact (List.sublist_append_left _ _).trans (h.ordered jobClass)
    case running => exact h.running
    case workers => exact h.workers
    case covered =>
      intro job hjob
      obtain hwaits | hruns | hold := h.covered job hjob
      . exact Or.inr (Or.inr (settled_shutdown.mpr (Or.inr (mem_outstanding.mpr
          (Or.inl ⟨_, job, hwaits, rfl⟩)))))
      . exact Or.inr (Or.inl hruns)
      . exact Or.inr (Or.inr (settled_shutdown.mpr (Or.inl hold)))
    case unsettled =>
      intro jobClass job hjob
      rw [waiting_closed] at hjob
      exact absurd hjob List.not_mem_nil
    case settled =>
      intro id hnow
      obtain hold | hnew := settled_shutdown.mp hnow
      . exact h.settled id hold
      . obtain ⟨jobClass, job, hjob, rfl⟩ | ⟨jobClass, hactive⟩ := mem_outstanding.mp hnew
        . exact List.mem_map_of_mem (h.mem_jobs_of_waiting hjob)
        . exact List.mem_map_of_mem (f := QueuedJob.id)
            (h.mem_jobs_of_spawned (h.running id jobClass hactive))
    case once => exact h.once
    case returned =>
      intro admitted hadmitted hwait
      exact settled_shutdown.mpr (Or.inl (h.returned admitted hadmitted hwait))

end Sound

def Keeps (admitted admitted' : AdmittedJob Body) : Prop :=
  admitted'.job = admitted.job ∧ (admitted.wait.isWaiting = false → admitted'.wait = admitted.wait)

theorem keeps_refl (admitted : AdmittedJob Body) : Keeps admitted admitted :=
  ⟨rfl, fun _ => rfl⟩

structure Advances (scheduler scheduler' : EncodingScheduler Body) : Prop where
  started : ∃ started, scheduler'.spawned = scheduler.spawned ++ started ∧
    (∀ pre job post, started = pre ++ job :: post → job.jobClass = .historical →
      ∀ waits ∈ scheduler.state.priorityQueue, waits ∈ pre) ∧
    (scheduler.state.accepting = false → started = [])
  closed : scheduler.state.accepting = false → scheduler'.state.accepting = false
  admitted : Evolves Keeps scheduler.admitted scheduler'.admitted
  completed : scheduler.completed <+: scheduler'.completed

theorem Advances.of_same (hspawned : scheduler'.spawned = scheduler.spawned)
    (hclosed : scheduler.state.accepting = false → scheduler'.state.accepting = false)
    (hadmitted : Evolves Keeps scheduler.admitted scheduler'.admitted)
    (hcompleted : scheduler.completed <+: scheduler'.completed) : Advances scheduler scheduler' := by
  refine ⟨⟨[], ?_, ?_, fun _ => rfl⟩, hclosed, hadmitted, hcompleted⟩
  . rw [hspawned, List.append_nil]
  . intro pre job post hnil
    exact absurd hnil.symm (List.append_ne_nil_of_right_ne_nil _ (List.cons_ne_nil _ _))

theorem Advances.refl (scheduler : EncodingScheduler Body) : Advances scheduler scheduler :=
  .of_same rfl id (Evolves.refl keeps_refl _) (List.prefix_refl _)

theorem cancel_frame (scheduler : EncodingScheduler Body) (id : Nat) (reason : EncodingSchedulerError)
    (h : scheduler.Sound) :
    (scheduler.cancel id reason).spawned = scheduler.spawned ∧
      (scheduler.cancel id reason).state.accepting = scheduler.state.accepting ∧
      (scheduler.cancel id reason).admitted = scheduler.admitted ∧
      (scheduler.cancel id reason).completed = scheduler.completed := by
  unfold EncodingScheduler.cancel
  split
  . next state hremoved =>
    obtain ⟨_, _, hremoves⟩ := SchedulerState.removeQueued_eq_some hremoved h.balanced h.fresh
    exact ⟨rfl, hremoves.accepting, rfl, rfl⟩
  . split
    . exact ⟨rfl, rfl, rfl, rfl⟩
    . exact ⟨rfl, rfl, rfl, rfl⟩

namespace Sound

variable {index : Nat} {answer : Except EncodingSchedulerError Unit}

theorem mem_jobs_of_get (index : Nat) {admitted : AdmittedJob Body}
    (hget : scheduler.admitted[index]? = some admitted) :
    admitted.job.id ∈ scheduler.jobs.map QueuedJob.id :=
  List.mem_map_of_mem (List.mem_map_of_mem (List.mem_of_getElem? hget))

variable (h : scheduler.Sound)
include h

theorem abandon {wait : JobWait Body} (hok : scheduler.abandon index wait = some scheduler') :
    scheduler'.Sound ∧ Advances scheduler scheduler' := by
  unfold EncodingScheduler.abandon at hok
  split at hok
  . next admitted hget =>
    split at hok
    . next hwaiting =>
      cases hok
      obtain ⟨hspawned, haccepting, hadmitted, hcompleted⟩ :=
        cancel_frame scheduler admitted.job.id .cancelled h
      obtain ⟨hsound, hsettled⟩ := h.cancel (mem_jobs_of_get index hget) .cancelled
      refine ⟨hsound.setWait (hadmitted.symm ▸ hget) fun _ => hsettled, ?_⟩
      refine .of_same hspawned (fun hclosed => haccepting.trans hclosed) ?_
        (hcompleted.symm ▸ List.prefix_refl _)
      change Evolves Keeps scheduler.admitted (List.set _ index ⟨admitted.job, wait⟩)
      rw [hadmitted]
      refine Evolves.set keeps_refl hget ⟨rfl, ?_⟩
      intro hreturned
      rw [hwaiting] at hreturned
      cases hreturned
    . cases hok
  . cases hok

theorem timeoutWait (hok : scheduler.timeoutWait index = some scheduler') :
    scheduler'.Sound ∧ Advances scheduler scheduler' := by
  unfold EncodingScheduler.timeoutWait at hok
  split at hok
  . next job hget =>
    have hkeeps : ∀ wait, Evolves Keeps scheduler.admitted (scheduler.admitted.set index ⟨job, wait⟩) :=
      fun wait => Evolves.set keeps_refl hget ⟨rfl, nofun⟩
    unfold timeoutQueued at hok
    cases hremoved : scheduler.state.removeQueued job.id with
    | none =>
      rw [hremoved] at hok
      cases hok
      refine ⟨h.setWait hget nofun, .of_same rfl id (hkeeps _) (List.prefix_refl _)⟩
    | some state =>
      rw [hremoved] at hok
      cases hok
      obtain ⟨removed, hid, hremoves⟩ :=
        SchedulerState.removeQueued_eq_some hremoved h.balanced h.fresh
      have hsound := h.withdraw hremoves (.error .queueTimeout)
      rw [hid] at hsound
      refine ⟨hsound.setWait hget fun _ => Or.inl ?_,
        .of_same rfl (fun hclosed => hremoves.accepting.trans hclosed) (hkeeps _) (List.prefix_refl _)⟩
      rw [List.map_append, List.mem_append]
      exact Or.inr (List.mem_singleton.mpr rfl)
  . cases hok

theorem receive (hok : scheduler.receive index = some scheduler') :
    scheduler'.Sound ∧ Advances scheduler scheduler' := by
  unfold EncodingScheduler.receive at hok
  split at hok
  . next admitted hget =>
    split at hok
    . next hwaiting =>
      rw [Option.map_eq_some_iff] at hok
      obtain ⟨entry, hfound, rfl⟩ := hok
      have hid := List.find?_some hfound
      rw [decide_eq_true_eq] at hid
      refine ⟨h.setWait hget fun _ => Or.inr ?_, .of_same rfl id ?_ (List.prefix_refl _)⟩
      . exact hid ▸ List.mem_map_of_mem (List.mem_of_find?_eq_some hfound)
      . refine Evolves.set keeps_refl hget ⟨rfl, ?_⟩
        intro hreturned
        rw [hwaiting] at hreturned
        cases hreturned
    . cases hok
  . cases hok

theorem reserveHistorical {answer : Except EncodingSchedulerError Nat}
    (hok : scheduler.reserveHistorical = .ok (scheduler', answer)) :
    scheduler'.Sound ∧ Advances scheduler scheduler' := by
  unfold EncodingScheduler.reserveHistorical at hok
  split at hok
  . cases hok
    exact ⟨h, .refl scheduler⟩
  . next haccepting =>
    rw [Bool.not_eq_true, Bool.not_eq_false'] at haccepting
    split at hok
    . cases hok
      exact ⟨h, .refl scheduler⟩
    . next hroom =>
      unfold SchedulerState.allocateId at hok
      simp only [bind_eq_ok, ensure_eq_ok, pure_eq_ok] at hok
      obtain ⟨_, ⟨_, _, rfl⟩, _, _, hok⟩ := hok
      cases hok
      exact ⟨h.allocate.reserve h.unused_allocate haccepting (Nat.lt_of_not_le hroom),
        .of_same rfl id (Evolves.refl keeps_refl _) (List.prefix_refl _)⟩

theorem admitJob {job : QueuedJob} {reserved : Bool} (hunused : Unused scheduler job.id)
    (haccepting : scheduler.state.accepting = true)
    (hroom : reserved = true → scheduler.state.queueOccupancy < maxQueuedGraphEncodingJobs)
    (hok : scheduler.admitJob job reserved = .ok (scheduler', answer)) :
    scheduler'.Sound ∧ Advances scheduler scheduler' := by
  have hopen : scheduler.state.accepting = false → False := by
    rw [haccepting]
    nofun
  have hkeeps : ∀ wait, Evolves Keeps scheduler.admitted (scheduler.admitted ++ [⟨job, wait⟩]) :=
    fun wait => Evolves.append keeps_refl _ _
  unfold EncodingScheduler.admitJob at hok
  dsimp only at hok
  split at hok
  . next hstarts =>
    rw [Bool.and_eq_true, Bool.or_eq_true, decide_eq_true_eq, List.isEmpty_iff] at hstarts
    rw [SchedulerState.start_eq_ok (h.not_active hunused.unadmitted), ok_bind] at hok
    cases hok
    refine ⟨h.startedWith_sound hunused haccepting hstarts.1, ⟨[job], rfl, ?_, ?_⟩, ?_,
      hkeeps _, List.prefix_refl _⟩
    . intro pre job' post hsingle hhistorical waits hwaits
      obtain ⟨rfl, heq⟩ : pre = [] ∧ job' = job := by
        cases pre with
        | nil => exact ⟨rfl, (List.cons_eq_cons.mp hsingle).1.symm⟩
        | cons first pre =>
          obtain ⟨_, hnil⟩ := List.cons_eq_cons.mp hsingle
          exact absurd hnil.symm (List.append_ne_nil_of_right_ne_nil _ (List.cons_ne_nil _ _))
      subst heq
      obtain hpriority | hempty := hstarts.2
      . rw [hpriority] at hhistorical
        cases hhistorical
      . rw [hempty] at hwaits
        exact absurd hwaits List.not_mem_nil
    . exact fun hclosed => absurd hclosed hopen
    . exact fun hclosed => absurd hclosed hopen
  . next hstarts =>
    split at hok
    . cases hok
      exact ⟨h, .refl scheduler⟩
    . next hfits =>
      cases hok
      refine ⟨h.queuedWith_sound hunused haccepting ?_ ?_, .of_same rfl
        (fun hclosed => absurd hclosed hopen) (hkeeps _) (List.prefix_refl _)⟩
      . cases reserved with
        | true => exact hroom rfl
        | false =>
          rw [Bool.not_false, Bool.true_and, decide_eq_true_eq] at hfits
          exact Nat.lt_of_not_le hfits
      . -- a waiting priority job means that every slot is taken
        rw [Bool.and_eq_true, Bool.or_eq_true, decide_eq_true_eq, List.isEmpty_iff, not_and] at hstarts
        rw [← Bool.not_eq_true]
        intro hcan
        have hneither := hstarts hcan
        rw [not_or] at hneither
        have hfull := h.conserving haccepting .priority hneither.2
        rw [← Bool.not_eq_true, SchedulerState.canStart_iff] at hfull
        exact hfull ⟨(SchedulerState.canStart_iff.mp hcan).1, Or.inl rfl⟩

theorem occupancy_release (hid : id ∈ scheduler.state.reservations) :
    (scheduler.releaseReservation id).state.queueOccupancy < maxQueuedGraphEncodingJobs := by
  have hroom := h.occupancy
  have hsize := Std.ExtTreeSet.size_erase (t := scheduler.state.reservations) (k := id)
  rw [if_pos (Std.ExtTreeSet.mem_iff_contains.mp hid)] at hsize
  have hpos : 0 < scheduler.state.reservations.size := by
    rw [← Std.ExtTreeSet.length_toList]
    exact List.length_pos_of_mem (Std.ExtTreeSet.mem_toList.mpr hid)
  change (scheduler.state.reservations.erase id).size + scheduler.state.priorityQueue.length
    + scheduler.state.historicalQueue.length < _
  unfold SchedulerState.queueOccupancy at hroom
  omega

theorem submit {reservation : Option Nat}
    (hok : scheduler.submit jobClass reservation = .ok (scheduler', answer)) :
    scheduler'.Sound ∧ Advances scheduler scheduler' := by
  unfold EncodingScheduler.submit at hok
  cases reservation with
  | some id =>
    dsimp only at hok
    split at hok
    . next hid =>
      split at hok
      . cases hok
        exact ⟨h.release id, .of_same rfl (fun hclosed => hclosed) (Evolves.refl keeps_refl _)
          (List.prefix_refl _)⟩
      . next haccepting =>
        rw [Bool.not_eq_true, Bool.not_eq_false'] at haccepting
        obtain ⟨hsound, hadvances⟩ := (h.release id).admitJob (h.unused_release hid) haccepting
          (fun _ => h.occupancy_release hid) hok
        exact ⟨hsound, hadvances.started, hadvances.closed, hadvances.admitted, hadvances.completed⟩
    . cases hok
      exact ⟨h, .refl scheduler⟩
  | none =>
    dsimp only at hok
    split at hok
    . cases hok
      exact ⟨h, .refl scheduler⟩
    . next haccepting =>
      rw [Bool.not_eq_true, Bool.not_eq_false'] at haccepting
      unfold SchedulerState.allocateId at hok
      simp only [bind_eq_ok, ensure_eq_ok, pure_eq_ok] at hok
      obtain ⟨_, ⟨_, _, rfl⟩, hok⟩ := hok
      obtain ⟨hsound, hadvances⟩ := h.allocate.admitJob h.unused_allocate haccepting (by nofun) hok
      exact ⟨hsound, hadvances.started, hadvances.closed, hadvances.admitted, hadvances.completed⟩

theorem finish_step {worker : Nat} {result : BlockingResult Body}
    (hok : scheduler.step (.finish worker result) = some scheduler') :
    scheduler'.Sound ∧ Advances scheduler scheduler' := by
  unfold EncodingScheduler.step at hok
  dsimp only at hok
  split at hok
  . next id hworker =>
    obtain ⟨jobClass, state, started, hactive, hdispatched, hfinish⟩ := h.finish_eq_ok hworker result
    rw [hfinish] at hok
    cases hok
    refine ⟨h.finish hworker hactive hdispatched _, ⟨started, rfl, hdispatched.priorityFirst, ?_⟩,
      fun hclosed => hdispatched.accepting.trans hclosed, Evolves.refl keeps_refl _,
      List.prefix_refl _⟩
    -- a closed scheduler has no queue to start from
    intro hclosed
    rw [List.eq_nil_iff_forall_not_mem]
    intro job hjob
    have hwaiting := hdispatched.waiting job.jobClass
    rw [waiting_vacated, (h.closed hclosed).2] at hwaiting
    have hnil : ofClass started job.jobClass = [] := (List.append_eq_nil_iff.mp hwaiting.symm).1
    have hmem := mem_ofClass.mpr ⟨hjob, rfl⟩
    rw [hnil] at hmem
    exact absurd hmem List.not_mem_nil
  . cases hok

theorem step {event : SchedulerEvent Body} (hok : scheduler.step event = some scheduler') :
    scheduler'.Sound ∧ Advances scheduler scheduler' := by
  cases event with
  | reserveHistorical =>
    obtain ⟨⟨_, answer⟩, hreserve, rfl⟩ := Option.map_eq_some_iff.mp hok
    exact h.reserveHistorical (toOption_eq_some.mp hreserve)
  | releaseReservation id =>
    cases hok
    exact ⟨h.release id, .of_same rfl (fun hclosed => hclosed) (Evolves.refl keeps_refl _)
      (List.prefix_refl _)⟩
  | submit jobClass reservation =>
    obtain ⟨⟨_, answer⟩, hsubmit, rfl⟩ := Option.map_eq_some_iff.mp hok
    exact h.submit (toOption_eq_some.mp hsubmit)
  | cancelWait index => exact h.abandon hok
  | dropWait index => exact h.abandon hok
  | timeoutWait index => exact h.timeoutWait hok
  | receive index => exact h.receive hok
  | finish worker result => exact h.finish_step hok
  | beginShutdown =>
    cases hok
    refine ⟨h.beginShutdown, ?_⟩
    unfold EncodingScheduler.beginShutdown
    dsimp only
    split
    . exact .refl scheduler
    . exact .of_same rfl (fun _ => rfl) (Evolves.refl keeps_refl _) (List.prefix_refl _)
  | complete index =>
    unfold EncodingScheduler.step at hok
    dsimp only at hok
    split at hok
    . next id result hentry =>
      cases hok
      refine ⟨h.complete hentry, ?_⟩
      unfold EncodingScheduler.complete
      split
      . exact .of_same rfl (fun hclosed => hclosed) (Evolves.refl keeps_refl _) (List.prefix_refl _)
      . exact .of_same rfl (fun hclosed => hclosed) (Evolves.refl keeps_refl _)
          (List.prefix_append _ _)
    . cases hok

theorem run {events : List (SchedulerEvent Body)}
    (hrun : Data.run EncodingScheduler.step scheduler events = some scheduler') :
    scheduler'.Sound :=
  Data.run.invariant (fun _ _ _ hsound hstep => (hsound.step hstep).1) h hrun

end Sound

theorem Sound.finished (h : scheduler.Sound) (hworkers : scheduler.workers = [])
    (hcompleting : scheduler.completing = []) :
    ∀ job ∈ scheduler.jobs, job.id ∈ scheduler.completed.map Prod.fst := by
  have hkeys := h.workers
  rw [hworkers, List.nil_perm] at hkeys
  have htotal := h.balanced.total
  rw [← Std.ExtTreeMap.length_keys, hkeys, List.length_nil] at htotal
  have hempty : ∀ (id : Nat) (jobClass : JobClass), scheduler.state.active[id]? ≠ some jobClass := by
    intro id jobClass hactive
    have hmem : id ∈ scheduler.state.active.keys := by
      rw [Std.ExtTreeMap.mem_keys, Std.ExtTreeMap.mem_iff_isSome_getElem?, hactive]
      rfl
    rw [hkeys] at hmem
    exact absurd hmem List.not_mem_nil
  have hhistorical : scheduler.state.activeHistorical = 0 := by
    rw [h.balanced.historical, ← Nat.le_zero, ← Nat.not_lt, Map.count_pos_iff]
    rintro ⟨id, jobClass, hactive, _⟩
    exact hempty id jobClass hactive
  intro job hjob
  obtain hwaits | hruns | hcompleting' | hcompleted := h.covered job hjob
  . -- a free scheduler has no waiting job
    have hopen : scheduler.state.accepting = true := by
      rw [← Bool.not_eq_false]
      intro hclosed
      rw [(h.closed hclosed).2] at hwaits
      exact absurd hwaits List.not_mem_nil
    have hfull := h.conserving hopen job.jobClass (List.ne_nil_of_mem hwaits)
    rw [← Bool.not_eq_true, SchedulerState.canStart_iff, htotal, hhistorical] at hfull
    exact absurd ⟨by decide, Or.inr (by decide)⟩ hfull
  . exact absurd hruns (hempty job.id job.jobClass)
  . rw [hcompleting] at hcompleting'
    exact absurd hcompleting' List.not_mem_nil
  . exact hcompleted

end EncodingScheduler

end Kgi
