import GraphInspector.ApiCore.Lemmas.SchedulerState
import GraphInspector.Data.Sequence
import GraphInspector.Data.Run

/-!
The jobs of the encoding scheduler over all interleavings of its events.
-/

namespace Kgi

open Data

namespace EncodingScheduler

variable {Body : Type} {scheduler scheduler' : EncodingScheduler Body} {job : QueuedJob}
  {jobClass : JobClass}

def jobs (scheduler : EncodingScheduler Body) : List QueuedJob :=
  scheduler.admitted.map AdmittedJob.job

def ofClass (jobs : List QueuedJob) (jobClass : JobClass) : List QueuedJob :=
  jobs.filter fun job => job.jobClass = jobClass

def Settled (scheduler : EncodingScheduler Body) (id : Nat) : Prop :=
  id ∈ scheduler.completing.map Prod.fst ∨ id ∈ scheduler.completed.map Prod.fst

structure Sound (scheduler : EncodingScheduler Body) : Prop where
  balanced : scheduler.state.Balanced
  occupancy : scheduler.state.queueOccupancy ≤ maxQueuedGraphEncodingJobs
  conserving : scheduler.state.accepting = true → scheduler.state.Conserving
  closed : scheduler.state.accepting = false →
    (∀ id, id ∉ scheduler.state.reservations) ∧ ∀ jobClass, scheduler.state.waiting jobClass = []
  distinct : (scheduler.jobs.map QueuedJob.id).Nodup
  allocated : ∀ job ∈ scheduler.jobs, job.id ≤ scheduler.state.nextId
  reserved : ∀ id ∈ scheduler.state.reservations,
    id ≤ scheduler.state.nextId ∧ id ∉ scheduler.jobs.map QueuedJob.id
  ordered : ∀ jobClass, (ofClass scheduler.spawned jobClass ++ scheduler.state.waiting jobClass).Sublist
    (ofClass scheduler.jobs jobClass)
  running : ∀ (id : Nat) (jobClass : JobClass), scheduler.state.active[id]? = some jobClass →
    ⟨id, jobClass⟩ ∈ scheduler.spawned
  workers : scheduler.workers.Perm scheduler.state.active.keys
  covered : ∀ job ∈ scheduler.jobs, job ∈ scheduler.state.waiting job.jobClass ∨
    scheduler.state.active[job.id]? = some job.jobClass ∨ scheduler.Settled job.id
  unsettled : ∀ jobClass, ∀ job ∈ scheduler.state.waiting jobClass, ¬scheduler.Settled job.id
  settled : ∀ id, scheduler.Settled id → id ∈ scheduler.jobs.map QueuedJob.id
  once : (scheduler.completed.map Prod.fst).Nodup
  returned : ∀ admitted ∈ scheduler.admitted, admitted.wait.isWaiting = false →
    scheduler.Settled admitted.job.id

theorem mem_ofClass {jobs : List QueuedJob} :
    job ∈ ofClass jobs jobClass ↔ job ∈ jobs ∧ job.jobClass = jobClass := by
  unfold ofClass
  rw [List.mem_filter, decide_eq_true_eq]

theorem ofClass_append (jobs jobs' : List QueuedJob) (jobClass : JobClass) :
    ofClass (jobs ++ jobs') jobClass = ofClass jobs jobClass ++ ofClass jobs' jobClass :=
  List.filter_append ..

namespace Sound

variable {id : Nat}

theorem new : (EncodingScheduler.new : EncodingScheduler Body).Sound where
  balanced := by
    refine ⟨rfl, ?_, Nat.zero_le _, Nat.zero_le _, ?_⟩
    . change 0 = Map.count (∅ : Map Nat JobClass) _
      symm
      rw [← Nat.le_zero, ← Nat.not_lt, Map.count_pos_iff]
      rintro ⟨id, jobClass, hget, _⟩
      rw [Std.ExtTreeMap.getElem?_empty] at hget
      cases hget
    . intro jobClass job hjob
      cases jobClass with
      | priority => exact absurd hjob List.not_mem_nil
      | historical => exact absurd hjob List.not_mem_nil
  occupancy := Nat.zero_le _
  conserving := by
    intro _ jobClass hwaiting
    cases jobClass with
    | priority => exact absurd rfl hwaiting
    | historical => exact absurd rfl hwaiting
  closed := nofun
  distinct := List.nodup_nil
  allocated := fun job hjob => absurd hjob List.not_mem_nil
  reserved := fun id hid => absurd hid (KeySet.not_mem_empty id)
  ordered := by
    intro jobClass
    cases jobClass with
    | priority => exact List.Sublist.refl _
    | historical => exact List.Sublist.refl _
  running := by
    intro id jobClass hget
    change (∅ : Map Nat JobClass)[id]? = some jobClass at hget
    rw [Std.ExtTreeMap.getElem?_empty] at hget
    cases hget
  workers := List.Perm.refl _
  covered := fun job hjob => absurd hjob List.not_mem_nil
  unsettled := by
    intro jobClass job hjob
    cases jobClass with
    | priority => exact absurd hjob List.not_mem_nil
    | historical => exact absurd hjob List.not_mem_nil
  settled := by
    rintro id (hid | hid)
    . exact absurd hid List.not_mem_nil
    . exact absurd hid List.not_mem_nil
  once := List.nodup_nil
  returned := fun admitted hadmitted => absurd hadmitted List.not_mem_nil

section Settle

variable {job' : QueuedJob} (h : scheduler.Sound)
include h

theorem mem_jobs_of_waiting (hjob : job ∈ scheduler.state.waiting jobClass) :
    job ∈ scheduler.jobs :=
  (mem_ofClass.mp ((h.ordered jobClass).subset (List.mem_append_right _ hjob))).1

theorem mem_jobs_of_spawned (hjob : job ∈ scheduler.spawned) : job ∈ scheduler.jobs :=
  (mem_ofClass.mp ((h.ordered job.jobClass).subset
    (List.mem_append_left _ (mem_ofClass.mpr ⟨hjob, rfl⟩)))).1

theorem eq_of_id (hjob : job ∈ scheduler.jobs) (hjob' : job' ∈ scheduler.jobs)
    (hid : job.id = job'.id) : job = job' :=
  List.inj_on_of_nodup_map h.distinct hjob hjob' hid

theorem nodup_class (jobClass : JobClass) :
    ((ofClass scheduler.spawned jobClass ++ scheduler.state.waiting jobClass).map
      QueuedJob.id).Nodup :=
  h.distinct.sublist (((h.ordered jobClass).trans List.filter_sublist).map QueuedJob.id)

theorem not_spawned_of_waiting (hjob : job ∈ scheduler.state.waiting jobClass)
    (hjob' : job' ∈ scheduler.spawned) : job'.id ≠ job.id := by
  intro hid
  have heq := h.eq_of_id (h.mem_jobs_of_spawned hjob') (h.mem_jobs_of_waiting hjob) hid
  subst heq
  have hclass := h.balanced.classes jobClass job' hjob
  have hdistinct := h.nodup_class jobClass
  rw [List.map_append, List.nodup_append] at hdistinct
  exact hdistinct.2.2 job'.id (List.mem_map_of_mem (mem_ofClass.mpr ⟨hjob', hclass⟩)) job'.id
    (List.mem_map_of_mem hjob) rfl

theorem fresh : scheduler.state.Fresh where
  inactive := by
    intro jobClass job hjob
    rw [← Option.not_isSome_iff_eq_none, Option.isSome_iff_exists]
    rintro ⟨activeClass, hactive⟩
    exact h.not_spawned_of_waiting hjob (h.running job.id activeClass hactive) rfl
  distinct := by
    rw [List.map_append, List.nodup_append]
    have hpriority := h.nodup_class .priority
    have hhistorical := h.nodup_class .historical
    rw [List.map_append, List.nodup_append] at hpriority hhistorical
    refine ⟨hpriority.2.1, hhistorical.2.1, ?_⟩
    intro id hid id' hid' heq
    obtain ⟨job, hjob, rfl⟩ := List.mem_map.mp hid
    obtain ⟨job', hjob', rfl⟩ := List.mem_map.mp hid'
    -- one job would have to be of both classes
    have hsame := h.eq_of_id (h.mem_jobs_of_waiting (show job ∈ scheduler.state.waiting .priority from hjob))
      (h.mem_jobs_of_waiting (show job' ∈ scheduler.state.waiting .historical from hjob')) heq
    have hclass := h.balanced.classes .priority job hjob
    have hclass' := h.balanced.classes .historical job' hjob'
    rw [← hsame, hclass] at hclass'
    cases hclass'

theorem setCompletions {completing completed : List (Nat × Except EncodingSchedulerError Body)}
    (hmono : ∀ id, scheduler.Settled id →
      id ∈ completing.map Prod.fst ∨ id ∈ completed.map Prod.fst)
    (hback : ∀ id, id ∈ completing.map Prod.fst ∨ id ∈ completed.map Prod.fst →
      scheduler.Settled id ∨ id ∈ scheduler.jobs.map QueuedJob.id ∧
        ∀ jobClass, ∀ job ∈ scheduler.state.waiting jobClass, job.id ≠ id)
    (honce : (completed.map Prod.fst).Nodup) :
    { scheduler with completing := completing, completed := completed }.Sound where
  balanced := h.balanced
  occupancy := h.occupancy
  conserving := h.conserving
  closed := h.closed
  distinct := h.distinct
  allocated := h.allocated
  reserved := h.reserved
  ordered := h.ordered
  running := h.running
  workers := h.workers
  covered := fun job hjob => (h.covered job hjob).imp_right fun hrest =>
    hrest.imp_right (hmono job.id)
  unsettled := by
    intro jobClass job hjob hsettled
    obtain hsettled | ⟨_, hnot⟩ := hback job.id hsettled
    . exact h.unsettled jobClass job hjob hsettled
    . exact hnot jobClass job hjob rfl
  settled := by
    intro id hsettled
    obtain hsettled | ⟨hadmitted, _⟩ := hback id hsettled
    . exact h.settled id hsettled
    . exact hadmitted
  once := honce
  returned := fun admitted hadmitted hwait => hmono _ (h.returned admitted hadmitted hwait)

theorem settle {entries : List (Nat × Except EncodingSchedulerError Body)}
    (hentries : ∀ entry ∈ entries, entry.1 ∈ scheduler.jobs.map QueuedJob.id ∧
      ∀ jobClass, ∀ job ∈ scheduler.state.waiting jobClass, job.id ≠ entry.1) :
    { scheduler with completing := scheduler.completing ++ entries }.Sound := by
  refine h.setCompletions ?_ ?_ h.once
  . intro id hsettled
    rw [List.map_append, List.mem_append]
    exact hsettled.imp_left Or.inl
  . intro id hsettled
    rw [List.map_append, List.mem_append, or_assoc] at hsettled
    obtain hold | hnew | hold := hsettled
    . exact Or.inl (Or.inl hold)
    . obtain ⟨entry, hentry, rfl⟩ := List.mem_map.mp hnew
      exact Or.inr (hentries entry hentry)
    . exact Or.inl (Or.inr hold)

theorem complete {index id : Nat} {result : Except EncodingSchedulerError Body}
    (hentry : scheduler.completing[index]? = some (id, result)) :
    ({ scheduler with completing := scheduler.completing.eraseIdx index }.complete id result).Sound := by
  have hkept : ∀ id', id' ∈ scheduler.completing.map Prod.fst →
      id' = id ∨ id' ∈ (scheduler.completing.eraseIdx index).map Prod.fst := by
    intro id' hid'
    obtain ⟨entry, hmem, rfl⟩ := List.mem_map.mp hid'
    have hmem := ((List.getElem_cons_eraseIdx_perm
      (List.getElem?_eq_some_iff.mp hentry).1).mem_iff).mpr hmem
    obtain rfl | hmem := List.mem_cons.mp hmem
    . rw [(List.getElem?_eq_some_iff.mp hentry).2]
      exact Or.inl rfl
    . exact Or.inr (List.mem_map_of_mem hmem)
  have hlost : ∀ id', id' ∈ (scheduler.completing.eraseIdx index).map Prod.fst →
      id' ∈ scheduler.completing.map Prod.fst := by
    intro id' hid'
    exact ((List.eraseIdx_sublist _ _).map Prod.fst).subset hid'
  have hmem : id ∈ scheduler.completing.map Prod.fst :=
    List.mem_map_of_mem (List.mem_of_getElem? hentry)
  unfold EncodingScheduler.complete
  split
  . next hsent =>
    refine h.setCompletions ?_ ?_ h.once
    . rintro id' (hid' | hid')
      . obtain rfl | hid' := hkept id' hid'
        . exact Or.inr hsent
        . exact Or.inl hid'
      . exact Or.inr hid'
    . rintro id' (hid' | hid')
      . exact Or.inl (Or.inl (hlost id' hid'))
      . exact Or.inl (Or.inr hid')
  . next hunsent =>
    refine h.setCompletions ?_ ?_ ?_
    . rintro id' (hid' | hid')
      . obtain rfl | hid' := hkept id' hid'
        . refine Or.inr ?_
          rw [List.map_append, List.mem_append]
          exact Or.inr (List.mem_singleton.mpr rfl)
        . exact Or.inl hid'
      . refine Or.inr ?_
        rw [List.map_append, List.mem_append]
        exact Or.inl hid'
    . rintro id' (hid' | hid')
      . exact Or.inl (Or.inl (hlost id' hid'))
      . rw [List.map_append, List.mem_append] at hid'
        obtain hid' | hid' := hid'
        . exact Or.inl (Or.inr hid')
        . rw [List.mem_singleton.mp hid']
          exact Or.inl (Or.inl hmem)
    . rw [List.map_append, List.nodup_append]
      refine ⟨h.once, List.nodup_singleton _, ?_⟩
      intro id' hid' id'' hid'' heq
      rw [heq, List.mem_singleton.mp hid''] at hid'
      exact hunsent hid'

end Settle

variable {index : Nat} {admitted : AdmittedJob Body} {state : SchedulerState}

theorem jobs_setWait (hget : scheduler.admitted[index]? = some admitted) (wait : JobWait Body) :
    (scheduler.setWait index admitted.job wait).jobs = scheduler.jobs := by
  unfold jobs EncodingScheduler.setWait
  rw [List.map_set]
  apply List.ext_getElem?
  intro i
  by_cases hi : index = i
  . subst hi
    rw [List.getElem?_set_self (by rw [List.length_map]; exact (List.getElem?_eq_some_iff.mp hget).1),
      List.getElem?_map, hget]
    rfl
  . rw [List.getElem?_set_ne hi]

section Release

variable (h : scheduler.Sound)
include h

theorem setWait (hget : scheduler.admitted[index]? = some admitted) {wait : JobWait Body}
    (hwait : wait.isWaiting = false → scheduler.Settled admitted.job.id) :
    (scheduler.setWait index admitted.job wait).Sound := by
  have hjobs := jobs_setWait hget wait
  constructor
  case balanced => exact h.balanced
  case occupancy => exact h.occupancy
  case conserving => exact h.conserving
  case closed => exact h.closed
  case distinct => exact hjobs ▸ h.distinct
  case allocated => exact hjobs ▸ h.allocated
  case reserved => exact hjobs ▸ h.reserved
  case ordered => exact hjobs ▸ h.ordered
  case running => exact h.running
  case workers => exact h.workers
  case covered => exact hjobs ▸ h.covered
  case unsettled => exact h.unsettled
  case settled => exact hjobs ▸ h.settled
  case once => exact h.once
  case returned =>
    intro admitted' hadmitted' hreturned
    obtain hmem | rfl := List.mem_or_eq_of_mem_set hadmitted'
    . exact h.returned admitted' hmem hreturned
    . exact hwait hreturned

theorem withdraw (hremoves : scheduler.state.Removes job state)
    (result : Except EncodingSchedulerError Body) :
    { scheduler with
      state := state
      completing := scheduler.completing ++ [(job.id, result)] }.Sound := by
  have hadmitted := h.mem_jobs_of_waiting hremoves.member
  have hsettled : ∀ id, (id ∈ (scheduler.completing ++ [(job.id, result)]).map Prod.fst ∨
      id ∈ scheduler.completed.map Prod.fst) ↔ scheduler.Settled id ∨ id = job.id := by
    intro id
    rw [List.map_append, List.mem_append, List.map_singleton, List.mem_singleton, or_right_comm]
    rfl
  constructor
  case balanced => exact hremoves.balanced h.balanced
  case occupancy => exact Nat.le_trans hremoves.occupancy_le h.occupancy
  case conserving =>
    intro haccepting
    exact hremoves.conserving (h.conserving (hremoves.accepting ▸ haccepting))
  case closed =>
    intro haccepting
    obtain ⟨hreservations, hwaiting⟩ := h.closed (hremoves.accepting ▸ haccepting)
    refine ⟨hremoves.reservations ▸ hreservations, ?_⟩
    intro jobClass
    have hsublist := hremoves.sublist jobClass
    rw [hwaiting, List.sublist_nil] at hsublist
    exact hsublist
  case distinct => exact h.distinct
  case allocated => exact hremoves.nextId ▸ h.allocated
  case reserved =>
    intro id hid
    rw [hremoves.nextId]
    exact h.reserved id (hremoves.reservations ▸ hid)
  case ordered =>
    intro jobClass
    exact ((hremoves.sublist jobClass).append_left _).trans (h.ordered jobClass)
  case running =>
    intro id jobClass hactive
    exact h.running id jobClass (hremoves.active ▸ hactive)
  case workers => exact hremoves.active ▸ h.workers
  case covered =>
    intro job' hjob'
    obtain hwaiting | hactive | hold := h.covered job' hjob'
    . by_cases hid : job'.id = job.id
      . exact Or.inr (Or.inr ((hsettled _).mpr (Or.inr hid)))
      . exact Or.inl (hremoves.kept _ job' hwaiting hid)
    . exact Or.inr (Or.inl (hremoves.active ▸ hactive))
    . exact Or.inr (Or.inr ((hsettled _).mpr (Or.inl hold)))
  case unsettled =>
    intro jobClass job' hjob' hnow
    obtain hold | hid := (hsettled _).mp hnow
    . exact h.unsettled jobClass job' ((hremoves.sublist jobClass).subset hjob') hold
    . exact hremoves.gone jobClass job' hjob' hid
  case settled =>
    intro id hnow
    obtain hold | rfl := (hsettled _).mp hnow
    . exact h.settled id hold
    . exact List.mem_map_of_mem hadmitted
  case once => exact h.once
  case returned =>
    intro admitted hadmitted hwait
    exact (hsettled _).mpr (Or.inl (h.returned admitted hadmitted hwait))

theorem cancel (hadmitted : id ∈ scheduler.jobs.map QueuedJob.id) (reason : EncodingSchedulerError) :
    (scheduler.cancel id reason).Sound ∧ (scheduler.cancel id reason).Settled id := by
  unfold EncodingScheduler.cancel
  split
  . next state hremoved =>
    obtain ⟨job, rfl, hremoves⟩ :=
      SchedulerState.removeQueued_eq_some hremoved h.balanced h.fresh
    refine ⟨h.withdraw hremoves _, Or.inl ?_⟩
    rw [List.map_append, List.mem_append]
    exact Or.inr (List.mem_singleton.mpr rfl)
  . next hqueued =>
    have hnot := SchedulerState.removeQueued_eq_none hqueued
    split
    . refine ⟨h.settle ?_, Or.inl ?_⟩
      . intro entry hentry
        rw [List.mem_singleton.mp hentry]
        exact ⟨hadmitted, hnot⟩
      . rw [List.map_append, List.mem_append]
        exact Or.inr (List.mem_singleton.mpr rfl)
    . next hinactive =>
      -- a job that neither waits nor runs has been settled
      refine ⟨h, ?_⟩
      obtain ⟨job, hjob, rfl⟩ := List.mem_map.mp hadmitted
      obtain hwaiting | hactive | hsettled := h.covered job hjob
      . exact absurd rfl (hnot _ job hwaiting)
      . rw [hinactive] at hactive
        cases hactive
      . exact hsettled

theorem release (id : Nat) : (scheduler.releaseReservation id).Sound where
  balanced := ⟨h.balanced.total, h.balanced.historical, h.balanced.total_le,
    h.balanced.historical_le, h.balanced.classes⟩
  occupancy := by
    refine Nat.le_trans ?_ h.occupancy
    exact Nat.add_le_add_right (Nat.add_le_add_right Std.ExtTreeSet.size_erase_le _) _
  conserving := h.conserving
  closed := by
    intro haccepting
    obtain ⟨hreservations, hwaiting⟩ := h.closed haccepting
    refine ⟨?_, hwaiting⟩
    intro id' hid'
    exact hreservations id' ((KeySet.mem_erase _ _ _).mp hid').2
  distinct := h.distinct
  allocated := h.allocated
  reserved := fun id' hid' => h.reserved id' ((KeySet.mem_erase _ _ _).mp hid').2
  ordered := h.ordered
  running := h.running
  workers := h.workers
  covered := h.covered
  unsettled := h.unsettled
  settled := h.settled
  once := h.once
  returned := h.returned

theorem allocate :
    { scheduler with state := { scheduler.state with nextId := scheduler.state.nextId + 1 } }.Sound where
  balanced := ⟨h.balanced.total, h.balanced.historical, h.balanced.total_le,
    h.balanced.historical_le, h.balanced.classes⟩
  occupancy := h.occupancy
  conserving := h.conserving
  closed := h.closed
  distinct := h.distinct
  allocated := fun job hjob => Nat.le_succ_of_le (h.allocated job hjob)
  reserved := fun id hid => ⟨Nat.le_succ_of_le (h.reserved id hid).1, (h.reserved id hid).2⟩
  ordered := h.ordered
  running := h.running
  workers := h.workers
  covered := h.covered
  unsettled := h.unsettled
  settled := h.settled
  once := h.once
  returned := h.returned

end Release

structure Unused (scheduler : EncodingScheduler Body) (id : Nat) : Prop where
  allocated : id ≤ scheduler.state.nextId
  unreserved : id ∉ scheduler.state.reservations
  unadmitted : id ∉ scheduler.jobs.map QueuedJob.id

theorem reserve (h : scheduler.Sound) (hunused : Unused scheduler id)
    (haccepting : scheduler.state.accepting = true)
    (hroom : scheduler.state.queueOccupancy < maxQueuedGraphEncodingJobs) :
    { scheduler with state := { scheduler.state with
      reservations := scheduler.state.reservations.insert id } }.Sound where
  balanced := ⟨h.balanced.total, h.balanced.historical, h.balanced.total_le,
    h.balanced.historical_le, h.balanced.classes⟩
  occupancy := by
    have := Std.ExtTreeSet.size_insert_le (t := scheduler.state.reservations) (k := id)
    change (scheduler.state.reservations.insert id).size + scheduler.state.priorityQueue.length
      + scheduler.state.historicalQueue.length ≤ _
    unfold SchedulerState.queueOccupancy at hroom
    omega
  conserving := h.conserving
  closed := by
    intro hclosed
    rw [haccepting] at hclosed
    cases hclosed
  distinct := h.distinct
  allocated := h.allocated
  reserved := by
    intro id' hid'
    obtain rfl | hid' := (KeySet.mem_insert _ _ _).mp hid'
    . exact ⟨hunused.allocated, hunused.unadmitted⟩
    . exact h.reserved id' hid'
  ordered := h.ordered
  running := h.running
  workers := h.workers
  covered := h.covered
  unsettled := h.unsettled
  settled := h.settled
  once := h.once
  returned := h.returned

theorem unused_allocate (h : scheduler.Sound) :
    Unused { scheduler with state := { scheduler.state with nextId := scheduler.state.nextId + 1 } }
      (scheduler.state.nextId + 1) where
  allocated := Nat.le_refl _
  unreserved := by
    intro hreserved
    have := (h.reserved _ hreserved).1
    omega
  unadmitted := by
    intro hadmitted
    obtain ⟨job, hjob, hid⟩ := List.mem_map.mp hadmitted
    have := h.allocated job hjob
    omega

theorem unused_release (h : scheduler.Sound) (hid : id ∈ scheduler.state.reservations) :
    Unused (scheduler.releaseReservation id) id where
  allocated := (h.reserved id hid).1
  unreserved := fun hreserved => ((KeySet.mem_erase _ _ _).mp hreserved).1 rfl
  unadmitted := (h.reserved id hid).2

def startedWith (scheduler : EncodingScheduler Body) (job : QueuedJob) : EncodingScheduler Body :=
  { { scheduler with state := scheduler.state.activated job }.spawn [job] with
    admitted := scheduler.admitted ++ [⟨job, .untimed⟩] }

def queuedWith (scheduler : EncodingScheduler Body) (job : QueuedJob) : EncodingScheduler Body :=
  { scheduler with
    state := scheduler.state.queue job
    admitted := scheduler.admitted ++ [⟨job, .timed⟩] }

theorem jobs_append (admitted : List (AdmittedJob Body)) (job : QueuedJob) (wait : JobWait Body) :
    (admitted ++ [(⟨job, wait⟩ : AdmittedJob Body)]).map AdmittedJob.job
      = admitted.map AdmittedJob.job ++ [job] :=
  List.map_append

theorem waiting_activated (state : SchedulerState) (job : QueuedJob) (jobClass : JobClass) :
    (state.activated job).waiting jobClass = state.waiting jobClass := by
  cases jobClass with
  | priority => rfl
  | historical => rfl

theorem canStart_of_activated (h : (state.activated job).canStart jobClass = true) :
    state.canStart jobClass = true := by
  rw [SchedulerState.canStart_iff] at h ⊢
  obtain ⟨htotal, hclass⟩ := h
  change state.activeTotal + 1 < _ at htotal
  refine ⟨by omega, hclass.imp_right ?_⟩
  intro hhistorical
  change (if job.jobClass = .historical then state.activeHistorical + 1 else
    state.activeHistorical) < _ at hhistorical
  split at hhistorical
  . omega
  . exact hhistorical

section Start

variable (h : scheduler.Sound)
include h

theorem waiting_eq_nil (haccepting : scheduler.state.accepting = true)
    (hcan : scheduler.state.canStart jobClass = true) : scheduler.state.waiting jobClass = [] := by
  by_contra hwaiting
  have hfull := h.conserving haccepting jobClass hwaiting
  rw [hcan] at hfull
  cases hfull

theorem not_active (hid : id ∉ scheduler.jobs.map QueuedJob.id) :
    scheduler.state.active[id]? = none := by
  rw [← Option.not_isSome_iff_eq_none, Option.isSome_iff_exists]
  rintro ⟨jobClass, hactive⟩
  exact hid (List.mem_map_of_mem (f := QueuedJob.id)
    (h.mem_jobs_of_spawned (h.running id jobClass hactive)))

theorem distinct_append (hid : job.id ∉ scheduler.jobs.map QueuedJob.id) :
    ((scheduler.jobs ++ [job]).map QueuedJob.id).Nodup := by
  rw [List.map_append, List.nodup_append]
  refine ⟨h.distinct, List.nodup_singleton _, ?_⟩
  intro id hmem id' hid' heq
  rw [heq, List.mem_singleton.mp hid'] at hmem
  exact hid hmem

theorem allocated_append (hunused : Unused scheduler job.id) :
    ∀ job' ∈ scheduler.jobs ++ [job], job'.id ≤ scheduler.state.nextId := by
  intro job' hjob'
  obtain hjob' | hjob' := List.mem_append.mp hjob'
  . exact h.allocated job' hjob'
  . rw [List.mem_singleton.mp hjob']
    exact hunused.allocated

theorem reserved_append (hunused : Unused scheduler job.id) :
    ∀ id ∈ scheduler.state.reservations, id ≤ scheduler.state.nextId ∧
      id ∉ (scheduler.jobs ++ [job]).map QueuedJob.id := by
  intro id hid
  refine ⟨(h.reserved id hid).1, ?_⟩
  rw [List.map_append, List.mem_append, List.map_singleton, List.mem_singleton, not_or]
  refine ⟨(h.reserved id hid).2, ?_⟩
  rintro rfl
  exact hunused.unreserved hid

theorem settled_append (job : QueuedJob) (id : Nat) (hsettled : scheduler.Settled id) :
    id ∈ (scheduler.jobs ++ [job]).map QueuedJob.id := by
  rw [List.map_append, List.mem_append]
  exact Or.inl (h.settled id hsettled)

theorem returned_append (job : QueuedJob) {wait : JobWait Body} (hwait : wait.isWaiting = true) :
    ∀ admitted ∈ scheduler.admitted ++ [⟨job, wait⟩], admitted.wait.isWaiting = false →
      scheduler.Settled admitted.job.id := by
  intro admitted hadmitted hreturned
  obtain hadmitted | hadmitted := List.mem_append.mp hadmitted
  . exact h.returned admitted hadmitted hreturned
  . rw [List.mem_singleton.mp hadmitted, hwait] at hreturned
    cases hreturned

theorem startedWith_sound (hunused : Unused scheduler job.id)
    (haccepting : scheduler.state.accepting = true)
    (hcan : scheduler.state.canStart job.jobClass = true) : (startedWith scheduler job).Sound := by
  have hinactive := h.not_active hunused.unadmitted
  have hjobs : (startedWith scheduler job).jobs = scheduler.jobs ++ [job] := jobs_append _ _ _
  constructor
  case balanced => exact h.balanced.activated hinactive hcan
  case occupancy => exact h.occupancy
  case conserving =>
    intro _ jobClass hwaiting
    change (scheduler.state.activated job).waiting jobClass ≠ [] at hwaiting
    rw [waiting_activated] at hwaiting
    have hfull := h.conserving haccepting jobClass hwaiting
    rw [← Bool.not_eq_true] at hfull ⊢
    exact fun hstill => hfull (canStart_of_activated hstill)
  case closed =>
    intro hclosed
    change scheduler.state.accepting = false at hclosed
    rw [haccepting] at hclosed
    cases hclosed
  case distinct => exact hjobs ▸ h.distinct_append hunused.unadmitted
  case allocated => exact hjobs ▸ h.allocated_append hunused
  case reserved => exact hjobs ▸ h.reserved_append hunused
  case ordered =>
    rw [hjobs]
    intro jobClass
    change (ofClass (scheduler.spawned ++ [job]) jobClass
      ++ (scheduler.state.activated job).waiting jobClass).Sublist _
    rw [waiting_activated, ofClass_append, ofClass_append]
    by_cases hclass : job.jobClass = jobClass
    . subst hclass
      have hordered := h.ordered job.jobClass
      rw [h.waiting_eq_nil haccepting hcan, List.append_nil] at hordered ⊢
      exact hordered.append_right _
    . have hnone : ofClass [job] jobClass = [] := SchedulerState.filter_cons_other hclass
      rw [hnone, List.append_nil, List.append_nil]
      exact h.ordered jobClass
  case running =>
    intro id jobClass hactive
    change (scheduler.state.activated job).active[id]? = some jobClass at hactive
    rw [SchedulerState.get_activated hinactive] at hactive
    refine List.mem_append.mpr (hactive.imp (h.running id jobClass) ?_)
    rintro rfl
    exact List.mem_singleton.mpr rfl
  case workers =>
    refine List.Perm.trans ?_ (SchedulerState.keys_activated hinactive).symm
    exact (List.perm_append_singleton _ _).trans (h.workers.cons _)
  case covered =>
    rw [hjobs]
    intro job' hjob'
    change _ ∈ (scheduler.state.activated job).waiting _ ∨
      (scheduler.state.activated job).active[job'.id]? = some job'.jobClass ∨ _
    rw [waiting_activated, SchedulerState.get_activated hinactive]
    obtain hjob' | hjob' := List.mem_append.mp hjob'
    . exact (h.covered job' hjob').imp_right fun hrest => hrest.imp_left Or.inl
    . exact Or.inr (Or.inl (Or.inr (List.mem_singleton.mp hjob')))
  case unsettled =>
    intro jobClass job' hjob'
    change job' ∈ (scheduler.state.activated job).waiting jobClass at hjob'
    rw [waiting_activated] at hjob'
    exact h.unsettled jobClass job' hjob'
  case settled => exact hjobs ▸ h.settled_append job
  case once => exact h.once
  case returned => exact h.returned_append job rfl

end Start

theorem waiting_queue (state : SchedulerState) (job : QueuedJob) (jobClass : JobClass) :
    (state.queue job).waiting jobClass
      = state.waiting jobClass ++ ofClass [job] jobClass := by
  obtain ⟨id, class'⟩ := job
  cases class' with
  | priority =>
    cases jobClass with
    | priority => rfl
    | historical => exact (List.append_nil _).symm
  | historical =>
    cases jobClass with
    | priority => exact (List.append_nil _).symm
    | historical => rfl

theorem queue_frame (state : SchedulerState) (job : QueuedJob) :
    (state.queue job).accepting = state.accepting ∧ (state.queue job).nextId = state.nextId ∧
      (state.queue job).reservations = state.reservations ∧ (state.queue job).active = state.active ∧
      (state.queue job).activeTotal = state.activeTotal ∧
      (state.queue job).activeHistorical = state.activeHistorical := by
  unfold SchedulerState.queue
  split
  . exact ⟨rfl, rfl, rfl, rfl, rfl, rfl⟩
  . exact ⟨rfl, rfl, rfl, rfl, rfl, rfl⟩

theorem queueOccupancy_queue (state : SchedulerState) (job : QueuedJob) :
    (state.queue job).queueOccupancy = state.queueOccupancy + 1 := by
  unfold SchedulerState.queue SchedulerState.queueOccupancy
  split
  . dsimp only
    rw [List.length_append, List.length_singleton]
    omega
  . dsimp only
    rw [List.length_append, List.length_singleton]
    omega

theorem queuedWith_sound (h : scheduler.Sound) (hunused : Unused scheduler job.id)
    (haccepting : scheduler.state.accepting = true)
    (hroom : scheduler.state.queueOccupancy < maxQueuedGraphEncodingJobs)
    (hfull : scheduler.state.canStart job.jobClass = false) : (queuedWith scheduler job).Sound := by
  have hjobs : (queuedWith scheduler job).jobs = scheduler.jobs ++ [job] := jobs_append _ _ _
  obtain ⟨hsame, hnextId, hreservations, hactive, htotal, hhistorical⟩ :=
    queue_frame scheduler.state job
  have hwaiting := waiting_queue scheduler.state job
  constructor
  case balanced =>
    refine ⟨?_, ?_, ?_, ?_, ?_⟩
    . exact htotal.trans (hactive ▸ h.balanced.total)
    . exact hhistorical.trans (hactive ▸ h.balanced.historical)
    . exact Nat.le_trans (Nat.le_of_eq htotal) h.balanced.total_le
    . exact Nat.le_trans (Nat.le_of_eq hhistorical) h.balanced.historical_le
    . intro jobClass job' hjob'
      change job' ∈ (scheduler.state.queue job).waiting jobClass at hjob'
      rw [hwaiting, List.mem_append] at hjob'
      obtain hjob' | hjob' := hjob'
      . exact h.balanced.classes jobClass job' hjob'
      . exact (mem_ofClass.mp hjob').2
  case occupancy =>
    change (scheduler.state.queue job).queueOccupancy ≤ _
    rw [queueOccupancy_queue]
    exact hroom
  case conserving =>
    intro _ jobClass hnonempty
    change (scheduler.state.queue job).canStart jobClass = false
    change (scheduler.state.queue job).waiting jobClass ≠ [] at hnonempty
    rw [SchedulerState.canStart_congr htotal hhistorical]
    by_cases hclass : job.jobClass = jobClass
    . exact hclass ▸ hfull
    . rw [hwaiting, show ofClass [job] jobClass = [] from SchedulerState.filter_cons_other hclass,
        List.append_nil] at hnonempty
      exact h.conserving haccepting jobClass hnonempty
  case closed =>
    intro hclosed
    change (scheduler.state.queue job).accepting = false at hclosed
    rw [hsame, haccepting] at hclosed
    cases hclosed
  case distinct => exact hjobs ▸ h.distinct_append hunused.unadmitted
  case allocated =>
    change ∀ job' ∈ (queuedWith scheduler job).jobs, job'.id ≤ (scheduler.state.queue job).nextId
    rw [hjobs, hnextId]
    exact h.allocated_append hunused
  case reserved =>
    change ∀ id ∈ (scheduler.state.queue job).reservations,
      id ≤ (scheduler.state.queue job).nextId ∧ _
    rw [hjobs, hnextId, hreservations]
    exact h.reserved_append hunused
  case ordered =>
    rw [hjobs]
    intro jobClass
    change (ofClass scheduler.spawned jobClass
      ++ (scheduler.state.queue job).waiting jobClass).Sublist _
    rw [hwaiting, ofClass_append, ← List.append_assoc]
    exact (h.ordered jobClass).append_right _
  case running =>
    intro id jobClass hget
    exact h.running id jobClass (hactive ▸ hget)
  case workers => exact hactive.symm ▸ h.workers
  case covered =>
    rw [hjobs]
    intro job' hjob'
    change job' ∈ (scheduler.state.queue job).waiting _ ∨
      (scheduler.state.queue job).active[job'.id]? = some job'.jobClass ∨ _
    rw [hwaiting, hactive, List.mem_append]
    obtain hjob' | hjob' := List.mem_append.mp hjob'
    . exact (h.covered job' hjob').imp_left Or.inl
    . rw [List.mem_singleton.mp hjob']
      exact Or.inl (Or.inr (mem_ofClass.mpr ⟨List.mem_singleton.mpr rfl, rfl⟩))
  case unsettled =>
    intro jobClass job' hjob'
    change job' ∈ (scheduler.state.queue job).waiting jobClass at hjob'
    rw [hwaiting, List.mem_append] at hjob'
    obtain hjob' | hjob' := hjob'
    . exact h.unsettled jobClass job' hjob'
    . rw [List.mem_singleton.mp (mem_ofClass.mp hjob').1]
      exact fun hsettled => hunused.unadmitted (h.settled job.id hsettled)
  case settled => exact hjobs ▸ h.settled_append job
  case once => exact h.once
  case returned => exact h.returned_append job rfl

end Sound

end EncodingScheduler

end Kgi
