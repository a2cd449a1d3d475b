import GraphInspector.Processing.Lemmas.OrphanTracking

/-!
The requests between the orphan manager and its dependency resolver.
-/

namespace Kgi

open Data

variable {hash : BlockHash}

def requestStep (hash : BlockHash) (wanted : Bool) (item : ResolverWork) : Option Bool :=
  match item with
  | .resolve other => if other = hash then (if wanted then none else some true) else some wanted
  | .cancel other => if other = hash then (if wanted then some false else none) else some wanted

variable {hashes : List BlockHash} {wanted : Bool}

theorem run_requestStep_cancel (hnodup : hashes.Nodup) (hwanted : hash ∈ hashes → wanted = true) :
    run (requestStep hash) wanted (hashes.map .cancel)
      =
    some (wanted && decide (hash ∉ hashes)) := by
  induction hashes generalizing wanted with
  | nil => simp [run]
  | cons other hashes ih =>
    rw [List.nodup_cons] at hnodup
    simp only [List.map_cons, run, requestStep]
    by_cases h : other = hash
    . subst h
      rw [hwanted List.mem_cons_self]
      simp only [↓reduceIte]
      rw [ih hnodup.2 (fun hmem => absurd hmem hnodup.1)]
      simp
    . simp only [h, ↓reduceIte]
      rw [ih hnodup.2 (fun hmem => hwanted (List.mem_cons_of_mem _ hmem))]
      simp [Ne.symm h]

theorem run_requestStep_resolve (hnodup : hashes.Nodup) (hwanted : hash ∈ hashes → wanted = false) :
    run (requestStep hash) wanted (hashes.map .resolve)
      =
    some (wanted || decide (hash ∈ hashes)) := by
  induction hashes generalizing wanted with
  | nil => simp [run]
  | cons other hashes ih =>
    rw [List.nodup_cons] at hnodup
    simp only [List.map_cons, run, requestStep]
    by_cases h : other = hash
    . subst h
      rw [hwanted List.mem_cons_self]
      simp only [↓reduceIte, Bool.false_eq_true]
      rw [ih hnodup.2 (fun hmem => absurd hmem hnodup.1)]
      simp
    . simp only [h, ↓reduceIte]
      rw [ih hnodup.2 (fun hmem => hwanted (List.mem_cons_of_mem _ hmem))]
      simp [Ne.symm h]

namespace OrphanManagerWorker

open OrphanTopology

variable {topology topology' : OrphanTopology} {message : OrphanMessage}
variable {mutation : TopologyMutation}

theorem mutate_cancel (h : mutate topology message = (topology', .ok mutation)) :
    (∀ hash, hash ∈ mutation.cancel ↔
      hash ∈ topology.resolutionPending ∧ hash ∉ topology'.resolutionPending) ∧
    (∀ hash, hash ∈ topology'.resolutionPending → hash ∈ topology.resolutionPending) ∧
    mutation.cancel.Nodup := by
  cases message with
  | addOrphan block missing => exact addOrphan_cancel h
  | blockPersisted hash =>
    obtain ⟨rfl, rfl⟩ := mutate_blockPersisted h
    exact blockPersisted_cancel hash

theorem run_requestStep_mutate (h : mutate topology message = (topology', .ok mutation))
    (hash : BlockHash) :
    run (requestStep hash) (decide (hash ∈ topology.resolutionPending))
      (mutation.cancel.map .cancel ++ topology'.takeResolutionCandidates.2.map .resolve)
      =
    some (decide (hash ∈ topology'.takeResolutionCandidates.1.resolutionPending)) := by
  obtain ⟨hcancel, hsub, hnodup⟩ := mutate_cancel h
  obtain ⟨hpending, hfresh, hnodup'⟩ := takeResolutionCandidates_spec topology'
  rw [run.append_eq_some]
  have hafter : (decide (hash ∈ topology.resolutionPending) && decide (hash ∉ mutation.cancel))
      = decide (hash ∈ topology'.resolutionPending) := by
    rw [← Bool.decide_and, decide_eq_decide, hcancel]
    constructor
    . rintro ⟨h1, h2⟩
      by_contra hnot
      exact h2 ⟨h1, hnot⟩
    . intro h1
      exact ⟨hsub hash h1, fun h2 => h2.2 h1⟩
  refine ⟨decide (hash ∈ topology'.resolutionPending), ?_, ?_⟩
  . rw [run_requestStep_cancel hnodup, hafter]
    intro hmem
    exact decide_eq_true ((hcancel hash).mp hmem).1
  . rw [run_requestStep_resolve hnodup', ← Bool.decide_or]
    . rw [Option.some.injEq, decide_eq_decide, hpending, or_comm]
    . intro hmem
      exact decide_eq_false (hfresh hash hmem)

end OrphanManagerWorker

namespace DependencyResolverWorker

structure Inv (worker : DependencyResolverWorker) : Prop where
  hash : ∀ (hash : BlockHash) (task : TaskId),
    worker.tasksByHash[hash]? = some task → worker.hashesByTask[task]? = some hash
  fresh : ∀ (hash : BlockHash) (task : TaskId),
    worker.tasksByHash[hash]? = some task → task < worker.nextTaskId

def Idle (worker : DependencyResolverWorker) (hash : BlockHash) : Prop :=
  ∀ task : TaskId, worker.tasksByHash[hash]? = some task → task ∈ worker.cancelledTasks

variable {worker : DependencyResolverWorker}

theorem Inv.new : Inv new where
  hash := by simp [DependencyResolverWorker.new]
  fresh := by simp [DependencyResolverWorker.new]

theorem startResolution_tracked {task : TaskId} (h : worker.tasksByHash[hash]? = some task) :
    worker.startResolution hash = worker.fault duplicateRequest := by
  unfold startResolution
  rw [if_pos ((Map.contains_iff _ _).mpr ⟨task, h⟩)]

theorem startResolution_untracked (h : worker.tasksByHash[hash]? = none) :
    worker.startResolution hash =
      { worker with
        tasks := worker.tasks.insert worker.nextTaskId
        tasksByHash := worker.tasksByHash.insert hash worker.nextTaskId
        hashesByTask := worker.hashesByTask.insert worker.nextTaskId hash
        nextTaskId := worker.nextTaskId + 1 } := by
  unfold startResolution
  rw [if_neg]
  rw [Map.contains_iff, h]
  simp

theorem Inv.startResolution (hinv : worker.Inv) (h : worker.tasksByHash[hash]? = none) :
    (worker.startResolution hash).Inv := by
  rw [startResolution_untracked h]
  constructor
  . intro other task ht
    rw [Map.get_insert] at ht ⊢
    split at ht
    . next heq =>
      cases ht
      rw [if_pos rfl, heq]
    . next hne =>
      have hlt := hinv.fresh other task ht
      rw [if_neg (Nat.ne_of_gt hlt)]
      exact hinv.hash other task ht
  . intro other task ht
    rw [Map.get_insert] at ht
    split at ht
    . cases ht
      exact Nat.lt_succ_self _
    . exact Nat.lt_succ_of_lt (hinv.fresh other task ht)

theorem Idle.startResolution {hash other : BlockHash} (hidle : worker.Idle other)
    (hne : hash ≠ other) (h : worker.tasksByHash[hash]? = none) :
    (worker.startResolution hash).Idle other := by
  rw [startResolution_untracked h]
  intro task ht
  rw [Map.get_insert, if_neg hne] at ht
  exact hidle task ht

theorem Inv.cancel (hinv : worker.Inv) (hash : BlockHash) :
    (worker.handleWork (.cancel hash)).Inv := by
  simp only [handleWork]
  split
  . exact hinv
  . exact ⟨hinv.hash, hinv.fresh⟩

theorem Idle.cancel {other : BlockHash} (hash : BlockHash) (hidle : worker.Idle other) :
    (worker.handleWork (.cancel hash)).Idle other := by
  simp only [handleWork]
  split
  . exact hidle
  . intro task ht
    rw [KeySet.mem_insert]
    exact Or.inr (hidle task ht)

theorem idle_cancel (hash : BlockHash) : (worker.handleWork (.cancel hash)).Idle hash := by
  simp only [handleWork]
  split
  . next hnone =>
    intro task ht
    rw [hnone] at ht
    cases ht
  . next task hsome =>
    intro task' ht
    rw [hsome] at ht
    cases ht
    rw [KeySet.mem_insert]
    exact Or.inl rfl

theorem handleTaskResult_spec (resolution : Queue BlockResolutionEvent) (task : TaskId)
    (outcome : TaskOutcome) :
    (worker.handleTaskResult resolution task outcome).1.cancelledTasks
        = worker.cancelledTasks.erase task ∧
    (worker.handleTaskResult resolution task outcome).1.nextTaskId = worker.nextTaskId ∧
    (worker.hashesByTask[task]? = none →
      (worker.handleTaskResult resolution task outcome).1.tasksByHash = worker.tasksByHash ∧
      (worker.handleTaskResult resolution task outcome).1.hashesByTask = worker.hashesByTask) ∧
    (∀ hash : BlockHash, worker.hashesByTask[task]? = some hash →
      (worker.handleTaskResult resolution task outcome).1.tasksByHash
        = worker.tasksByHash.erase hash ∧
      (worker.handleTaskResult resolution task outcome).1.hashesByTask
        = worker.hashesByTask.erase task) ∧
    (duplicateRequest ∈ (worker.handleTaskResult resolution task outcome).1.faults ↔
      duplicateRequest ∈ worker.faults) := by
  unfold handleTaskResult
  dsimp only
  split
  . next hnone => simp [hnone, fault, duplicateRequest]
  . next hash hsome =>
    split
    . simp [hsome]
    . split
      . split
        . simp [hsome]
        . split <;> simp [hsome, fault, duplicateRequest]
      . simp [hsome]
      . simp [hsome, fault, duplicateRequest]

theorem Inv.handleTaskResult (hinv : worker.Inv) (resolution : Queue BlockResolutionEvent)
    (task : TaskId) (outcome : TaskOutcome) :
    (worker.handleTaskResult resolution task outcome).1.Inv := by
  obtain ⟨-, hnext, hnone, hsome, -⟩ := @handleTaskResult_spec worker resolution task outcome
  cases ht : worker.hashesByTask[task]? with
  | none =>
    obtain ⟨h1, h2⟩ := hnone ht
    constructor
    . rw [h1, h2]
      exact hinv.hash
    . rw [h1, hnext]
      exact hinv.fresh
  | some hash =>
    obtain ⟨h1, h2⟩ := hsome hash ht
    constructor
    . intro other task' ht'
      rw [h1, Map.get_erase] at ht'
      split at ht'
      . cases ht'
      . next hne =>
        have hother := hinv.hash other task' ht'
        rw [h2, Map.get_erase, if_neg]
        . exact hother
        . rintro rfl
          rw [ht] at hother
          cases hother
          exact hne rfl
    . intro other task' ht'
      rw [h1, Map.get_erase] at ht'
      rw [hnext]
      split at ht'
      . cases ht'
      . exact hinv.fresh other task' ht'

theorem Idle.handleTaskResult (hinv : worker.Inv) {other : BlockHash} (hidle : worker.Idle other)
    (resolution : Queue BlockResolutionEvent) (task : TaskId) (outcome : TaskOutcome) :
    (worker.handleTaskResult resolution task outcome).1.Idle other := by
  obtain ⟨hcancelled, -, hnone, hsome, -⟩ := @handleTaskResult_spec worker resolution task outcome
  intro task' ht'
  rw [hcancelled, KeySet.mem_erase]
  cases ht : worker.hashesByTask[task]? with
  | none =>
    rw [(hnone ht).1] at ht'
    refine ⟨?_, hidle task' ht'⟩
    rintro rfl
    rw [hinv.hash other task ht'] at ht
    cases ht
  | some hash =>
    rw [(hsome hash ht).1, Map.get_erase] at ht'
    split at ht'
    . cases ht'
    . next hne =>
      refine ⟨?_, hidle task' ht'⟩
      rintro rfl
      rw [hinv.hash other task ht'] at ht
      cases ht
      exact hne rfl

end DependencyResolverWorker

namespace OrphanSystem

open OrphanTopology OrphanManagerWorker DependencyResolverWorker

variable {system : OrphanSystem}

def AbortedTaskJoined (system : OrphanSystem) (event : OrphanEvent) : Prop :=
  event = .resolverWork → ∀ (hash : BlockHash) (task : TaskId),
    system.manager.work.items.head? = some (.resolve hash) →
    system.resolver.tasksByHash[hash]? = some task → task ∉ system.resolver.cancelledTasks

structure RequestInv (system : OrphanSystem) : Prop where
  resolver : system.resolver.Inv
  requests : ∀ hash : BlockHash, ∃ wanted wanted' : Bool,
    (wanted = false → system.resolver.Idle hash) ∧
    run (requestStep hash) wanted system.manager.work.items = some wanted' ∧
    (system.manager.state = .active →
      wanted' = decide (hash ∈ system.manager.topology.resolutionPending))
  unique : duplicateRequest ∉ system.resolver.faults

theorem RequestInv.new : RequestInv new where
  resolver := Inv.new
  requests := by
    intro hash
    refine ⟨false, false, ?_, rfl, ?_⟩
    . intro _ task ht
      simp [OrphanSystem.new, DependencyResolverWorker.new] at ht
    . intro _
      simp [OrphanSystem.new, OrphanManagerWorker.new, OrphanTopology.empty]
  unique := by simp [OrphanSystem.new, DependencyResolverWorker.new]

theorem RequestInv.untracked (hinv : system.RequestInv)
    (hguard : system.AbortedTaskJoined .resolverWork)
    (hhead : system.manager.work.items.head? = some (.resolve hash)) :
    system.resolver.tasksByHash[hash]? = none := by
  rw [Option.eq_none_iff_forall_ne_some]
  intro task htask
  obtain ⟨wanted, wanted', hidle, hrun, -⟩ := hinv.requests hash
  rw [List.head?_eq_some_iff] at hhead
  obtain ⟨rest, hitems⟩ := hhead
  rw [hitems, run.cons_eq_some] at hrun
  obtain ⟨_, hstep, -⟩ := hrun
  cases wanted with
  | false => exact hguard rfl hash task (by rw [hitems]; rfl) htask (hidle rfl task htask)
  | true => simp [requestStep] at hstep

theorem RequestInv.message (hinv : system.RequestInv) (message : OrphanMessage)
    (hactive : system.manager.state = .active) :
    RequestInv { system with manager := system.manager.handleMessage message } := by
  refine ⟨hinv.resolver, ?_, hinv.unique⟩
  intro hash
  obtain ⟨wanted, wanted', hidle, hrun, hwanted⟩ := hinv.requests hash
  have hw := hwanted hactive
  subst hw
  refine ⟨wanted, ?_⟩
  obtain ⟨_, kind, -, heq⟩ | ⟨topology, mutation, works, _, sent, kind, hm, ⟨rest, hworks⟩, hsent, -, heq⟩ |
    ⟨topology, mutation, hm, hsent⟩ := handleMessage_cases system.manager message
  . refine ⟨decide (hash ∈ system.manager.topology.resolutionPending), hidle, ?_, ?_⟩
    . rw [heq, enterFault_work]
      exact hrun
    . rw [heq, enterFault_state]
      intro h
      cases h
  . -- A faulted manager has sent a first part of the requests and sends no more.
    have hall := run_requestStep_mutate hm hash
    rw [← hworks, run.append_eq_some] at hall
    obtain ⟨reached, hreached, -⟩ := hall
    refine ⟨reached, hidle, ?_, ?_⟩
    . rw [heq, enterFault_work, hsent.work, run.append_eq_some]
      exact ⟨_, hrun, hreached⟩
    . rw [heq, enterFault_state]
      intro h
      cases h
  . refine ⟨_, hidle, ?_, fun _ => rfl⟩
    rw [hsent.work, run.append_eq_some, hsent.topology]
    exact ⟨_, hrun, run_requestStep_mutate hm hash⟩

theorem RequestInv.resolverWork (hinv : system.RequestInv)
    (hguard : system.AbortedTaskJoined .resolverWork) {item : ResolverWork} {work : Queue ResolverWork}
    (hrecv : system.manager.work.tryRecv = some (item, work)) :
    RequestInv ⟨{ system.manager with work := work }, system.resolver.handleWork item⟩ := by
  have hitems := Queue.tryRecv_items hrecv
  cases item with
  | resolve other =>
    have hnone : system.resolver.tasksByHash[other]? = none :=
      hinv.untracked hguard (by rw [hitems]; rfl)
    refine ⟨hinv.resolver.startResolution hnone, ?_, ?_⟩
    . intro hash
      obtain ⟨wanted, wanted', hidle, hrun, hwanted⟩ := hinv.requests hash
      rw [hitems, run.cons_eq_some] at hrun
      obtain ⟨next, hnext, hrun⟩ := hrun
      refine ⟨next, wanted', ?_, hrun, hwanted⟩
      intro hfalse
      subst hfalse
      by_cases heq : other = hash
      . cases wanted <;> simp [requestStep, heq] at hnext
      . simp only [requestStep, heq, ↓reduceIte, Option.some.injEq] at hnext
        exact (hidle hnext).startResolution heq hnone
    . simp only [handleWork]
      rw [startResolution_untracked hnone]
      exact hinv.unique
  | cancel other =>
    refine ⟨hinv.resolver.cancel other, ?_, ?_⟩
    . intro hash
      obtain ⟨wanted, wanted', hidle, hrun, hwanted⟩ := hinv.requests hash
      rw [hitems, run.cons_eq_some] at hrun
      obtain ⟨next, hnext, hrun⟩ := hrun
      refine ⟨next, wanted', ?_, hrun, hwanted⟩
      intro hfalse
      subst hfalse
      by_cases heq : other = hash
      . subst heq
        exact idle_cancel other
      . simp only [requestStep, heq, ↓reduceIte, Option.some.injEq] at hnext
        exact (hidle hnext).cancel other
    . simp only [handleWork]
      split
      . exact hinv.unique
      . exact hinv.unique

theorem RequestInv.step (system : OrphanSystem) (event : OrphanEvent) (system' : OrphanSystem)
    (hinv : system.RequestInv) (hguard : system.AbortedTaskJoined event)
    (h : system.step event = some system') : system'.RequestInv := by
  cases event with
  | message message =>
    simp only [OrphanSystem.step] at h
    split at h
    . next hactive =>
      cases h
      exact hinv.message message hactive
    . cases h
  | resolverWork =>
    simp only [OrphanSystem.step] at h
    split at h
    . cases h
    . split at h
      . cases h
      . next item work hrecv =>
        cases h
        exact hinv.resolverWork hguard hrecv
  | taskJoined task outcome =>
    simp only [OrphanSystem.step] at h
    split at h
    . cases h
      refine ⟨hinv.resolver.handleTaskResult _ task outcome, ?_, ?_⟩
      . intro hash
        obtain ⟨wanted, wanted', hidle, hrun, hwanted⟩ := hinv.requests hash
        exact ⟨wanted, wanted', fun hf => (hidle hf).handleTaskResult hinv.resolver _ task outcome,
          hrun, hwanted⟩
      . dsimp only
        rw [(handleTaskResult_spec _ task outcome).2.2.2.2]
        exact hinv.unique
    . cases h
  | resolutionTaken =>
    simp only [OrphanSystem.step] at h
    split at h
    . cases h
    . cases h
      exact ⟨hinv.resolver, hinv.requests, hinv.unique⟩
  | resolverFaultReceived kind =>
    simp only [OrphanSystem.step] at h
    split at h
    . cases h
      refine ⟨hinv.resolver, ?_, hinv.unique⟩
      intro hash
      obtain ⟨wanted, wanted', hidle, hrun, -⟩ := hinv.requests hash
      refine ⟨wanted, wanted', hidle, ?_, ?_⟩
      . dsimp only
        rw [enterFault_work]
        exact hrun
      . dsimp only
        rw [enterFault_state]
        intro hf
        cases hf
    . cases h

theorem step_duplicateRequest (system : OrphanSystem) (event : OrphanEvent)
    (system' : OrphanSystem) (hdup : duplicateRequest ∈ system.resolver.faults)
    (h : system.step event = some system') : duplicateRequest ∈ system'.resolver.faults := by
  cases event with
  | message message =>
    simp only [OrphanSystem.step] at h
    split at h
    . cases h
      exact hdup
    . cases h
  | resolverWork =>
    simp only [OrphanSystem.step] at h
    split at h
    . cases h
    . split at h
      . cases h
      . next item work hrecv =>
        cases h
        cases item with
        | resolve hash =>
          simp only [handleWork, startResolution]
          split
          . simp [fault]
          . exact hdup
        | cancel hash =>
          simp only [handleWork]
          split <;> exact hdup
  | taskJoined task outcome =>
    simp only [OrphanSystem.step] at h
    split at h
    . cases h
      rw [(handleTaskResult_spec _ task outcome).2.2.2.2]
      exact hdup
    . cases h
  | resolutionTaken =>
    simp only [OrphanSystem.step] at h
    split at h
    . cases h
    . cases h
      exact hdup
  | resolverFaultReceived kind =>
    simp only [OrphanSystem.step] at h
    split at h
    . cases h
      exact hdup
    . cases h

theorem step_resolverWork_tracked {system system' : OrphanSystem} {task : TaskId}
    (hhead : system.manager.work.items.head? = some (.resolve hash))
    (htask : system.resolver.tasksByHash[hash]? = some task)
    (h : system.step .resolverWork = some system') :
    duplicateRequest ∈ system'.resolver.faults := by
  simp only [OrphanSystem.step] at h
  split at h
  . cases h
  . split at h
    . cases h
    . next item work hrecv =>
      cases h
      rw [Queue.tryRecv_items hrecv, List.head?_cons, Option.some.injEq] at hhead
      subst hhead
      simp only [handleWork]
      rw [startResolution_tracked htask]
      simp [fault]

/--
The duplicate fault is raised in a run exactly when the resolver takes a resolution while an aborted
task of the same hash still awaits its join. In every other run each resolution is for a hash that is
not tracked.
-/
theorem duplicateRequest_iff_aborted_task (events : List OrphanEvent) (system : OrphanSystem)
    (h : run step new events = some system) :
    (duplicateRequest ∉ system.resolver.faults
      ↔
    ∀ pre event post before, events = pre ++ event :: post → run step new pre = some before →
      before.AbortedTaskJoined event) ∧
    ((∀ pre event post before, events = pre ++ event :: post → run step new pre = some before →
        before.AbortedTaskJoined event) →
      ∀ pre post before, events = pre ++ .resolverWork :: post → run step new pre = some before →
        ∀ hash : BlockHash, before.manager.work.items.head? = some (.resolve hash) →
          before.resolver.tasksByHash[hash]? = none) := by
  refine ⟨⟨?_, ?_⟩, ?_⟩
  . intro hunique pre event post before hevents hbefore hevent hash task hhead htask hmem
    subst hevent
    rw [hevents, run.append_eq_some] at h
    obtain ⟨before', hbefore', hrest⟩ := h
    rw [hbefore] at hbefore'
    cases hbefore'
    rw [run.cons_eq_some] at hrest
    obtain ⟨after, hafter, hrest⟩ := hrest
    exact hunique (run.invariant step_duplicateRequest
      (step_resolverWork_tracked hhead htask hafter) hrest)
  . intro hguard
    exact (run.invariant_of_guard RequestInv.step RequestInv.new hguard h).unique
  . intro hguard pre post before hevents hbefore hash hhead
    have hpre : before.RequestInv := by
      apply run.invariant_of_guard RequestInv.step RequestInv.new _ hbefore
      intro pre' event post' before' hevents' hbefore'
      apply hguard pre' event (post' ++ .resolverWork :: post) before' _ hbefore'
      rw [hevents, hevents']
      simp
    exact hpre.untracked (hguard pre .resolverWork post before hevents hbefore) hhead

def waitingOrphan (index : Fin orphanResolutionThreshold) : ValidatedNodeBlock :=
  .ofParent (index.castLE (by decide)) 1000 <| by
    intro h
    have hval : index.val = 1000 := congrArg Fin.val h
    have hlt : index.val < 256 := index.isLt
    omega

def waitingOrphans : List OrphanEvent :=
  (List.finRange orphanResolutionThreshold).map
    (fun index => .message (.addOrphan (waitingOrphan index) [1000]))

/--
The awaited block arrives as an orphan of 1001, which cancels its resolution, and is ready once 1001
is persisted, which requests it again. The resolver reads the five requests before it joins the
aborted task.
-/
def resolvedAgain : List OrphanEvent :=
  waitingOrphans ++
    [.message (.addOrphan (.ofParent 1000 1001 (by decide)) [1001]),
      .message (.blockPersisted 1001),
      .resolverWork, .resolverWork, .resolverWork, .resolverWork, .resolverWork]

theorem resolvedAgain_duplicateRequest :
    ∃ system, run step new resolvedAgain = some system ∧
      duplicateRequest ∈ system.resolver.faults := by
  have hrun : (run step new resolvedAgain).any
      (fun system => decide (duplicateRequest ∈ system.resolver.faults)) = true := by
    decide +kernel
  rw [Option.any_eq_true] at hrun
  obtain ⟨system, hrun, hfault⟩ := hrun
  exact ⟨system, hrun, of_decide_eq_true hfault⟩

/--
The same requests, with the aborted task joined right after its cancellation.
-/
def resolvedAfterJoin : List OrphanEvent :=
  waitingOrphans ++
    [.message (.addOrphan (.ofParent 1000 1001 (by decide)) [1001]),
      .message (.blockPersisted 1001),
      .resolverWork, .resolverWork, .taskJoined 0 .cancelled, .resolverWork, .resolverWork, .resolverWork]

theorem duplicateRequest_iff_aborted_task_joined :
    ∃ system, run step new resolvedAfterJoin = some system ∧
      duplicateRequest ∉ system.resolver.faults ∧
      ∀ pre event post before, resolvedAfterJoin = pre ++ event :: post →
        run step new pre = some before → before.AbortedTaskJoined event := by
  have hrun : (run step new resolvedAfterJoin).any
      (fun system => decide (duplicateRequest ∉ system.resolver.faults)) = true := by
    decide +kernel
  rw [Option.any_eq_true] at hrun
  obtain ⟨system, hrun, hfault⟩ := hrun
  have hunique := of_decide_eq_true hfault
  exact ⟨system, hrun, hunique, (duplicateRequest_iff_aborted_task _ system hrun).1.mp hunique⟩

end OrphanSystem

end Kgi
