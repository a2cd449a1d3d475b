import GraphInspector.Processing.Impl.BlockProcessor

/-!
What one step of the block processor does: the effects of handling a block in each stage, and the
transitions between stages.
-/

namespace Kgi

open Data

namespace BlockProcessorEffect

def isFault : BlockProcessorEffect → Bool
  | .fault _ => true
  | _ => false

def isDelivery (hash : BlockHash) : BlockProcessorEffect → Bool
  | .persisted block => block.point.hash = hash
  | .orphanMessage (.blockPersisted other) => other = hash
  | _ => false

end BlockProcessorEffect

namespace BlockProcessorWorker

variable {worker next worker' : BlockProcessorWorker} {stage stage' : RunStage}
  {sources : Map BlockHash SourceBits} {emitOnStart : Bool}
  {effects : List BlockProcessorEffect}

def Seals (sealBlueScore : Nat) (effects : List BlockProcessorEffect) : Prop :=
  ∃ block committed deliveries,
    effects = .materialized block .requireMaterialized (.ok (.inserted committed)) ::
      .offered committed :: deliveries ∧
    (∀ effect ∈ deliveries, effect.isDelivery block.hash = true) ∧ sealBlueScore ≤ block.blueScore

def Allowed (stage : RunStage) : BlockProcessorEffect → Prop
  | .ppBoundarySealed => False
  | .materialized _ .allowBoundaryIdentities _ => isPreSeal stage = true
  | .orphanMessage (.addOrphan _ _) => stage.permitsOrphans = true
  | _ => True

inductive Handled : RunStage → RunStage → List BlockProcessorEffect → Prop where
  /-- The stage stays, and nothing is announced. -/
  | plain (stage : RunStage) (effects : List BlockProcessorEffect)
      (hallowed : ∀ effect ∈ effects, Allowed stage effect) : Handled stage stage effects
  /-- The boundary is sealed. The announcement is missing if nobody hears it. -/
  | sealed (sealBlueScore : Nat) (effects announcement faults : List BlockProcessorEffect)
      (hseals : Seals sealBlueScore effects)
      (hannouncement : announcement = [.ppBoundarySealed] ∨ announcement = [])
      (hfaults : ∀ effect ∈ faults, effect.isFault = true) :
      Handled (.synchronizing (.preSeal sealBlueScore)) (.synchronizing .postSeal)
        (effects ++ announcement ++ faults)

structure Extends (worker next : BlockProcessorWorker) (effects : List BlockProcessorEffect) : Prop where
  trace : next.trace = worker.trace ++ effects
  db : next.db = worker.db
  initialization : next.initialization = worker.initialization
  started : next.started = worker.started
  faulted : worker.faulted = true → next.faulted = true

theorem Extends.refl (worker : BlockProcessorWorker) : worker.Extends worker [] :=
  ⟨(List.append_nil _).symm, rfl, rfl, rfl, id⟩

theorem Extends.trans {middle : BlockProcessorWorker} {effects' : List BlockProcessorEffect}
    (h : worker.Extends middle effects) (h' : middle.Extends next effects') :
    worker.Extends next (effects ++ effects') where
  trace := by rw [h'.trace, h.trace, List.append_assoc]
  db := h'.db.trans h.db
  initialization := h'.initialization.trans h.initialization
  started := h'.started.trans h.started
  faulted hfaulted := h'.faulted (h.faulted hfaulted)

section Effects

variable (worker)

theorem emit_extends (effect : BlockProcessorEffect) :
    worker.Extends (worker.emit effect) [effect] :=
  ⟨rfl, rfl, rfl, rfl, id⟩

theorem enterFault_spec (fault : ComponentFault) (orphanShutdown : Except ChildControlError Unit) :
    ∃ faults, worker.Extends (worker.enterFault fault orphanShutdown) faults ∧
      (∀ effect ∈ faults, effect.isFault = true) ∧
      (worker.enterFault fault orphanShutdown).run = worker.run := by
  unfold enterFault
  split
  . exact ⟨[], Extends.refl worker, by simp, rfl⟩
  . dsimp only
    split
    . split
      . exact ⟨[.fault fault], ⟨rfl, rfl, rfl, rfl, fun _ => rfl⟩, by simp [BlockProcessorEffect.isFault],
          rfl⟩
      . next error =>
        refine ⟨[.fault fault, .fault (childControlFault .orphanManager error
          "OrphanManager fault barrier")], ⟨?_, rfl, rfl, rfl, fun _ => rfl⟩,
          by simp [BlockProcessorEffect.isFault], rfl⟩
        exact List.append_assoc _ [_] [_]
    . exact ⟨[.fault fault], ⟨rfl, rfl, rfl, rfl, fun _ => rfl⟩, by simp [BlockProcessorEffect.isFault],
        rfl⟩

theorem reportCommandPathLoss_spec (orphanShutdown : Except ChildControlError Unit) :
    ∃ faults, worker.Extends (worker.reportCommandPathLoss orphanShutdown) faults ∧
      (∀ effect ∈ faults, effect.isFault = true) ∧
      (worker.reportCommandPathLoss orphanShutdown).run = worker.run := by
  unfold reportCommandPathLoss
  split
  . exact ⟨[], Extends.refl worker, by simp, rfl⟩
  . exact worker.enterFault_spec _ _

theorem recordSource_spec (hash : BlockHash) (source : BlockSource)
    (hrun : worker.run = .active stage sources emitOnStart) :
    worker.Extends (worker.recordSource hash source) [] ∧
      ∃ sources', (worker.recordSource hash source).run = .active stage sources' emitOnStart := by
  unfold recordSource
  split
  . next knownIdLowerBound _ _ hactive =>
    rw [hactive] at hrun
    cases hrun
    split
    . exact ⟨Extends.refl worker, sources, hactive⟩
    . exact ⟨⟨(List.append_nil _).symm, rfl, rfl, rfl, id⟩, _, rfl⟩
  . exact ⟨Extends.refl worker, sources, hrun⟩

theorem deliverPersisted_spec (block : ValidatedNodeBlock) (id : CompactId)
    (answers : BlockAnswers) :
    ∃ deliveries, worker.Extends (worker.deliverPersisted block id answers).1 deliveries ∧
      (∀ effect ∈ deliveries, effect.isDelivery block.hash = true) ∧
      (worker.deliverPersisted block id answers).1.run = worker.run := by
  unfold deliverPersisted
  dsimp only
  split
  . split
    . refine ⟨_, (emit_extends _ _).trans (emit_extends _ _), ?_, rfl⟩
      simp [BlockProcessorEffect.isDelivery, VspcPoint.hash]
    . refine ⟨_, emit_extends _ _, ?_, rfl⟩
      simp [BlockProcessorEffect.isDelivery]
  . split
    . refine ⟨_, emit_extends _ _, ?_, rfl⟩
      simp [BlockProcessorEffect.isDelivery, VspcPoint.hash]
    . exact ⟨[], Extends.refl worker, by simp, rfl⟩

end Effects

variable {effect : BlockProcessorEffect}

theorem Allowed.of_isFault (h : effect.isFault = true) : Allowed stage effect := by
  cases effect with
  | fault fault => trivial
  | _ => cases h

theorem Allowed.of_isDelivery {hash : BlockHash} (h : effect.isDelivery hash = true) :
    Allowed stage effect := by
  cases effect with
  | orphanMessage message =>
    cases message with
    | addOrphan block missing => cases h
    | blockPersisted other => trivial
  | persisted block => trivial
  | ppBoundarySealed => cases h
  | fault fault => trivial
  | materialized block policy outcome => cases h
  | offered committed => trivial

theorem allowed_materialized (stage : RunStage) (block : ValidatedNodeBlock)
    (outcome : Except MaterializeBlockError MaterializeBlockOutcome) :
    Allowed stage (.materialized block (referencePolicy stage block) outcome) := by
  unfold referencePolicy
  split
  . next h => exact h.1
  . trivial

theorem Handled.append_faults {faults : List BlockProcessorEffect} (h : Handled stage stage' effects)
    (hfaults : ∀ effect ∈ faults, effect.isFault = true) :
    Handled stage stage' (effects ++ faults) := by
  cases h with
  | plain _ _ hallowed =>
    refine .plain _ _ ?_
    intro effect hmem
    rw [List.mem_append] at hmem
    obtain hmem | hmem := hmem
    . exact hallowed effect hmem
    . exact Allowed.of_isFault (hfaults effect hmem)
  | sealed sealBlueScore effects announcement faults' hseals hannouncement hfaults' =>
    rw [List.append_assoc]
    refine .sealed sealBlueScore effects announcement (faults' ++ faults) hseals hannouncement ?_
    intro effect hmem
    rw [List.mem_append] at hmem
    obtain hmem | hmem := hmem
    . exact hfaults' effect hmem
    . exact hfaults effect hmem

theorem isSealing_eq_true {block : ValidatedNodeBlock} (h : isSealing stage block = true) :
    ∃ sealBlueScore, stage = .synchronizing (.preSeal sealBlueScore) ∧
      sealBlueScore ≤ block.blueScore := by
  unfold isSealing at h
  split at h
  . next sealBlueScore => exact ⟨sealBlueScore, rfl, by simpa using h⟩
  . cases h

theorem delivered_fst (result : BlockProcessorWorker × Option ComponentFault) :
    (delivered result).1 = result.1 := by
  obtain ⟨worker, _ | fault⟩ := result
  . rfl
  . rfl

def Handles (worker : BlockProcessorWorker) (stage : RunStage) (emitOnStart : Bool)
    (next : BlockProcessorWorker) : Prop :=
  ∃ stage' sources' effects, worker.Extends next effects ∧ Handled stage stage' effects ∧
    next.run = .active stage' sources' emitOnStart

theorem Handles.of_allowed (hextends : worker.Extends next effects)
    (hallowed : ∀ effect ∈ effects, Allowed stage effect)
    (hrun : next.run = .active stage sources emitOnStart) : worker.Handles stage emitOnStart next :=
  ⟨stage, sources, effects, hextends, .plain stage effects hallowed, hrun⟩

theorem Handles.refl (hrun : worker.run = .active stage sources emitOnStart) :
    worker.Handles stage emitOnStart worker :=
  Handles.of_allowed (Extends.refl worker) (by simp) hrun

theorem deliverPersisted_handles (worker : BlockProcessorWorker) (block : ValidatedNodeBlock)
    (id : CompactId) (answers : BlockAnswers)
    (hextends : worker.Extends next effects) (hallowed : ∀ effect ∈ effects, Allowed stage effect)
    (hrun : next.run = .active stage sources emitOnStart) :
    worker.Handles stage emitOnStart (delivered (next.deliverPersisted block id answers)).1 := by
  obtain ⟨deliveries, hdeliver, hdeliveries, hsame⟩ := next.deliverPersisted_spec block id answers
  rw [delivered_fst]
  apply Handles.of_allowed (hextends.trans hdeliver)
  . intro effect hmem
    rw [List.mem_append] at hmem
    obtain hmem | hmem := hmem
    . exact hallowed effect hmem
    . exact Allowed.of_isDelivery (hdeliveries effect hmem)
  . exact hsame.trans hrun

theorem announceSealed_spec (worker : BlockProcessorWorker) (answers : BlockAnswers)
    (deliveryFault : Option ComponentFault) :
    ∃ announcement, (announcement = [.ppBoundarySealed] ∨ announcement = []) ∧
      worker.Extends (worker.announceSealed sources emitOnStart answers deliveryFault).1
        announcement ∧
      (worker.announceSealed sources emitOnStart answers deliveryFault).1.run
        = .active (.synchronizing .postSeal) sources emitOnStart := by
  unfold announceSealed
  split
  . rw [delivered_fst]
    exact ⟨[.ppBoundarySealed], Or.inl rfl, ⟨rfl, rfl, rfl, rfl, id⟩, rfl⟩
  . exact ⟨[], Or.inr rfl, ⟨(List.append_nil _).symm, rfl, rfl, rfl, id⟩, rfl⟩

section Materialize

variable (block : ValidatedNodeBlock)

theorem finishInserted_handles (committed : BlockCommitted) (answers : BlockAnswers)
    (hextends : worker.Extends next
      [.materialized block (referencePolicy stage block) (.ok (.inserted committed))])
    (hrun : next.run = .active stage sources emitOnStart) :
    worker.Handles stage emitOnStart
      (next.finishInserted stage sources emitOnStart block committed answers).1 := by
  unfold finishInserted
  have hoffered := hextends.trans (emit_extends next (.offered committed))
  have hallowed : ∀ effect ∈ [.materialized block (referencePolicy stage block)
      (.ok (.inserted committed))] ++ [.offered committed], Allowed stage effect := by
    intro effect hmem
    rw [List.mem_append, List.mem_singleton, List.mem_singleton] at hmem
    obtain rfl | rfl := hmem
    . exact allowed_materialized stage block _
    . trivial
  split
  . exact Handles.of_allowed hoffered hallowed hrun
  . split
    . next hsealing =>
      obtain ⟨sealBlueScore, rfl, hscore⟩ := isSealing_eq_true hsealing
      obtain ⟨deliveries, hdeliver, hdeliveries, -⟩ :=
        (next.emit (.offered committed)).deliverPersisted_spec block committed.id answers
      obtain ⟨announcement, hannouncement, hannounce, hsealed⟩ :=
        ((next.emit (.offered committed)).deliverPersisted block committed.id
          answers).1.announceSealed_spec answers
          ((next.emit (.offered committed)).deliverPersisted block committed.id answers).2
      have hpolicy : referencePolicy (.synchronizing (.preSeal sealBlueScore)) block
          = .requireMaterialized := by
        unfold referencePolicy
        rw [if_neg]
        exact fun h => h.2 hsealing
      rw [hpolicy] at hoffered
      refine ⟨_, sources, _, ((hoffered.trans hdeliver).trans hannounce).trans
        (Extends.refl _), ?_, hsealed⟩
      exact .sealed sealBlueScore _ announcement [] ⟨block, committed, deliveries, rfl, hdeliveries,
        hscore⟩ hannouncement (by simp)
    . exact deliverPersisted_handles worker block committed.id answers hoffered hallowed hrun

theorem admitOrphan_handles (missing : List BlockHash) (answers : BlockAnswers)
    (hextends : worker.Extends next effects) (hallowed : ∀ effect ∈ effects, Allowed stage effect)
    (hrun : next.run = .active stage sources emitOnStart) :
    worker.Handles stage emitOnStart (next.admitOrphan stage block missing answers).1 := by
  unfold admitOrphan
  split
  . next hpermits =>
    split
    . apply Handles.of_allowed (hextends.trans (emit_extends _ _))
      . intro effect hmem
        rw [List.mem_append, List.mem_singleton] at hmem
        obtain hmem | rfl := hmem
        . exact hallowed effect hmem
        . exact hpermits
      . exact hrun
    . exact Handles.of_allowed hextends hallowed hrun
  . exact Handles.of_allowed hextends hallowed hrun

theorem materialize_handles (answers : BlockAnswers)
    (hrun : worker.run = .active stage sources emitOnStart) :
    worker.Handles stage emitOnStart
      (worker.materialize stage sources emitOnStart block answers).1 := by
  have hextends := worker.emit_extends
    (.materialized block (referencePolicy stage block) answers.materialization)
  have hallowed : ∀ effect ∈ [BlockProcessorEffect.materialized block (referencePolicy stage block)
      answers.materialization], Allowed stage effect := by
    intro effect hmem
    rw [List.mem_singleton] at hmem
    rw [hmem]
    exact allowed_materialized stage block _
  unfold materialize
  split
  . exact deliverPersisted_handles worker block _ answers hextends hallowed hrun
  . next committed hinserted =>
    rw [hinserted] at hextends ⊢
    exact finishInserted_handles block committed answers hextends hrun
  . exact Handles.of_allowed hextends hallowed hrun
  . split
    . exact Handles.of_allowed hextends hallowed hrun
    . exact admitOrphan_handles block _ answers hextends hallowed hrun
  . exact Handles.of_allowed hextends hallowed hrun

theorem admitBlock_handles (presence : BlockPresence) (answers : BlockAnswers)
    (hrun : worker.run = .active stage sources emitOnStart) :
    worker.Handles stage emitOnStart
      (worker.admitBlock stage sources emitOnStart block presence answers).1 := by
  unfold admitBlock
  split
  . exact Handles.of_allowed (Extends.refl worker) (by simp) hrun
  . exact deliverPersisted_handles worker block _ answers (Extends.refl worker) (by simp) hrun
  . exact materialize_handles block answers hrun

end Materialize

theorem Handles.enterFault (h : worker.Handles stage emitOnStart next) (fault : ComponentFault)
    (orphanShutdown : Except ChildControlError Unit) :
    worker.Handles stage emitOnStart (next.enterFault fault orphanShutdown) := by
  obtain ⟨stage', sources', effects, hextends, hhandled, hrun⟩ := h
  obtain ⟨faults, hfault, hfaults, hsame⟩ := next.enterFault_spec fault orphanShutdown
  exact ⟨stage', sources', effects ++ faults, hextends.trans hfault, hhandled.append_faults hfaults,
    hsame.trans hrun⟩

theorem Handles.settle (h : worker.Handles stage emitOnStart next) (block : ValidatedNodeBlock)
    (source : BlockSource) (answers : BlockAnswers)
    (result : Except ComponentFault BlockDisposition) :
    worker.Handles stage emitOnStart (next.settle block source answers result) := by
  cases result with
  | ok disposition =>
    obtain ⟨stage', sources', effects, hextends, hhandled, hrun⟩ := h
    obtain ⟨hrecord, sources'', hrun'⟩ := next.recordSource_spec block.hash source hrun
    have htrans := hextends.trans hrecord
    rw [List.append_nil] at htrans
    exact ⟨stage', sources'', effects, htrans, hhandled, hrun'⟩
  | error fault => exact h.enterFault fault answers.orphanShutdown

theorem handleBlock_handles (block : ValidatedNodeBlock) (source : BlockSource) (answers : BlockAnswers)
    (hrun : worker.run = .active stage sources emitOnStart) :
    worker.Handles stage emitOnStart (worker.handleBlock block source answers) := by
  have hsame := Handles.refl hrun
  unfold handleBlock
  rw [hrun]
  dsimp only
  split
  . exact hsame
  . split
    . exact hsame.enterFault _ _
    . split
      . exact hsame
      . exact (admitBlock_handles block _ answers hrun).settle block source answers _

theorem handleResolution_handles (event : BlockResolutionEvent) (answers : BlockAnswers)
    (hrun : worker.run = .active stage sources emitOnStart) :
    worker.Handles stage emitOnStart (worker.handleResolution event answers) := by
  have hsame := Handles.refl hrun
  unfold handleResolution
  split
  . exact handleBlock_handles _ _ answers hrun
  . split
    . exact hsame.enterFault _ _
    . exact handleBlock_handles _ _ answers hrun
  . exact hsame.enterFault _ _

theorem command_eq_some (h : worker.command next = some worker') :
    worker' = next ∧ worker.started = true := by
  unfold command running at h
  split at h
  . next hrunning =>
    cases h
    rw [Bool.and_eq_true] at hrunning
    exact ⟨rfl, hrunning.1⟩
  . cases h

inductive Transition (worker : BlockProcessorWorker) : BlockProcessorWorker → Prop where
  | same : Transition worker worker
  | initialized {next : BlockProcessorWorker} (initialization : BlockProcessorInitialization)
      (hstarted : worker.started = false) (hinit : worker.initializeRun initialization = .ok next) :
      Transition worker next
  | started (eventPathOpen : Bool) (hstarted : worker.started = false) :
      Transition worker { worker.startup eventPathOpen with started := true }
  | faulted {next : BlockProcessorWorker} (effects : List BlockProcessorEffect)
      (hstarted : worker.started = true) (hextends : worker.Extends next effects)
      (hfaults : ∀ effect ∈ effects, effect.isFault = true) (hrun : next.run = worker.run) :
      Transition worker next
  | advanced {next : BlockProcessorWorker} {stage stage' : RunStage}
      {sources sources' : Map BlockHash SourceBits} {emitOnStart : Bool}
      (hstarted : worker.started = true) (hrun : worker.run = .active stage sources emitOnStart)
      (hextends : worker.Extends next [])
      (hrun' : next.run = .active stage' sources' emitOnStart)
      (hsealed : stage'.acceptsNotifications = true) : Transition worker next
  | handled {next : BlockProcessorWorker} {stage : RunStage} {sources : Map BlockHash SourceBits}
      {emitOnStart : Bool} (hstarted : worker.started = true)
      (hrun : worker.run = .active stage sources emitOnStart)
      (hhandles : worker.Handles stage emitOnStart next) : Transition worker next

theorem Transition.of_enterFault (hstarted : worker.started = true) (fault : ComponentFault)
    (orphanShutdown : Except ChildControlError Unit) :
    worker.Transition (worker.enterFault fault orphanShutdown) := by
  obtain ⟨faults, hextends, hfaults, hrun⟩ := worker.enterFault_spec fault orphanShutdown
  exact .faulted faults hstarted hextends hfaults hrun

theorem Transition.of_catchup (hstarted : worker.started = true) (bound : CompactId)
    (orphanShutdown : Except ChildControlError Unit) :
    worker.Transition (worker.catchup bound orphanShutdown) := by
  unfold catchup
  split
  . next hrun =>
    exact .advanced hstarted hrun ⟨(List.append_nil _).symm, rfl, rfl, rfl, id⟩ rfl rfl
  . exact .of_enterFault hstarted _ _

theorem Transition.of_live (hstarted : worker.started = true)
    (orphanShutdown : Except ChildControlError Unit) :
    worker.Transition (worker.live orphanShutdown) := by
  unfold live
  split
  . next hrun =>
    exact .advanced hstarted hrun ⟨(List.append_nil _).symm, rfl, rfl, rfl, id⟩ rfl rfl
  . exact .of_enterFault hstarted _ _

theorem shutdownWorker_extends (worker : BlockProcessorWorker) :
    worker.Extends worker.shutdownWorker [] :=
  ⟨(List.append_nil _).symm, rfl, rfl, rfl, id⟩

theorem Transition.of_serve (h : worker.serve next = some worker')
    (hhandles : ∀ stage sources emitOnStart, worker.run = .active stage sources emitOnStart →
      worker.Handles stage emitOnStart next) : worker.Transition worker' := by
  obtain ⟨rfl, hstarted⟩ := command_eq_some h
  split
  . next hserves =>
    unfold serves at hserves
    split at hserves
    . cases hserves
    . next stage sources emitOnStart hrun =>
      exact .handled hstarted hrun (hhandles stage sources emitOnStart hrun)
  . exact .same

theorem Transition.of_step {input : BlockProcessorInput} (hstep : worker.step input = some next) :
    worker.Transition next := by
  cases input with
  | initializeRun initialization =>
    dsimp only [BlockProcessorWorker.step] at hstep
    split at hstep
    . cases hstep
    . next hstarted =>
      split at hstep
      . cases hstep
        exact .same
      . next hinit =>
        cases hstep
        exact .initialized initialization (by simpa using hstarted) hinit
  | start eventPathOpen =>
    dsimp only [BlockProcessorWorker.step] at hstep
    split at hstep
    . cases hstep
    . next hstarted =>
      cases hstep
      exact .started eventPathOpen (by simpa using hstarted)
  | catchup bound orphanShutdown =>
    obtain ⟨rfl, hstarted⟩ := command_eq_some hstep
    exact .of_catchup hstarted bound orphanShutdown
  | live orphanShutdown =>
    obtain ⟨rfl, hstarted⟩ := command_eq_some hstep
    exact .of_live hstarted orphanShutdown
  | shutdown =>
    obtain ⟨rfl, hstarted⟩ := command_eq_some hstep
    exact .faulted [] hstarted worker.shutdownWorker_extends (by simp) rfl
  | commandPathClosed orphanShutdown =>
    obtain ⟨rfl, hstarted⟩ := command_eq_some hstep
    obtain ⟨faults, hextends, hfaults, hrun⟩ := worker.reportCommandPathLoss_spec orphanShutdown
    have hshutdown := hextends.trans (shutdownWorker_extends _)
    rw [List.append_nil] at hshutdown
    exact .faulted faults hstarted hshutdown hfaults hrun
  | childFault fault orphanShutdown =>
    apply Transition.of_serve hstep
    intro stage sources emitOnStart hrun
    unfold handleChildFault
    split
    . exact (Handles.refl hrun).enterFault _ _
    . exact (Handles.refl hrun).enterFault _ _
  | resolution event answers =>
    cases event with
    | some event => exact .of_serve hstep fun _ _ _ hrun => handleResolution_handles event answers hrun
    | none => exact .of_serve hstep fun _ _ _ hrun => (Handles.refl hrun).enterFault _ _
  | notification block answers =>
    exact .of_serve hstep fun _ _ _ hrun => handleBlock_handles block _ answers hrun
  | synthetic block answers =>
    exact .of_serve hstep fun _ _ _ hrun => handleBlock_handles block _ answers hrun

end BlockProcessorWorker

end Kgi
