import GraphInspector.Processing.Lemmas.BlockProcessor

/-!
How the handling of one block ends, and when it asks for a materialization.
-/

namespace Kgi

open Data

namespace BlockProcessorWorker

variable {worker next : BlockProcessorWorker} {stage : RunStage} {sources : Map BlockHash SourceBits}
variable {emitOnStart : Bool} {block : ValidatedNodeBlock} {source : BlockSource} {answers : BlockAnswers}

def awaits (worker : BlockProcessorWorker) (source : BlockSource) : Bool :=
  match worker.run with
  | .inert _ => false
  | .active stage _ _ => source ≠ .notification || stage.acceptsNotifications

def asksMaterialization (worker : BlockProcessorWorker) (block : ValidatedNodeBlock) (source : BlockSource)
    (presence : Except ProcessingDbError BlockPresence) : Option ReferencePolicy :=
  match worker.run, presence with
  | .active stage sources _, .ok .absent =>
    if isRepeated stage sources block.hash .absent source then none else some (referencePolicy stage block)
  | _, _ => none

section Faulted

theorem deliverPersisted_faulted (worker : BlockProcessorWorker) (block : ValidatedNodeBlock)
    (id : CompactId) (answers : BlockAnswers) :
    (worker.deliverPersisted block id answers).1.faulted = worker.faulted := by
  unfold deliverPersisted
  dsimp only
  split
  . split
    . rfl
    . rfl
  . split
    . rfl
    . rfl

theorem finishInserted_faulted (worker : BlockProcessorWorker) (committed : BlockCommitted) :
    (worker.finishInserted stage sources emitOnStart block committed answers).1.faulted
      = worker.faulted := by
  have hdeliver := deliverPersisted_faulted (worker.emit (.offered committed)) block committed.id answers
  unfold finishInserted
  split
  . rfl
  . split
    . unfold announceSealed
      split
      . rw [delivered_fst]
        exact hdeliver
      . exact hdeliver
    . rw [delivered_fst]
      exact hdeliver

theorem admitBlock_faulted (worker : BlockProcessorWorker) (presence : BlockPresence) :
    (worker.admitBlock stage sources emitOnStart block presence answers).1.faulted = worker.faulted := by
  unfold admitBlock
  split
  . rfl
  . rw [delivered_fst]
    exact deliverPersisted_faulted _ _ _ _
  . unfold materialize
    split
    . rw [delivered_fst]
      exact deliverPersisted_faulted _ _ _ _
    . exact finishInserted_faulted _ _
    . rfl
    . split
      . rfl
      . unfold admitOrphan
        split
        . split
          . rfl
          . rfl
        . rfl
    . rfl

end Faulted

def Yields (worker : BlockProcessorWorker)
    (result : BlockProcessorWorker × Except ComponentFault BlockDisposition)
    (effect : BlockProcessorEffect) : Prop :=
  ∃ effects, worker.Extends result.1 effects ∧
    ((∃ fault, result.2 = .error fault) ∨ effect ∈ effects)

theorem deliverPersisted_yields (worker : BlockProcessorWorker) (block : ValidatedNodeBlock)
    (id : CompactId) (answers : BlockAnswers) :
    worker.Yields (delivered (worker.deliverPersisted block id answers))
      (.orphanMessage (.blockPersisted block.hash)) := by
  obtain ⟨deliveries, hextends, _, _⟩ := worker.deliverPersisted_spec block id answers
  refine ⟨deliveries, ?_, ?_⟩
  . rw [delivered_fst]
    exact hextends
  . have htrace := hextends.trace
    unfold deliverPersisted at htrace ⊢
    dsimp only at htrace ⊢
    split
    . next hpersisted =>
      split
      . next horphan =>
        rw [hpersisted, horphan] at htrace
        refine Or.inr ?_
        have hdeliveries : deliveries = [_] ++ [_] :=
          List.append_cancel_left (htrace.symm.trans (List.append_assoc _ _ _))
        rw [hdeliveries]
        simp
      . exact Or.inl ⟨_, rfl⟩
    . split
      . exact Or.inl ⟨_, rfl⟩
      . exact Or.inl ⟨_, rfl⟩

theorem Yields.of_emit {first effect : BlockProcessorEffect}
    {result : BlockProcessorWorker × Except ComponentFault BlockDisposition}
    (h : (worker.emit first).Yields result effect) :
    ∃ effects, worker.Extends result.1 (first :: effects) ∧
      ((∃ fault, result.2 = .error fault) ∨ effect ∈ effects) := by
  obtain ⟨effects, hextends, hor⟩ := h
  exact ⟨effects, (emit_extends worker first).trans hextends, hor⟩

theorem finishInserted_extends (worker : BlockProcessorWorker) (committed : BlockCommitted) :
    ∃ effects, worker.Extends
      (worker.finishInserted stage sources emitOnStart block committed answers).1 effects := by
  unfold finishInserted
  have hoffered := worker.emit_extends (.offered committed)
  split
  . exact ⟨_, hoffered⟩
  . obtain ⟨_, hdeliver, _⟩ :=
      (worker.emit (.offered committed)).deliverPersisted_spec block committed.id answers
    split
    . obtain ⟨_, _, hannounce, _⟩ := announceSealed_spec
        ((worker.emit (.offered committed)).deliverPersisted block committed.id answers).1 answers
        ((worker.emit (.offered committed)).deliverPersisted block committed.id answers).2
      exact ⟨_, (hoffered.trans hdeliver).trans hannounce⟩
    . rw [delivered_fst]
      exact ⟨_, hoffered.trans hdeliver⟩

inductive MaterializationEnding (block : ValidatedNodeBlock) (effects : List BlockProcessorEffect) :
    Except MaterializeBlockError MaterializeBlockOutcome → Prop where
  | inserted (committed : BlockCommitted) : MaterializationEnding block effects (.ok (.inserted committed))
  | recognized (id : CompactId) (coordinate : BlockCoordinate)
      (heffect : .orphanMessage (.blockPersisted block.hash) ∈ effects) :
      MaterializationEnding block effects (.ok (.alreadyMaterialized id coordinate))
  | orphaned (missing : List BlockHash)
      (heffect : .orphanMessage (.addOrphan block missing) ∈ effects) :
      MaterializationEnding block effects (.error (.nonMaterializedReferences missing []))

theorem materialize_ending (worker : BlockProcessorWorker) :
    ∃ effects, worker.Extends
        (worker.materialize stage sources emitOnStart block answers).1
        (.materialized block (referencePolicy stage block) answers.materialization :: effects) ∧
      ((∃ fault, (worker.materialize stage sources emitOnStart block answers).2 = .error fault) ∨
        MaterializationEnding block effects answers.materialization) := by
  unfold materialize
  have hfirst := worker.emit_extends
    (.materialized block (referencePolicy stage block) answers.materialization)
  cases hanswer : answers.materialization with
  | ok outcome =>
    rw [hanswer] at hfirst
    cases outcome with
    | inserted committed =>
      obtain ⟨effects, hextends⟩ := finishInserted_extends (worker.emit
        (.materialized block (referencePolicy stage block) (.ok (.inserted committed)))) committed
      exact ⟨effects, hfirst.trans hextends, Or.inr (.inserted committed)⟩
    | alreadyMaterialized id coordinate =>
      obtain ⟨effects, hextends, hor⟩ := (deliverPersisted_yields (worker.emit
        (.materialized block (referencePolicy stage block) (.ok (.alreadyMaterialized id coordinate))))
        block id answers).of_emit
      exact ⟨effects, hextends, hor.imp_right fun heffect => .recognized id coordinate heffect⟩
  | error error =>
    rw [hanswer] at hfirst
    cases error with
    | database error => exact ⟨[], hfirst, Or.inl ⟨_, rfl⟩⟩
    | incomingBoundaryIdentity hash => exact ⟨[], hfirst, Or.inl ⟨_, rfl⟩⟩
    | nonMaterializedReferences missing identityOnly =>
      dsimp only
      split
      . exact ⟨[], hfirst, Or.inl ⟨_, rfl⟩⟩
      . next hnil =>
        rw [not_not] at hnil
        subst hnil
        unfold admitOrphan
        split
        . split
          . refine ⟨_, hfirst.trans (emit_extends _ _), Or.inr (.orphaned missing ?_)⟩
            exact List.mem_singleton_self _
          . exact ⟨[], hfirst, Or.inl ⟨_, rfl⟩⟩
        . exact ⟨[], hfirst, Or.inl ⟨_, rfl⟩⟩

theorem enterFault_mem (worker : BlockProcessorWorker) (fault : ComponentFault)
    (orphanShutdown : Except ChildControlError Unit) (hfaulted : worker.faulted = false) :
    ∃ effects, worker.Extends (worker.enterFault fault orphanShutdown) effects ∧ .fault fault ∈ effects := by
  obtain ⟨effects, hextends, _, _⟩ := worker.enterFault_spec fault orphanShutdown
  refine ⟨effects, hextends, ?_⟩
  have htrace := hextends.trace
  unfold enterFault at htrace
  rw [if_neg (by simp [hfaulted])] at htrace
  split at htrace
  . split at htrace
    . rw [← List.append_cancel_left htrace]
      exact List.mem_singleton_self _
    . rw [← List.append_cancel_left ((List.append_assoc _ _ _).symm.trans htrace)]
      exact List.mem_append_left _ (List.mem_singleton_self _)
  . rw [← List.append_cancel_left htrace]
    exact List.mem_singleton_self _

theorem recordSource_extends (worker : BlockProcessorWorker) (hash : BlockHash) (source : BlockSource) :
    worker.Extends (worker.recordSource hash source) [] := by
  unfold recordSource
  split
  . split
    . exact Extends.refl worker
    . exact ⟨(List.append_nil _).symm, rfl, rfl, rfl, id⟩
  . exact Extends.refl worker

theorem settle_spec (worker : BlockProcessorWorker) (hfaulted : worker.faulted = false)
    (result : Except ComponentFault BlockDisposition) :
    ∃ effects, worker.Extends (worker.settle block source answers result) effects ∧
      ∀ fault, result = .error fault → .fault fault ∈ effects := by
  cases result with
  | ok disposition =>
    exact ⟨[], recordSource_extends _ _ _, fun _ h => nomatch h⟩
  | error fault =>
    obtain ⟨effects, hextends, hmem⟩ := worker.enterFault_mem fault answers.orphanShutdown hfaulted
    refine ⟨effects, hextends, ?_⟩
    intro fault' heq
    cases heq
    exact hmem

def Repeats (worker : BlockProcessorWorker) (block : ValidatedNodeBlock) (source : BlockSource)
    (presence : Except ProcessingDbError BlockPresence) : Prop :=
  ∃ stage sources emitOnStart known, worker.run = .active stage sources emitOnStart ∧
    presence = .ok known ∧ isRepeated stage sources block.hash known source = true

inductive Ending (worker : BlockProcessorWorker) (block : ValidatedNodeBlock) (source : BlockSource)
    (answers : BlockAnswers) (effects : List BlockProcessorEffect) : Prop where
  | repeated (hrepeats : worker.Repeats block source answers.presence) (heffects : effects = [])
  | recognized (id : CompactId) (coordinate : BlockCoordinate)
      (hpresence : answers.presence = .ok (.materialized id coordinate))
      (heffect : .orphanMessage (.blockPersisted block.hash) ∈ effects)
  | asked (policy : ReferencePolicy)
      (hasks : worker.asksMaterialization block source answers.presence = some policy)
      (hend : MaterializationEnding block effects answers.materialization)
  | faulted (fault : ComponentFault) (heffect : .fault fault ∈ effects)

theorem MaterializationEnding.append {effects : List BlockProcessorEffect}
    {answer : Except MaterializeBlockError MaterializeBlockOutcome}
    (h : MaterializationEnding block effects answer) (first : BlockProcessorEffect)
    (more : List BlockProcessorEffect) : MaterializationEnding block (first :: effects ++ more) answer := by
  have hmem : ∀ effect ∈ effects, effect ∈ first :: effects ++ more := fun effect hmem =>
    List.mem_append_left _ (List.mem_cons_of_mem _ hmem)
  cases h with
  | inserted committed => exact .inserted committed
  | recognized id coordinate heffect => exact .recognized id coordinate (hmem _ heffect)
  | orphaned missing heffect => exact .orphaned missing (hmem _ heffect)

theorem handleBlock_ending (block : ValidatedNodeBlock) (answers : BlockAnswers)
    (hrun : worker.run = .active stage sources emitOnStart) (hfaulted : worker.faulted = false)
    (hawaits : worker.awaits source = true) :
    ∃ effects, worker.Extends (worker.handleBlock block source answers) effects ∧
      (∀ policy, worker.asksMaterialization block source answers.presence = some policy →
        .materialized block policy answers.materialization ∈ effects) ∧
      worker.Ending block source answers effects := by
  unfold awaits at hawaits
  rw [hrun] at hawaits
  unfold handleBlock
  rw [hrun]
  dsimp only at hawaits ⊢
  rw [if_neg (by simpa [imp_iff_not_or] using hawaits)]
  cases hpresence : answers.presence with
  | error error =>
    obtain ⟨effects, hextends, hmem⟩ := worker.enterFault_mem (storageFault error worker.isLive)
      answers.orphanShutdown hfaulted
    refine ⟨effects, hextends, ?_, .faulted _ hmem⟩
    intro policy hasks
    unfold asksMaterialization at hasks
    rw [hrun] at hasks
    cases hasks
  | ok presence =>
    dsimp only
    by_cases hrepeated : isRepeated stage sources block.hash presence source = true
    . rw [if_pos hrepeated]
      have hnone : worker.asksMaterialization block source (.ok presence) = none := by
        unfold asksMaterialization
        rw [hrun]
        cases presence with
        | absent => exact if_pos hrepeated
        | boundaryIdentity id => rfl
        | materialized id coordinate => rfl
      refine ⟨[], Extends.refl worker, ?_, .repeated ?_ rfl⟩
      . intro policy hasks
        rw [hnone] at hasks
        cases hasks
      . exact ⟨stage, sources, emitOnStart, presence, hrun, hpresence, hrepeated⟩
    . rw [if_neg hrepeated]
      have hadmitted : (worker.admitBlock stage sources emitOnStart block presence answers).1.faulted
          = false := (admitBlock_faulted worker presence).trans hfaulted
      obtain ⟨more, hmore, hreports⟩ := settle_spec
        (worker.admitBlock stage sources emitOnStart block presence answers).1 hadmitted
        (worker.admitBlock stage sources emitOnStart block presence answers).2
      cases presence with
      | boundaryIdentity id =>
        exact ⟨more, hmore, (fun _ h => by
          unfold asksMaterialization at h
          rw [hrun] at h
          cases h), .faulted _ (hreports _ rfl)⟩
      | materialized id coordinate =>
        obtain ⟨effects, hextends, hor⟩ := deliverPersisted_yields worker block id answers
        refine ⟨effects ++ more, hextends.trans hmore, ?_, ?_⟩
        . intro policy hasks
          unfold asksMaterialization at hasks
          rw [hrun] at hasks
          cases hasks
        . obtain ⟨fault, hfault⟩ | hmem := hor
          . exact .faulted fault (List.mem_append_right _ (hreports fault hfault))
          . exact .recognized id coordinate hpresence (List.mem_append_left _ hmem)
      | absent =>
        have hasks : worker.asksMaterialization block source (.ok .absent)
            = some (referencePolicy stage block) := by
          unfold asksMaterialization
          rw [hrun]
          exact if_neg hrepeated
        obtain ⟨effects, hextends, hor⟩ := @materialize_ending stage sources emitOnStart block answers worker
        refine ⟨_, hextends.trans hmore, ?_, ?_⟩
        . intro policy hpolicy
          rw [hasks] at hpolicy
          cases hpolicy
          exact List.mem_append_left _ List.mem_cons_self
        . obtain ⟨fault, hfault⟩ | hend := hor
          . exact .faulted fault (List.mem_append_right _ (hreports fault hfault))
          . exact .asked _ (hpresence ▸ hasks) (hend.append _ more)

end BlockProcessorWorker

end Kgi
