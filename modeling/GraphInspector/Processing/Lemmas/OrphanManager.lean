import GraphInspector.Processing.Impl.OrphanManager
import GraphInspector.Processing.Lemmas.Orphan

/-!
What one message does to the manager, and the tracking guarantee of whole runs.
-/

namespace Kgi

open Data

namespace OrphanManagerWorker

section Sends

variable {worker worker' : OrphanManagerWorker}

@[simp]
theorem enterFault_topology (kind : ChildFaultKind) :
    (worker.enterFault kind).topology = worker.topology := by
  unfold enterFault
  split <;> rfl

@[simp]
theorem enterFault_state (kind : ChildFaultKind) : (worker.enterFault kind).state = .faulted := by
  unfold enterFault
  split
  . assumption
  . rfl

@[simp]
theorem enterFault_work (kind : ChildFaultKind) : (worker.enterFault kind).work = worker.work := by
  unfold enterFault
  split <;> rfl

structure Sent (works : List ResolverWork) (readies : List ValidatedNodeBlock)
    (worker worker' : OrphanManagerWorker) : Prop where
  topology : worker'.topology = worker.topology
  state : worker'.state = worker.state
  work : worker'.work.items = worker.work.items ++ works
  resolution : worker'.resolution.items = worker.resolution.items ++ readies.map .orphanReady

theorem Sent.refl : Sent [] [] worker worker := ⟨rfl, rfl, by simp, by simp⟩

theorem Sent.trans {worker'' : OrphanManagerWorker} {works works' : List ResolverWork}
    {readies readies' : List ValidatedNodeBlock} (h : Sent works readies worker worker')
    (h' : Sent works' readies' worker' worker'') :
    Sent (works ++ works') (readies ++ readies') worker worker'' where
  topology := h'.topology.trans h.topology
  state := h'.state.trans h.state
  work := by rw [h'.work, h.work, List.append_assoc]
  resolution := by rw [h'.resolution, h.resolution, List.map_append, List.append_assoc]

theorem sendWork_spec (item : ResolverWork) :
    (∃ sent, worker.sendWork item = (sent, true) ∧ Sent [item] [] worker sent)
      ∨
    (∃ kind, worker.sendWork item = (worker.enterFault kind, false)) := by
  unfold sendWork
  split
  . next work h =>
    left
    exact ⟨_, rfl, rfl, rfl, Queue.trySend_items h, by simp⟩
  . exact Or.inr ⟨_, rfl⟩
  . exact Or.inr ⟨_, rfl⟩

theorem sendReady_spec (block : ValidatedNodeBlock) :
    (∃ sent, worker.sendReady block = (sent, true) ∧ Sent [] [block] worker sent)
      ∨
    (∃ kind, worker.sendReady block = (worker.enterFault kind, false)) := by
  unfold sendReady
  split
  . next resolution h =>
    left
    exact ⟨_, rfl, rfl, rfl, by simp, Queue.trySend_items h⟩
  . exact Or.inr ⟨_, rfl⟩
  . exact Or.inr ⟨_, rfl⟩

theorem sendEach_spec {α : Type} {send : OrphanManagerWorker → α → OrphanManagerWorker × Bool}
    (works : α → List ResolverWork) (readies : α → List ValidatedNodeBlock)
    (hsend : ∀ (worker : OrphanManagerWorker) (item : α),
      (∃ sent, send worker item = (sent, true) ∧ Sent (works item) (readies item) worker sent) ∨
      (∃ kind, send worker item = (worker.enterFault kind, false)))
    (worker : OrphanManagerWorker) (items : List α) :
    (∃ sent, sendEach send worker items = (sent, true) ∧
      Sent (items.flatMap works) (items.flatMap readies) worker sent)
      ∨
    (∃ before after sent kind, items = before ++ after ∧
      Sent (before.flatMap works) (before.flatMap readies) worker sent ∧
      sendEach send worker items = (sent.enterFault kind, false)) := by
  induction items generalizing worker with
  | nil => exact Or.inl ⟨worker, rfl, .refl⟩
  | cons item items ih =>
    obtain ⟨sent, heq, hsent⟩ | ⟨kind, heq⟩ := hsend worker item
    . obtain ⟨sent', heq', hsent'⟩ | ⟨before, after, sent', kind, hitems, hsent', heq'⟩ := ih sent
      . left
        refine ⟨sent', ?_, hsent.trans hsent'⟩
        simp only [sendEach, heq, heq']
      . right
        refine ⟨item :: before, after, sent', kind, by rw [hitems]; rfl, hsent.trans hsent', ?_⟩
        simp only [sendEach, heq, heq']
    . right
      refine ⟨[], item :: items, worker, kind, rfl, .refl, ?_⟩
      simp only [sendEach, heq]

theorem sendEach_sendWork (worker : OrphanManagerWorker) (items : List ResolverWork) :
    (∃ sent, sendEach sendWork worker items = (sent, true) ∧ Sent items [] worker sent)
      ∨
    (∃ before after sent kind, items = before ++ after ∧ Sent before [] worker sent ∧
      sendEach sendWork worker items = (sent.enterFault kind, false)) := by
  have h := sendEach_spec (fun item => [item]) (fun _ => [])
    (fun worker item => @sendWork_spec worker item) worker items
  have hnil : ∀ l : List ResolverWork, l.flatMap (fun _ => ([] : List ValidatedNodeBlock)) = [] := by
    simp
  simpa only [List.flatMap_singleton', hnil] using h

theorem sendEach_sendReady (worker : OrphanManagerWorker) (blocks : List ValidatedNodeBlock) :
    (∃ sent, sendEach sendReady worker blocks = (sent, true) ∧ Sent [] blocks worker sent)
      ∨
    (∃ before after sent kind, blocks = before ++ after ∧ Sent [] before worker sent ∧
      sendEach sendReady worker blocks = (sent.enterFault kind, false)) := by
  have h := sendEach_spec (fun _ => []) (fun block => [block])
    (fun worker block => @sendReady_spec worker block) worker blocks
  have hnil : ∀ l : List ValidatedNodeBlock, l.flatMap (fun _ => ([] : List ResolverWork)) = [] := by
    simp
  simpa only [List.flatMap_singleton', hnil] using h

end Sends

theorem mutate_refused {topology topology' : OrphanTopology} {message : OrphanMessage}
    {error : TopologyError} (h : mutate topology message = (topology', .error error)) :
    topology' = topology := by
  cases message with
  | addOrphan block missing => exact OrphanTopology.addOrphan_refused h
  | blockPersisted hash => cases h

theorem handleMessage_cases (worker : OrphanManagerWorker) (message : OrphanMessage) :
    (∃ error kind, mutate worker.topology message = (worker.topology, .error error) ∧
      worker.handleMessage message = worker.enterFault kind)
      ∨
    (∃ topology mutation works readies sent kind,
      mutate worker.topology message = (topology, .ok mutation) ∧
      works <+: mutation.cancel.map .cancel ++ topology.takeResolutionCandidates.2.map .resolve ∧
      Sent works readies { worker with topology := sent.topology } sent ∧
      (sent.topology = topology ∨ sent.topology = topology.takeResolutionCandidates.1) ∧
      worker.handleMessage message = sent.enterFault kind)
      ∨
    (∃ topology mutation, mutate worker.topology message = (topology, .ok mutation) ∧
      Sent (mutation.cancel.map .cancel ++ topology.takeResolutionCandidates.2.map .resolve)
        mutation.ready { worker with topology := topology.takeResolutionCandidates.1 }
        (worker.handleMessage message)) := by
  unfold handleMessage
  rcases hmutate : mutate worker.topology message with ⟨topology, mutated⟩
  cases mutated with
  | error error =>
    left
    cases mutate_refused hmutate
    cases error with
    | capacityExhausted => exact ⟨_, _, rfl, rfl⟩
    | emptyMissingSet => exact ⟨_, _, rfl, rfl⟩
  | ok mutation =>
    right
    -- The three loops of sends, each of which may be the last.
    obtain ⟨cancelled, hcancelled, hs⟩ | ⟨before, after, sent, kind, hitems, hs, heq⟩ :=
      sendEach_sendWork { worker with topology := topology } (mutation.cancel.map .cancel)
    . obtain ⟨released, hreleased, hr⟩ | ⟨before, after, sent, kind, hitems, hr, heq⟩ :=
        sendEach_sendReady cancelled mutation.ready
      . have htop : released.topology = topology := hr.topology.trans hs.topology
        obtain ⟨final, hfinal, hf⟩ | ⟨before, after, sent, kind, hitems, hf, heq⟩ :=
          sendEach_sendWork { released with topology := topology.takeResolutionCandidates.1 }
            (topology.takeResolutionCandidates.2.map .resolve)
        . right
          refine ⟨topology, mutation, rfl, ?_⟩
          simp only [hcancelled, hreleased, htop, hfinal]
          exact ⟨hf.topology, hf.state.trans (hr.state.trans hs.state),
            by rw [hf.work, hr.work, hs.work]; simp, by rw [hf.resolution, hr.resolution, hs.resolution]; simp⟩
        . left
          refine ⟨topology, mutation, mutation.cancel.map .cancel ++ before, mutation.ready, sent,
            kind, rfl, ?_, ?_, Or.inr hf.topology, ?_⟩
          . rw [hitems]
            exact ⟨after, by simp⟩
          . exact ⟨rfl, hf.state.trans (hr.state.trans hs.state),
              by rw [hf.work, hr.work, hs.work]; simp,
              by rw [hf.resolution, hr.resolution, hs.resolution]; simp⟩
          . simp only [hcancelled, hreleased, htop, heq]
      . left
        refine ⟨topology, mutation, mutation.cancel.map .cancel, before, sent, kind, rfl,
          List.prefix_append _ _, ?_, Or.inl (hr.topology.trans hs.topology), ?_⟩
        . exact ⟨rfl, hr.state.trans hs.state, by rw [hr.work, hs.work]; simp,
            by rw [hr.resolution, hs.resolution]; simp⟩
        . simp only [hcancelled, heq]
    . left
      refine ⟨topology, mutation, before, [], sent, kind, rfl, ?_, ?_, Or.inl hs.topology, ?_⟩
      . rw [hitems, List.append_assoc]
        exact List.prefix_append _ _
      . exact ⟨rfl, hs.state, hs.work, hs.resolution⟩
      . simp only [heq]

end OrphanManagerWorker

end Kgi
