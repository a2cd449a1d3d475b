import GraphInspector.Processing.Lemmas.VspcAction

/-!
What one step of the VSPC processor can do to its state and to the worker.
-/

namespace Kgi

open Data

variable {answers : VspcAnswers}

namespace VspcState

inductive Moves (state : VspcState) : VspcProcessorInput → VspcState → List VspcProcessorEffect → Prop
  | catchup (syntheticSinkLowerBound : VspcPoint) (hphase : state.phase = .synchronizing) :
    Moves state (.catchup syntheticSinkLowerBound)
      { state with phase := .catchup syntheticSinkLowerBound } []
  | live (syntheticSinkLowerBound : VspcPoint)
    (hphase : state.phase = .catchup syntheticSinkLowerBound) : Moves state .live state.enterLive []
  | persisted (block : PersistedBlock) :
    Moves state (.persisted (some block)) (state.persist block) [.delivered block]
  | synthetic (change : VspcChange) (destination : BlockHash)
    (hdestination : change.added.getLast? = some destination) (hphase : state.phase ≠ .live) :
    Moves state (.synthetic change) (state.admitChange change destination .synthetic) []
  | notification (change : VspcChange) (destination : BlockHash)
    (hdestination : change.added.getLast? = some destination) (hphase : state.phase ≠ .synchronizing)
    (hunique : state.notificationByDestination[destination]? = none) :
    Moves state (.notification change) (state.admitChange change destination .notification) []
  | discard (answers : VspcAnswers) (id : PendingId) (overlap : Bool)
    (haction : state.nextAction = some (.discard id overlap)) :
    Moves state (.drive answers) (state.removeCandidate id) []
  | normalizeCrossing (answers : VspcAnswers) (id : PendingId) (suffix : List BlockHash)
    (haction : state.nextAction = some (.normalizeCrossing id suffix)) :
    Moves state (.drive answers) (state.normalized id suffix) []
  | markOverlap (answers : VspcAnswers) (id : PendingId)
    (haction : state.nextAction = some (.markOverlap id)) :
    Moves state (.drive answers) (state.overlapMarked id) []
  | commit (answers : VspcAnswers) (id : PendingId) (candidate : PendingCandidate)
    (prepared : PreparedCandidate) (outcome : VspcCommitOutcome)
    (haction : state.nextAction = some (.commit id)) (hget : state.pending[id]? = some candidate)
    (hprepared : VspcProcessorWorker.prepareCandidate state candidate answers = .ok (some prepared))
    (hdestination : outcome.destination = prepared.ready.destination) :
    Moves state (.drive answers) (state.committed id prepared.ready.destination)
      [.applied state.phase prepared.ready prepared.hashes,
        .offered ⟨prepared.ready.source.hash, prepared.ready.destination.hash, prepared.hashes.removed,
          prepared.hashes.added, outcome.levelSnapshots⟩]

variable {state next : VspcState} {id : PendingId} {candidate : PendingCandidate}

theorem prepareCandidate_eq_ok {prepared : PreparedCandidate}
    (h : VspcProcessorWorker.prepareCandidate state candidate answers = .ok (some prepared)) :
    state.endpoints candidate.change = some (prepared.ready.source, prepared.ready.destination) ∧
      prepared.hashes = candidate.change := by
  unfold VspcProcessorWorker.prepareCandidate at h
  split at h
  . cases h
  . next source destination hendpoints =>
    cases hmembers : VspcProcessorWorker.resolveMembers state candidate.change answers with
    | error fault =>
      rw [hmembers] at h
      cases h
    | ok members =>
      rw [hmembers] at h
      obtain ⟨⟨removed, added⟩, -, rfl⟩ := Option.map_eq_some_iff.mp (Except.ok.inj h)
      exact ⟨hendpoints, rfl⟩

theorem Choice.commit_source (h : state.Choice (.commit id)) (hget : state.pending[id]? = some candidate) :
    ∃ destination, state.endpoints candidate.change = some (state.committedSink, destination) := by
  cases h with
  | syntheticCommit id candidate' destination hhead hget' hendpoints =>
    rw [hget] at hget'
    cases hget'
    exact ⟨destination, hendpoints⟩
  | liveCommit order id candidate' destination hphase hresolved hget' hsink hendpoints =>
    rw [hget] at hget'
    cases hget'
    exact ⟨destination, hendpoints⟩

theorem Sound.order_of_resolved (h : state.Sound) {order : ConsensusOrder}
    (hresolved : state.resolvedNotifications[order]? = some id)
    (hget : state.pending[id]? = some candidate) :
    candidate.source = .notification ∧
      ∃ block, state.history.byHash[candidate.destination]? = some block ∧ block.point.order = order := by
  obtain ⟨found, hfound, horder⟩ := (h.indexed.resolved order id).mp hresolved
  rw [hget] at hfound
  cases hfound
  rw [PendingCandidate.notifiedOrder_eq_some, ← h.fresh id candidate hget] at horder
  obtain ⟨block, hblock, heq⟩ := Option.map_eq_some_iff.mp horder.2
  exact ⟨horder.1, block, hblock, heq⟩

theorem Sound.live_commit (h : state.Sound) (hchoice : state.Choice (.commit id))
    (hphase : state.phase = .live) (hget : state.pending[id]? = some candidate)
    {source destination : VspcPoint}
    (hendpoints : state.endpoints candidate.change = some (source, destination)) :
    state.committedSink.order < destination.order := by
  cases hchoice with
  | syntheticCommit id candidate' _ hhead hget' _ =>
    -- Nothing synthetic is pending in Live.
    have hmem := List.mem_of_mem_head? hhead
    obtain ⟨found, hfound, hsynthetic⟩ := (h.indexed.synthetic id).mp hmem
    rw [PendingCandidate.isSynthetic_iff] at hsynthetic
    exact absurd (h.live hphase id found hfound) hsynthetic
  | liveCommit order id _ _ _ hresolved _ hsink _ =>
    obtain ⟨-, block, hblock, horder⟩ := h.order_of_resolved hresolved hget
    obtain ⟨_, last, _, lastBlock, -, hlast, -, hlastBlock, -, rfl⟩ := endpoints_eq_some.mp hendpoints
    rw [h.indexed.destination id candidate hget] at hlast
    cases hlast
    rw [hblock] at hlastBlock
    cases hlastBlock
    rw [horder]
    exact hsink

theorem Sound.moves (h : state.Sound) {input : VspcProcessorInput} {effects : List VspcProcessorEffect}
    (hmoves : state.Moves input next effects) : next.Sound := by
  cases hmoves with
  | catchup bound _ => exact h.enterCatchup bound
  | live bound _ => exact h.enterLive
  | persisted block => exact h.persist block
  | synthetic change destination hdestination hphase =>
    apply h.admitChange hdestination
    . intro hsource
      cases hsource
    . exact fun _ => hphase
    . intro hsource
      cases hsource
  | notification change destination hdestination hphase hunique =>
    apply h.admitChange hdestination
    . exact fun _ => hphase
    . intro hsource
      cases hsource
    . exact fun _ => hunique
  | discard answers id overlap _ => exact h.removeCandidate id
  | normalizeCrossing answers id suffix haction =>
    cases Choice.of_nextAction haction with
    | crossing bound order id candidate hphase hresolved hget hsuffix =>
      exact h.normalized hget (getLast_suffixAfter hsuffix)
  | markOverlap answers id haction =>
    cases Choice.of_nextAction haction with
    | overlap bound order id candidate hphase hresolved hget _ hstarts => exact h.overlapMarked hget
  | commit answers id candidate prepared outcome haction hget hprepared hdestination =>
    obtain ⟨hendpoints, -⟩ := prepareCandidate_eq_ok hprepared
    obtain ⟨_, last, _, block, -, -, -, hblock, -, hpoint⟩ := endpoints_eq_some.mp hendpoints
    rw [← hpoint]
    apply h.committed id
    rw [(h.history.byHash last block hblock).1]
    exact hblock

end VspcState

namespace VspcProcessorWorker

inductive Transition (worker : VspcProcessorWorker) (input : VspcProcessorInput)
    (next : VspcProcessorWorker) : Prop
  | quiet (hrun : next.run = worker.run) (hanchor : next.anchor = worker.anchor)
    (htrace : next.trace = worker.trace)
  | fault (fault : ComponentFault) (hfaulted : next.faulted = true) (hrun : next.run = worker.run)
    (hanchor : next.anchor = worker.anchor) (htrace : next.trace = worker.trace ++ [.fault fault])
  | initialized (mode : RecoveryMode) (anchor : MaterializedSyncAnchor)
    (hinput : input = .initializeRun anchor) (hinert : worker.run = .inert mode)
    (hrun : next.run = .active (.new anchor)) (hanchor : next.anchor = some anchor)
    (htrace : next.trace = worker.trace)
  | moved (state state' : VspcState) (effects : List VspcProcessorEffect)
    (hactive : worker.run = .active state) (hmoves : state.Moves input state' effects)
    (hrun : next.run = .active state') (hanchor : next.anchor = worker.anchor)
    (htrace : next.trace = worker.trace ++ effects)

variable {worker next : VspcProcessorWorker} {input : VspcProcessorInput} {state : VspcState}

theorem Transition.of_enterFault (input : VspcProcessorInput) (fault : ComponentFault) :
    Transition worker input (worker.enterFault fault) := by
  unfold enterFault
  split
  . exact .quiet rfl rfl rfl
  . exact .fault fault rfl rfl rfl rfl

theorem Transition.congr (h : Transition worker input next) {next' : VspcProcessorWorker}
    (hrun : next'.run = next.run) (hanchor : next'.anchor = next.anchor) (htrace : next'.trace = next.trace)
    (hfaulted : next'.faulted = next.faulted) : Transition worker input next' := by
  cases h with
  | quiet hrun' hanchor' htrace' =>
    exact .quiet (hrun.trans hrun') (hanchor.trans hanchor') (htrace.trans htrace')
  | fault fault hfaulted' hrun' hanchor' htrace' =>
    exact .fault fault (hfaulted.trans hfaulted') (hrun.trans hrun') (hanchor.trans hanchor')
      (htrace.trans htrace')
  | initialized mode anchor hinput hinert hrun' hanchor' htrace' =>
    exact .initialized mode anchor hinput hinert (hrun.trans hrun') (hanchor.trans hanchor')
      (htrace.trans htrace')
  | moved state state' effects hactive hmoves hrun' hanchor' htrace' =>
    exact .moved state state' effects hactive hmoves (hrun.trans hrun') (hanchor.trans hanchor')
      (htrace.trans htrace')

theorem Transition.of_catchup (syntheticSinkLowerBound : VspcPoint) :
    Transition worker (.catchup syntheticSinkLowerBound) (worker.catchup syntheticSinkLowerBound) := by
  unfold catchup
  split
  . exact .of_enterFault _ _
  . next state hactive =>
    split
    . next hphase => exact .moved state _ [] hactive (.catchup _ hphase) rfl rfl (List.append_nil _).symm
    . exact .of_enterFault _ _

theorem Transition.of_live : Transition worker .live worker.live := by
  unfold live
  split
  . exact .of_enterFault _ _
  . next state hactive =>
    split
    . next bound hphase =>
      exact .moved state _ [] hactive (.live bound hphase) rfl rfl (List.append_nil _).symm
    . exact .of_enterFault _ _

theorem Transition.of_reportCommandPathLoss :
    Transition worker .commandPathClosed worker.reportCommandPathLoss := by
  unfold reportCommandPathLoss
  split
  . exact .quiet rfl rfl rfl
  . exact .of_enterFault _ _

theorem Transition.of_initializeRun {anchor : MaterializedSyncAnchor}
    (h : worker.initializeRun anchor = .ok next) : Transition worker (.initializeRun anchor) next := by
  unfold initializeRun at h
  split at h
  . cases h
  . next mode hinert =>
    split at h
    . cases h
    . cases h
      exact .initialized mode anchor rfl hinert rfl rfl rfl

theorem Transition.of_handleChange {change : VspcChange} {source : CandidateSource}
    (hactive : worker.run = .active state)
    (hinput : input = match source with
      | .synthetic => .synthetic change
      | .notification => .notification change) :
    Transition worker input (worker.handleChange state change source) := by
  unfold handleChange
  split
  . exact .of_enterFault _ _
  . next destination hdestination =>
    split
    . exact .quiet rfl rfl rfl
    . next hnotification =>
      split
      . exact .quiet rfl rfl rfl
      . next hsynthetic =>
        split
        . exact .of_enterFault _ _
        . next hunique =>
          split
          . exact .of_enterFault _ _
          . refine .moved state _ [] hactive ?_ rfl rfl (List.append_nil _).symm
            cases source with
            | synthetic =>
              rw [hinput]
              exact .synthetic change destination hdestination fun hphase => hsynthetic ⟨rfl, hphase⟩
            | notification =>
              rw [hinput]
              exact .notification change destination hdestination
                (fun hphase => hnotification ⟨rfl, hphase⟩) hunique

theorem Transition.of_commitCandidate {id : PendingId} (hactive : worker.run = .active state)
    (haction : state.nextAction = some (.commit id))
    (h : worker.commitCandidate state id answers = some next) :
    Transition worker (.drive answers) next := by
  obtain ⟨candidate, hget, h⟩ := Option.bind_eq_some_iff.mp h
  split at h
  . cases h
    exact .of_enterFault _ _
  . cases h
  . next prepared hprepared =>
    split at h
    . next outcome _ =>
      split at h
      . next hdestination =>
        cases h
        have hmoves := VspcState.Moves.commit answers id candidate prepared outcome haction hget hprepared
          hdestination
        apply Transition.moved state _ _ hactive hmoves
        . rw [← hdestination]
          rfl
        . rfl
        . rw [← hdestination]
          exact List.append_assoc _ _ _
      . cases h
    . cases h
      exact .of_enterFault _ _
    . cases h
      exact .of_enterFault _ _
    . cases h
      exact .of_enterFault _ _
    . split at h
      . cases h
        exact .of_enterFault _ _
      . cases h
        exact .quiet rfl rfl rfl

theorem Transition.of_drive {action : DriveAction} (hactive : worker.run = .active state)
    (haction : state.nextAction = some action) (h : worker.drive state answers action = some next) :
    Transition worker (.drive answers) next := by
  cases action with
  | discard id overlap =>
    cases h
    exact .moved state _ [] hactive (.discard answers id overlap haction) rfl rfl
      (List.append_nil _).symm
  | normalizeCrossing id suffix =>
    cases h
    exact .moved state _ [] hactive (.normalizeCrossing answers id suffix haction) rfl rfl
      (List.append_nil _).symm
  | markOverlap id =>
    cases h
    exact .moved state _ [] hactive (.markOverlap answers id haction) rfl rfl (List.append_nil _).symm
  | commit id => exact .of_commitCandidate hactive haction h
  | competingNotifications =>
    cases h
    exact .of_enterFault _ _
  | syntheticSourceMismatch =>
    cases h
    exact .of_enterFault _ _

theorem Transition.of_serve {handle : VspcState → VspcProcessorWorker}
    (hhandle : ∀ state, worker.run = .active state → Transition worker input (handle state))
    (h : worker.serve handle = some next) : Transition worker input next := by
  unfold serve at h
  split at h
  . split at h
    . cases h
      exact .quiet rfl rfl rfl
    . next state hactive =>
      split at h
      . cases h
        exact .quiet rfl rfl rfl
      . split at h
        . cases h
          exact (hhandle state hactive).congr rfl rfl rfl rfl
        . cases h
  . cases h

theorem Transition.of_command {commanded : VspcProcessorWorker} (hcommand : Transition worker input commanded)
    (h : worker.command commanded = some next) : Transition worker input next := by
  unfold command at h
  split at h
  . cases h
    exact hcommand.congr rfl rfl rfl rfl
  . cases h

theorem Transition.of_step (h : worker.step input = some next) : Transition worker input next := by
  cases input with
  | initializeRun anchor =>
    dsimp only [step] at h
    split at h
    . cases h
    . split at h
      . cases h
        exact .quiet rfl rfl rfl
      . next hinit =>
        cases h
        exact .of_initializeRun hinit
  | start =>
    dsimp only [step] at h
    split at h
    . cases h
    . cases h
      exact .quiet rfl rfl rfl
  | catchup syntheticSinkLowerBound => exact .of_command (.of_catchup _) h
  | live => exact .of_command .of_live h
  | shutdown =>
    refine .of_command ?_ h
    exact .quiet rfl rfl rfl
  | commandPathClosed =>
    refine .of_command ?_ h
    exact Transition.of_reportCommandPathLoss.congr rfl rfl rfl rfl
  | drive answers =>
    dsimp only [step] at h
    split at h
    . cases h
    . next state hactive =>
      split at h
      . obtain ⟨action, haction, h⟩ := Option.bind_eq_some_iff.mp h
        exact .of_drive hactive haction h
      . cases h
  | persisted block =>
    cases block with
    | none => exact .of_serve (fun state _ => .of_enterFault _ _) h
    | some block =>
      refine .of_serve ?_ h
      intro state hactive
      exact .moved state _ _ hactive (.persisted block) rfl rfl rfl
  | synthetic change => exact .of_serve (fun state hactive => .of_handleChange hactive rfl) h
  | notification change => exact .of_serve (fun state hactive => .of_handleChange hactive rfl) h

def activeState (worker : VspcProcessorWorker) : Option VspcState :=
  match worker.run with
  | .inert _ => none
  | .active state => some state

theorem activeState_eq_some {worker : VspcProcessorWorker} {state : VspcState} :
    worker.activeState = some state ↔ worker.run = .active state := by
  unfold activeState
  cases worker.run <;> simp

def Holds (P : VspcState → Prop) (worker : VspcProcessorWorker) : Prop :=
  ∀ state, worker.run = .active state → P state

theorem Holds.new (P : VspcState → Prop) (mode : RecoveryMode) : Holds P (new mode) := by
  intro state hactive
  cases hactive

theorem sound_step (h : Holds VspcState.Sound worker) (hstep : worker.step input = some next) :
    Holds VspcState.Sound next := by
  intro state hactive
  cases Transition.of_step hstep with
  | quiet hrun _ _ => exact h state (hrun ▸ hactive)
  | fault _ _ hrun _ _ => exact h state (hrun ▸ hactive)
  | initialized mode anchor _ _ hrun _ _ =>
    rw [hrun] at hactive
    cases hactive
    exact .new anchor
  | moved before after effects hbefore hmoves hrun _ _ =>
    rw [hrun] at hactive
    cases hactive
    exact (h before hbefore).moves hmoves

theorem sound_run {mode : RecoveryMode} {inputs : List VspcProcessorInput}
    (hrun : Data.run step (new mode) inputs = some worker) : Holds VspcState.Sound worker :=
  run.invariant (fun _ _ _ h hstep => sound_step h hstep) (Holds.new _ mode) hrun

end VspcProcessorWorker

end Kgi
