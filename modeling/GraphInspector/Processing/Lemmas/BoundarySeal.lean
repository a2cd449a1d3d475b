import GraphInspector.Processing.Lemmas.BlockProcessor

/-!
When the block processor announces the pruning-point boundary as sealed, and which reference policy it
uses.
-/

namespace Kgi

open Data

namespace BlockProcessorWorker

variable {worker next : BlockProcessorWorker} {stage stage' : RunStage}
  {sources : Map BlockHash SourceBits} {emitOnStart : Bool}
  {effects : List BlockProcessorEffect} {mode : RecoveryMode}
  {initialization : BlockProcessorInitialization}

/--
The announcement between two parts of the trace is the only one. The boundary was rebuilt: from Genesis it
is announced before anything else, and otherwise right after the block that seals it.
-/
structure Announced (mode : RecoveryMode) (worker : BlockProcessorWorker)
    (before after : List BlockProcessorEffect) : Prop where
  once : .ppBoundarySealed ∉ before ∧ .ppBoundarySealed ∉ after
  strict : ∀ block outcome, .materialized block .allowBoundaryIdentities outcome ∉ after
  rebuild : mode = .rebuild
  cause : ∃ initialization, worker.initialization = some initialization ∧
    ((initialization.anchor.point.hash = worker.db.genesisHash ∧ before = []) ∨
      (initialization.anchor.point.hash ≠ worker.db.genesisHash ∧
        ∃ earlier effects, before = earlier ++ effects ∧
          Seals initialization.boundarySealBlueScore effects))

structure Initialized (mode : RecoveryMode) (worker : BlockProcessorWorker) (stage : RunStage)
    (emitOnStart : Bool) (initialization : BlockProcessorInitialization) : Prop where
  accepted : worker.initialization = some initialization
  genesis : emitOnStart = true ↔
    mode = .rebuild ∧ initialization.anchor.point.hash = worker.db.genesisHash
  preSeal : ∀ sealBlueScore, stage = .synchronizing (.preSeal sealBlueScore) →
    mode = .rebuild ∧ initialization.anchor.point.hash ≠ worker.db.genesisHash ∧
      sealBlueScore = initialization.boundarySealBlueScore ∧ .ppBoundarySealed ∉ worker.trace
  started : emitOnStart = true → worker.started = true →
    worker.faulted = true ∨ ∃ rest, worker.trace = .ppBoundarySealed :: rest

structure Sound (mode : RecoveryMode) (worker : BlockProcessorWorker) : Prop where
  unstarted : worker.started = false → worker.trace = []
  inert : ∀ other, worker.run = .inert other →
    other = mode ∧ worker.initialization = none ∧ .ppBoundarySealed ∉ worker.trace
  active : ∀ stage sources emitOnStart, worker.run = .active stage sources emitOnStart →
    ∃ initialization, worker.Initialized mode stage emitOnStart initialization
  announced : ∀ before after, worker.trace = before ++ .ppBoundarySealed :: after →
    worker.Announced mode before after

theorem Sound.new (mode : RecoveryMode) (rpc db : GenerationBinding) :
    (BlockProcessorWorker.new mode rpc db).Sound mode where
  unstarted _ := rfl
  inert := by
    intro other hrun
    cases hrun
    exact ⟨rfl, rfl, by simp [BlockProcessorWorker.new]⟩
  active := by
    intro stage sources emitOnStart hrun
    cases hrun
  announced := by
    intro before after htrace
    simp [BlockProcessorWorker.new] at htrace

theorem isPreSeal_eq_true (h : isPreSeal stage = true) :
    ∃ sealBlueScore, stage = .synchronizing (.preSeal sealBlueScore) := by
  cases stage with
  | synchronizing phase =>
    cases phase with
    | preSeal sealBlueScore => exact ⟨sealBlueScore, rfl⟩
    | postSeal => cases h
  | catchup bound => cases h
  | live => cases h

theorem Seals.not_announced {sealBlueScore : Nat} (h : Seals sealBlueScore effects) :
    .ppBoundarySealed ∉ effects := by
  obtain ⟨block, committed, deliveries, rfl, hdeliveries, -⟩ := h
  intro hmem
  rw [List.mem_cons, List.mem_cons] at hmem
  obtain hmem | hmem | hmem := hmem
  . cases hmem
  . cases hmem
  . cases hdeliveries _ hmem

theorem Announced.of_extends {before after : List BlockProcessorEffect}
    (h : worker.Announced mode before after) (hextends : worker.Extends next effects)
    (hsealed : .ppBoundarySealed ∉ effects)
    (hstrict : ∀ block outcome, .materialized block .allowBoundaryIdentities outcome ∉ effects) :
    next.Announced mode before (after ++ effects) where
  once := ⟨h.once.1, by simp [h.once.2, hsealed]⟩
  strict := by
    intro block outcome hmem
    rw [List.mem_append] at hmem
    obtain hmem | hmem := hmem
    . exact h.strict block outcome hmem
    . exact hstrict block outcome hmem
  rebuild := h.rebuild
  cause := by
    rw [hextends.initialization, hextends.db]
    exact h.cause

theorem Sound.handles (h : worker.Sound mode) (hrun : worker.run = .active stage sources emitOnStart)
    (hstarted : worker.started = true) (hhandles : worker.Handles stage emitOnStart next) :
    next.Sound mode := by
  obtain ⟨initialization, hinit⟩ := h.active stage sources emitOnStart hrun
  obtain ⟨stage', sources', effects, hextends, hhandled, hrun'⟩ := hhandles
  have hstarted' : next.started = true := hextends.started.trans hstarted
  have hgenesis : emitOnStart = true → next.started = true →
      next.faulted = true ∨ ∃ rest, next.trace = .ppBoundarySealed :: rest := by
    intro hemit _
    obtain hfaulted | ⟨rest, hrest⟩ := hinit.started hemit hstarted
    . exact Or.inl (hextends.faulted hfaulted)
    . refine Or.inr ⟨rest ++ effects, ?_⟩
      rw [hextends.trace, hrest]
      rfl
  constructor
  case unstarted =>
    intro hfalse
    rw [hstarted'] at hfalse
    cases hfalse
  case inert =>
    intro other hinert
    rw [hrun'] at hinert
    cases hinert
  case active =>
    intro other _ _ hactive
    rw [hrun'] at hactive
    cases hactive
    refine ⟨initialization, ⟨hextends.initialization.trans hinit.accepted, ?_, ?_, hgenesis⟩⟩
    . rw [hextends.db]
      exact hinit.genesis
    . intro sealBlueScore hstage
      cases hhandled with
      | plain _ _ hallowed =>
        obtain ⟨hrebuild, hhash, hscore, hannounced⟩ := hinit.preSeal sealBlueScore hstage
        rw [hextends.db, hextends.trace, List.mem_append]
        refine ⟨hrebuild, hhash, hscore, ?_⟩
        rintro (hmem | hmem)
        . exact hannounced hmem
        . exact hallowed _ hmem
      | sealed => cases hstage
  case announced =>
    intro before after htrace
    rw [hextends.trace] at htrace
    cases hhandled with
    | plain _ _ hallowed =>
      obtain ⟨rest, rfl, hbefore⟩ | ⟨rest, -, heffects⟩ := split_append htrace
      . apply (h.announced before rest hbefore).of_extends hextends
        . exact fun hmem => hallowed _ hmem
        . intro block outcome hmem
          obtain ⟨sealBlueScore, hstage⟩ := isPreSeal_eq_true (hallowed _ hmem)
          have := (hinit.preSeal sealBlueScore hstage).2.2.2
          rw [hbefore] at this
          simp at this
      . exact (hallowed .ppBoundarySealed (by simp [heffects])).elim
    | sealed sealBlueScore effects announcement faults hseals hannouncement hfaults =>
      obtain ⟨hrebuild, hhash, hscore, hannounced⟩ := hinit.preSeal sealBlueScore rfl
      have hbefore : .ppBoundarySealed ∉ worker.trace ++ effects := by
        rw [List.mem_append]
        rintro (hmem | hmem)
        . exact hannounced hmem
        . exact hseals.not_announced hmem
      have hafter : .ppBoundarySealed ∉ faults := by
        intro hmem
        cases hfaults _ hmem
      obtain rfl | rfl := hannouncement
      . rw [List.append_assoc, List.singleton_append, ← List.append_assoc,
          List.append_cons_inj_of_notMem hbefore hafter] at htrace
        obtain ⟨rfl, -, rfl⟩ := htrace
        constructor
        case once => exact ⟨hbefore, hafter⟩
        case strict =>
          intro block outcome hmem
          cases hfaults _ hmem
        case rebuild => exact hrebuild
        case cause =>
          refine ⟨initialization, hextends.initialization.trans hinit.accepted, Or.inr ⟨?_, ?_⟩⟩
          . rw [hextends.db]
            exact hhash
          . rw [← hscore]
            exact ⟨worker.trace, effects, rfl, hseals⟩
      . rw [List.append_nil, ← List.append_assoc] at htrace
        have hmem : BlockProcessorEffect.ppBoundarySealed ∈ worker.trace ++ effects ++ faults := by
          simp [htrace]
        rw [List.mem_append] at hmem
        obtain hmem | hmem := hmem
        . exact absurd hmem hbefore
        . exact absurd hmem hafter

theorem Sound.faults (h : worker.Sound mode) (hstarted : worker.started = true)
    (hextends : worker.Extends next effects) (hfaults : ∀ effect ∈ effects, effect.isFault = true)
    (hrun : next.run = worker.run) : next.Sound mode := by
  cases hworker : worker.run with
  | active stage sources emitOnStart =>
    apply h.handles hworker hstarted
    apply Handles.of_allowed hextends
    . exact fun effect hmem => Allowed.of_isFault (hfaults effect hmem)
    . exact hrun.trans hworker
  | inert other =>
    obtain ⟨rfl, hinitialization, hannounced⟩ := h.inert other hworker
    have hnone : .ppBoundarySealed ∉ next.trace := by
      rw [hextends.trace, List.mem_append]
      rintro (hmem | hmem)
      . exact hannounced hmem
      . cases hfaults _ hmem
    constructor
    case unstarted =>
      intro hfalse
      rw [hextends.started, hstarted] at hfalse
      cases hfalse
    case inert =>
      intro mode hinert
      rw [hrun, hworker] at hinert
      cases hinert
      exact ⟨rfl, hextends.initialization.trans hinitialization, hnone⟩
    case active =>
      intro stage sources emitOnStart hactive
      rw [hrun, hworker] at hactive
      cases hactive
    case announced =>
      intro before after htrace
      rw [htrace] at hnone
      simp at hnone

theorem Sound.advance (h : worker.Sound mode) (hrun : worker.run = .active stage sources emitOnStart)
    (hstarted : worker.started = true) (hextends : worker.Extends next [])
    {sources' : Map BlockHash SourceBits} (hrun' : next.run = .active stage' sources' emitOnStart)
    (hsealed : stage'.acceptsNotifications = true) : next.Sound mode := by
  have htrace : next.trace = worker.trace := hextends.trace.trans (List.append_nil _)
  obtain ⟨initialization, hinit⟩ := h.active stage sources emitOnStart hrun
  constructor
  case unstarted =>
    intro hfalse
    rw [hextends.started, hstarted] at hfalse
    cases hfalse
  case inert =>
    intro other hinert
    rw [hrun'] at hinert
    cases hinert
  case active =>
    intro other _ _ hactive
    rw [hrun'] at hactive
    cases hactive
    refine ⟨initialization, ⟨hextends.initialization.trans hinit.accepted, ?_, ?_, ?_⟩⟩
    . rw [hextends.db]
      exact hinit.genesis
    . rintro sealBlueScore rfl
      cases hsealed
    . intro hemit _
      rw [htrace]
      obtain hfaulted | hannounced := hinit.started hemit hstarted
      . exact Or.inl (hextends.faulted hfaulted)
      . exact Or.inr hannounced
  case announced =>
    intro before after hsplit
    rw [htrace] at hsplit
    have := (h.announced before after hsplit).of_extends hextends (by simp) (by simp)
    rw [List.append_nil] at this
    exact this

section Start

variable (h : worker.Sound mode) (hstarted : worker.started = false)
include h hstarted

theorem Sound.initializeRun (hstep : worker.initializeRun initialization = .ok next) :
    next.Sound mode := by
  have htrace := h.unstarted hstarted
  unfold BlockProcessorWorker.initializeRun at hstep
  split at hstep
  . cases hstep
  . next other hrun =>
    obtain ⟨rfl, -, -⟩ := h.inert other hrun
    split at hstep
    . cases hstep
    . split at hstep
      . cases hstep
      . split at hstep
        . cases hstep
        . dsimp only at hstep
          split at hstep
          . cases hstep
          . cases hstep
            constructor
            case unstarted => exact fun _ => htrace
            case inert =>
              intro mode hinert
              cases hinert
            case active =>
              intro stage sources emitOnStart hactive
              cases hactive
              refine ⟨initialization, ⟨rfl, by simp, ?_, ?_⟩⟩
              . intro sealBlueScore hstage
                rw [htrace]
                split at hstage
                . next hpreSeal =>
                  cases hstage
                  exact ⟨hpreSeal.1, hpreSeal.2, rfl, by simp⟩
                . cases hstage
              . intro _ hfalse
                have hfalse : worker.started = true := hfalse
                rw [hstarted] at hfalse
                cases hfalse
            case announced =>
              intro before after hsplit
              have hsplit : worker.trace = _ := hsplit
              rw [htrace] at hsplit
              simp at hsplit

theorem Sound.startSilently (faulted : Bool)
    (hgenesis : ∀ stage sources, worker.run = .active stage sources true → faulted = true) :
    Sound mode { worker with faulted := faulted, started := true } := by
  have htrace := h.unstarted hstarted
  constructor
  case unstarted => simp
  case inert => exact h.inert
  case active =>
    intro stage sources emitOnStart hrun
    obtain ⟨initialization, hinit⟩ := h.active stage sources emitOnStart hrun
    refine ⟨initialization, ⟨hinit.accepted, hinit.genesis, hinit.preSeal, ?_⟩⟩
    rintro rfl _
    exact Or.inl (hgenesis stage sources hrun)
  case announced =>
    intro before after hsplit
    have hsplit : worker.trace = _ := hsplit
    rw [htrace] at hsplit
    simp at hsplit

theorem Sound.startGenesis (hrun : worker.run = .active stage sources true) :
    Sound mode { worker.emit .ppBoundarySealed with started := true } := by
  have htrace := h.unstarted hstarted
  obtain ⟨initialization, hinit⟩ := h.active stage sources true hrun
  obtain ⟨hrebuild, hhash⟩ := hinit.genesis.mp rfl
  have hannounced : (worker.emit .ppBoundarySealed).trace = [.ppBoundarySealed] := by
    dsimp only [emit]
    rw [htrace]
    rfl
  constructor
  case unstarted => simp
  case inert =>
    intro other hinert
    have hinert : worker.run = _ := hinert
    rw [hrun] at hinert
    cases hinert
  case active =>
    intro other _ _ hactive
    have hactive : worker.run = _ := hactive
    rw [hrun] at hactive
    cases hactive
    refine ⟨initialization, ⟨hinit.accepted, hinit.genesis, ?_, ?_⟩⟩
    . intro sealBlueScore hstage
      exact absurd hhash (hinit.preSeal sealBlueScore hstage).2.1
    . exact fun _ _ => Or.inr ⟨[], hannounced⟩
  case announced =>
    intro before after hsplit
    have hsplit : (worker.emit .ppBoundarySealed).trace = _ := hsplit
    rw [hannounced, eq_comm, List.append_eq_singleton_iff] at hsplit
    obtain ⟨rfl, hafter⟩ | ⟨-, hafter⟩ := hsplit
    . cases hafter
      exact ⟨⟨by simp, by simp⟩, by simp, hrebuild, initialization, hinit.accepted, Or.inl ⟨hhash, rfl⟩⟩
    . cases hafter

theorem Sound.start (eventPathOpen : Bool) :
    Sound mode { worker.startup eventPathOpen with started := true } := by
  unfold startup
  split
  . next other hrun =>
    apply h.startSilently hstarted worker.faulted
    intro stage sources hactive
    rw [hrun] at hactive
    cases hactive
  . next stage sources emitOnStart hrun =>
    cases emitOnStart with
    | false =>
      apply h.startSilently hstarted worker.faulted
      intro other _ hactive
      rw [hrun] at hactive
      cases hactive
    | true =>
      cases eventPathOpen with
      | true => exact h.startGenesis hstarted hrun
      | false => exact h.startSilently hstarted true fun _ _ _ => rfl

end Start

theorem Sound.transition (h : worker.Sound mode) (htransition : worker.Transition next) :
    next.Sound mode := by
  cases htransition with
  | same => exact h
  | initialized initialization hstarted hinit => exact h.initializeRun hstarted hinit
  | started eventPathOpen hstarted => exact h.start hstarted eventPathOpen
  | faulted effects hstarted hextends hfaults hrun => exact h.faults hstarted hextends hfaults hrun
  | advanced hstarted hrun hextends hrun' hsealed =>
    exact h.advance hrun hstarted hextends hrun' hsealed
  | handled hstarted hrun hhandles => exact h.handles hrun hstarted hhandles

def HandsOrphans (worker next : BlockProcessorWorker) : Prop :=
  ∃ effects, next.trace = worker.trace ++ effects ∧
    ∀ block missing, .orphanMessage (.addOrphan block missing) ∈ effects →
      ∃ stage sources emitOnStart, worker.run = .active stage sources emitOnStart ∧
        ((∃ knownIdLowerBound, stage = .catchup knownIdLowerBound) ∨ stage = .live)

theorem HandsOrphans.of_faults (hextends : worker.Extends next effects)
    (hfaults : ∀ effect ∈ effects, effect.isFault = true) : worker.HandsOrphans next := by
  refine ⟨effects, hextends.trace, ?_⟩
  intro block missing hmem
  cases hfaults _ hmem

theorem HandsOrphans.of_eq (h : next.trace = worker.trace) : worker.HandsOrphans next :=
  ⟨[], by simp [h], by simp⟩

theorem permitsOrphans_eq_true (h : stage.permitsOrphans = true) :
    (∃ knownIdLowerBound, stage = .catchup knownIdLowerBound) ∨ stage = .live := by
  cases stage with
  | synchronizing phase => cases h
  | catchup bound => exact Or.inl ⟨bound, rfl⟩
  | live => exact Or.inr rfl

theorem Handles.handsOrphans (h : worker.Handles stage emitOnStart next)
    (hrun : worker.run = .active stage sources emitOnStart) : worker.HandsOrphans next := by
  obtain ⟨stage', sources', effects, hextends, hhandled, -⟩ := h
  refine ⟨effects, hextends.trace, ?_⟩
  intro block missing hmem
  cases hhandled with
  | plain _ _ hallowed =>
    exact ⟨stage, sources, emitOnStart, hrun, permitsOrphans_eq_true (hallowed _ hmem)⟩
  | sealed sealBlueScore effects announcement faults hseals hannouncement hfaults =>
    exfalso
    obtain ⟨sealing, committed, deliveries, rfl, hdeliveries, -⟩ := hseals
    rw [List.mem_append, List.mem_append, List.mem_cons, List.mem_cons] at hmem
    obtain ((hmem | hmem | hmem) | hmem) | hmem := hmem
    . cases hmem
    . cases hmem
    . cases hdeliveries _ hmem
    . obtain rfl | rfl := hannouncement
      . simp at hmem
      . simp at hmem
    . cases hfaults _ hmem

theorem startup_trace (worker : BlockProcessorWorker) (eventPathOpen : Bool) :
    (worker.startup eventPathOpen).trace = worker.trace ∨
      (worker.startup eventPathOpen).trace = worker.trace ++ [.ppBoundarySealed] := by
  unfold startup
  split
  . exact Or.inl rfl
  . split
    . split
      . exact Or.inr rfl
      . exact Or.inl rfl
    . exact Or.inl rfl

theorem initializeRun_trace (h : worker.initializeRun initialization = .ok next) :
    next.trace = worker.trace := by
  unfold initializeRun at h
  split at h
  . cases h
  . split at h
    . cases h
    . split at h
      . cases h
      . split at h
        . cases h
        . dsimp only at h
          split at h
          . cases h
          . cases h
            rfl

theorem Transition.handsOrphans (h : worker.Transition next) : worker.HandsOrphans next := by
  cases h with
  | same => exact .of_eq rfl
  | initialized initialization hstarted hinit => exact .of_eq (initializeRun_trace hinit)
  | started eventPathOpen hstarted =>
    obtain htrace | htrace := worker.startup_trace eventPathOpen
    . exact .of_eq htrace
    . exact ⟨[.ppBoundarySealed], htrace, by simp⟩
  | faulted effects hstarted hextends hfaults hrun => exact .of_faults hextends hfaults
  | advanced hstarted hrun hextends hrun' hsealed => exact .of_faults hextends (by simp)
  | handled hstarted hrun hhandles => exact hhandles.handsOrphans hrun

/--
Over every run the boundary is announced as sealed at most once, only in a rebuild, and either before
anything else, in a rebuild from Genesis, or right after a block that reaches the threshold was newly
inserted under the strict policy. From then on no block is materialized under the boundary-identity policy.
A started rebuild from Genesis has announced it unless nobody could hear it. Blocks go to the orphan manager
only in Catchup or Live.
-/
theorem boundary_announcement {mode : RecoveryMode} {rpc db : GenerationBinding}
    {inputs : List BlockProcessorInput}
    (h : Data.run step (BlockProcessorWorker.new mode rpc db) inputs = some worker) :
    (∀ before after, worker.trace = before ++ .ppBoundarySealed :: after →
      worker.Announced mode before after) ∧
    (mode = .resync → .ppBoundarySealed ∉ worker.trace) ∧
    (∀ initialization, mode = .rebuild → worker.initialization = some initialization →
      initialization.anchor.point.hash = worker.db.genesisHash → worker.started = true →
      worker.faulted = true ∨ ∃ rest, worker.trace = .ppBoundarySealed :: rest) ∧
    ∀ input next, worker.step input = some next → worker.HandsOrphans next := by
  have hsound : worker.Sound mode :=
    Data.run.invariant (fun _ _ _ hsound hstep => hsound.transition (.of_step hstep)) (Sound.new mode rpc db) h
  refine ⟨hsound.announced, ?_, ?_, fun _ _ hstep => (Transition.of_step hstep).handsOrphans⟩
  . rintro rfl hmem
    obtain ⟨before, after, htrace⟩ := List.append_of_mem hmem
    cases (hsound.announced before after htrace).rebuild
  . intro initialization hrebuild hinitialization hgenesis hstarted
    cases hrun : worker.run with
    | inert other =>
      rw [(hsound.inert other hrun).2.1] at hinitialization
      cases hinitialization
    | active stage sources emitOnStart =>
      obtain ⟨accepted, hinit⟩ := hsound.active stage sources emitOnStart hrun
      rw [hinit.accepted] at hinitialization
      cases hinitialization
      exact hinit.started (hinit.genesis.mpr ⟨hrebuild, hgenesis⟩) hstarted

/--
A rebuild with threshold 2: a block below it may refer to boundary identities, and the first one that reaches
it is announced.
-/
theorem boundary_announcement_sealed :
    ∃ rpc db inputs worker block outcome,
      Data.run step (BlockProcessorWorker.new .rebuild rpc db) inputs = some worker ∧
      .materialized block .allowBoundaryIdentities outcome ∈ worker.trace ∧
      .ppBoundarySealed ∈ worker.trace ∧
      ∀ before after, worker.trace = before ++ .ppBoundarySealed :: after →
        worker.Announced .rebuild before after := by
  let binding : GenerationBinding := ⟨⟨.mainnet, none⟩, 0⟩
  let answers (hash : BlockHash) : BlockAnswers :=
    ⟨.ok .absent, .ok (.inserted ⟨hash, hash, .root, 0, 0, some 0, [], [], [], .gray, false, []⟩),
      .ok .suppressedAwaitingCatchup, .ok (), .ok (), true, .ok ()⟩
  let below : ValidatedNodeBlock := { ValidatedNodeBlock.ofParent 2 1 (by decide) with blueScore := 1 }
  obtain ⟨worker, hrun, hbelow, hsealed⟩ : ∃ worker,
      Data.run step (BlockProcessorWorker.new .rebuild binding binding)
        [.initializeRun ⟨⟨⟨⟨0, 1⟩, 1⟩, 0, 0⟩, 2⟩, .start true, .synthetic below (answers 2),
          .synthetic { ValidatedNodeBlock.ofParent 3 2 (by decide) with blueScore := 2 } (answers 3)]
          = some worker ∧
      worker.trace.head? = some (.materialized below .allowBoundaryIdentities (answers 2).materialization) ∧
      worker.trace.getLast? = some .ppBoundarySealed := ⟨_, rfl, rfl, rfl⟩
  exact ⟨binding, binding, _, worker, below, _, hrun, List.mem_of_mem_head? hbelow,
    List.mem_of_getLast? hsealed, (boundary_announcement hrun).1⟩

end BlockProcessorWorker

end Kgi
