import GraphInspector.Node.Lemmas.Normalization
import GraphInspector.Processing.Lemmas.BlockEnding
import GraphInspector.Storage.Lemmas.Answer

/-!
The block processor over the storage of its generation: a block that the node normalizer accepts is looked
up, materialized and settled.
-/

namespace Kgi

open Data

variable {database : Database}

def ScoreRangeFault.debug : ScoreRangeFault → String
  | .daaScore => "DaaScore"
  | .blueScore => "BlueScore"
  | .boundarySealThreshold => "BoundarySealThreshold"

def ProcessingDbError.mutation : StorageError → ProcessingDbError
  | .scoreOutOfRange fault =>
    ⟨.scoreOutOfRange fault, "score is outside KGI's persistent range: " ++ fault.debug⟩
  | .invalidMetadata diagnostic =>
    ⟨.invalidStoredState, "processing database contains invalid stored state: " ++ diagnostic⟩
  | .internalFailure diagnostic =>
    ⟨.serviceUnavailable,
      "storage service is unavailable: storage cannot safely continue: " ++ diagnostic⟩
  | .definiteFailure => ⟨.persistence .definiteFailure, "database persistence fault: DefiniteFailure"⟩

def ProcessingDbError.ambiguousCommit : ProcessingDbError :=
  ⟨.persistence .ambiguousCommit, "database persistence fault: AmbiguousCommit"⟩

def MaterializeBlockError.ofSemantic : MaterializeSemanticError → MaterializeBlockError
  | .incomingBoundaryIdentity hash => .incomingBoundaryIdentity hash
  | .nonMaterializedReferences missing identityOnly => .nonMaterializedReferences missing identityOnly

def answered {α : Type} : Except (TransactionAttemptError MaterializeSemanticError) α →
    Except String (Except MaterializeBlockError α)
  | .ok a => .ok (.ok a)
  | .error (.semantic error) => .ok (.error (.ofSemantic error))
  | .error (.storage error) => .ok (.error (.database (.mutation error)))
  | .error (.panic message) => .error message

/--
What the database connection, the caches and the channels do while one block is handled. The lease on the
generation fails before the block is prepared and the transaction afterwards. A lost commit may have
changed the tables, without the publication to the caches.
-/
structure Surroundings where
  presenceFailure : Option ProcessingDbError
  leaseFailure : Option ProcessingDbError
  transactionFailure : Option ProcessingDbError
  lostCommit : Option Bool
  presenceEvictions : LookupEvictions
  evictions : BlockHash → LookupEvictions
  offer : Except GraphUpdateProducerError GraphUpdateOfferOutcome
  persistedInput : Except TrySendError Unit
  orphanInput : Except TrySendError Unit
  eventPathOpen : Bool
  orphanShutdown : Except ChildControlError Unit

namespace Surroundings

def answers (surroundings : Surroundings) (presence : Except ProcessingDbError BlockPresence)
    (materialization : Except MaterializeBlockError MaterializeBlockOutcome) : BlockAnswers where
  presence := presence
  materialization := materialization
  offer := surroundings.offer
  persistedInput := surroundings.persistedInput
  orphanInput := surroundings.orphanInput
  eventPathOpen := surroundings.eventPathOpen
  orphanShutdown := surroundings.orphanShutdown

def presence (surroundings : Surroundings) (storage : Storage) (hash : BlockHash) :
    Storage × Except ProcessingDbError BlockPresence :=
  match surroundings.presenceFailure with
  | some error => (storage, .error error)
  | none =>
    let (storage, presence) := storage.blockPresenceDuring surroundings.presenceEvictions hash
    (storage, .ok presence)

def materialization (surroundings : Surroundings) (storage : Storage) (block : ValidatedNodeBlock)
    (policy : ReferencePolicy) :
    Except String (Storage × Except MaterializeBlockError MaterializeBlockOutcome) :=
  match surroundings.leaseFailure, surroundings.transactionFailure with
  | some error, _ => .ok (storage, .error (.database error))
  | none, some error => do
    let prepared ← answered (PreparedBlock.new block >>= fun _ => daaScoreToSql block.daaScore)
    pure (storage, prepared >>= fun _ => .error (.database error))
  | none, none => do
    let result ← answered (storage.materializeBlockDuring surroundings.evictions block policy)
    match result, surroundings.lostCommit with
    | .ok (storage', .inserted _), some committed =>
      pure (if committed then ⟨storage'.database, storage.caches⟩ else storage,
        .error (.database .ambiguousCommit))
    | .ok (storage', outcome), _ => pure (storage', .ok outcome)
    | .error error, _ => pure (storage, .error error)

end Surroundings

def BlockProcessorWorker.handleStored (worker : BlockProcessorWorker) (storage : Storage)
    (block : ValidatedNodeBlock) (source : BlockSource) (surroundings : Surroundings) :
    Except String (BlockProcessorWorker × Storage) :=
  if worker.serves && worker.awaits source then
    let (storage, presence) := surroundings.presence storage block.hash
    match worker.asksMaterialization block source presence with
    | none =>
      -- The materialization is not asked for, so that any answer will do.
      let answers := surroundings.answers presence (.error (.incomingBoundaryIdentity block.hash))
      .ok (worker.handleBlock block source answers, storage)
    | some policy => do
      let (storage, materialization) ← surroundings.materialization storage block policy
      pure (worker.handleBlock block source (surroundings.answers presence materialization), storage)
  else
    .ok (worker, storage)

inductive BlockHandled (worker : BlockProcessorWorker) (block : ValidatedNodeBlock) (source : BlockSource)
    (presence : Except ProcessingDbError BlockPresence) (database database' : Database)
    (effects : List BlockProcessorEffect) : Prop where
  | unserved (hserves : (worker.serves && worker.awaits source) = false) (hdatabase : database' = database)
      (heffects : effects = [])
  | repeated (hrepeats : worker.Repeats block source presence) (hdatabase : database' = database)
      (heffects : effects = [])
  | inserted (policy : ReferencePolicy) (committed : BlockCommitted) (id : CompactId) (row : BlockRow)
      (hinsertion : Insertion database database' block id row)
      (heffect : .materialized block policy (.ok (.inserted committed)) ∈ effects)
  | recognized (hmaterialized : database.Materialized block.hash) (hdatabase : database' = database)
      (heffect : .orphanMessage (.blockPersisted block.hash) ∈ effects)
  | orphaned (missing : List BlockHash) (hdatabase : database' = database)
      (heffect : .orphanMessage (.addOrphan block missing) ∈ effects)
  | faulted (fault : ComponentFault) (hdatabase : database' = database)
      (heffect : .fault fault ∈ effects)
  | undecided (policy : ReferencePolicy) (id : CompactId) (row : BlockRow) (fault : ComponentFault)
      (hinsertion : Insertion database database' block id row)
      (hanswer : .materialized block policy (.error (.database .ambiguousCommit)) ∈ effects)
      (heffect : .fault fault ∈ effects)

/--
The materialization of a block panics: the block has no selected parent among its direct parents, the
position of the selected parent does not fit `u32`, or the block would be inserted on a level that does not
fit `u32`.
-/
structure MaterializationPanics (surroundings : Surroundings) (normalizer : ResponseNormalizer)
    (database : Database) (block : ValidatedNodeBlock) (policy : ReferencePolicy) : Prop where
  lease : surroundings.leaseFailure = none
  cause : block.hash = normalizer.genesisHash ∨ ¬ block.Indexed ∨
    surroundings.transactionFailure = none ∧
      (policy = .requireMaterialized → ∀ hash ∈ block.referenced, database.Materialized hash) ∧
      ¬ database.derivedLevel block < 2 ^ 32

section Materialization

variable {storage : Storage} {normalizer : ResponseNormalizer} {block : ValidatedNodeBlock}

def Answered (block : ValidatedNodeBlock) (database : Database) (storage' : Storage)
    (answer : Except MaterializeBlockError MaterializeBlockOutcome) : Prop :=
  (∃ committed id row, answer = .ok (.inserted committed) ∧
      Insertion database storage'.database block id row) ∨
    ((∃ error, answer = .error error) ∧ storage'.database = database) ∨
    (answer = .error (.database .ambiguousCommit) ∧
      ∃ id row, Insertion database storage'.database block id row)

theorem ResponseNormalizer.Normalized.ordinary (h : normalizer.Normalized block)
    (hne : block.hash ≠ normalizer.genesisHash) : block.Ordinary :=
  ⟨h.selectedParent_mem hne, h.daaScore_le⟩

theorem ResponseNormalizer.Normalized.not_mem (h : normalizer.Normalized block)
    (heq : block.hash = normalizer.genesisHash) : block.selectedParent ∉ block.directParents := by
  rw [(h.genesis heq).directParents]
  exact List.not_mem_nil

theorem materialization_spec (hsound : storage.Sound) (hnormalized : normalizer.Normalized block)
    (hunknown : storage.database.Unknown block.hash)
    (hroom : ∀ (level : Nat) (row : LevelRow), storage.database.levels[level]? = some row →
      row.size < maxLevelSize) (surroundings : Surroundings) (policy : ReferencePolicy) :
    (MaterializationPanics surroundings normalizer storage.database block policy ∧
      ∃ message, surroundings.materialization storage block policy = .error message) ∨
    (¬ MaterializationPanics surroundings normalizer storage.database block policy ∧
      ∃ storage' answer, surroundings.materialization storage block policy = .ok (storage', answer) ∧
        Answered block storage.database storage' answer) := by
  obtain ⟨⟨inserted, hstores⟩, hco⟩ := hsound
  unfold Surroundings.materialization
  cases hlease : surroundings.leaseFailure with
  | some error =>
    refine Or.inr ⟨?_, storage, _, rfl, Or.inr (Or.inl ⟨⟨_, rfl⟩, rfl⟩)⟩
    intro hpanics
    rw [hpanics.lease] at hlease
    cases hlease
  | none =>
    -- The block is prepared before the transaction, whose failure does not matter then.
    by_cases hunprepared : block.hash = normalizer.genesisHash ∨ ¬ block.Indexed
    . have hpanic : PreparedBlock.new block = .error (.panic
          "ValidatedNodeBlock selected parent has a representable canonical index") := by
        obtain heq | hindexed := hunprepared
        . exact preparedBlock_new_not_mem (hnormalized.not_mem heq)
        . exact preparedBlock_new_panic hindexed
      refine Or.inl ⟨⟨hlease, ?_⟩, ?_⟩
      . exact hunprepared.imp_right Or.inl
      . cases surroundings.transactionFailure with
        | some error =>
          rw [hpanic]
          exact ⟨_, rfl⟩
        | none =>
          unfold Storage.materializeBlockDuring
          rw [hpanic]
          exact ⟨_, rfl⟩
    . rw [not_or, not_not] at hunprepared
      obtain ⟨hne, hindexed⟩ := hunprepared
      have hordinary := hnormalized.ordinary hne
      cases htransaction : surroundings.transactionFailure with
      | some error =>
        obtain ⟨prepared, hprep⟩ := preparedBlock_new_isOk hordinary hindexed
        rw [hprep, ok_bind, daaScoreToSql_isOk hordinary.daaScore_le]
        refine Or.inr ⟨?_, storage, _, rfl, Or.inr (Or.inl ⟨⟨_, rfl⟩, rfl⟩)⟩
        rintro ⟨_, heq | hnot | ⟨hnone, _⟩⟩
        . exact hne heq
        . exact hnot hindexed
        . rw [htransaction] at hnone
          cases hnone
      | none =>
        have hanswers := materializeBlockDuring_answers hstores hco hordinary hindexed
          surroundings.evictions policy
        by_cases hall : policy = .requireMaterialized →
            ∀ hash ∈ block.referenced, storage.database.Materialized hash
        . by_cases hlevel : storage.database.derivedLevel block < 2 ^ 32
          . have halloc : storage.database.Allocatable block := ⟨hlevel, fun row => hroom _ row⟩
            obtain ⟨storage', id, row, committed, hresult, hinsertion, _⟩ :=
              hanswers.inserted hunknown hall halloc
            rw [hresult]
            refine Or.inr ⟨?_, ?_⟩
            . rintro ⟨_, heq | hnot | ⟨_, _, hnot⟩⟩
              . exact hne heq
              . exact hnot hindexed
              . exact hnot hlevel
            . cases surroundings.lostCommit with
              | none => exact ⟨storage', _, rfl, Or.inl ⟨committed, id, row, rfl, hinsertion⟩⟩
              | some committed =>
                cases committed with
                | true => exact ⟨_, _, rfl, Or.inr (Or.inr ⟨rfl, id, row, hinsertion⟩)⟩
                | false => exact ⟨storage, _, rfl, Or.inr (Or.inl ⟨⟨_, rfl⟩, rfl⟩)⟩
          . rw [hanswers.unrepresentable hunknown hall hlevel]
            exact Or.inl ⟨⟨hlease, Or.inr (Or.inr ⟨htransaction, hall, hlevel⟩)⟩, _, rfl⟩
        . rw [Classical.not_imp] at hall
          obtain ⟨hpolicy, hmissing⟩ := hall
          have hexists : ∃ hash ∈ block.referenced, ¬ storage.database.Materialized hash := by
            simpa using hmissing
          obtain ⟨missing, identityOnly, _, hresult⟩ := hanswers.rejected hunknown hpolicy hexists
          rw [hresult]
          refine Or.inr ⟨?_, storage, _, rfl, Or.inr (Or.inl ⟨⟨_, rfl⟩, rfl⟩)⟩
          rintro ⟨_, heq | hnot | ⟨_, hall, _⟩⟩
          . exact hne heq
          . exact hnot hindexed
          . exact hmissing (hall hpolicy)

theorem presence_spec (hsound : storage.Sound) (surroundings : Surroundings) (hash : BlockHash) :
    (surroundings.presence storage hash).1.database = storage.database ∧
    (surroundings.presence storage hash).1.Sound ∧
    ∀ presence, (surroundings.presence storage hash).2 = .ok presence →
      presence = (storage.database.storedIdentity hash).elim .absent StoredIdentity.presence := by
  obtain ⟨⟨inserted, hstores⟩, hco⟩ := hsound
  unfold Surroundings.presence
  split
  . exact ⟨rfl, ⟨⟨inserted, hstores⟩, hco⟩, fun _ h => nomatch h⟩
  . dsimp only
    obtain ⟨hdatabase, hcoherent, hpresence⟩ :=
      blockPresenceDuring_spec hco surroundings.presenceEvictions hash
    refine ⟨hdatabase, ⟨⟨inserted, ?_⟩, ?_⟩, ?_⟩
    . rw [hdatabase]
      exact hstores
    . rw [hdatabase]
      exact hcoherent
    . intro presence heq
      cases heq
      exact hpresence

theorem unknown_of_absent {hash : BlockHash}
    (h : BlockPresence.absent = (database.storedIdentity hash).elim .absent StoredIdentity.presence) :
    database.Unknown hash := by
  cases hstored : database.storedIdentity hash with
  | none => exact Database.storedIdentity_eq_none.mp hstored
  | some identity =>
    rw [hstored, Option.elim_some] at h
    unfold StoredIdentity.presence at h
    split at h
    . cases h
    . cases h

theorem materialized_of_presence {hash : BlockHash} {id : CompactId} {coordinate : BlockCoordinate}
    (h : BlockPresence.materialized id coordinate
      = (database.storedIdentity hash).elim .absent StoredIdentity.presence) :
    database.Materialized hash := by
  cases hstored : database.storedIdentity hash with
  | none =>
    rw [hstored] at h
    cases h
  | some identity =>
    rw [hstored, Option.elim_some] at h
    obtain ⟨hid, hblock⟩ := Database.storedIdentity_eq_some.mp hstored
    unfold StoredIdentity.presence at h
    split at h
    . cases h
    . next block hsome =>
      rw [hsome] at hblock
      obtain ⟨row, hrow, _⟩ := Option.map_eq_some_iff.mp hblock.symm
      exact ⟨_, row, hid, hrow⟩

end Materialization

section Handling

variable {worker : BlockProcessorWorker} {storage : Storage} {normalizer : ResponseNormalizer}
  {presence : Except ProcessingDbError BlockPresence}
variable {block : ValidatedNodeBlock} {source : BlockSource} {surroundings : Surroundings}

theorem serves_eq_true (h : worker.serves = true) :
    (∃ stage sources emitOnStart, worker.run = .active stage sources emitOnStart) ∧
      worker.faulted = false := by
  unfold BlockProcessorWorker.serves at h
  split at h
  . cases h
  . next stage sources emitOnStart hrun => exact ⟨⟨stage, sources, emitOnStart, hrun⟩, by simpa using h⟩

theorem asksMaterialization_eq_some {policy : ReferencePolicy}
    (h : worker.asksMaterialization block source presence = some policy) :
    presence = .ok .absent := by
  unfold BlockProcessorWorker.asksMaterialization at h
  split at h
  . rfl
  . cases h

theorem blockHandled_unasked (hsound : storage.Sound)
    (hserved : worker.serves = true ∧ worker.awaits source = true)
    (hnone : worker.asksMaterialization block source (surroundings.presence storage block.hash).2 = none)
    (materialization : Except MaterializeBlockError MaterializeBlockOutcome) :
    ∃ effects, worker.Extends (worker.handleBlock block source (surroundings.answers
        (surroundings.presence storage block.hash).2 materialization)) effects ∧
      BlockHandled worker block source (surroundings.presence storage block.hash).2 storage.database
        (surroundings.presence storage block.hash).1.database effects := by
  obtain ⟨⟨stage, sources, emitOnStart, hrun⟩, hfaulted⟩ := serves_eq_true hserved.1
  obtain ⟨hdatabase, _, hpresence⟩ := presence_spec hsound surroundings block.hash
  obtain ⟨effects, hextends, _, hending⟩ := BlockProcessorWorker.handleBlock_ending block
    (surroundings.answers (surroundings.presence storage block.hash).2 materialization) hrun hfaulted
    hserved.2
  refine ⟨effects, hextends, ?_⟩
  cases hending with
  | repeated hrepeats heffects => exact .repeated hrepeats hdatabase heffects
  | recognized id coordinate hknown heffect =>
    exact .recognized (materialized_of_presence (hpresence _ hknown)) hdatabase heffect
  | asked policy hasks hend =>
    cases hnone.symm.trans hasks
  | faulted fault heffect => exact .faulted fault hdatabase heffect

theorem blockHandled_asked {storage' : Storage} {policy : ReferencePolicy}
    {answer : Except MaterializeBlockError MaterializeBlockOutcome}
    (hserved : worker.serves = true ∧ worker.awaits source = true)
    (hasks : worker.asksMaterialization block source presence = some policy)
    (hanswered : Answered block database storage' answer) :
    ∃ effects,
      worker.Extends (worker.handleBlock block source (surroundings.answers presence answer)) effects ∧
      BlockHandled worker block source presence database storage'.database effects := by
  obtain ⟨⟨stage, sources, emitOnStart, hrun⟩, hfaulted⟩ := serves_eq_true hserved.1
  obtain ⟨effects, hextends, hasked, hending⟩ := BlockProcessorWorker.handleBlock_ending block
    (surroundings.answers presence answer) hrun hfaulted hserved.2
  refine ⟨effects, hextends, ?_⟩
  obtain ⟨committed, id, row, rfl, hinsertion⟩ | ⟨⟨error, rfl⟩, hdatabase⟩ | ⟨rfl, id, row, hinsertion⟩ :=
    hanswered
  . exact .inserted policy committed id row hinsertion (hasked policy hasks)
  . cases hending with
    | repeated hrepeats heffects => exact .repeated hrepeats hdatabase heffects
    | recognized id coordinate hknown heffect =>
      rw [asksMaterialization_eq_some hasks] at hknown
      cases hknown
    | asked policy' _ hend =>
      generalize hanswer : (surroundings.answers presence (.error error)).materialization = answer at hend
      cases hend with
      | inserted committed => cases hanswer
      | recognized id coordinate heffect => cases hanswer
      | orphaned missing heffect => exact .orphaned missing hdatabase heffect
    | faulted fault heffect => exact .faulted fault hdatabase heffect
  . have hanswer := hasked policy hasks
    cases hending with
    | repeated hrepeats heffects =>
      rw [heffects] at hanswer
      cases hanswer
    | recognized id coordinate hknown heffect =>
      rw [asksMaterialization_eq_some hasks] at hknown
      cases hknown
    | asked policy' _ hend => cases hend
    | faulted fault heffect => exact .undecided policy id row fault hinsertion hanswer heffect

end Handling

/--
Every block that the normalizer accepts, in every storage state a generation reaches without a full level,
is inserted, recognized, admitted as an orphan, dropped as seen before or ends in a fault, which leaves it
inserted only where the answer to the commit was lost. The materialization panics exactly when the block is
Genesis, when the position of its selected parent does not fit `u32`, and when it would be inserted on a
level that does not fit `u32`.
-/
theorem block_handling {pruningPoint : ValidatedNodeBlock} {genesisHash : BlockHash}
    {storage reached : Storage} {anchor : MaterializedSyncAnchor}
    {events : List ((BlockHash → LookupEvictions) × StorageEvent)}
    (hrebuild : Storage.performRebuild pruningPoint genesisHash = .ok (storage, anchor))
    (hrun : run Storage.stepDuring storage events = some reached)
    (hroom : ∀ (level : Nat) (row : LevelRow), reached.database.levels[level]? = some row →
      row.size < maxLevelSize)
    {normalizer : ResponseNormalizer} {block : ValidatedNodeBlock} (haccepts : normalizer.Accepts block)
    (worker : BlockProcessorWorker) (source : BlockSource) (surroundings : Surroundings) :
    ((block.hash ≠ normalizer.genesisHash → block.selectedParent ∈ block.directParents) ∧
      block.directParents.Nodup ∧ block.blueMergeSet.Nodup ∧ block.redMergeSet.Nodup ∧
      block.hash ∉ block.redMergeSet ++ block.blueMergeSet ++ block.directParents) ∧
    ((∃ message, worker.handleStored reached block source surroundings = .error message) ↔
      (worker.serves && worker.awaits source) = true ∧
      ∃ policy, worker.asksMaterialization block source
          (surroundings.presence reached block.hash).2 = some policy ∧
        MaterializationPanics surroundings normalizer reached.database block policy) ∧
    ∀ worker' storage',
      worker.handleStored reached block source surroundings = .ok (worker', storage') →
      ∃ effects, worker.Extends worker' effects ∧
        BlockHandled worker block source (surroundings.presence reached block.hash).2 reached.database
          storage'.database effects := by
  have hsound := (performRebuild_sound hrebuild).run hrun
  have hnormalized := haccepts.normalized
  refine ⟨⟨hnormalized.selectedParent_mem, block.nodup_directParents, block.nodup_blueMergeSet,
    block.nodup_redMergeSet, block.hash_not_mem⟩, ?_⟩
  unfold BlockProcessorWorker.handleStored
  by_cases hserved : (worker.serves && worker.awaits source) = true
  . rw [if_pos hserved]
    have hboth : worker.serves = true ∧ worker.awaits source = true := by simpa using hserved
    obtain ⟨hdatabase, hsound', hpresence⟩ := presence_spec hsound surroundings block.hash
    generalize hasks : worker.asksMaterialization block source
      (surroundings.presence reached block.hash).2 = asks
    dsimp only
    rw [hasks]
    cases asks with
    | none =>
      constructor
      . simp
      . intro worker' storage' hok
        cases hok
        exact blockHandled_unasked hsound hboth hasks _
    | some policy =>
      have hunknown : reached.database.Unknown block.hash :=
        unknown_of_absent (hpresence _ (asksMaterialization_eq_some hasks))
      rw [← hdatabase] at hunknown hroom
      obtain ⟨hpanics, message, herror⟩ | ⟨hnot, storage'', answer, hok, hanswered⟩ :=
        materialization_spec hsound' hnormalized hunknown hroom surroundings policy
      . rw [hdatabase] at hpanics
        dsimp only
        rw [herror]
        constructor
        . exact ⟨fun _ => ⟨hserved, policy, rfl, hpanics⟩, fun _ => ⟨message, rfl⟩⟩
        . intro worker' storage' hok
          cases hok
      . rw [hdatabase] at hnot hanswered
        dsimp only
        rw [hok]
        constructor
        . constructor
          . rintro ⟨message, herror⟩
            cases herror
          . rintro ⟨_, policy', heq, hpanics⟩
            cases heq
            exact absurd hpanics hnot
        . intro worker' storage' hok
          cases hok
          exact blockHandled_asked hboth hasks hanswered
  . rw [if_neg hserved]
    constructor
    . simp [hserved]
    . intro worker' storage' hok
      cases hok
      exact ⟨[], BlockProcessorWorker.Extends.refl worker,
        .unserved (Bool.eq_false_iff.mpr hserved) rfl rfl⟩

section Examples

def calmSurroundings : Surroundings where
  presenceFailure := none
  leaseFailure := none
  transactionFailure := none
  lostCommit := none
  presenceEvictions := ⟨⟨[], [], [], false⟩, ⟨[], [], [], false⟩⟩
  evictions := fun _ => ⟨⟨[], [], [], false⟩, ⟨[], [], [], false⟩⟩
  offer := .ok .enqueued
  persistedInput := .ok ()
  orphanInput := .ok ()
  eventPathOpen := true
  orphanShutdown := .ok ()

def smallNormalizer : ResponseNormalizer :=
  ⟨5, by decide⟩

def smallBinding : GenerationBinding :=
  ⟨⟨.mainnet, none⟩, 5⟩

def goLive : List BlockProcessorInput :=
  [.initializeRun ⟨⟨⟨⟨0, 1⟩, 2⟩, 0, 0⟩, 0⟩, .start true, .catchup 3 (.ok ()), .live (.ok ())]

def insertsCleanly (database : Database) (handled : BlockProcessorWorker × Storage) : Bool :=
  handled.2.database.blocks.size != database.blocks.size &&
    handled.1.trace.all fun effect => !effect.isFault

theorem exists_live_handled (rpc : RpcBlock) (ending : Except String Bool)
    (h : ((Storage.performRebuild (.ofParent 1 0 (by decide)) 5).toOption.bind fun result =>
      (smallNormalizer.blockAdded rpc).toOption.bind fun block =>
      (run BlockProcessorWorker.step (.new .resync smallBinding smallBinding) goLive).map fun worker =>
        (worker.handleStored result.1 block .notification calmSurroundings).map
          (insertsCleanly result.1.database)) = some ending) :
    ∃ storage anchor block worker,
      Storage.performRebuild (.ofParent 1 0 (by decide)) 5 = .ok (storage, anchor) ∧
      (∀ (level : Nat) (row : LevelRow), storage.database.levels[level]? = some row →
        row.size < maxLevelSize) ∧
      smallNormalizer.blockAdded rpc = .ok block ∧
      run BlockProcessorWorker.step (.new .resync smallBinding smallBinding) goLive = some worker ∧
      (worker.handleStored storage block .notification calmSurroundings).map
        (insertsCleanly storage.database) = ending := by
  rw [Option.bind_eq_some_iff] at h
  obtain ⟨⟨storage, anchor⟩, hrebuild, h⟩ := h
  rw [Option.bind_eq_some_iff] at h
  obtain ⟨block, hblock, h⟩ := h
  rw [Option.map_eq_some_iff] at h
  obtain ⟨worker, hworker, h⟩ := h
  rw [toOption_eq_some] at hrebuild hblock
  refine ⟨storage, anchor, block, worker, hrebuild, ?_, hblock, hworker, h⟩
  obtain ⟨_, row, parentIds, hrebuilt⟩ := performRebuild_eq_ok hrebuild
  intro level levelRow hlevel
  rw [hrebuilt.levels, Map.get_insert] at hlevel
  split at hlevel
  . cases hlevel
    show 1 < maxLevelSize
    decide
  . cases Std.ExtTreeMap.getElem?_empty.symm.trans hlevel

/--
A child of the pruning point is inserted.
-/
theorem block_handling_child :
    ∃ storage anchor block worker worker' storage' effects policy committed id row,
      Storage.performRebuild (.ofParent 1 0 (by decide)) 5 = .ok (storage, anchor) ∧
      smallNormalizer.blockAdded ⟨⟨2, [[1]], 0, 0, 0, 0⟩, some ⟨1, [1], []⟩⟩ = .ok block ∧
      run BlockProcessorWorker.step (.new .resync smallBinding smallBinding) goLive = some worker ∧
      worker.handleStored storage block .notification calmSurroundings = .ok (worker', storage') ∧
      worker.Extends worker' effects ∧ Insertion storage.database storage'.database block id row ∧
      .materialized block policy (.ok (.inserted committed)) ∈ effects := by
  obtain ⟨storage, anchor, block, worker, hrebuild, hroom, hblock, hworker, hending⟩ :=
    exists_live_handled ⟨⟨2, [[1]], 0, 0, 0, 0⟩, some ⟨1, [1], []⟩⟩ (.ok true) (by decide +kernel)
  have hrun : run Storage.stepDuring storage [] = some storage := rfl
  obtain ⟨_, _, hhandled⟩ := block_handling hrebuild hrun hroom (.notification _ hblock) worker
    .notification calmSurroundings
  cases hresult : worker.handleStored storage block .notification calmSurroundings with
  | error message =>
    rw [hresult] at hending
    cases hending
  | ok result =>
    obtain ⟨worker', storage'⟩ := result
    rw [hresult] at hending
    have hclean : insertsCleanly storage.database (worker', storage') = true := by
      simpa [Except.map] using hending
    unfold insertsCleanly at hclean
    rw [Bool.and_eq_true, bne_iff_ne, List.all_eq_true] at hclean
    obtain ⟨hsize, hfaults⟩ := hclean
    have hchanged : storage'.database ≠ storage.database := fun heq => hsize (by rw [heq])
    obtain ⟨effects, hextends, hend⟩ := hhandled worker' storage' hresult
    cases hend with
    | inserted policy committed id row hinsertion heffect =>
      exact ⟨storage, anchor, block, worker, worker', storage', effects, policy, committed, id, row,
        hrebuild, hblock, hworker, hresult, hextends, hinsertion, heffect⟩
    | undecided policy id row fault hinsertion hanswer heffect =>
      cases hfaults _ (hextends.trace ▸ List.mem_append_right _ heffect)
    | unserved _ hdatabase _ => exact absurd hdatabase hchanged
    | repeated _ hdatabase _ => exact absurd hdatabase hchanged
    | recognized _ hdatabase _ => exact absurd hdatabase hchanged
    | orphaned _ hdatabase _ => exact absurd hdatabase hchanged
    | faulted _ hdatabase _ => exact absurd hdatabase hchanged

/--
Genesis is accepted like any block, and panics where the generation starts at a later pruning point.
-/
theorem block_handling_genesis :
    ∃ storage anchor block worker,
      Storage.performRebuild (.ofParent 1 0 (by decide)) 5 = .ok (storage, anchor) ∧
      (∀ (level : Nat) (row : LevelRow), storage.database.levels[level]? = some row →
        row.size < maxLevelSize) ∧
      smallNormalizer.blockAdded ⟨⟨5, [], 0, 0, 0, 0⟩, none⟩ = .ok block ∧
      run BlockProcessorWorker.step (.new .resync smallBinding smallBinding) goLive = some worker ∧
      worker.handleStored storage block .notification calmSurroundings
        = .error "ValidatedNodeBlock selected parent has a representable canonical index" := by
  obtain ⟨storage, anchor, block, worker, hrebuild, hroom, hblock, hworker, hending⟩ :=
    exists_live_handled ⟨⟨5, [], 0, 0, 0, 0⟩, none⟩
      (.error "ValidatedNodeBlock selected parent has a representable canonical index")
      (by decide +kernel)
  refine ⟨storage, anchor, block, worker, hrebuild, hroom, hblock, hworker, ?_⟩
  cases hresult : worker.handleStored storage block .notification calmSurroundings with
  | ok result =>
    rw [hresult] at hending
    cases hending
  | error message =>
    rw [hresult] at hending
    cases hending
    rfl

end Examples

end Kgi
