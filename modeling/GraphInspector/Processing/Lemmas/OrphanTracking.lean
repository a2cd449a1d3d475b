import GraphInspector.Processing.Lemmas.OrphanManager

/-!
The ledger of admissions says what the orphan manager is for, in terms of its messages alone. The topology
refines the ledger along every run.
-/

namespace Kgi

open Data

variable {topology topology' : OrphanTopology} {mutation : TopologyMutation}
  {message : OrphanMessage} {ledger : Ledger}

structure Admission where
  references : List BlockHash
  reported : List BlockHash
  deriving DecidableEq

def Admission.Settled (admission : Admission) : Prop :=
  ∀ reference ∈ admission.references, reference ∈ admission.reported

instance (admission : Admission) : Decidable admission.Settled :=
  List.decidableBAll (fun reference => reference ∈ admission.reported) admission.references

def Admission.report (admission : Admission) (hash : BlockHash) : Admission :=
  { admission with reported := admission.reported ++ [hash] }

def Ledger := BlockHash → Option Admission

namespace Ledger

def empty : Ledger := fun _ => none

def handle (ledger : Ledger) (message : OrphanMessage) : Ledger :=
  match message with
  | .addOrphan block missing =>
    fun hash =>
      if block.hash = hash ∧ ledger hash = none then some ⟨missing, []⟩ else ledger hash
  | .blockPersisted persisted =>
    fun hash =>
      if persisted = hash then
        none
      else
        (ledger hash).bind fun admission =>
          if (admission.report persisted).Settled then none else some (admission.report persisted)

end Ledger

namespace OrphanSystem

def trackedStep (state : OrphanSystem × Ledger) (event : OrphanEvent) :
    Option (OrphanSystem × Ledger) :=
  match state.1.step event with
  | none => none
  | some system =>
    match event with
    | .message message =>
      match (OrphanManagerWorker.mutate state.1.manager.topology message).2 with
      | .ok _ => some (system, state.2.handle message)
      | .error _ => some (system, state.2)
    | _ => some (system, state.2)

end OrphanSystem

namespace OrphanTopology

def Tracks (topology : OrphanTopology) (ledger : Ledger) : Prop :=
  ∀ hash : BlockHash,
    (topology.orphans[hash]? = none ∧ ledger hash = none) ∨
    (∃ entry admission, topology.orphans[hash]? = some entry ∧ ledger hash = some admission ∧
      ∀ reference, reference ∈ entry.missing ↔
        reference ∈ admission.references ∧ reference ∉ admission.reported)

theorem Tracks.empty : Tracks .empty .empty := by
  intro hash
  left
  simp [OrphanTopology.empty, Ledger.empty]

theorem Tracks.congr (h : topology.Tracks ledger) (horphans : topology'.orphans = topology.orphans) :
    topology'.Tracks ledger := by
  intro hash
  rw [horphans]
  exact h hash

theorem Tracks.addOrphan {block : ValidatedNodeBlock} {missing : List BlockHash}
    (h : topology.Tracks ledger) (heq : topology.addOrphan block missing = (topology', .ok mutation)) :
    topology'.Tracks (ledger.handle (.addOrphan block missing)) := by
  intro hash
  simp only [Ledger.handle]
  obtain ⟨hold, rfl, -⟩ | ⟨hnew, -, horphans, -⟩ := addOrphan_orphans heq
  . have hkeep : ¬ (block.hash = hash ∧ ledger hash = none) := by
      rintro ⟨rfl, hnone⟩
      rw [Map.contains_iff] at hold
      obtain ⟨entry, hentry⟩ := hold
      obtain ⟨hn, -⟩ | ⟨_, admission, -, hadm, -⟩ := h block.hash
      . rw [hentry] at hn
        cases hn
      . rw [hnone] at hadm
        cases hadm
    rw [if_neg hkeep]
    exact h hash
  . rw [horphans, Map.get_insert]
    by_cases hb : block.hash = hash
    . subst hb
      have hnone : ledger block.hash = none := by
        obtain ⟨-, hl⟩ | ⟨entry, _, hentry, -⟩ := h block.hash
        . exact hl
        . rw [hnew] at hentry
          cases hentry
      right
      refine ⟨⟨block, KeySet.ofElems missing⟩, ⟨missing, []⟩, by simp, by simp [hnone], ?_⟩
      intro reference
      simp [KeySet.mem_ofElems]
    . simp only [hb, ↓reduceIte, false_and]
      exact h hash

theorem erase_isEmpty_iff_settled {entry : OrphanEntry} {admission : Admission} (hash : BlockHash)
    (h : ∀ reference, reference ∈ entry.missing ↔
      reference ∈ admission.references ∧ reference ∉ admission.reported) :
    (entry.missing.erase hash).isEmpty = true ↔ (admission.report hash).Settled := by
  rw [KeySet.isEmpty_iff_forall]
  unfold Admission.Settled Admission.report
  simp only [KeySet.mem_erase, h, List.mem_append, List.mem_singleton, not_and]
  constructor
  . intro hall reference href
    by_contra hnot
    rw [not_or] at hnot
    exact hall reference (fun he => hnot.2 he.symm) href hnot.1
  . intro hall reference hne href hrep
    obtain hin | heq := hall reference href
    . exact hrep hin
    . exact hne heq.symm

theorem Tracks.blockPersisted {topology : OrphanTopology} (hinv : topology.Inv)
    (h : topology.Tracks ledger) (persisted : BlockHash) :
    (topology.blockPersisted persisted).1.Tracks (ledger.handle (.blockPersisted persisted)) := by
  intro hash
  simp only [Ledger.handle]
  rw [blockPersisted_orphans hinv]
  by_cases hp : persisted = hash
  . left
    simp [hp]
  . simp only [hp, ↓reduceIte]
    obtain ⟨ho, hl⟩ | ⟨entry, admission, ho, hl, hmem⟩ := h hash
    . left
      simp [ho, hl]
    . rw [ho, hl, Option.bind_some, Option.bind_some]
      have hiff := erase_isEmpty_iff_settled persisted hmem
      by_cases hs : (admission.report persisted).Settled
      . left
        exact ⟨if_pos (hiff.mpr hs), if_pos hs⟩
      . right
        refine ⟨_, _, if_neg (mt hiff.mp hs), if_neg hs, ?_⟩
        intro reference
        simp only [KeySet.mem_erase, hmem, Admission.report, List.mem_append, List.mem_singleton,
          not_or]
        constructor
        . rintro ⟨hne, href, hrep⟩
          exact ⟨href, hrep, fun he => hne he.symm⟩
        . rintro ⟨href, hrep, hne⟩
          exact ⟨fun he => hne he.symm, href, hrep⟩

end OrphanTopology

namespace OrphanManagerWorker

open OrphanTopology

theorem mutate_blockPersisted {hash : BlockHash}
    (h : mutate topology (.blockPersisted hash) = (topology', .ok mutation)) :
    topology' = (topology.blockPersisted hash).1 ∧ mutation = (topology.blockPersisted hash).2 := by
  cases h
  exact ⟨rfl, rfl⟩

theorem mutate_inv (hinv : topology.Inv) (h : mutate topology message = (topology', .ok mutation)) :
    topology'.Inv := by
  cases message with
  | addOrphan block missing => exact hinv.addOrphan h
  | blockPersisted hash =>
    rw [(mutate_blockPersisted h).1]
    exact hinv.blockPersisted hash

theorem mutate_tracks (hinv : topology.Inv) (htracks : topology.Tracks ledger)
    (h : mutate topology message = (topology', .ok mutation)) :
    topology'.Tracks (ledger.handle message) := by
  cases message with
  | addOrphan block missing => exact htracks.addOrphan h
  | blockPersisted hash =>
    rw [(mutate_blockPersisted h).1]
    exact htracks.blockPersisted hinv hash

theorem handleMessage_topology (worker : OrphanManagerWorker) (message : OrphanMessage) :
    (∃ error, mutate worker.topology message = (worker.topology, .error error) ∧
      (worker.handleMessage message).topology = worker.topology)
      ∨
    (∃ topology mutation, mutate worker.topology message = (topology, .ok mutation) ∧
      ((worker.handleMessage message).topology = topology ∨
        (worker.handleMessage message).topology = topology.takeResolutionCandidates.1)) := by
  obtain ⟨error, kind, hm, heq⟩ | ⟨topology, mutation, _, _, sent, kind, hm, -, -, ht, heq⟩ |
    ⟨topology, mutation, hm, hsent⟩ := handleMessage_cases worker message
  . left
    exact ⟨error, hm, by rw [heq, enterFault_topology]⟩
  . right
    refine ⟨topology, mutation, hm, ?_⟩
    rw [heq, enterFault_topology]
    exact ht
  . right
    exact ⟨topology, mutation, hm, Or.inr hsent.topology⟩

end OrphanManagerWorker

namespace OrphanSystem

open OrphanTopology OrphanManagerWorker

def Tracked (state : OrphanSystem × Ledger) : Prop :=
  state.1.manager.topology.Inv ∧ state.1.manager.topology.Tracks state.2

theorem step_topology {system system' : OrphanSystem} {event : OrphanEvent}
    (h : system.step event = some system') :
    (∃ message, event = .message message ∧ system.manager.state = .active ∧
      system' = { system with manager := system.manager.handleMessage message })
      ∨
    ((∀ message, event ≠ .message message) ∧
      system'.manager.topology = system.manager.topology) := by
  cases event with
  | message message =>
    left
    simp only [step] at h
    split at h
    . next hactive =>
      cases h
      exact ⟨message, rfl, hactive, rfl⟩
    . cases h
  | resolverWork =>
    right
    refine ⟨by simp, ?_⟩
    simp only [step] at h
    split at h
    . cases h
    . split at h
      . cases h
      . cases h
        rfl
  | taskJoined task outcome =>
    right
    refine ⟨by simp, ?_⟩
    simp only [step] at h
    split at h
    . cases h
      rfl
    . cases h
  | resolutionTaken =>
    right
    refine ⟨by simp, ?_⟩
    simp only [step] at h
    split at h
    . cases h
    . cases h
      rfl
  | resolverFaultReceived kind =>
    right
    refine ⟨by simp, ?_⟩
    simp only [step] at h
    split at h
    . cases h
      exact enterFault_topology kind
    . cases h

theorem trackedStep_tracked (state : OrphanSystem × Ledger) (event : OrphanEvent)
    (state' : OrphanSystem × Ledger) (hstate : Tracked state)
    (h : trackedStep state event = some state') : Tracked state' := by
  obtain ⟨system, ledger⟩ := state
  obtain ⟨hinv, htracks⟩ := hstate
  unfold trackedStep at h
  split at h
  . cases h
  . next system' hstep =>
    obtain ⟨message, rfl, -, hsys⟩ | ⟨hother, htop⟩ := step_topology hstep
    . obtain ⟨error, hm, ht⟩ | ⟨topology, mutation, hm, ht⟩ :=
        handleMessage_topology system.manager message
      . simp only [hm] at h
        cases h
        rw [hsys]
        refine ⟨?_, ?_⟩
        . dsimp only
          rw [ht]
          exact hinv
        . dsimp only
          rw [ht]
          exact htracks
      . simp only [hm] at h
        cases h
        have hinv' := mutate_inv hinv hm
        have htracks' := mutate_tracks hinv htracks hm
        rw [hsys]
        unfold Tracked
        obtain ht | ht := ht
        . rw [ht]
          exact ⟨hinv', htracks'⟩
        . rw [ht]
          exact ⟨hinv'.takeResolutionCandidates,
            htracks'.congr (takeResolutionCandidates_orphans topology)⟩
    . have heq : state' = (system', ledger) := by
        cases event with
        | message message => exact absurd rfl (hother message)
        | _ =>
          cases h
          rfl
      rw [heq]
      refine ⟨?_, ?_⟩
      . dsimp only
        rw [htop]
        exact hinv
      . dsimp only
        rw [htop]
        exact htracks

theorem tracked_of_run {events : List OrphanEvent} {state : OrphanSystem × Ledger}
    (h : run trackedStep (new, .empty) events = some state) : Tracked state :=
  run.invariant trackedStep_tracked ⟨Inv.empty, Tracks.empty⟩ h

variable {worker : OrphanManagerWorker}

theorem handleMessage_orphans_eq_none {hash : BlockHash} {entry : OrphanEntry}
    (hinv : worker.topology.Inv) (hentry : worker.topology.orphans[hash]? = some entry) :
    (worker.handleMessage message).topology.orphans[hash]? = none
      ↔
    message = .blockPersisted hash ∨
      ∃ persisted, message = .blockPersisted persisted ∧
        (entry.missing.erase persisted).isEmpty = true := by
  have horphans : ∀ {topology mutation}, mutate worker.topology message = (topology, .ok mutation) →
      (worker.handleMessage message).topology.orphans = topology.orphans := by
    intro topology mutation hok
    obtain ⟨error, hm, -⟩ | ⟨topology', mutation', hm, ht⟩ := handleMessage_topology worker message
    . rw [hm] at hok
      cases hok
    . rw [hm] at hok
      cases hok
      obtain ht | ht := ht
      . rw [ht]
      . rw [ht, takeResolutionCandidates_orphans]
  cases message with
  | addOrphan block missing =>
    suffices hsome : (worker.handleMessage (.addOrphan block missing)).topology.orphans[hash]? ≠ none by
      simp [hsome]
    obtain ⟨error, -, ht⟩ | ⟨topology, mutation, hm, -⟩ :=
      handleMessage_topology worker (.addOrphan block missing)
    . rw [ht, hentry]
      simp
    . rw [horphans hm]
      obtain ⟨-, rfl, -⟩ | ⟨-, -, hins, -⟩ := addOrphan_orphans hm
      . rw [hentry]
        simp
      . rw [hins, Map.get_insert]
        split
        . simp
        . rw [hentry]
          simp
  | blockPersisted persisted =>
    have hok : mutate worker.topology (.blockPersisted persisted)
        = ((worker.topology.blockPersisted persisted).1,
          .ok (worker.topology.blockPersisted persisted).2) := rfl
    rw [horphans hok, blockPersisted_orphans hinv, hentry, Option.bind_some]
    simp only [OrphanMessage.blockPersisted.injEq, exists_eq_left', advance]
    by_cases hp : persisted = hash
    . simp only [hp, ↓reduceIte, true_or]
    . rw [if_neg hp]
      simp only [hp, false_or]
      split
      . next he => simp only [he]
      . next he => simp only [he, reduceCtorEq]

theorem handleMessage_released (hinv : worker.topology.Inv)
    (hactive : (worker.handleMessage message).state = .active) :
    ∃ released : List ValidatedNodeBlock,
      (worker.handleMessage message).resolution.items
        = worker.resolution.items ++ released.map .orphanReady ∧
      released.Nodup ∧
      ∀ block, block ∈ released ↔
        ∃ (hash : BlockHash) (entry : OrphanEntry), worker.topology.orphans[hash]? = some entry ∧
          entry.block = block ∧
          (worker.handleMessage message).topology.orphans[hash]? = none ∧
          message ≠ .blockPersisted hash := by
  obtain ⟨_, kind, -, heq⟩ | ⟨_, _, _, _, sent, kind, -, -, -, -, heq⟩ | ⟨topology, mutation, hm, hsent⟩ :=
    handleMessage_cases worker message
  . rw [heq, enterFault_state] at hactive
    cases hactive
  . rw [heq, enterFault_state] at hactive
    cases hactive
  . have hleft : ∀ (hash : BlockHash) (entry : OrphanEntry),
        worker.topology.orphans[hash]? = some entry →
        ((worker.handleMessage message).topology.orphans[hash]? = none ∧
            message ≠ .blockPersisted hash ↔
          ∃ persisted, persisted ≠ hash ∧ message = .blockPersisted persisted ∧
            (entry.missing.erase persisted).isEmpty = true) := by
      intro hash entry hentry
      rw [handleMessage_orphans_eq_none hinv hentry]
      constructor
      . rintro ⟨rfl | ⟨persisted, rfl, hs⟩, hne⟩
        . exact absurd rfl hne
        . exact ⟨persisted, fun he => hne (by rw [he]), rfl, hs⟩
      . rintro ⟨persisted, hne, rfl, hs⟩
        exact ⟨Or.inr ⟨persisted, rfl, hs⟩, by simpa using hne⟩
    refine ⟨mutation.ready, hsent.resolution, ?_, ?_⟩
    . cases message with
      | addOrphan block missing =>
        obtain ⟨-, -, rfl⟩ | ⟨-, -, -, -, hready⟩ := addOrphan_orphans hm
        . exact List.nodup_nil
        . rw [hready]
          exact List.nodup_nil
      | blockPersisted persisted =>
        rw [(mutate_blockPersisted hm).2]
        exact (blockPersisted_ready hinv persisted).2
    . intro block
      cases message with
      | addOrphan added missing =>
        have hnil : mutation.ready = [] := by
          obtain ⟨-, -, rfl⟩ | ⟨-, -, -, -, hready⟩ := addOrphan_orphans hm
          . rfl
          . exact hready
        rw [hnil]
        simp only [List.not_mem_nil, false_iff, not_exists]
        rintro hash entry ⟨hentry, -, hgone⟩
        obtain ⟨persisted, -, hmsg, -⟩ := (hleft hash entry hentry).mp hgone
        cases hmsg
      | blockPersisted persisted =>
        rw [(mutate_blockPersisted hm).2, (blockPersisted_ready hinv persisted).1]
        constructor
        . rintro ⟨hash, entry, hne, hentry, hrel⟩
          unfold release at hrel
          split at hrel
          . next hempty =>
            cases hrel
            exact ⟨hash, entry, hentry, rfl,
              (hleft hash entry hentry).mpr ⟨persisted, hne, rfl, hempty⟩⟩
          . cases hrel
        . rintro ⟨hash, entry, hentry, rfl, hgone⟩
          obtain ⟨persisted', hne, hmsg, hempty⟩ := (hleft hash entry hentry).mp hgone
          cases hmsg
          exact ⟨hash, entry, hne, hentry, by unfold release; rw [if_pos hempty]⟩

/--
In every run, a retained orphan waits for exactly the references that were not reported since its
admission, and there is one. A message removes an orphan exactly when it reports the orphan itself or
settles its admission, and in the latter case the block is released, once.
-/
theorem orphan_tracking (events : List OrphanEvent) (system : OrphanSystem) (ledger : Ledger)
    (h : run trackedStep (new, .empty) events = some (system, ledger)) :
    (∀ hash : BlockHash, system.manager.topology.orphans[hash]? = none ↔ ledger hash = none) ∧
    (∀ (hash : BlockHash) (entry : OrphanEntry) (admission : Admission),
      system.manager.topology.orphans[hash]? = some entry → ledger hash = some admission →
      (∀ reference, reference ∈ entry.missing ↔
        reference ∈ admission.references ∧ reference ∉ admission.reported) ∧
      (∃ reference, reference ∈ entry.missing) ∧
      ¬ admission.Settled) ∧
    (∀ (message : OrphanMessage) (system' : OrphanSystem) (ledger' : Ledger),
      trackedStep (system, ledger) (.message message) = some (system', ledger') →
      (∀ (hash : BlockHash) (entry : OrphanEntry) (admission : Admission),
        system.manager.topology.orphans[hash]? = some entry → ledger hash = some admission →
        (system'.manager.topology.orphans[hash]? = none
          ↔
        message = .blockPersisted hash ∨
          ∃ persisted, message = .blockPersisted persisted ∧
            (admission.report persisted).Settled)) ∧
      (system'.manager.state = .active →
        ∃ released : List ValidatedNodeBlock,
          system'.manager.resolution.items
            = system.manager.resolution.items ++ released.map .orphanReady ∧
          released.Nodup ∧
          ∀ block, block ∈ released ↔
            ∃ (hash : BlockHash) (entry : OrphanEntry),
              system.manager.topology.orphans[hash]? = some entry ∧ entry.block = block ∧
              system'.manager.topology.orphans[hash]? = none ∧
              message ≠ .blockPersisted hash)) := by
  obtain ⟨hinv, htracks⟩ := tracked_of_run h
  dsimp only at hinv htracks
  have hmissing : ∀ (hash : BlockHash) (entry : OrphanEntry) (admission : Admission),
      system.manager.topology.orphans[hash]? = some entry → ledger hash = some admission →
      ∀ reference, reference ∈ entry.missing ↔
        reference ∈ admission.references ∧ reference ∉ admission.reported := by
    intro hash entry admission hentry hadmission
    obtain ⟨hnone, -⟩ | ⟨entry', admission', hentry', hadmission', hmem⟩ := htracks hash
    . rw [hentry] at hnone
      cases hnone
    . rw [hentry] at hentry'
      rw [hadmission] at hadmission'
      cases hentry'
      cases hadmission'
      exact hmem
  refine ⟨?_, ?_, ?_⟩
  . intro hash
    obtain ⟨ho, hl⟩ | ⟨entry, admission, ho, hl, -⟩ := htracks hash
    . simp [ho, hl]
    . simp [ho, hl]
  . intro hash entry admission hentry hadmission
    have hmem := hmissing hash entry admission hentry hadmission
    obtain ⟨reference, href⟩ := hinv.waiting hash entry hentry
    refine ⟨hmem, ⟨reference, href⟩, ?_⟩
    intro hsettled
    rw [hmem] at href
    exact href.2 (hsettled reference href.1)
  . intro message system' ledger' hstep
    have hsys : system' = { system with manager := system.manager.handleMessage message } := by
      unfold trackedStep at hstep
      dsimp only at hstep
      split at hstep
      . cases hstep
      . next final hfinal =>
        obtain ⟨message', hmsg, -, heq⟩ | ⟨hother, -⟩ := step_topology hfinal
        . cases hmsg
          split at hstep <;> cases hstep <;> exact heq
        . exact absurd rfl (hother message)
    rw [hsys]
    constructor
    . intro hash entry admission hentry hadmission
      have hmem := hmissing hash entry admission hentry hadmission
      simp only [handleMessage_orphans_eq_none hinv hentry, erase_isEmpty_iff_settled _ hmem]
    . exact handleMessage_released hinv

/--
An orphan with two missing references, one of which is reported.
-/
theorem orphan_tracking_two_references :
    ∃ system ledger,
      run trackedStep (new, .empty)
        [.message (.addOrphan (.ofParent 1 2 (by decide)) [2, 3]), .message (.blockPersisted 2)]
        = some (system, ledger) ∧
      (∀ hash : BlockHash, system.manager.topology.orphans[hash]? = none ↔ ledger hash = none) ∧
      ledger 1 = some ⟨[2, 3], [2]⟩ := by
  have hrun : (run trackedStep (new, .empty)
      [.message (.addOrphan (.ofParent 1 2 (by decide)) [2, 3]), .message (.blockPersisted 2)]).any
      (fun state => decide (state.2 1 = some ⟨[2, 3], [2]⟩)) = true := by
    decide +kernel
  rw [Option.any_eq_true] at hrun
  obtain ⟨⟨system, ledger⟩, hrun, hledger⟩ := hrun
  exact ⟨system, ledger, hrun, (orphan_tracking _ _ _ hrun).1, of_decide_eq_true hledger⟩

end OrphanSystem

end Kgi
