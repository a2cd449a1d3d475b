import GraphInspector.Data.Total
import GraphInspector.Processing.Lemmas.VspcChain

/-!
The processor comes to rest without further input: every action lowers the work that its pending changes
hold, or ends in a fault.
-/

namespace Kgi

open Data

/-!
Chains of selected parents, and what a change makes of them.
-/

def VspcChange.Leads (change : VspcChange) (before after : Nat → BlockHash) : Prop :=
  ∃ rest, before = stack change.removed rest ∧ after = stack change.added.reverse rest

namespace SelectedParentTree

variable {tree : SelectedParentTree} {change : VspcChange}

def chain (tree : SelectedParentTree) (hash : BlockHash) : Nat → BlockHash :=
  iterates tree.selectedParent hash

theorem Links.leads (h : tree.Links change) {source destination : BlockHash}
    (hsource : tree.source change = some source) (hdestination : change.added.getLast? = some destination) :
    change.Leads (tree.chain source) (tree.chain destination) := by
  obtain ⟨hadded, hremoved, hfork⟩ := h
  obtain ⟨removed, added⟩ := change
  cases added with
  | nil => cases hdestination
  | cons first path =>
    have hup : tree.chain destination
        = stack (first :: path).reverse (tree.chain (tree.selectedParent first)) := by
      apply iterates_up
      . exact List.isChain_cons_cons.mpr ⟨rfl, hadded⟩
      . rw [List.getLast?_cons, hdestination]
        rfl
    refine ⟨tree.chain (tree.selectedParent first), ?_, hup⟩
    cases removed with
    | nil =>
      cases hsource
      rfl
    | cons top path =>
      cases hsource
      obtain ⟨last, hlast⟩ : ∃ last, (source :: path).getLast? = some last :=
        ⟨_, List.getLast?_eq_some_getLast (List.cons_ne_nil _ _)⟩
      rw [← hfork last hlast first rfl]
      exact iterates_down hremoved hlast

end SelectedParentTree

/-!
The work that is left.
-/

def PendingCandidate.work (candidate : PendingCandidate) : Nat :=
  candidate.change.added.length + (if candidate.overlapCredited then 0 else 1) + 1

namespace VspcState

variable {state next : VspcState} {id : PendingId} {candidate : PendingCandidate}

def work (state : VspcState) : Nat :=
  Map.total state.pending PendingCandidate.work

theorem work_refreshed (state : VspcState) (candidate : PendingCandidate) :
    (state.refreshed candidate).work = candidate.work :=
  rfl

theorem length_suffixAfter_lt {hash : BlockHash} {path : List BlockHash} (h : suffixAfter hash path ≠ []) :
    (suffixAfter hash path).length < path.length := by
  obtain ⟨before, hpath⟩ := suffixAfter_split h
  have hlength := congrArg List.length hpath
  rw [List.length_append, List.length_cons] at hlength
  omega

theorem work_lt_of_replaced (replaced : Option PendingCandidate)
    (hget : state.pending[id]? = some candidate)
    (hnext : ∀ other : PendingId, next.pending[other]?.map PendingCandidate.work
      = if id = other then replaced.map PendingCandidate.work
        else state.pending[other]?.map PendingCandidate.work)
    (hlt : ∀ lighter ∈ replaced, lighter.work < candidate.work) : next.work < state.work := by
  have hself := hnext id
  rw [if_pos rfl] at hself
  apply Map.total_lt _ hget
  . cases hid : next.pending[id]? with
    | none => exact Nat.succ_pos _
    | some found =>
      rw [hid] at hself
      obtain ⟨lighter, hlighter, hwork⟩ := Option.map_eq_some_iff.mp hself.symm
      rw [Option.elim_some, ← hwork]
      exact hlt lighter hlighter
  . intro other found hfound
    have hother := hnext other
    rw [hfound] at hother
    split at hother
    . next heq =>
      obtain ⟨lighter, hlighter, hwork⟩ := Option.map_eq_some_iff.mp hother.symm
      refine ⟨candidate, heq ▸ hget, ?_⟩
      rw [← hwork]
      exact Nat.le_of_lt (hlt lighter hlighter)
    . obtain ⟨same, hsame, hwork⟩ := Option.map_eq_some_iff.mp hother.symm
      exact ⟨same, hsame, Nat.le_of_eq hwork.symm⟩

section Work

variable (hget : state.pending[id]? = some candidate)
include hget

theorem work_removeCandidate_lt : (state.removeCandidate id).work < state.work := by
  apply work_lt_of_replaced none hget
  . intro other
    rw [get_removeCandidate]
    split
    . rfl
    . rfl
  . simp

theorem work_normalized_lt
    (hsuffix : suffixAfter state.committedSink.hash candidate.change.added ≠ []) :
    (state.normalized id (suffixAfter state.committedSink.hash candidate.change.added)).work
      < state.work := by
  apply work_lt_of_replaced _ hget
  . intro other
    rw [get_normalized hget, apply_ite (Option.map PendingCandidate.work)]
  . intro cut hcut
    cases hcut
    rw [work_refreshed]
    have hlength := length_suffixAfter_lt hsuffix
    unfold normalizedCandidate PendingCandidate.work
    dsimp only
    rw [if_pos rfl]
    omega

theorem work_overlapMarked_lt (hcredited : candidate.overlapCredited = false) :
    (state.overlapMarked id).work < state.work := by
  apply work_lt_of_replaced _ hget
  . intro other
    rw [get_overlapMarked hget, apply_ite (Option.map PendingCandidate.work)]
  . intro marked hmarked
    cases hmarked
    unfold PendingCandidate.work
    dsimp only
    rw [if_pos rfl, hcredited, if_neg Bool.false_ne_true]
    omega

theorem work_committed_lt (destination : VspcPoint) :
    (state.committed id destination).work < state.work := by
  apply work_lt_of_replaced none hget
  . intro other
    have hremoved : ({ state with committedSink := destination }.removeCandidate id).pending[other]?
        = if id = other then none else state.pending[other]? := get_removeCandidate _ _ _
    unfold committed
    dsimp only
    split
    . rw [hremoved, apply_ite (Option.map PendingCandidate.work)]
    . unfold pruneHistory
      rw [get_refreshAll]
      rw [hremoved]
      split
      . rw [Option.map_map, apply_ite (Option.map _)]
        rfl
      . rw [apply_ite (Option.map PendingCandidate.work)]
  . simp

end Work

/--
What normalizing makes of a notification that crosses the sink: a path up from the sink to the same
destination. If the change follows the selected parents, the path leads from the chain of the sink to the
chain that the change leads to.
-/
structure CutAtSink (state next : VspcState) (candidate cut : PendingCandidate) : Prop where
  sink : next.committedSink = state.committedSink
  source : cut.source = candidate.source
  destination : cut.destination = candidate.destination
  removed : cut.change.removed = []
  added : cut.change.added.getLast? = some candidate.destination
  starts : ∀ tree : SelectedParentTree, tree.Links candidate.change →
    tree.source cut.change = some state.committedSink.hash
  starts_known : ∀ tree : SelectedParentTree, tree.Links candidate.change →
    (∀ (hash : BlockHash) (block : PersistedBlock), state.history.byHash[hash]? = some block →
      block.selectedParent = tree.selectedParent hash) →
    ∀ source destination, next.endpoints cut.change = some (source, destination) →
      source = state.committedSink
  leads : ∀ tree : SelectedParentTree, tree.Links candidate.change →
    cut.change.Leads (tree.chain state.committedSink.hash) (tree.chain candidate.destination) ∧
      ∀ source, tree.source candidate.change = some source →
        candidate.change.Leads (tree.chain source) (tree.chain candidate.destination)

theorem Sound.cutAtSink (h : state.Sound) (hget : state.pending[id]? = some candidate)
    (hsuffix : suffixAfter state.committedSink.hash candidate.change.added ≠ []) :
    CutAtSink state (state.normalized id (suffixAfter state.committedSink.hash candidate.change.added))
      candidate (state.refreshed
        (normalizedCandidate candidate (suffixAfter state.committedSink.hash candidate.change.added))) := by
  have hdestination := h.indexed.destination id candidate hget
  have hlast := (getLast_suffixAfter hsuffix).trans hdestination
  have hbase := sameBase_normalized state id (suffixAfter state.committedSink.hash candidate.change.added)
  constructor
  case sink => exact hbase.committedSink
  case source => rfl
  case destination => rfl
  case removed => rfl
  case added => exact hlast
  case starts => exact fun tree hlinks => (hlinks.suffixAfter hsuffix).2
  case starts_known =>
    intro tree hlinks hhistory source destination hendpoints
    rw [hbase.endpoints_eq] at hendpoints
    obtain ⟨sourceHash, _, block, _, hsourceHash, -, hblock, -, rfl, -⟩ := endpoints_eq_some.mp hendpoints
    -- The record of the first block names the sink as its selected parent.
    have hsink : sourceHash = state.committedSink.hash := by
      obtain ⟨first, path, hcons⟩ := List.exists_cons_of_ne_nil hsuffix
      have hstarts := (hlinks.suffixAfter hsuffix).2
      rw [hcons] at hstarts
      have hsourceHash : state.sourceHash ⟨[], suffixAfter state.committedSink.hash candidate.change.added⟩
        = some sourceHash := hsourceHash
      rw [hcons] at hsourceHash
      obtain ⟨record, hrecord, rfl⟩ := Option.map_eq_some_iff.mp hsourceHash
      rw [hhistory first record hrecord]
      exact Option.some.inj hstarts
    obtain ⟨sinkBlock, hsinkBlock, hpoint⟩ := h.sink
    rw [hsink, hsinkBlock] at hblock
    cases hblock
    exact hpoint
  case leads =>
    intro tree hlinks
    obtain ⟨hcut, hstarts⟩ := hlinks.suffixAfter hsuffix
    exact ⟨hcut.leads hstarts hlast, fun source hsource => hlinks.leads hsource hdestination⟩

end VspcState

namespace VspcProcessorWorker

variable {worker next : VspcProcessorWorker} {state : VspcState} {answers : VspcAnswers}

/--
The loop does not act on its own: it does not run, the worker is faulted, its last action was cut short, or
there is nothing to do before the next input.
-/
def AtRest (worker : VspcProcessorWorker) : Prop :=
  worker.running = false ∨ worker.faulted = true ∨ worker.deferred = true ∨
    ∀ state, worker.run = .active state → state.nextAction = none

/--
The database may fail in any way. Where it resolves the members of a change it returns one id for each
distinct hash, and where it accepts a change it names the destination of that change.
-/
def Serves (worker : VspcProcessorWorker) (answers : VspcAnswers) : Prop :=
  ∀ (state : VspcState) (id : PendingId) (candidate : PendingCandidate), worker.run = .active state →
    state.nextAction = some (.commit id) → state.pending[id]? = some candidate →
    (∀ ids, answers.resolution = .ok ids →
      ids.length = (firstOccurrences (candidate.change.removed ++ candidate.change.added)).length) ∧
    ∀ source destination outcome, state.endpoints candidate.change = some (source, destination) →
      answers.apply = .ok outcome → outcome.destination = destination

def work (worker : VspcProcessorWorker) : Nat :=
  match worker.run with
  | .inert _ => 0
  | .active state => state.work

theorem work_eq (hactive : worker.run = .active state) : worker.work = state.work := by
  unfold work
  rw [hactive]

theorem AtRest.of_enterFault (worker : VspcProcessorWorker) (fault : ComponentFault) :
    (worker.enterFault fault).AtRest := by
  refine Or.inr (Or.inl ?_)
  unfold enterFault
  split
  . next hfaulted => exact hfaulted
  . rfl

theorem resolveMembers_ne_none {change : VspcChange}
    (hids : ∀ ids, answers.resolution = .ok ids →
      ids.length = (firstOccurrences (change.removed ++ change.added)).length) :
    resolveMembers state change answers ≠ .ok none := by
  unfold resolveMembers
  split
  . split
    . simp
    . simp
  . split
    . simp
    . simp
    . next ids hresolution =>
      have hlength := hids ids hresolution
      have hknown : ∀ hash ∈ change.removed ++ change.added, ∃ id,
          ((firstOccurrences (change.removed ++ change.added)).zip ids).lookup hash = some id := by
        intro hash hmem
        exact exists_lookup_zip ((mem_firstOccurrences _ _).mpr hmem) (Nat.le_of_eq hlength.symm)
      obtain ⟨removed, hremoved⟩ := exists_mapM_eq_some fun hash hmem =>
        hknown hash (List.mem_append_left _ hmem)
      obtain ⟨added, hadded⟩ := exists_mapM_eq_some fun hash hmem =>
        hknown hash (List.mem_append_right _ hmem)
      simp [hremoved, hadded]

theorem prepareCandidate_ne_none {candidate : PendingCandidate}
    (hids : ∀ ids, answers.resolution = .ok ids →
      ids.length = (firstOccurrences (candidate.change.removed ++ candidate.change.added)).length) :
    prepareCandidate state candidate answers ≠ .ok none := by
  unfold prepareCandidate
  split
  . simp
  . intro h
    cases hmembers : resolveMembers state candidate.change answers with
    | error fault =>
      rw [hmembers] at h
      cases h
    | ok members =>
      rw [hmembers] at h
      have hnone := Option.map_eq_none_iff.mp (Except.ok.inj h)
      rw [hnone] at hmembers
      exact resolveMembers_ne_none hids hmembers

def Progresses (worker next : VspcProcessorWorker) : Prop :=
  next.AtRest ∨ next.work < worker.work

theorem Progresses.of_enterFault (worker : VspcProcessorWorker) (fault : ComponentFault) :
    Progresses worker (worker.enterFault fault) :=
  Or.inl (.of_enterFault worker fault)

theorem Progresses.of_work {after : VspcState} (hactive : worker.run = .active state)
    (hnext : next.run = .active after) (hlt : after.work < state.work) : Progresses worker next := by
  right
  rw [work_eq hactive, work_eq hnext]
  exact hlt

theorem exists_commitCandidate {id : PendingId} {candidate : PendingCandidate}
    (hactive : worker.run = .active state) (haction : state.nextAction = some (.commit id))
    (hget : state.pending[id]? = some candidate) (hserves : worker.Serves answers) :
    ∃ next, worker.commitCandidate state id answers = some next ∧ Progresses worker next := by
  obtain ⟨hids, hdestination⟩ := hserves state id candidate hactive haction hget
  unfold commitCandidate
  rw [hget, Option.bind_eq_bind, Option.bind_some]
  split
  . exact ⟨_, rfl, .of_enterFault worker _⟩
  . next hnone => exact absurd hnone (prepareCandidate_ne_none hids)
  . next prepared hprepared =>
    obtain ⟨hendpoints, -⟩ := VspcState.prepareCandidate_eq_ok hprepared
    split
    . next outcome happly =>
      have heq := hdestination _ _ outcome hendpoints happly
      rw [if_pos heq]
      refine ⟨_, rfl, .of_work hactive rfl ?_⟩
      exact VspcState.work_committed_lt hget outcome.destination
    . exact ⟨_, rfl, .of_enterFault worker _⟩
    . exact ⟨_, rfl, .of_enterFault worker _⟩
    . exact ⟨_, rfl, .of_enterFault worker _⟩
    . split
      . exact ⟨_, rfl, .of_enterFault worker _⟩
      . exact ⟨_, rfl, Or.inl (Or.inr (Or.inr (Or.inl rfl)))⟩

theorem exists_drive {action : DriveAction} (hsound : state.Sound) (hactive : worker.run = .active state)
    (haction : state.nextAction = some action) (hserves : worker.Serves answers) :
    ∃ next, worker.drive state answers action = some next ∧ Progresses worker next := by
  have hchoice := VspcState.Choice.of_nextAction haction
  -- A resolved notification is a pending one.
  have hresolved : ∀ (order : ConsensusOrder) (id : PendingId),
      state.resolvedNotifications[order]? = some id → ∃ candidate, state.pending[id]? = some candidate := by
    intro order id hresolved
    obtain ⟨candidate, hget, -⟩ := (hsound.indexed.resolved order id).mp hresolved
    exact ⟨candidate, hget⟩
  have hdiscard : ∀ (order : ConsensusOrder) (id : PendingId) (overlap : Bool),
      state.resolvedNotifications[order]? = some id →
      ∃ next, worker.drive state answers (.discard id overlap) = some next ∧ Progresses worker next := by
    intro order id overlap hid
    obtain ⟨candidate, hget⟩ := hresolved order id hid
    exact ⟨_, rfl, .of_work hactive rfl (VspcState.work_removeCandidate_lt hget)⟩
  cases hchoice with
  | syntheticCommit id candidate destination hhead hget hendpoints =>
    exact exists_commitCandidate hactive haction hget hserves
  | syntheticSourceMismatch id hhead => exact ⟨_, rfl, .of_enterFault worker _⟩
  | below bound order id hphase hid hbound => exact hdiscard order id false hid
  | covered bound order id hphase hid hsink => exact hdiscard order id true hid
  | crossing bound order id candidate hphase hid hget hsuffix =>
    exact ⟨_, rfl, .of_work hactive rfl (VspcState.work_normalized_lt hget hsuffix)⟩
  | overlap bound order id candidate hphase hid hget hcredited hstarts =>
    exact ⟨_, rfl, .of_work hactive rfl (VspcState.work_overlapMarked_lt hget hcredited)⟩
  | superseded order id hphase hid hsink => exact hdiscard order id false hid
  | liveCommit order id candidate destination hphase hid hget hsink hendpoints =>
    exact exists_commitCandidate hactive haction hget hserves
  | competing hphase => exact ⟨_, rfl, .of_enterFault worker _⟩

theorem exists_step_drive (hholds : Holds VspcState.Sound worker) (hrest : ¬ worker.AtRest)
    (hserves : worker.Serves answers) :
    ∃ next, worker.step (.drive answers) = some next ∧ Progresses worker next := by
  unfold AtRest at hrest
  push Not at hrest
  obtain ⟨hrunning, hfaulted, hdeferred, state, hactive, haction⟩ := hrest
  obtain ⟨action, haction⟩ := Option.ne_none_iff_exists'.mp haction
  obtain ⟨next, hdrive, hprogress⟩ := exists_drive (hholds state hactive) hactive haction hserves
  refine ⟨next, ?_, hprogress⟩
  dsimp only [step]
  rw [hactive]
  dsimp only
  rw [if_pos ⟨Bool.eq_true_of_not_eq_false hrunning, hfaulted, hdeferred⟩, haction]
  exact hdrive

def driven (answers : Nat → VspcAnswers) (n : Nat) : List VspcProcessorInput :=
  (List.range n).map fun k => .drive (answers k)

/--
From every reachable worker, and however the database answers, the loop comes to rest after finitely many
actions. An action that normalizes a notification cuts it at the sink.
-/
theorem drive_loop {mode : RecoveryMode} {inputs : List VspcProcessorInput}
    (hrun : Data.run step (new mode) inputs = some worker) :
    (∀ answers : Nat → VspcAnswers,
      (∀ n next, Data.run step worker (driven answers n) = some next → next.Serves (answers n)) →
      ∃ n next, n ≤ worker.work + 1 ∧ Data.run step worker (driven answers n) = some next ∧ next.AtRest) ∧
    ∀ (state : VspcState) (answers : VspcAnswers) (id : PendingId) (suffix : List BlockHash)
      (next : VspcProcessorWorker), worker.run = .active state →
      state.nextAction = some (.normalizeCrossing id suffix) → worker.step (.drive answers) = some next →
      ∃ candidate after cut, state.pending[id]? = some candidate ∧ candidate.source = .notification ∧
        next.run = .active after ∧ after.pending[id]? = some cut ∧
        VspcState.CutAtSink state after candidate cut := by
  have hsound := sound_run hrun
  constructor
  . intro answers hserves
    have hadvance : ∀ n before, Data.run step worker (driven answers n) = some before →
        Holds VspcState.Sound before → ¬ before.AtRest →
        ∃ next, before.step (.drive (answers n)) = some next ∧
          (next.AtRest ∨ Holds VspcState.Sound next ∧ next.work < before.work) := by
      intro n before hbefore hholds hrest
      obtain ⟨next, hstep, hprogress⟩ := exists_step_drive hholds hrest (hserves n before hbefore)
      refine ⟨next, hstep, ?_⟩
      rcases hprogress with hrest' | hlt
      . exact Or.inl hrest'
      . exact Or.inr ⟨sound_step hholds hstep, hlt⟩
    exact run.exists_rest (fun k => VspcProcessorInput.drive (answers k)) hadvance hsound
  . intro state answers id suffix next hactive haction hstep
    have hstate := hsound state hactive
    have hnext : next.run = .active (state.normalized id suffix) := by
      dsimp only [step] at hstep
      rw [hactive] at hstep
      dsimp only at hstep
      split at hstep
      . rw [haction] at hstep
        cases hstep
        rfl
      . cases hstep
    cases VspcState.Choice.of_nextAction haction with
    | crossing bound order id candidate hphase hresolved hget hsuffix =>
      obtain ⟨hnotified, -⟩ := hstate.order_of_resolved hresolved hget
      refine ⟨candidate, _, _, hget, hnotified, hnext, ?_, hstate.cutAtSink hget hsuffix⟩
      rw [VspcState.get_normalized hget, if_pos rfl]

def crossingInputs : List VspcProcessorInput :=
  [.initializeRun ⟨countingPoint 1, 0, 0⟩, .start, .catchup (countingPoint 1),
    .persisted (some (countingBlock 2)), .notification ⟨[], [2, 3]⟩, .synthetic ⟨[], [2]⟩,
    .drive (countingAnswers 2), .persisted (some (countingBlock 3))]

def rejectingAnswers : VspcAnswers :=
  ⟨.error (.nonMaterialized [] []), .error .sourceDiscontinuity, none⟩

theorem serves_rejectingAnswers (worker : VspcProcessorWorker) : worker.Serves rejectingAnswers := by
  intro state id candidate _ _ _
  constructor
  . intro ids hresolution
    cases hresolution
  . intro source destination outcome _ happly
    cases happly

theorem drive_loop_crossing :
    ∃ worker state next, Data.run step (new .resync) crossingInputs = some worker ∧
      worker.run = .active state ∧ state.nextAction = some (.normalizeCrossing 0 [3]) ∧
      worker.step (.drive rejectingAnswers) = some next ∧
      (∃ candidate after cut, state.pending[0]? = some candidate ∧ next.run = .active after ∧
        after.pending[0]? = some cut ∧ VspcState.CutAtSink state after candidate cut) ∧
      ∃ n rested, n ≤ worker.work + 1 ∧
        Data.run step worker (driven (fun _ => rejectingAnswers) n) = some rested ∧ rested.AtRest := by
  have hobserved : (Data.run step (new .resync) crossingInputs).map (fun worker =>
      ((worker.step (.drive rejectingAnswers)).isSome, worker.activeState.bind VspcState.nextAction))
      = some (true, some (.normalizeCrossing 0 [3])) := by
    decide +kernel
  obtain ⟨worker, hrun, hobserved⟩ := Option.map_eq_some_iff.mp hobserved
  obtain ⟨hserved, hstate⟩ := Prod.mk.inj hobserved
  obtain ⟨next, hstep⟩ := Option.isSome_iff_exists.mp hserved
  obtain ⟨hrest, hcut⟩ := drive_loop hrun
  obtain ⟨state, hactive, hstate⟩ := Option.bind_eq_some_iff.mp hstate
  rw [activeState_eq_some] at hactive
  obtain ⟨candidate, after, cut, hget, -, hnext, hafter, hcut⟩ :=
    hcut state rejectingAnswers 0 [3] next hactive hstate hstep
  exact ⟨worker, state, next, hrun, hactive, hstate, hstep,
    ⟨candidate, after, cut, hget, hnext, hafter, hcut⟩,
    hrest _ fun n next _ => serves_rejectingAnswers next⟩

end VspcProcessorWorker

end Kgi
