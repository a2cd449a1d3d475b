import GraphInspector.Processing.Lemmas.VspcChain

/-!
What the VSPC processor keeps up to date step by step is what a computation from its pending changes and
its records gives.
-/

namespace Kgi

open Data

def MaterializedHistory.recomputed (history : MaterializedHistory) : MaterializedHistory where
  byHash := history.byHash.toList.foldl
    (fun (byHash : Map BlockHash PersistedBlock) record => byHash.insert record.2.point.hash record.2) ∅
  byOrder := Indexes.build history.byHash fun block => some block.point.order

theorem MaterializedHistory.Consistent.recomputed_eq {history : MaterializedHistory}
    (h : history.Consistent) : history.recomputed = history := by
  have hhash : history.recomputed.byHash = history.byHash := by
    apply Std.ExtTreeMap.ext_getElem?
    intro hash
    apply Option.ext
    intro block
    unfold recomputed
    rw [Map.get_foldl_insert_eq_some]
    . constructor
      . rintro ⟨⟨other, _⟩, hrecord, hkey, rfl⟩
        have hget := (Map.mem_toList _ _ _).mp hrecord
        rw [← hkey, (h.byHash other _ hget).1]
        exact hget
      . intro hget
        exact ⟨(hash, block), (Map.mem_toList _ _ _).mpr hget, (h.byHash hash block hget).1, rfl⟩
    . rintro ⟨hash, block⟩ hrecord ⟨other, block'⟩ hother heq
      have hget := (Map.mem_toList _ _ _).mp hrecord
      have hget' := (Map.mem_toList _ _ _).mp hother
      obtain ⟨hhash, -⟩ := h.byHash hash block hget
      obtain ⟨hhash', -⟩ := h.byHash other block' hget'
      rw [← hhash', ← heq, hhash, hget] at hget'
      exact Option.some.inj hget'
  have horder : Indexes history.byOrder history.byHash fun block => some block.point.order := by
    intro order hash
    constructor
    . intro hget
      obtain ⟨block, hblock, horder⟩ := h.byOrder order hash hget
      exact ⟨block, hblock, congrArg some horder⟩
    . rintro ⟨block, hblock, horder⟩
      rw [← Option.some.inj horder]
      exact (h.byHash hash block hblock).2
  obtain ⟨byHash, byOrder⟩ := history
  exact congrArg₂ MaterializedHistory.mk hhash horder.eq_build.symm

namespace VspcState

variable {state next : VspcState} {id : PendingId} {candidate : PendingCandidate}

instance : DecidablePred PendingCandidate.isSynthetic :=
  fun candidate => inferInstanceAs (Decidable (candidate.source = .synthetic))

def recomputed (state : VspcState) : VspcState :=
  let pending := state.pending.map fun _ candidate => state.refreshed candidate
  { state with
    history := state.history.recomputed
    pending := pending
    missingToPending := Postings.build pending PendingCandidate.missing
    notificationByDestination := Indexes.build pending PendingCandidate.notifiedDestination
    resolvedNotifications := Indexes.build pending PendingCandidate.notifiedOrder
    syntheticFifo := Lists.build pending PendingCandidate.isSynthetic }

/-!
No bucket is empty, and the synthetic candidates stand in the order of their admission.
-/

structure Tidy (state : VspcState) : Prop where
  waiting : Multimap.NoEmpty state.missingToPending
  synthetic : state.syntheticFifo.Pairwise fun a b => compare a b = .lt

theorem Tidy.new (anchor : MaterializedSyncAnchor) : (new anchor).Tidy where
  waiting := Multimap.noEmpty_empty
  synthetic := List.Pairwise.nil

section Tidy

variable (h : state.Tidy)
include h

theorem Tidy.removeCandidate (id : PendingId) : (state.removeCandidate id).Tidy := by
  cases hget : state.pending[id]? with
  | none =>
    rw [removeCandidate_of_absent hget]
    exact h
  | some candidate =>
    rw [removeCandidate_eq hget]
    constructor
    case waiting => exact Multimap.noEmpty_foldl_remove _ _ _ h.waiting
    case synthetic =>
      split
      . exact h.synthetic
      . exact h.synthetic.filter _

theorem Tidy.refreshCandidate (id : PendingId) : (state.refreshCandidate id).Tidy := by
  cases hget : state.pending[id]? with
  | none =>
    rw [refreshCandidate_of_absent hget]
    exact h
  | some candidate =>
    rw [refreshCandidate_eq hget]
    constructor
    case waiting => exact Multimap.noEmpty_foldl_add _ _ _ (Multimap.noEmpty_foldl_remove _ _ _ h.waiting)
    case synthetic => exact h.synthetic

theorem Tidy.refreshAll (ids : List PendingId) : (state.refreshAll ids).Tidy := by
  induction ids generalizing state with
  | nil => exact h
  | cons id ids ih => exact ih (h.refreshCandidate id)

theorem Tidy.pruneHistory : state.pruneHistory.Tidy := by
  apply Tidy.refreshAll
  exact ⟨h.waiting, h.synthetic⟩

theorem Tidy.persist (persisted : PersistedBlock) : (state.persist persisted).Tidy := by
  unfold VspcState.persist
  split
  . exact h
  . apply Tidy.refreshAll
    exact ⟨h.waiting, h.synthetic⟩

theorem Tidy.admitChange (hindexed : state.Indexed) (change : VspcChange) (destination : BlockHash)
    (source : CandidateSource) : (state.admitChange change destination source).Tidy := by
  rw [admitChange_eq]
  apply Tidy.refreshCandidate
  constructor
  case waiting => exact h.waiting
  case synthetic =>
    unfold admitted
    split
    . exact h.synthetic
    . rw [List.pairwise_append]
      refine ⟨h.synthetic, List.pairwise_singleton _ _, ?_⟩
      intro id hid other hother
      rw [List.mem_singleton] at hother
      obtain ⟨candidate, hget, -⟩ := (hindexed.synthetic id).mp hid
      rw [hother, Nat.compare_eq_lt]
      exact hindexed.known id candidate hget

theorem Tidy.enterLive : state.enterLive.Tidy := by
  have hcleared : state.clearSynthetic.Tidy := by
    unfold clearSynthetic
    generalize state.syntheticFifo = ids
    induction ids generalizing state with
    | nil => exact h
    | cons id ids ih => exact ih (h.removeCandidate id)
  apply Tidy.pruneHistory
  exact ⟨hcleared.waiting, hcleared.synthetic⟩

theorem Tidy.committed (id : PendingId) (destination : VspcPoint) :
    (state.committed id destination).Tidy := by
  have hmoved : { state with committedSink := destination }.Tidy := ⟨h.waiting, h.synthetic⟩
  unfold VspcState.committed
  dsimp only
  split
  . exact hmoved.removeCandidate id
  . exact (hmoved.removeCandidate id).pruneHistory

theorem Tidy.moves (hindexed : state.Indexed) {input : VspcProcessorInput}
    {effects : List VspcProcessorEffect} (hmoves : state.Moves input next effects) : next.Tidy := by
  cases hmoves with
  | catchup bound _ => exact ⟨h.waiting, h.synthetic⟩
  | live bound _ => exact h.enterLive
  | persisted block => exact h.persist block
  | synthetic change destination _ _ => exact h.admitChange hindexed change destination _
  | notification change destination _ _ _ => exact h.admitChange hindexed change destination _
  | discard answers id overlap _ => exact h.removeCandidate id
  | normalizeCrossing answers id suffix _ =>
    apply Tidy.refreshCandidate
    exact ⟨h.waiting, h.synthetic⟩
  | markOverlap answers id _ => exact ⟨h.waiting, h.synthetic⟩
  | commit answers id candidate prepared outcome _ _ _ _ => exact h.committed id _

end Tidy

theorem Sound.recomputed_eq (h : state.Sound) (htidy : state.Tidy) : state.recomputed = state := by
  have hpending : (state.pending.map fun _ candidate => state.refreshed candidate) = state.pending := by
    apply Std.ExtTreeMap.ext_getElem?
    intro id
    rw [Std.ExtTreeMap.getElem?_map]
    cases hget : state.pending[id]? with
    | none => rfl
    | some candidate => exact congrArg some (h.fresh id candidate hget)
  unfold recomputed
  rw [hpending, h.history.recomputed_eq]
  dsimp only
  rw [← h.indexed.waiting.eq_build htidy.waiting, ← h.indexed.notified.eq_build,
    ← h.indexed.resolved.eq_build, ← h.indexed.synthetic.eq_build htidy.synthetic]

end VspcState

inductive VspcState.Refuses (state : VspcState) (change : VspcChange) : CandidateSource → Prop
  | duplicate (destination : BlockHash) (existing : PendingId)
    (hdestination : change.added.getLast? = some destination)
    (hpending : state.notificationByDestination[destination]? = some existing) :
    Refuses state change .notification
  | capacity (source : CandidateSource) (hfull : state.pending.size = maxPendingVspcChanges) :
    Refuses state change source

def CandidateSource.input (source : CandidateSource) (change : VspcChange) : VspcProcessorInput :=
  match source with
  | .synthetic => .synthetic change
  | .notification => .notification change

namespace VspcProcessorWorker

variable {worker next : VspcProcessorWorker} {input : VspcProcessorInput} {state : VspcState}

theorem tidy_step (h : Holds (fun state => state.Sound ∧ state.Tidy) worker)
    (hstep : worker.step input = some next) : Holds (fun state => state.Sound ∧ state.Tidy) next := by
  have hsound := sound_step (fun state hactive => (h state hactive).1) hstep
  intro state hactive
  refine ⟨hsound state hactive, ?_⟩
  cases Transition.of_step hstep with
  | quiet hrun _ _ => exact (h state (hrun ▸ hactive)).2
  | fault _ _ hrun _ _ => exact (h state (hrun ▸ hactive)).2
  | initialized mode anchor _ _ hrun _ _ =>
    rw [hrun] at hactive
    cases hactive
    exact .new anchor
  | moved before after effects hbefore hmoves hrun _ _ =>
    rw [hrun] at hactive
    cases hactive
    obtain ⟨hsound, htidy⟩ := h before hbefore
    exact htidy.moves hsound.indexed hmoves

theorem run_enterFault (worker : VspcProcessorWorker) (fault : ComponentFault) :
    (worker.enterFault fault).run = worker.run := by
  unfold enterFault
  split
  . rfl
  . rfl

theorem run_handleChange_of_refuses {change : VspcChange} {source : CandidateSource}
    (hrefuses : state.Refuses change source) :
    (worker.handleChange state change source).run = worker.run := by
  unfold handleChange
  split
  . exact run_enterFault _ _
  . next destination hdestination =>
    split
    . rfl
    . split
      . rfl
      . split
        . exact run_enterFault _ _
        . next hunique =>
          rw [if_pos]
          . exact run_enterFault _ _
          . cases hrefuses with
            | duplicate destination' existing hdestination' hpending =>
              rw [hdestination] at hdestination'
              cases hdestination'
              rw [if_pos rfl, hpending] at hunique
              cases hunique
            | capacity source hfull => exact hfull

theorem run_serve {handle : VspcState → VspcProcessorWorker} (hactive : worker.run = .active state)
    (hhandle : (handle state).run = worker.run) (h : worker.serve handle = some next) :
    next.run = worker.run := by
  unfold serve at h
  split at h
  . rw [hactive] at h
    dsimp only at h
    split at h
    . cases h
      rfl
    . split at h
      . cases h
        exact hhandle
      . cases h
  . cases h

/--
In every run, the state of the worker is what a computation from its pending changes and its records gives:
the blocks every candidate misses, the indexes of the candidates, the order of the synthetic ones and the two
maps of the history. A change that is refused leaves the state as it is.
-/
theorem vspc_indexes {mode : RecoveryMode} {inputs : List VspcProcessorInput}
    (hrun : Data.run step (new mode) inputs = some worker) (hactive : worker.run = .active state) :
    state.recomputed = state ∧
      ∀ (change : VspcChange) (source : CandidateSource) (next : VspcProcessorWorker),
        state.Refuses change source → worker.step (source.input change) = some next →
        next.run = .active state := by
  constructor
  . have hholds : Holds (fun state => state.Sound ∧ state.Tidy) worker :=
      run.invariant (fun _ _ _ h hstep => tidy_step h hstep) (Holds.new _ mode) hrun
    obtain ⟨hsound, htidy⟩ := hholds state hactive
    exact hsound.recomputed_eq htidy
  . intro change source next hrefuses hstep
    rw [← hactive]
    cases source with
    | synthetic => exact run_serve hactive (run_handleChange_of_refuses hrefuses) hstep
    | notification => exact run_serve hactive (run_handleChange_of_refuses hrefuses) hstep

/--
A notification that misses blocks is pending, and the same one comes again.
-/
theorem vspc_indexes_repeated :
    ∃ worker state next, Data.run step (new .resync) [.initializeRun ⟨countingPoint 1, 0, 0⟩, .start,
        .catchup (countingPoint 1), .notification ⟨[], [4, 5]⟩] = some worker ∧
      worker.run = .active state ∧ state.pending.size = 1 ∧ state.recomputed = state ∧
      state.Refuses ⟨[], [4, 5]⟩ .notification ∧
      worker.step (.notification ⟨[], [4, 5]⟩) = some next ∧ next.run = .active state := by
  have hobserved : (Data.run step (new .resync) [.initializeRun ⟨countingPoint 1, 0, 0⟩, .start,
      .catchup (countingPoint 1), .notification ⟨[], [4, 5]⟩]).map (fun worker =>
        ((worker.step (.notification ⟨[], [4, 5]⟩)).isSome, worker.activeState.map fun state =>
          (state.pending.size, state.notificationByDestination[(5 : BlockHash)]?)))
      = some (true, some (1, some 0)) := by
    decide +kernel
  obtain ⟨worker, hrun, hobserved⟩ := Option.map_eq_some_iff.mp hobserved
  obtain ⟨hserved, hstate⟩ := Prod.mk.inj hobserved
  obtain ⟨next, hstep⟩ := Option.isSome_iff_exists.mp hserved
  obtain ⟨state, hactive, hstate⟩ := Option.map_eq_some_iff.mp hstate
  rw [activeState_eq_some] at hactive
  obtain ⟨hsize, hpending⟩ := Prod.mk.inj hstate
  obtain ⟨hrecomputed, hrefused⟩ := vspc_indexes hrun hactive
  have hrefuses : state.Refuses ⟨[], [4, 5]⟩ .notification := .duplicate 5 0 rfl hpending
  exact ⟨worker, state, next, hrun, hactive, hsize, hrecomputed, hrefuses, hstep,
    hrefused _ _ next hrefuses hstep⟩

end VspcProcessorWorker

end Kgi
