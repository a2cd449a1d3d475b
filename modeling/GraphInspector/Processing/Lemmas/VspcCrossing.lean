import GraphInspector.Processing.Lemmas.VspcChain

/-!
Notifications whose path crosses the sink: which steps leave one behind with nothing left to do about it.
-/

namespace Kgi

open Data

namespace VspcState

variable {state next : VspcState} {id : PendingId} {candidate : PendingCandidate} {answers : VspcAnswers}

variable {order : ConsensusOrder} {other : PendingId}

theorem Sound.resolved_of_known (h : state.Sound) (hget : state.pending[id]? = some candidate)
    (hsource : candidate.source = .notification) {block : PersistedBlock}
    (hblock : state.history.byHash[candidate.destination]? = some block) :
    state.resolvedNotifications[block.point.order]? = some id := by
  rw [h.indexed.resolved]
  refine ⟨candidate, hget, ?_⟩
  rw [PendingCandidate.notifiedOrder_eq_some]
  refine ⟨hsource, ?_⟩
  rw [← h.fresh id candidate hget]
  exact congrArg (Option.map fun block : PersistedBlock => block.point.order) hblock

/--
The step cannot leave a notification that crosses the sink behind in Live. There are three ways to do so: to
enter Live while one is pending, to take one in Live, and to commit in Live a change that ends inside the path
of a notification which does not start at the sink.
-/
def AvoidsCrossing (state : VspcState) : VspcProcessorInput → Prop
  | .live => ∀ (id : PendingId) (candidate : PendingCandidate), state.pending[id]? = some candidate →
    candidate.source = .notification → suffixAfter state.committedSink.hash candidate.change.added = []
  | .notification change => state.phase = .live → suffixAfter state.committedSink.hash change.added = []
  | .drive _ => state.phase = .live →
    ∀ (id other : PendingId) (candidate waiting : PendingCandidate), state.pending[id]? = some candidate →
      state.startsAtSink candidate.change = true → state.pending[other]? = some waiting →
      state.startsAtSink waiting.change = false →
      suffixAfter candidate.destination waiting.change.added = []
  | _ => True

def Uncrossed (state : VspcState) : Prop :=
  state.phase = .live → ∀ (id : PendingId) (candidate : PendingCandidate),
    state.pending[id]? = some candidate → suffixAfter state.committedSink.hash candidate.change.added = []

theorem Uncrossed.keeps (h : state.Uncrossed) (hkeeps : Keeps state next) (hphase : next.phase = state.phase)
    (hsink : next.committedSink = state.committedSink) : next.Uncrossed := by
  intro hlive id candidate hget
  obtain ⟨kept, hkept, hchange, -⟩ := hkeeps id candidate hget
  rw [hsink, hchange]
  exact h (hphase ▸ hlive) id kept hkept

theorem Sound.starts_alone (h : state.Sound) (hphase : state.phase = .live)
    (haction : state.nextAction = some (.commit id)) {waiting : PendingCandidate}
    (hget : state.pending[other]? = some waiting)
    (hstarts : state.startsAtSink waiting.change = true) : other = id := by
  obtain ⟨destination, hendpoints⟩ := startsAtSink_iff.mp hstarts
  obtain ⟨_, last, _, block, -, hlast, -, hblock, -, -⟩ := endpoints_eq_some.mp hendpoints
  rw [h.indexed.destination other waiting hget] at hlast
  cases hlast
  have hresolved := h.resolved_of_known hget (h.live hphase other waiting hget) hblock
  have hfront : state.syntheticFifo.head? = none := by
    cases hhead : state.syntheticFifo.head? with
    | none => rfl
    | some front =>
      obtain ⟨found, hfound, hsynthetic⟩ := (h.indexed.synthetic front).mp (List.mem_of_mem_head? hhead)
      rw [PendingCandidate.isSynthetic_iff] at hsynthetic
      exact absurd (h.live hphase front found hfound) hsynthetic
  unfold nextAction phaseAction at haction
  rw [hfront, hphase] at haction
  dsimp only [Option.bind_none, liveAction] at haction
  split at haction
  . cases haction
  . split at haction
    . cases haction
    . next committed hactionable =>
      cases haction
      rw [← List.mem_singleton, ← hactionable, List.mem_filter]
      refine ⟨List.mem_map.mpr ⟨_, (Map.mem_toList _ _ _).mpr hresolved, rfl⟩, ?_⟩
      rw [hget]
      exact hstarts
    . cases haction

theorem phase_committed (state : VspcState) (id : PendingId) (destination : VspcPoint) :
    (state.committed id destination).phase = state.phase := by
  have hbase := sameBase_removeCandidate { state with committedSink := destination } id
  unfold committed
  dsimp only
  split
  . exact hbase.phase
  . exact (sameBase_refreshAll _ _).phase.trans hbase.phase

theorem get_committed {destination : VspcPoint}
    (hget : (state.committed id destination).pending[other]? = some candidate) :
    other ≠ id ∧ ∃ kept, state.pending[other]? = some kept ∧ candidate.change = kept.change := by
  have hkeeps : Keeps ({ state with committedSink := destination }.removeCandidate id)
      (state.committed id destination) := by
    unfold committed
    dsimp only
    split
    . exact fun id candidate hget => ⟨candidate, hget, rfl, rfl⟩
    . exact keeps_pruneHistory _
  obtain ⟨kept, hkept, hchange, -⟩ := hkeeps other candidate hget
  rw [get_removeCandidate] at hkept
  split at hkept
  . cases hkept
  . next hother => exact ⟨Ne.symm hother, kept, hkept, hchange⟩

theorem Sound.committed_uncrossed (h : state.Sound) (hguard : state.AvoidsCrossing (.drive answers))
    {prepared : PreparedCandidate} (haction : state.nextAction = some (.commit id))
    (hget : state.pending[id]? = some candidate)
    (hprepared : VspcProcessorWorker.prepareCandidate state candidate answers = .ok (some prepared)) :
    (state.committed id prepared.ready.destination).Uncrossed := by
  intro hlive other found hfound
  obtain ⟨hendpoints, -⟩ := prepareCandidate_eq_ok hprepared
  obtain ⟨destination, hsource⟩ := (Choice.of_nextAction haction).commit_source hget
  obtain ⟨_, last, _, block, -, hlast, -, hblock, -, hpoint⟩ := endpoints_eq_some.mp hendpoints
  rw [h.indexed.destination id candidate hget] at hlast
  cases hlast
  have hphase : state.phase = .live := (phase_committed state id _).symm.trans hlive
  rw [(h.prunes_committed id prepared.ready.destination).2, ← hpoint, (h.history.byHash _ block hblock).1]
  obtain ⟨hother, kept, hkept, hchange⟩ := get_committed hfound
  rw [hchange]
  -- no other candidate starts at the sink, or the action would have been a fault
  apply hguard hphase id other candidate kept hget (startsAtSink_iff.mpr ⟨destination, hsource⟩) hkept
  rw [Bool.eq_false_iff]
  intro hstarts
  exact hother (h.starts_alone hphase haction hkept hstarts)

theorem Uncrossed.moves (h : state.Uncrossed) (hsound : state.Sound) {input : VspcProcessorInput}
    {effects : List VspcProcessorEffect} (hguard : state.AvoidsCrossing input)
    (hmoves : state.Moves input next effects) : next.Uncrossed := by
  cases hmoves with
  | catchup bound _ =>
    intro hlive
    cases hlive
  | live bound hphase =>
    intro hlive id candidate hget
    obtain ⟨kept, hkept, hchange, hsource⟩ := hsound.keeps_enterLive id candidate hget
    rw [hsound.prunes_enterLive.2, hchange]
    apply hguard id kept hkept
    rw [← hsource]
    exact hsound.enterLive.live hlive id candidate hget
  | persisted block =>
    have hbase := sameBase_persist state block
    exact h.keeps (keeps_persist state block) hbase.phase hbase.committedSink
  | synthetic change destination _ hphase =>
    intro hlive
    rw [(sameBase_admitChange _ _ _ _).phase] at hlive
    exact absurd hlive hphase
  | notification change destination _ _ _ =>
    intro hlive id candidate hget
    have hbase := sameBase_admitChange state change destination .notification
    rw [hbase.phase] at hlive
    rw [hbase.committedSink]
    rw [get_admitChange] at hget
    split at hget
    . cases hget
      exact hguard hlive
    . exact h hlive id candidate hget
  | discard answers id overlap _ =>
    have hbase := sameBase_removeCandidate state id
    exact h.keeps (keeps_removeCandidate state id) hbase.phase hbase.committedSink
  | normalizeCrossing answers id suffix haction =>
    cases Choice.of_nextAction haction with
    | crossing bound order id candidate hphase _ _ _ =>
      intro hlive
      rw [(sameBase_normalized state id _).phase, hphase] at hlive
      cases hlive
  | markOverlap answers id haction =>
    cases Choice.of_nextAction haction with
    | overlap bound order id candidate hphase _ _ _ _ =>
      intro hlive
      exact absurd (hphase.symm.trans hlive) nofun
  | commit answers id candidate prepared outcome haction hget hprepared _ =>
    exact hsound.committed_uncrossed hguard haction hget hprepared

end VspcState

namespace VspcProcessorWorker

variable {worker : VspcProcessorWorker} {state : VspcState}

end VspcProcessorWorker

end Kgi
