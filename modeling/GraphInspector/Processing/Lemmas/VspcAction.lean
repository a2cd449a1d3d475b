import GraphInspector.Processing.Lemmas.VspcSound

/-!
The next action of the VSPC processor: why it is chosen, and when there is none.
-/

namespace Kgi

open Data

namespace VspcState

variable {state : VspcState} {id : PendingId} {candidate : PendingCandidate} {action : DriveAction}

def sourceHash (state : VspcState) (change : VspcChange) : Option BlockHash :=
  match change.removed.head? with
  | some source => some source
  | none => change.added.head?.bind fun first =>
    state.history.byHash[first]?.map PersistedBlock.selectedParent

theorem endpoints_eq_some {change : VspcChange} {source destination : VspcPoint} :
    state.endpoints change = some (source, destination) ↔
      ∃ sourceHash last sourceBlock lastBlock, state.sourceHash change = some sourceHash ∧
        change.added.getLast? = some last ∧ state.history.byHash[sourceHash]? = some sourceBlock ∧
        state.history.byHash[last]? = some lastBlock ∧ sourceBlock.point = source ∧
        lastBlock.point = destination := by
  have hendpoints : state.endpoints change = change.added.getLast?.bind fun last =>
      state.history.byHash[last]?.bind fun destination => (state.sourceHash change).bind fun source =>
        state.history.byHash[source]?.bind fun source => some (source.point, destination.point) := by
    unfold endpoints sourceHash
    cases change.removed.head? with
    | some source => rfl
    | none => simp [Option.bind_assoc, Option.bind_map]
  rw [hendpoints]
  simp only [Option.bind_eq_some_iff, Option.some.injEq, Prod.mk.injEq]
  constructor
  . rintro ⟨last, hlast, lastBlock, hlastBlock, sourceHash, hhash, sourceBlock, hsourceBlock, hs, hd⟩
    exact ⟨sourceHash, last, sourceBlock, lastBlock, hhash, hlast, hsourceBlock, hlastBlock, hs, hd⟩
  . rintro ⟨sourceHash, last, sourceBlock, lastBlock, hhash, hlast, hsourceBlock, hlastBlock, hs, hd⟩
    exact ⟨last, hlast, lastBlock, hlastBlock, sourceHash, hhash, sourceBlock, hsourceBlock, hs, hd⟩

theorem startsAtSink_iff {change : VspcChange} :
    state.startsAtSink change = true ↔
      ∃ destination, state.endpoints change = some (state.committedSink, destination) := by
  unfold startsAtSink
  cases hendpoints : state.endpoints change with
  | none => simp
  | some endpoints =>
    obtain ⟨source, destination⟩ := endpoints
    simp

inductive Choice (state : VspcState) : DriveAction → Prop
  | syntheticCommit (id : PendingId) (candidate : PendingCandidate) (destination : VspcPoint)
    (hhead : state.syntheticFifo.head? = some id) (hget : state.pending[id]? = some candidate)
    (hendpoints : state.endpoints candidate.change = some (state.committedSink, destination)) :
    Choice state (.commit id)
  | syntheticSourceMismatch (id : PendingId) (hhead : state.syntheticFifo.head? = some id) :
    Choice state .syntheticSourceMismatch
  | below (bound : VspcPoint) (order : ConsensusOrder) (id : PendingId)
    (hphase : state.phase = .catchup bound) (hresolved : state.resolvedNotifications[order]? = some id)
    (hbound : order < bound.order) : Choice state (.discard id false)
  | covered (bound : VspcPoint) (order : ConsensusOrder) (id : PendingId)
    (hphase : state.phase = .catchup bound) (hresolved : state.resolvedNotifications[order]? = some id)
    (hsink : order ≤ state.committedSink.order) : Choice state (.discard id true)
  | crossing (bound : VspcPoint) (order : ConsensusOrder) (id : PendingId) (candidate : PendingCandidate)
    (hphase : state.phase = .catchup bound) (hresolved : state.resolvedNotifications[order]? = some id)
    (hget : state.pending[id]? = some candidate)
    (hsuffix : suffixAfter state.committedSink.hash candidate.change.added ≠ []) :
    Choice state
      (.normalizeCrossing id (suffixAfter state.committedSink.hash candidate.change.added))
  | overlap (bound : VspcPoint) (order : ConsensusOrder) (id : PendingId) (candidate : PendingCandidate)
    (hphase : state.phase = .catchup bound) (hresolved : state.resolvedNotifications[order]? = some id)
    (hget : state.pending[id]? = some candidate) (hcredited : candidate.overlapCredited = false)
    (hstarts : state.startsAtSink candidate.change = true) : Choice state (.markOverlap id)
  | superseded (order : ConsensusOrder) (id : PendingId) (hphase : state.phase = .live)
    (hresolved : state.resolvedNotifications[order]? = some id)
    (hsink : order ≤ state.committedSink.order) : Choice state (.discard id false)
  | liveCommit (order : ConsensusOrder) (id : PendingId) (candidate : PendingCandidate)
    (destination : VspcPoint) (hphase : state.phase = .live)
    (hresolved : state.resolvedNotifications[order]? = some id) (hget : state.pending[id]? = some candidate)
    (hsink : state.committedSink.order < order)
    (hendpoints : state.endpoints candidate.change = some (state.committedSink, destination)) :
    Choice state (.commit id)
  | competing (hphase : state.phase = .live) : Choice state .competingNotifications

theorem Choice.of_catchupAction {bound : VspcPoint} {order : ConsensusOrder}
    (hphase : state.phase = .catchup bound) (hresolved : state.resolvedNotifications[order]? = some id)
    (h : state.catchupAction bound (order, id) = some action) : state.Choice action := by
  dsimp only [catchupAction] at h
  split at h
  . cases h
  . next candidate hget =>
    split at h
    . next hbound =>
      cases h
      exact .below bound order id hphase hresolved hbound
    . split at h
      . next hsink =>
        cases h
        exact .covered bound order id hphase hresolved hsink
      . split at h
        . next hsuffix =>
          cases h
          exact .crossing bound order id candidate hphase hresolved hget hsuffix
        . split at h
          . next hoverlap =>
            cases h
            rw [Bool.and_eq_true, Bool.not_eq_true'] at hoverlap
            exact .overlap bound order id candidate hphase hresolved hget hoverlap.1 hoverlap.2
          . cases h

theorem Choice.of_liveAction (hphase : state.phase = .live) (h : state.liveAction = some action) :
    state.Choice action := by
  unfold liveAction at h
  dsimp only at h
  split at h
  . next order id hfind =>
    cases h
    have hresolved := (Map.mem_toList _ _ _).mp (List.mem_of_find?_eq_some hfind)
    exact .superseded order id hphase hresolved (of_decide_eq_true (List.find?_some hfind :))
  . next hfind =>
    split at h
    . cases h
    . next id hstarts =>
      cases h
      have hmem : id ∈ [id] := List.mem_singleton_self id
      rw [← hstarts, List.mem_filter] at hmem
      obtain ⟨hid, hany⟩ := hmem
      obtain ⟨⟨order, _⟩, hentry, rfl⟩ := List.mem_map.mp hid
      obtain ⟨candidate, hget⟩ := Option.isSome_iff_exists.mp (Option.isSome_of_any hany)
      have hstart : state.startsAtSink candidate.change = true := by
        rw [hget] at hany
        exact hany
      obtain ⟨destination, hendpoints⟩ := startsAtSink_iff.mp hstart
      have hsink := List.find?_eq_none.mp hfind _ hentry
      rw [decide_eq_true_eq, not_le] at hsink
      exact .liveCommit order _ candidate destination hphase ((Map.mem_toList _ _ _).mp hentry) hget hsink
        hendpoints
    . cases h
      exact .competing hphase

theorem Choice.of_nextAction (h : state.nextAction = some action) :
    state.Choice action := by
  unfold nextAction at h
  split at h
  . next id candidate hfront =>
    obtain ⟨front, hhead, hfront⟩ := Option.bind_eq_some_iff.mp hfront
    obtain ⟨found, hfound, heq⟩ := Option.map_eq_some_iff.mp hfront
    cases heq
    have hget := (Option.filter_eq_some_iff.mp hfound).1
    obtain ⟨⟨source, destination⟩, hendpoints, h⟩ := Option.map_eq_some_iff.mp h
    dsimp only at h
    by_cases hsource : source = state.committedSink
    . rw [if_pos hsource] at h
      cases h
      rw [hsource] at hendpoints
      exact .syntheticCommit _ _ destination hhead hget hendpoints
    . rw [if_neg hsource] at h
      cases h
      exact .syntheticSourceMismatch _ hhead
  . unfold phaseAction at h
    split at h
    . cases h
    . next bound hphase =>
      obtain ⟨⟨order, id⟩, hentry, h⟩ := List.exists_of_findSome?_eq_some h
      exact .of_catchupAction hphase ((Map.mem_toList _ _ _).mp hentry) h
    . next hphase => exact .of_liveAction hphase h

end VspcState

end Kgi
