import GraphInspector.ApiCore.Lemmas.PublicationRun

/-!
How the requests of a publication move from state to state, in any interleaving with each other, with the
jobs and with updates.
-/

namespace Kgi

open Data

def PublicationEvent.governs : PublicationEvent → Bool
  | .transitionLive | .transitionStale | .update .. => true
  | _ => false

namespace GraphPublication

variable {publication publication' : GraphPublication} {timeline timeline' : Timeline}

inductive DeltaMoves (publication : GraphPublication) (index : Nat) :
    PublicationEvent → DeltaRequest → DeltaRequest → Prop where
  | selected {head : GraphDeltaTargetCapture} {sourceRevision activeInterval : Nat}
      {client : Option Bool} {request : DeltaRequest} (hhead : head = publication.captureDeltaTarget)
      (hselects : Selects head sourceRevision activeInterval client request) :
      DeltaMoves publication index (.pruneDeltas index client)
        (.captured head sourceRevision activeInterval) request
  | late {request : CanonicalDeltaRequest}
      (hlate : publication.cache.deltas.Postdates request.head.revisionTimestampMs) :
      DeltaMoves publication index (.lookupDelta index) (.lookingUp request true)
        (.panicked "a delta source timestamp does not postdate its publication Head")
  | found {request : CanonicalDeltaRequest} {reentry : Bool} {access : CacheAccess CachedDelta}
      (hstamps : ¬publication.cache.deltas.Postdates request.head.revisionTimestampMs) :
      DeltaMoves publication index (.lookupDelta index) (.lookingUp request reentry)
        (.resolving request access)
  | missing {request : CanonicalDeltaRequest} {reentry : Bool} {currentTarget : Option Nat}
      (hstamps : ¬publication.cache.deltas.Postdates request.head.revisionTimestampMs) :
      DeltaMoves publication index (.lookupDelta index) (.lookingUp request reentry)
        (.sizing request currentTarget)
  | refused {request : CanonicalDeltaRequest} {currentTarget : Option Nat}
      (reason : FreshViewReason) :
      DeltaMoves publication index (.electDelta index) (.sizing request currentTarget)
        (.responded (.freshViewRequired reason))
  | elected {request : CanonicalDeltaRequest} {currentTarget : Option Nat}
      {access : CacheAccess CachedDelta} :
      DeltaMoves publication index (.electDelta index) (.sizing request currentTarget)
        (.resolving request access)
  | resolved {request : CanonicalDeltaRequest} {access : CacheAccess CachedDelta}
      {candidate : CachedDelta} {cancelled : Bool} :
      DeltaMoves publication index (.resolveDelta index cancelled) (.resolving request access)
        (.resolved request candidate)
  | invalidated {request : CanonicalDeltaRequest} {access : CacheAccess CachedDelta}
      {cancelled : Bool} :
      DeltaMoves publication index (.resolveDelta index cancelled) (.resolving request access)
        (.responded (.freshViewRequired .deltaReplayBarrier))
  | failed {request : CanonicalDeltaRequest} {access : CacheAccess CachedDelta} {cancelled : Bool}
      (error : CacheWaitError) :
      DeltaMoves publication index (.resolveDelta index cancelled) (.resolving request access)
        (.responded (.failed error))
  | admitted {request : CanonicalDeltaRequest} {candidate : CachedDelta} {client : Option Bool}
      {response : CanonicalDeltaResponse}
      (hadmits : Admits publication candidate request.activeInterval client response) :
      DeltaMoves publication index (.deliverDelta index client) (.resolved request candidate)
        (.responded response)
  | reentered {request : CanonicalDeltaRequest} {candidate : CachedDelta} {client : Option Bool}
      (hshort : candidate.isAdequateFor request.selected.targetRevision = false) :
      DeltaMoves publication index (.deliverDelta index client) (.resolved request candidate)
        (.lookingUp request true)

section Moves

variable {index : Nat} {request : CanonicalDeltaRequest}

theorem Sound.lookupDelta_moves (h : Sound timeline publication) {reentry : Bool}
    (hrequest : (DeltaRequest.lookingUp request reentry).Sound timeline
      publication.captureDeltaTarget publication.deltaJobs) :
    ∃ deltas request', publication.lookupDelta index request
        = (publication.setDeltas deltas).setDeltaRequest index request' ∧
      DeltaMoves publication index (.lookupDelta index) (.lookingUp request reentry) request' := by
  unfold GraphPublication.lookupDelta
  by_cases hpostdates : publication.cache.deltas.Postdates request.head.revisionTimestampMs
  . rw [DeltaCache.lookup_eq_error.mpr (DeltaCache.pruneExpired_eq_error hpostdates)]
    cases reentry with
    | true => exact ⟨publication.cache.deltas, _, rfl, .late hpostdates⟩
    | false =>
      rw [hrequest.2 rfl] at hpostdates
      exact absurd hpostdates h.not_postdates
  . obtain ⟨pruned, hpruned, _⟩ := h.chronological.pruneExpired_eq_ok hpostdates
    split
    . next message hlookup =>
      rw [DeltaCache.lookup_eq_error, hpruned] at hlookup
      cases hlookup
    . exact ⟨_, _, rfl, .found hpostdates⟩
    . exact ⟨_, _, rfl, .found hpostdates⟩
    . exact ⟨_, _, rfl, .missing hpostdates⟩

theorem Sound.electDelta_moves (h : Sound timeline publication) {currentTarget : Option Nat}
    (hrequest : (DeltaRequest.sizing request currentTarget).Sound timeline
      publication.captureDeltaTarget publication.deltaJobs) :
    ∃ deltas jobs request', publication.electDelta index request currentTarget
        = { publication.setDeltas deltas with deltaJobs := jobs }.setDeltaRequest index request' ∧
      DeltaMoves publication index (.electDelta index) (.sizing request currentTarget) request' := by
  obtain ⟨hrequest, hcovered⟩ := hrequest
  unfold GraphPublication.electDelta
  by_cases hgone : request.selected.sourceRevision < publication.core.history.replayFloorRevision ∨
      request.selected.sourceRevision < publication.core.history.oldestAvailableRevision
  . obtain ⟨error, hsize, herror⟩ := h.records.size_expired hrequest.requested hcovered hgone
    rw [hsize]
    obtain rfl | rfl := herror
    . exact ⟨publication.cache.deltas, publication.deltaJobs, _, rfl, .refused .deltaReplayBarrier⟩
    . exact ⟨publication.cache.deltas, publication.deltaJobs, _, rfl, .refused .startPruned⟩
  . rw [not_or, Nat.not_lt, Nat.not_lt] at hgone
    obtain ⟨value, _, _, hsize⟩ :=
      h.records.size_eq_ok hrequest.requested hcovered hgone.1 hgone.2
    rw [hsize]
    split
    . next heq => cases heq
    . next heq => cases heq
    . exact ⟨publication.cache.deltas, publication.deltaJobs, _, rfl, .refused .deltaSourceExpired⟩
    . exact ⟨_, _, _, rfl, .elected⟩

theorem resolveDelta_moves {access : CacheAccess CachedDelta} {cancelled : Bool}
    {request' : DeltaRequest}
    (hresolve : publication.resolveDelta request access cancelled = some request') :
    DeltaMoves publication index (.resolveDelta index cancelled) (.resolving request access)
      request' := by
  unfold GraphPublication.resolveDelta at hresolve
  split at hresolve
  . cases hresolve
    exact .resolved
  . split at hresolve
    . cases hresolve
    . split at hresolve
      . split at hresolve
        . cases hresolve
          exact .failed .cancelled
        . cases hresolve
      . cases hresolve
        exact .resolved
      . cases hresolve
        exact .invalidated
      . cases hresolve
        exact .failed _

theorem Sound.deliverDelta_moves (h : Sound timeline publication) {candidate : CachedDelta}
    (client : Option Bool)
    (hrequest : (DeltaRequest.resolved request candidate).Sound timeline
      publication.captureDeltaTarget publication.deltaJobs) :
    DeltaMoves publication index (.deliverDelta index client) (.resolved request candidate)
      (publication.deliverDelta request candidate client) := by
  obtain ⟨hrequest, hdelivers⟩ := hrequest
  unfold GraphPublication.deliverDelta
  split
  . obtain ⟨response, hresponse, hadmits⟩ :=
      h.admitCachedDelta_eq_ok client hdelivers hrequest.requested.interval
    rw [hresponse]
    exact .admitted hadmits
  . next hshort =>
    rw [Sound.reenterDelta_eq_ok hrequest]
    exact .reentered (Bool.not_eq_true _ ▸ hshort)

end Moves

def SameCore (publication publication' : GraphPublication) : Prop :=
  publication'.publicationId = publication.publicationId ∧ publication'.state = publication.state ∧
    publication'.core = publication.core

theorem SameCore.revision (h : SameCore publication publication') :
    publication'.core.view.currentRevisionId = publication.core.view.currentRevisionId :=
  congrArg (fun core : GraphPublicationCore => core.view.currentRevisionId) h.2.2

inductive DeltaStep (publication publication' : GraphPublication) (event : PublicationEvent) :
    Prop where
  | governed (hevent : event.governs = true)
      (hrevision : publication.core.view.currentRevisionId
        ≤ publication'.core.view.currentRevisionId)
      (hfloor : publication.core.history.replayFloorRevision
        ≤ publication'.core.history.replayFloorRevision)
      (hrequests : publication'.deltaRequests = publication.deltaRequests)
  | idle (hcore : SameCore publication publication')
      (hrequests : publication'.deltaRequests = publication.deltaRequests)
  | asked (sourceRevision : Nat) (activeInterval : ActiveDeltaInterval) (client : Option Bool)
      (hevent : event = .selectDelta sourceRevision activeInterval client)
      (hcore : SameCore publication publication')
      (hrequests : publication'.deltaRequests = publication.deltaRequests ++
        [publication.selectDelta sourceRevision activeInterval.value client])
  | moved (index : Nat) (request request' : DeltaRequest)
      (hrequest : publication.deltaRequests[index]? = some request)
      (hmoves : DeltaMoves publication index event request request')
      (hcore : SameCore publication publication')
      (hrequests : publication'.deltaRequests = publication.deltaRequests.set index request')

theorem invalidateReplayFloor_same {replayFloorRevision : Nat}
    (hok : publication.invalidateReplayFloor replayFloorRevision = .ok publication') :
    publication'.core = publication.core ∧
      publication'.deltaRequests = publication.deltaRequests ∧
      publication'.headRequests = publication.headRequests := by
  obtain ⟨_, _, hok⟩ := bind_eq_ok.mp hok
  obtain ⟨_, _, hok⟩ := bind_eq_ok.mp hok
  rw [pure_eq_ok] at hok
  subst hok
  exact ⟨rfl, rfl, rfl⟩

theorem Sound.applyOriginalUpdate_same (h : Sound timeline publication) {update : OriginalUpdate}
    {revisionTimestampMs : Nat}
    (hclock : publication.core.view.currentRevisionTimestampMs ≤ revisionTimestampMs)
    (hok : publication.applyOriginalUpdate update revisionTimestampMs = .ok publication') :
    publication.core.view.currentRevisionId ≤ publication'.core.view.currentRevisionId ∧
      publication.core.history.replayFloorRevision ≤ publication'.core.history.replayFloorRevision ∧
      publication'.deltaRequests = publication.deltaRequests ∧
      publication'.headRequests = publication.headRequests := by
  obtain ⟨_, _, hok⟩ := bind_eq_ok.mp hok
  obtain ⟨⟨core, outcome⟩, happly, hok⟩ := bind_eq_ok.mp hok
  obtain ⟨_, applied, _, _, rfl, happlied⟩ := h.records.apply hclock happly
  have hfloor := h.records.floor_le
  cases happlied with
  | unchanged hsame =>
    rw [pure_eq_ok] at hok
    subst hok hsame
    exact ⟨Nat.le_refl _, Nat.le_refl _, rfl, rfl⟩
  | replayed hrevision hsame =>
    rw [pure_eq_ok] at hok
    subst hok
    exact ⟨Nat.le_of_lt (Nat.lt_of_succ_le (Nat.le_of_eq hrevision.symm)),
      Nat.le_of_eq hsame.symm, rfl, rfl⟩
  | barrier hrevision hraised =>
    obtain ⟨hcore, hdeltas, hheads⟩ := invalidateReplayFloor_same hok
    rw [hcore]
    dsimp only
    exact ⟨by omega, by omega, hdeltas, hheads⟩

theorem Sound.deltaStep (h : Sound timeline publication) {event : PublicationEvent}
    (hstep : publication.step event = some publication') :
    DeltaStep publication publication' event := by
  have hsame : SameCore publication publication := ⟨rfl, rfl, rfl⟩
  by_cases hhead : event.isHead = true
  . obtain ⟨hid, hstate, hcore, _, _, hrequests⟩ := (step_cases hstep).sameDeltas hhead
    exact .idle ⟨hid, hstate, hcore⟩ hrequests
  . cases step_cases hstep with
    | transitionLive => exact .governed rfl (Nat.le_refl _) (Nat.le_refl _) rfl
    | transitionStale => exact .governed rfl (Nat.le_refl _) (Nat.le_refl _) rfl
    | update _ hclock hok =>
      obtain ⟨hrevision, hfloor, hrequests, _⟩ := h.applyOriginalUpdate_same hclock hok
      exact .governed rfl hrevision hfloor hrequests
    | selectDelta sourceRevision activeInterval client =>
      exact .asked sourceRevision activeInterval client rfl hsame rfl
    | pruneDeltas hrequest =>
      have hsound := h.requests _ (List.mem_of_getElem? hrequest)
      obtain ⟨_, _, heq, _, hselects⟩ := h.pruneDeltas_eq _ _ hsound
      rw [heq]
      exact .moved _ _ _ hrequest (.selected hsound.1 hselects) ⟨rfl, rfl, rfl⟩ rfl
    | lookupDelta hrequest =>
      have hsound := h.requests _ (List.mem_of_getElem? hrequest)
      obtain ⟨_, _, heq, hmoves⟩ := h.lookupDelta_moves hsound
      rw [heq]
      exact .moved _ _ _ hrequest hmoves ⟨rfl, rfl, rfl⟩ rfl
    | electDelta hrequest =>
      have hsound := h.requests _ (List.mem_of_getElem? hrequest)
      obtain ⟨_, _, _, heq, hmoves⟩ := h.electDelta_moves hsound
      rw [heq]
      exact .moved _ _ _ hrequest hmoves ⟨rfl, rfl, rfl⟩ rfl
    | resolveDelta hrequest hresolve =>
      exact .moved _ _ _ hrequest (resolveDelta_moves hresolve) hsame rfl
    | deliverDelta hrequest =>
      have hsound := h.requests _ (List.mem_of_getElem? hrequest)
      exact .moved _ _ _ hrequest (h.deliverDelta_moves _ hsound) hsame rfl
    | finishDelta _ _ hok =>
      obtain ⟨_, _, hok⟩ := bind_eq_ok.mp hok
      rw [pure_eq_ok] at hok
      subst hok
      exact .idle ⟨rfl, rfl, rfl⟩ rfl
    | completeDelta _ _ hok =>
      obtain ⟨_, _, hok⟩ := bind_eq_ok.mp hok
      rw [pure_eq_ok] at hok
      subst hok
      exact .idle ⟨rfl, rfl, rfl⟩ rfl
    | _ => exact absurd rfl hhead

theorem DeltaStep.revision_le {event : PublicationEvent}
    (h : DeltaStep publication publication' event) :
    publication.core.view.currentRevisionId ≤ publication'.core.view.currentRevisionId := by
  cases h with
  | governed _ hrevision _ _ => exact hrevision
  | idle hcore _ => exact Nat.le_of_eq hcore.revision.symm
  | asked _ _ _ _ hcore _ => exact Nat.le_of_eq hcore.revision.symm
  | moved _ _ _ _ _ hcore _ => exact Nat.le_of_eq hcore.revision.symm

end GraphPublication

end Kgi
