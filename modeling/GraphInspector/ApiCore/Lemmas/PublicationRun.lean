import GraphInspector.ApiCore.Lemmas.Publication

/-!
The steps of a publication, event by event, and the invariant of its runs.
-/

namespace Kgi

open Data

def PublicationEvent.isHead : PublicationEvent → Bool
  | .requestHead .. | .selectHead .. | .lookupHead .. | .electHead .. | .resolveHead ..
  | .admitHead .. | .encodeHead .. | .checkHead .. | .recaptureHead .. | .failHead ..
  | .finishHead .. | .completeHead .. => true
  | .transitionLive | .transitionStale | .update .. | .selectDelta .. | .pruneDeltas ..
  | .lookupDelta .. | .electDelta .. | .resolveDelta .. | .deliverDelta .. | .finishDelta ..
  | .completeDelta .. => false

namespace GraphPublication

variable {publication publication' : GraphPublication} {timeline timeline' : Timeline}
  {event : PublicationEvent}

def SameDeltas (publication publication' : GraphPublication) : Prop :=
  publication'.publicationId = publication.publicationId ∧ publication'.state = publication.state ∧
    publication'.core = publication.core ∧ publication'.cache.deltas = publication.cache.deltas ∧
    publication'.deltaJobs = publication.deltaJobs ∧
    publication'.deltaRequests = publication.deltaRequests

theorem Sound.of_sameDeltas (h : Sound timeline publication)
    (hsame : SameDeltas publication publication') : Sound timeline publication' := by
  obtain ⟨hid, hstate, hcore, hdeltas, hjobs, hrequests⟩ := hsame
  have hcapture : publication'.captureDeltaTarget = publication.captureDeltaTarget := by
    unfold captureDeltaTarget
    rw [hid, hstate, hcore]
  refine ⟨hcore ▸ h.records, ?_, ?_, ?_⟩
  . rw [hcore, hdeltas, hjobs]
    exact h.slots
  . rw [hcore, hjobs]
    exact h.jobs
  . rw [hcapture, hjobs, hrequests]
    exact h.requests

theorem SameDeltas.setHeads (publication : GraphPublication) (heads : HeadCache) :
    SameDeltas publication (publication.setHeads heads) :=
  ⟨rfl, rfl, rfl, rfl, rfl, rfl⟩

theorem SameDeltas.setHeadRequest (h : SameDeltas publication publication') (index : Nat)
    (request : HeadRequest) : SameDeltas publication (publication'.setHeadRequest index request) :=
  h

theorem SameDeltas.setHeadJobs (h : SameDeltas publication publication') (jobs : List HeadJob) :
    SameDeltas publication { publication' with headJobs := jobs } :=
  h

theorem SameDeltas.refl (publication : GraphPublication) : SameDeltas publication publication :=
  ⟨rfl, rfl, rfl, rfl, rfl, rfl⟩

theorem lookupHead_sameDeltas (index depth : Nat) (condition : HeadSnapshotCondition)
    (boundary : HeadEligibilityBoundary) :
    SameDeltas publication (publication.lookupHead index depth condition boundary) := by
  unfold GraphPublication.lookupHead
  split
  . exact (SameDeltas.refl publication).setHeadRequest _ _
  . exact (SameDeltas.setHeads publication _).setHeadRequest _ _
  . exact (SameDeltas.setHeads publication _).setHeadRequest _ _
  . exact (SameDeltas.setHeads publication _).setHeadRequest _ _

theorem electHead_sameDeltas (index depth : Nat) (condition : HeadSnapshotCondition)
    (boundary : HeadEligibilityBoundary) :
    SameDeltas publication (publication.electHead index depth condition boundary) := by
  unfold GraphPublication.electHead
  split
  . exact (SameDeltas.refl publication).setHeadRequest _ _
  . exact (SameDeltas.setHeads publication _).setHeadRequest _ _
  . split
    . exact (SameDeltas.setHeads publication _).setHeadRequest _ _
    . exact ((SameDeltas.setHeads publication _).setHeadJobs _).setHeadRequest _ _

theorem checkHead_sameDeltas {index : Nat} {job : HeadJob} {candidate : CachedHeadSnapshot}
    (h : publication.checkHead index job candidate = .ok publication') :
    SameDeltas publication publication' := by
  obtain ⟨admitted, _, h⟩ := bind_eq_ok.mp h
  split at h
  . rw [pure_eq_ok] at h
    subst h
    exact (SameDeltas.refl publication).setHeadJobs _
  . rw [pure_eq_ok] at h
    subst h
    exact (SameDeltas.refl publication).setHeadJobs _

inductive Step (publication : GraphPublication) : PublicationEvent → GraphPublication → Prop where
  | transitionLive (hfree : publication.coreIsFree = true)
      (hstate : publication.state = .synchronizing) :
      Step publication .transitionLive { publication with state := .live }
  | transitionStale (hfree : publication.coreIsFree = true) :
      Step publication .transitionStale { publication with state := .stale }
  | update {update : OriginalUpdate} {revisionTimestampMs : Nat} {publication' : GraphPublication}
      (hfree : publication.coreIsFree = true)
      (hclock : publication.core.view.currentRevisionTimestampMs ≤ revisionTimestampMs)
      (hok : publication.applyOriginalUpdate update revisionTimestampMs = .ok publication') :
      Step publication (.update update revisionTimestampMs) publication'
  | selectDelta (sourceRevision : Nat) (activeInterval : ActiveDeltaInterval)
      (client : Option Bool) :
      Step publication (.selectDelta sourceRevision activeInterval client)
        { publication with
          deltaRequests := publication.deltaRequests ++
            [publication.selectDelta sourceRevision activeInterval.value client] }
  | pruneDeltas {index : Nat} {client : Option Bool} {head : GraphDeltaTargetCapture}
      {sourceRevision activeInterval : Nat}
      (hrequest : publication.deltaRequests[index]?
        = some (.captured head sourceRevision activeInterval)) :
      Step publication (.pruneDeltas index client)
        (publication.pruneDeltas index head sourceRevision activeInterval client)
  | lookupDelta {index : Nat} {request : CanonicalDeltaRequest} {reentry : Bool}
      (hrequest : publication.deltaRequests[index]? = some (.lookingUp request reentry)) :
      Step publication (.lookupDelta index) (publication.lookupDelta index request)
  | electDelta {index : Nat} {request : CanonicalDeltaRequest} {currentTarget : Option Nat}
      (hrequest : publication.deltaRequests[index]? = some (.sizing request currentTarget)) :
      Step publication (.electDelta index) (publication.electDelta index request currentTarget)
  | resolveDelta {index : Nat} {cancelled : Bool} {request : CanonicalDeltaRequest}
      {access : CacheAccess CachedDelta} {request' : DeltaRequest}
      (hrequest : publication.deltaRequests[index]? = some (.resolving request access))
      (hresolve : publication.resolveDelta request access cancelled = some request') :
      Step publication (.resolveDelta index cancelled) (publication.setDeltaRequest index request')
  | deliverDelta {index : Nat} {client : Option Bool} {request : CanonicalDeltaRequest}
      {candidate : CachedDelta}
      (hrequest : publication.deltaRequests[index]? = some (.resolved request candidate)) :
      Step publication (.deliverDelta index client)
        (publication.setDeltaRequest index (publication.deliverDelta request candidate client))
  | finishDelta {index : Nat} {failure : Option CacheBuildError} {job : DeltaJob}
      {publication' : GraphPublication} (hjob : publication.deltaJobs[index]? = some job)
      (htask : job.task = .building)
      (hok : publication.finishDelta index job (buildResult job failure) = .ok publication') :
      Step publication (.finishDelta index failure) publication'
  | completeDelta {index : Nat} {job : DeltaJob} {result : Except CacheBuildError CachedDelta}
      {publication' : GraphPublication} (hjob : publication.deltaJobs[index]? = some job)
      (htask : job.task = .installed result)
      (hok : publication.completeDelta index job result = .ok publication') :
      Step publication (.completeDelta index) publication'
  | requestHead {depth : Nat} (condition : HeadSnapshotCondition)
      (hdepth : depth ∈ cachedHeadWindowDepths) :
      Step publication (.requestHead depth condition)
        { publication with
          headRequests := publication.headRequests ++ [.selecting depth condition] }
  | selectHead {index depth : Nat} {condition : HeadSnapshotCondition} (cancelled : Bool)
      (hrequest : publication.headRequests[index]? = some (.selecting depth condition)) :
      Step publication (.selectHead index cancelled) (publication.setHeadRequest index
        (if cancelled then .responded (.failed .cancelled)
          else .lookingUp depth condition publication.headEligibilityBoundary))
  | lookupHead {index depth : Nat} {condition : HeadSnapshotCondition}
      {boundary : HeadEligibilityBoundary}
      (hrequest : publication.headRequests[index]? = some (.lookingUp depth condition boundary)) :
      Step publication (.lookupHead index) (publication.lookupHead index depth condition boundary)
  | electHead {index depth : Nat} {condition : HeadSnapshotCondition}
      {boundary : HeadEligibilityBoundary}
      (hrequest : publication.headRequests[index]? = some (.electing depth condition boundary)) :
      Step publication (.electHead index) (publication.electHead index depth condition boundary)
  | resolveHead {index depth : Nat} {cancelled : Bool} {condition : HeadSnapshotCondition}
      {access : CacheAccess CachedHeadSnapshot} {request' : HeadRequest}
      (hrequest : publication.headRequests[index]? = some (.resolving depth condition access))
      (hresolve : publication.resolveHead depth condition access cancelled = some request') :
      Step publication (.resolveHead index cancelled) (publication.setHeadRequest index request')
  | admitHead {index depth : Nat} {condition : HeadSnapshotCondition}
      {candidate : CachedHeadSnapshot}
      (hrequest : publication.headRequests[index]? = some (.resolved depth condition candidate)) :
      Step publication (.admitHead index)
        (publication.setHeadRequest index (publication.admitHead depth condition candidate))
  | encodeHead {index : Nat} {job : HeadJob} {capture : HeadTierCapture}
      (hjob : publication.headJobs[index]? = some job) (htask : job.task = .encoding capture) :
      Step publication (.encodeHead index) (publication.setHeadJob index
        { job with task := .checking (encodedHead job.depth capture) })
  | checkHead {index : Nat} {job : HeadJob} {candidate : CachedHeadSnapshot}
      {publication' : GraphPublication} (hjob : publication.headJobs[index]? = some job)
      (htask : job.task = .checking candidate)
      (hok : publication.checkHead index job candidate = .ok publication') :
      Step publication (.checkHead index) publication'
  | recaptureHead {index : Nat} {job : HeadJob} {publication' : GraphPublication}
      (hjob : publication.headJobs[index]? = some job) (htask : job.task = .recapturing)
      (hok : publication.recaptureHead index job = .ok publication') :
      Step publication (.recaptureHead index) publication'
  | failHead {index : Nat} {job : HeadJob} (error : CacheBuildError)
      (hjob : publication.headJobs[index]? = some job) :
      Step publication (.failHead index error)
        (publication.setHeadJob index { job with task := .built (.error error) })
  | finishHead {index : Nat} {job : HeadJob} {result : Except CacheBuildError CachedHeadSnapshot}
      {publication' : GraphPublication} (hjob : publication.headJobs[index]? = some job)
      (htask : job.task = .built result)
      (hok : publication.finishHead index job result = .ok publication') :
      Step publication (.finishHead index) publication'
  | completeHead {index : Nat} {job : HeadJob}
      {result : Except CacheBuildError CachedHeadSnapshot} {publication' : GraphPublication}
      (hjob : publication.headJobs[index]? = some job) (htask : job.task = .installed result)
      (hok : publication.completeHead index job result = .ok publication') :
      Step publication (.completeHead index) publication'

theorem step_cases (hstep : publication.step event = some publication') :
    Step publication event publication' := by
  unfold GraphPublication.step at hstep
  cases event
  all_goals dsimp only at hstep
  case transitionLive =>
    split at hstep
    . next hguard =>
      cases hstep
      exact .transitionLive hguard.1 hguard.2
    . cases hstep
  case transitionStale =>
    split at hstep
    . next hguard =>
      cases hstep
      exact .transitionStale hguard
    . cases hstep
  case update update revisionTimestampMs =>
    split at hstep
    . next hguard => exact .update hguard.1 hguard.2 (toOption_eq_some.mp hstep)
    . cases hstep
  case selectDelta sourceRevision activeInterval client =>
    cases hstep
    exact .selectDelta sourceRevision activeInterval client
  case pruneDeltas index client =>
    split at hstep
    . next hrequest =>
      cases hstep
      exact .pruneDeltas hrequest
    . cases hstep
  case lookupDelta index =>
    split at hstep
    . next hrequest =>
      cases hstep
      exact .lookupDelta hrequest
    . cases hstep
  case electDelta index =>
    split at hstep
    . next hrequest =>
      cases hstep
      exact .electDelta hrequest
    . cases hstep
  case resolveDelta index cancelled =>
    split at hstep
    . next hrequest =>
      obtain ⟨request', hresolve, rfl⟩ := Option.map_eq_some_iff.mp hstep
      exact .resolveDelta hrequest hresolve
    . cases hstep
  case deliverDelta index client =>
    split at hstep
    . next hrequest =>
      cases hstep
      exact .deliverDelta hrequest
    . cases hstep
  case finishDelta index failure =>
    split at hstep
    . next hjob =>
      split at hstep
      . next htask => exact .finishDelta hjob htask (toOption_eq_some.mp hstep)
      . cases hstep
    . cases hstep
  case completeDelta index =>
    split at hstep
    . next hjob =>
      split at hstep
      . next htask => exact .completeDelta hjob htask (toOption_eq_some.mp hstep)
      . cases hstep
    . cases hstep
  case requestHead depth condition =>
    split at hstep
    . next hdepth =>
      cases hstep
      exact .requestHead condition hdepth
    . cases hstep
  case selectHead index cancelled =>
    split at hstep
    . next hrequest =>
      cases hstep
      exact .selectHead cancelled hrequest
    . cases hstep
  case lookupHead index =>
    split at hstep
    . next hrequest =>
      cases hstep
      exact .lookupHead hrequest
    . cases hstep
  case electHead index =>
    split at hstep
    . next hrequest =>
      cases hstep
      exact .electHead hrequest
    . cases hstep
  case resolveHead index cancelled =>
    split at hstep
    . next hrequest =>
      obtain ⟨request', hresolve, rfl⟩ := Option.map_eq_some_iff.mp hstep
      exact .resolveHead hrequest hresolve
    . cases hstep
  case admitHead index =>
    split at hstep
    . next hrequest =>
      cases hstep
      exact .admitHead hrequest
    . cases hstep
  case encodeHead index =>
    split at hstep
    . next hjob =>
      split at hstep
      . next htask =>
        cases hstep
        exact .encodeHead hjob htask
      . cases hstep
    . cases hstep
  case checkHead index =>
    split at hstep
    . next hjob =>
      split at hstep
      . next htask => exact .checkHead hjob htask (toOption_eq_some.mp hstep)
      . cases hstep
    . cases hstep
  case recaptureHead index =>
    split at hstep
    . next hjob =>
      split at hstep
      . next htask => exact .recaptureHead hjob htask (toOption_eq_some.mp hstep)
      . cases hstep
    . cases hstep
  case failHead index error =>
    split at hstep
    . next hjob =>
      split at hstep
      all_goals
        cases hstep
        try exact .failHead error hjob
    . cases hstep
  case finishHead index =>
    split at hstep
    . next hjob =>
      split at hstep
      . next htask => exact .finishHead hjob htask (toOption_eq_some.mp hstep)
      . cases hstep
    . cases hstep
  case completeHead index =>
    split at hstep
    . next hjob =>
      split at hstep
      . next htask => exact .completeHead hjob htask (toOption_eq_some.mp hstep)
      . cases hstep
    . cases hstep

theorem Step.sameDeltas (hhead : event.isHead = true) (hstep : Step publication event publication') :
    SameDeltas publication publication' := by
  have hrefl := SameDeltas.refl publication
  cases hstep with
  | requestHead => exact hrefl
  | selectHead => exact hrefl.setHeadRequest _ _
  | lookupHead => exact lookupHead_sameDeltas _ _ _ _
  | electHead => exact electHead_sameDeltas _ _ _ _
  | resolveHead => exact hrefl.setHeadRequest _ _
  | admitHead => exact hrefl.setHeadRequest _ _
  | encodeHead => exact hrefl.setHeadJobs _
  | checkHead _ _ hok => exact checkHead_sameDeltas hok
  | recaptureHead _ _ hok =>
    obtain ⟨capture, _, hok⟩ := bind_eq_ok.mp hok
    rw [pure_eq_ok] at hok
    subst hok
    exact hrefl.setHeadJobs _
  | failHead => exact hrefl.setHeadJobs _
  | finishHead _ _ hok =>
    obtain ⟨heads, _, hok⟩ := bind_eq_ok.mp hok
    rw [pure_eq_ok] at hok
    subst hok
    exact (SameDeltas.setHeads publication heads).setHeadJobs _
  | completeHead _ _ hok =>
    obtain ⟨state, _, hok⟩ := bind_eq_ok.mp hok
    rw [pure_eq_ok] at hok
    subst hok
    exact hrefl.setHeadJobs _
  | _ => cases hhead

theorem Sound.selectDelta (h : Sound timeline publication) (sourceRevision : Nat)
    (activeInterval : ActiveDeltaInterval) (client : Option Bool) :
    Sound timeline { publication with
      deltaRequests := publication.deltaRequests ++
        [publication.selectDelta sourceRevision activeInterval.value client] } := by
  refine ⟨h.records, h.slots, h.jobs, ?_⟩
  intro request hmem
  obtain hmem | hmem := List.mem_append.mp hmem
  . exact h.requests request hmem
  . rw [List.mem_singleton] at hmem
    subst hmem
    unfold GraphPublication.selectDelta
    split
    . trivial
    . next hsource =>
      split
      . trivial
      . exact ⟨rfl, Nat.not_lt.mp hsource, activeInterval.permitted⟩

theorem Sound.step (h : Sound timeline publication) (hstep : publication.step event = some publication')
    :
    ∃ timeline', Timeline.Extends timeline timeline' publication.core.view.currentRevisionId ∧
      Sound timeline' publication' := by
  have hrefl := Timeline.Extends.refl timeline publication.core.view.currentRevisionId
  by_cases hhead : event.isHead = true
  . exact ⟨timeline, hrefl, h.of_sameDeltas ((step_cases hstep).sameDeltas hhead)⟩
  . cases step_cases hstep with
    | transitionLive hfree _ =>
      exact ⟨timeline, hrefl, h.advance hfree .live h.records (Nat.le_refl _) hrefl⟩
    | transitionStale hfree =>
      exact ⟨timeline, hrefl, h.advance hfree .stale h.records (Nat.le_refl _) hrefl⟩
    | update hfree hclock hok => exact h.applyOriginalUpdate hfree hclock hok
    | selectDelta sourceRevision activeInterval client =>
      exact ⟨timeline, hrefl, h.selectDelta sourceRevision activeInterval client⟩
    | pruneDeltas hrequest =>
      have hsound := h.requests _ (List.mem_of_getElem? hrequest)
      exact ⟨timeline, hrefl, h.pruneDeltas _ _ hsound⟩
    | lookupDelta hrequest =>
      have hsound := h.requests _ (List.mem_of_getElem? hrequest)
      exact ⟨timeline, hrefl, h.lookupDelta _ hsound.1⟩
    | electDelta hrequest =>
      have hsound := h.requests _ (List.mem_of_getElem? hrequest)
      exact ⟨timeline, hrefl, h.electDelta _ hsound.1 hsound.2⟩
    | resolveDelta hrequest hresolve =>
      have hsound := h.requests _ (List.mem_of_getElem? hrequest)
      exact ⟨timeline, hrefl, h.setDeltaRequest _ (h.resolveDelta hsound hresolve)⟩
    | deliverDelta hrequest =>
      have hsound := h.requests _ (List.mem_of_getElem? hrequest)
      exact ⟨timeline, hrefl, h.setDeltaRequest _ (h.deliverDelta _ hsound)⟩
    | finishDelta hjob _ hok => exact ⟨timeline, hrefl, h.finishDelta hjob hok⟩
    | completeDelta hjob htask hok => exact ⟨timeline, hrefl, h.completeDelta hjob htask hok⟩
    | _ => exact absurd rfl hhead

theorem Sound.new (publicationId : Nat) (state : GraphPublicationState) {core : GraphPublicationCore}
    (hrecords : timeline.Records core) :
    Sound timeline (GraphPublication.new publicationId state core) where
  records := hrecords
  slots := by
    intro source slot hslot
    change (∅ : DeltaCache)[source]? = some slot at hslot
    rw [Std.ExtTreeMap.getElem?_empty] at hslot
    cases hslot
  jobs := fun job hjob => absurd hjob List.not_mem_nil
  requests := fun request hrequest => absurd hrequest List.not_mem_nil

theorem Sound.run (h : Sound timeline publication) {events : List PublicationEvent}
    (hrun : Data.run GraphPublication.step publication events = some publication') :
    ∃ timeline', Sound timeline' publication' := by
  have hstep : ∀ publication event publication', (∃ timeline, Sound timeline publication) →
      GraphPublication.step publication event = some publication' →
      ∃ timeline, Sound timeline publication' := by
    rintro publication event publication' ⟨timeline, h⟩ hstep
    obtain ⟨timeline', _, h'⟩ := h.step hstep
    exact ⟨timeline', h'⟩
  exact Data.run.invariant hstep ⟨timeline, h⟩ hrun

def Reachable (publication : GraphPublication) : Prop :=
  ∃ publicationId state core events, Lineage core ∧
    Data.run step (GraphPublication.new publicationId state core) events = some publication

theorem Reachable.sound (h : publication.Reachable) : ∃ timeline, Sound timeline publication := by
  obtain ⟨publicationId, state, core, events, hlineage, hrun⟩ := h
  obtain ⟨timeline, hrecords⟩ := hlineage.records
  exact (Sound.new publicationId state hrecords).run hrun

end GraphPublication

end Kgi
