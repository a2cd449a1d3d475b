import GraphInspector.ApiCore.Lemmas.Requests

/-!
Panics of canonical-delta requests. Sizing never panics, and pruning does after a late re-entry.
-/

namespace Kgi

open Data

namespace GraphPublication

variable {publication publication' : GraphPublication} {timeline : Timeline}

section Sizing

structure FitsOnLadder (history : GraphHistory) (source target : Nat) : Prop where
  onLadder : OnLadder source target
  forward : source < target
  within : target ≤ history.currentRevisionId
  fits : history.replayFloorRevision ≤ source → history.oldestAvailableRevision ≤ source →
    ∃ fitting, history.fittingRange source [target]
        (fun estimatedRawBytes => estimatedRawBytes < softDeltaEstimatedBytes)
      = .ok (.ok (some fitting)) ∧ fitting.targetRevision = target

theorem Sound.fitsOnLadder (h : Sound timeline publication) {source target : Nat}
    (hreaches : timeline.Reaches publication.core.view.currentRevisionId source target) :
    FitsOnLadder publication.core.history source target where
  onLadder := hreaches.onLadder
  forward := hreaches.forward
  within := h.records.revision ▸ hreaches.within
  fits := by
    intro hfloor holdest
    have hwithin : target ≤ publication.core.history.currentRevisionId :=
      h.records.revision ▸ hreaches.within
    refine ⟨publication.core.history.fittingTo source target target, ?_, rfl⟩
    rw [h.records.gapless.fittingRange_eq_ok h.records.costed hfloor holdest hwithin
      (fun target' htarget' => (List.mem_singleton.mp htarget') ▸ hreaches.forward)
      (List.pairwise_singleton _ _), List.find?_cons_of_pos]
    . rfl
    . exact decide_eq_true hreaches.fits

/--
Over every run of a publication, target selection and sizing compute. Every retained entry fits the soft
limit by itself. Coverage that is cached for a source is a boundary of the source that still fits, and what
sizing finds is never nearer than the coverage it starts from.
-/
theorem sizing_never_panics (h : publication.Reachable) :
    (∀ entry ∈ publication.core.history.entries,
      publication.core.history.replayFloorRevision ≤ entry.delta.fromRevisionId ∧
        entry.estimatedRawBytes < softDeltaEstimatedBytes) ∧
    (∀ (source : Nat) (slot : DeltaCacheSlot), publication.cache.deltas[source]? = some slot →
      ∀ value ∈ slot.completed,
        FitsOnLadder publication.core.history source value.toRevisionId) ∧
    (∀ head source interval, .captured head source interval ∈ publication.deltaRequests →
      source < head.revision →
      ∃ ladder selection, DeltaTargetLadder.new source head.revision none interval = .ok ladder ∧
        ladder.select head.state = .ok selection) ∧
    (∀ request currentTarget, .sizing request currentTarget ∈ publication.deltaRequests →
      (∀ cached ∈ currentTarget,
        FitsOnLadder publication.core.history request.selected.sourceRevision cached ∧
          cached ≤ request.head.revision ∧ cached < request.selected.targetRevision) ∧
      (∃ ladder candidates, DeltaTargetLadder.new request.selected.sourceRevision
            request.head.revision currentTarget request.activeInterval = .ok ladder ∧
          ladder.fittingTargets request.selected = .ok candidates ∧
          (publication.core.history.replayFloorRevision ≤ request.selected.sourceRevision →
            publication.core.history.oldestAvailableRevision ≤ request.selected.sourceRevision →
            ∃ fitting, publication.core.history.fittingRange request.selected.sourceRevision
                candidates (fun estimatedRawBytes => estimatedRawBytes < softDeltaEstimatedBytes)
              = .ok (.ok (some fitting)) ∧ fitting.targetRevision ∈ candidates ∧
              ∀ cached ∈ currentTarget, cached ≤ fitting.targetRevision)) ∧
      ∃ sized, sizeCanonicalDelta publication.core.history request currentTarget = .ok sized) ∧
    ∀ message, .panicked message ∈ publication.deltaRequests →
      message = "a delta source timestamp does not postdate its publication Head" := by
  obtain ⟨timeline, hsound⟩ := h.sound
  refine ⟨?_, ?_, ?_, ?_, ?_⟩
  . intro entry hentry
    have hfloor := hsound.records.gapless.length_le
    obtain ⟨index, hindex⟩ := List.getElem?_of_mem hentry
    obtain ⟨hfrom, _⟩ := hsound.records.gapless.consecutive index entry hindex
    exact ⟨by omega, hsound.records.replayable entry hentry⟩
  . intro source slot hslot value hvalue
    exact hsound.fitsOnLadder ((hsound.slots source slot hslot).completed value hvalue).2
  . intro head source interval hmem hsource
    obtain ⟨rfl, _, hinterval⟩ := hsound.requests _ hmem
    have hroom : publication.captureDeltaTarget.revision + 128 ≤ u64Max := hsound.records.headroom
    obtain ⟨successor, more, htargets, _, _⟩ := DeltaTargetLadder.targetBoundaries_eq_ok
      (show source + 128 ≤ u64Max by omega)
    obtain ⟨boundary, hnearest⟩ := DeltaTargetLadder.exists_nearest
      publication.captureDeltaTarget.state interval source successor more
    have hnew := DeltaTargetLadder.new_eq_ok hsource hinterval htargets
    by_cases hreached : boundary ≤ publication.captureDeltaTarget.revision
    . obtain ⟨target, hselect, _, _⟩ := DeltaTargetLadder.select_range hnearest hreached
      exact ⟨_, _, hnew, hselect⟩
    . exact ⟨_, _, hnew, DeltaTargetLadder.select_wait hnearest (by omega)⟩
  . intro request currentTarget hmem
    obtain ⟨⟨hrequested, _⟩, hcovered⟩ := hsound.requests _ hmem
    obtain ⟨ladder, rest, hcandidates, hnew, hfitting, _⟩ :=
      hsound.records.size_eq_bind hrequested hcovered
    refine ⟨?_, ⟨ladder, _, hnew, hfitting, ?_⟩, ?_⟩
    . intro cached hcached
      obtain ⟨hreaches, hlt⟩ := hcovered cached hcached
      have hwithin := hrequested.within
      exact ⟨hsound.fitsOnLadder hreaches, by omega, hlt⟩
    . intro hfloor holdest
      obtain ⟨target, hmem, _, _, hrange⟩ :=
        hsound.records.fitting_eq_ok hrequested hcovered hcandidates hfloor holdest
      exact ⟨_, hrange, hmem, hcandidates.covers target hmem⟩
    . by_cases hgone : request.selected.sourceRevision
          < publication.core.history.replayFloorRevision ∨
          request.selected.sourceRevision < publication.core.history.oldestAvailableRevision
      . obtain ⟨error, hsize, _⟩ := hsound.records.size_expired hrequested hcovered hgone
        exact ⟨_, hsize⟩
      . rw [not_or, Nat.not_lt, Nat.not_lt] at hgone
        obtain ⟨_, _, _, hsize⟩ := hsound.records.size_eq_ok hrequested hcovered hgone.1 hgone.2
        exact ⟨_, hsize⟩
  . intro message hmem
    exact hsound.requests _ hmem

end Sizing

section Age

variable {event : PublicationEvent}

def agePanic : DeltaRequest :=
  .panicked "a delta source timestamp does not postdate its publication Head"

def OnTime (publication : GraphPublication) (event : PublicationEvent) : Prop :=
  ∀ index request, event = .lookupDelta index →
    publication.deltaRequests[index]? = some (.lookingUp request true) →
    ¬publication.cache.deltas.Postdates request.head.revisionTimestampMs

theorem DeltaMoves.ne_agePanic {index : Nat} {request request' : DeltaRequest}
    (h : DeltaMoves publication index event request request') :
    request ≠ agePanic := by
  cases h
  all_goals
    intro heq
    cases heq

section Late

variable (h : Sound timeline publication) (hstep : publication.step event = some publication')
include h hstep

theorem Sound.step_agePanic (hpanic : agePanic ∈ publication.deltaRequests) :
    agePanic ∈ publication'.deltaRequests := by
  cases h.deltaStep hstep with
  | governed _ _ _ hrequests => exact hrequests ▸ hpanic
  | idle _ hrequests => exact hrequests ▸ hpanic
  | asked _ _ _ _ _ hrequests =>
    rw [hrequests]
    exact List.mem_append_left _ hpanic
  | moved index request request' hrequest hmoves _ hrequests =>
    rw [hrequests]
    obtain ⟨other, hother⟩ := List.getElem?_of_mem hpanic
    apply List.mem_of_getElem? (i := other)
    rw [List.getElem?_set_ne, hother]
    rintro rfl
    rw [hrequest, Option.some.injEq] at hother
    exact hmoves.ne_agePanic hother

theorem Sound.agePanic_of_late (hlate : ¬publication.OnTime event) :
    agePanic ∈ publication'.deltaRequests := by
  unfold OnTime at hlate
  push Not at hlate
  obtain ⟨index, request, rfl, hrequest, hpostdates⟩ := hlate
  cases step_cases hstep with
  | lookupDelta hrequest' =>
    rw [hrequest, Option.some.injEq, DeltaRequest.lookingUp.injEq] at hrequest'
    obtain ⟨rfl, rfl⟩ := hrequest'
    obtain ⟨deltas, request', heq, hmoves⟩ :=
      h.lookupDelta_moves (h.requests _ (List.mem_of_getElem? hrequest))
    rw [heq]
    cases hmoves with
    | late => exact List.mem_set (List.getElem?_eq_some_iff.mp hrequest).1 _
    | found hstamps => exact absurd hpostdates hstamps
    | missing hstamps => exact absurd hpostdates hstamps

theorem Sound.step_not_agePanic (htime : publication.OnTime event)
    (hpanic : agePanic ∉ publication.deltaRequests) : agePanic ∉ publication'.deltaRequests := by
  cases h.deltaStep hstep with
  | governed _ _ _ hrequests => exact hrequests ▸ hpanic
  | idle _ hrequests => exact hrequests ▸ hpanic
  | asked source interval client _ _ hrequests =>
    rw [hrequests, List.mem_append, List.mem_singleton, not_or]
    refine ⟨hpanic, ?_⟩
    unfold GraphPublication.selectDelta agePanic
    split
    . exact DeltaRequest.noConfusion
    . split
      . exact DeltaRequest.noConfusion
      . exact DeltaRequest.noConfusion
  | moved index request request' hrequest hmoves _ hrequests =>
    rw [hrequests]
    intro hmem
    obtain hmem | rfl := List.mem_or_eq_of_mem_set hmem
    . exact hpanic hmem
    . generalize hnew : agePanic = request' at hmoves
      cases hmoves with
      | selected hhead hselects =>
        subst hnew
        cases hselects
      | late hlate => exact htime index _ rfl hrequest hlate
      | _ => cases hnew

end Late

/--
A run evaluates the age of no later slot exactly when no request in it looks up again, with the Head it
captured, while a slot is later than that Head.
-/
theorem agePanic_iff_late_reentry (publicationId : Nat) (state : GraphPublicationState)
    (core : GraphPublicationCore) (events : List PublicationEvent) (publication : GraphPublication)
    (hlineage : Lineage core)
    (hrun : run step (GraphPublication.new publicationId state core) events = some publication) :
    agePanic ∉ publication.deltaRequests
      ↔
    ∀ pre event post before, events = pre ++ event :: post →
      run step (GraphPublication.new publicationId state core) pre = some before →
      before.OnTime event := by
  obtain ⟨timeline, hrecords⟩ := hlineage.records
  have hnew := Sound.new publicationId state hrecords
  constructor
  . intro hpanic pre event post before hevents hbefore
    rw [hevents, run.append_eq_some] at hrun
    obtain ⟨before', hbefore', hrest⟩ := hrun
    rw [hbefore, Option.some.injEq] at hbefore'
    subst hbefore'
    obtain ⟨after, hafter, hrest⟩ := run.cons_eq_some.mp hrest
    obtain ⟨timeline', hsound⟩ := hnew.run hbefore
    by_contra hlate
    have hlater : ∀ publication event publication', ((∃ timeline, Sound timeline publication) ∧
        agePanic ∈ publication.deltaRequests) → step publication event = some publication' →
        (∃ timeline, Sound timeline publication') ∧ agePanic ∈ publication'.deltaRequests := by
      rintro publication event publication' ⟨⟨timeline, h⟩, hpanic⟩ hstep
      obtain ⟨timeline', _, h'⟩ := h.step hstep
      exact ⟨⟨timeline', h'⟩, h.step_agePanic hstep hpanic⟩
    obtain ⟨timeline'', _, hsound'⟩ := hsound.step hafter
    exact hpanic (run.invariant hlater
      ⟨⟨timeline'', hsound'⟩, hsound.agePanic_of_late hafter hlate⟩ hrest).2
  . intro htime
    have hkept : ∀ publication event publication', ((∃ timeline, Sound timeline publication) ∧
        agePanic ∉ publication.deltaRequests) → publication.OnTime event →
        step publication event = some publication' →
        (∃ timeline, Sound timeline publication') ∧ agePanic ∉ publication'.deltaRequests := by
      rintro publication event publication' ⟨⟨timeline, h⟩, hpanic⟩ htime hstep
      obtain ⟨timeline', _, h'⟩ := h.step hstep
      exact ⟨⟨timeline', h'⟩, h.step_not_agePanic hstep htime hpanic⟩
    exact (run.invariant_of_guard hkept ⟨⟨timeline, hnew⟩, List.not_mem_nil⟩ htime hrun).2

def smallInterval : ActiveDeltaInterval := ⟨1, by decide⟩

/--
A client at revision 2 opens a slot after the slot of revision 0 has expired, while a request from
revision 0 with Head 2 still waits for a job that will prove too short for it.
-/
def lateReentry : List PublicationEvent :=
  [.update GraphView.smallVspc 10,
    .selectDelta 0 smallInterval none, .pruneDeltas 0 none, .lookupDelta 0, .electDelta 0,
    .update GraphView.smallBlock 20,
    .selectDelta 0 smallInterval none, .pruneDeltas 1 none, .lookupDelta 1,
    .finishDelta 0 none, .completeDelta 0,
    .update (.vspc ⟨2, 3, [], [3], [⟨3, 1, some 2⟩]⟩) 300010,
    .selectDelta 2 smallInterval none, .pruneDeltas 2 none, .lookupDelta 2, .electDelta 2,
    .resolveDelta 1 false, .deliverDelta 1 none, .lookupDelta 1]

/--
The same request looks up again before the slot of revision 0 has expired.
-/
def coveredReentry : List PublicationEvent :=
  lateReentry.take 11 ++ [.resolveDelta 1 false, .deliverDelta 1 none, .lookupDelta 1]

theorem lineage_smallProjection {seed : GraphView} (hseed : GraphView.smallProjection = .ok seed) :
    Lineage ⟨seed, .new⟩ :=
  .seed GraphView.smallEdges_keyed (by decide) hseed

theorem exists_small_run {events : List PublicationEvent} {observed : GraphPublication → Bool}
    (h : (GraphView.smallProjection.toOption.bind fun seed =>
      run step (GraphPublication.new 1 .live ⟨seed, .new⟩) events).any observed = true) :
    ∃ seed publication, Lineage ⟨seed, .new⟩ ∧
      run step (GraphPublication.new 1 .live ⟨seed, .new⟩) events = some publication ∧
      observed publication = true := by
  rw [Option.any_eq_true] at h
  obtain ⟨publication, hrun, hobserved⟩ := h
  obtain ⟨seed, hseed, hrun⟩ := Option.bind_eq_some_iff.mp hrun
  exact ⟨seed, publication, lineage_smallProjection (toOption_eq_some.mp hseed), hrun, hobserved⟩

theorem reentry_agePanic :
    ∃ seed publication, Lineage ⟨seed, .new⟩ ∧
      run step (GraphPublication.new 1 .live ⟨seed, .new⟩) lateReentry = some publication ∧
      publication.deltaRequests[1]? = some (.panicked
        "a delta source timestamp does not postdate its publication Head") := by
  obtain ⟨seed, publication, hlineage, hrun, hpanic⟩ := exists_small_run
    (show (GraphView.smallProjection.toOption.bind fun seed =>
      run step (GraphPublication.new 1 .live ⟨seed, .new⟩) lateReentry).any
        (fun publication => publication.deltaRequests[1]? == some (.panicked
          "a delta source timestamp does not postdate its publication Head")) = true by
      decide +kernel)
  exact ⟨seed, publication, hlineage, hrun, eq_of_beq hpanic⟩

theorem agePanic_iff_late_reentry_in_time :
    ∃ seed publication, Lineage ⟨seed, .new⟩ ∧
      run step (GraphPublication.new 1 .live ⟨seed, .new⟩) coveredReentry = some publication ∧
      agePanic ∉ publication.deltaRequests ∧
      ∀ pre event post before, coveredReentry = pre ++ event :: post →
        run step (GraphPublication.new 1 .live ⟨seed, .new⟩) pre = some before →
        before.OnTime event := by
  obtain ⟨seed, publication, hlineage, hrun, hpanic⟩ := exists_small_run
    (show (GraphView.smallProjection.toOption.bind fun seed =>
      run step (GraphPublication.new 1 .live ⟨seed, .new⟩) coveredReentry).any
        (fun publication => decide (agePanic ∉ publication.deltaRequests)) = true by
      decide +kernel)
  have hnever := of_decide_eq_true hpanic
  exact ⟨seed, publication, hlineage, hrun, hnever,
    (agePanic_iff_late_reentry 1 .live _ _ publication hlineage hrun).mp hnever⟩

end Age

def DeltaRequest.isSizing (currentTarget : Option Nat) : DeltaRequest → Bool
  | .sizing _ target => target = currentTarget
  | _ => false

theorem sizing_never_panics_covered_reentry :
    ∃ publication : GraphPublication, publication.Reachable ∧
      ∃ request, .sizing request (some 1) ∈ publication.deltaRequests ∧
        ∃ sized, sizeCanonicalDelta publication.core.history request (some 1) = .ok sized := by
  obtain ⟨seed, publication, hlineage, hrun, hsizing⟩ := exists_small_run
    (show (GraphView.smallProjection.toOption.bind fun seed =>
      run step (GraphPublication.new 1 .live ⟨seed, .new⟩) coveredReentry).any
        (fun publication => publication.deltaRequests.any (DeltaRequest.isSizing (some 1))) = true by
      decide +kernel)
  have hreachable : publication.Reachable := ⟨1, .live, _, _, hlineage, hrun⟩
  rw [List.any_eq_true] at hsizing
  obtain ⟨request, hmem, hsizing⟩ := hsizing
  cases request with
  | sizing request currentTarget =>
    cases of_decide_eq_true hsizing
    exact ⟨publication, hreachable, request, hmem,
      ((sizing_never_panics hreachable).2.2.2.1 request (some 1) hmem).2.2⟩
  | _ => cases hsizing

end GraphPublication

end Kgi
