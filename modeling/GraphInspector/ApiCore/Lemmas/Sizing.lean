import GraphInspector.ApiCore.Impl.Publication
import GraphInspector.ApiCore.Lemmas.Delta
import GraphInspector.ApiCore.Lemmas.Timeline

/-!
Sizing of a request. On a recorded core it never panics.
-/

namespace Kgi

open Data

def OnLadder (source target : Nat) : Prop :=
  ∃ targets, DeltaTargetLadder.targetBoundaries source = .ok targets ∧ target ∈ targets

namespace Timeline

variable {timeline timeline' : Timeline} {core : GraphPublicationCore} {revision revision' : Nat}
  {request : CanonicalDeltaRequest} {currentTarget : Option Nat}

structure Reaches (timeline : Timeline) (revision source target : Nat) : Prop where
  forward : source < target
  within : target ≤ revision
  onLadder : OnLadder source target
  fits : timeline.cost target - timeline.cost source < softDeltaEstimatedBytes

theorem Reaches.mono {source target : Nat} (h : timeline.Reaches revision source target)
    (hle : revision ≤ revision') (hextends : Extends timeline timeline' revision) :
    timeline'.Reaches revision' source target := by
  have hforward := h.forward
  have hwithin := h.within
  refine ⟨hforward, Nat.le_trans hwithin hle, h.onLadder, ?_⟩
  rw [(hextends target hwithin).2, (hextends source (by omega)).2]
  exact h.fits

def Limited (timeline : Timeline) (revision source target : Nat) : Prop :=
  ∀ farther, OnLadder source farther → target < farther →
    ∃ excess, excess ≤ farther ∧ excess ≤ revision ∧
      softDeltaEstimatedBytes ≤ timeline.cost excess - timeline.cost source

theorem Limited.mono {source target : Nat} (h : timeline.Limited revision source target)
    (hsource : source ≤ revision) (hle : revision ≤ revision')
    (hextends : Extends timeline timeline' revision) : timeline'.Limited revision' source target := by
  intro farther honLadder hlt
  obtain ⟨excess, hfarther, hwithin, hexceeds⟩ := h farther honLadder hlt
  refine ⟨excess, hfarther, Nat.le_trans hwithin hle, ?_⟩
  rw [(hextends excess hwithin).2, (hextends source hsource).2]
  exact hexceeds

structure Captured (timeline : Timeline) (revision : Nat) (head : GraphDeltaTargetCapture) : Prop where
  revision_le : head.revision ≤ revision
  stamp : head.revisionTimestampMs = timeline.stamp head.revision

theorem Captured.mono {head : GraphDeltaTargetCapture} (h : timeline.Captured revision head)
    (hle : revision ≤ revision') (hextends : Extends timeline timeline' revision) :
    timeline'.Captured revision' head :=
  ⟨Nat.le_trans h.revision_le hle, h.stamp.trans (hextends _ h.revision_le).1.symm⟩

structure Requested (timeline : Timeline) (revision : Nat) (request : CanonicalDeltaRequest) : Prop where
  captured : timeline.Captured revision request.head
  forward : request.selected.sourceRevision < request.selected.targetRevision
  within : request.selected.targetRevision ≤ request.head.revision
  onLadder : OnLadder request.selected.sourceRevision request.selected.targetRevision
  interval : request.activeInterval ∈ adaptiveDeltaIntervals

theorem Requested.mono (h : timeline.Requested revision request) (hle : revision ≤ revision')
    (hextends : Extends timeline timeline' revision) :
    timeline'.Requested revision' request :=
  ⟨h.captured.mono hle hextends, h.forward, h.within, h.onLadder, h.interval⟩

def Covered (timeline : Timeline) (revision : Nat) (request : CanonicalDeltaRequest)
    (currentTarget : Option Nat) : Prop :=
  ∀ target ∈ currentTarget, timeline.Reaches revision request.selected.sourceRevision target ∧
    target < request.selected.targetRevision

theorem Covered.mono (h : timeline.Covered revision request currentTarget) (hle : revision ≤ revision')
    (hextends : Extends timeline timeline' revision) :
    timeline'.Covered revision' request currentTarget :=
  fun target htarget => ⟨(h target htarget).1.mono hle hextends, (h target htarget).2⟩

structure Sizes (timeline : Timeline) (request : CanonicalDeltaRequest) (currentTarget : Option Nat)
    (value : CachedDelta) : Prop where
  source : value.fromRevisionId = request.selected.sourceRevision
  reaches : timeline.Reaches request.selected.targetRevision request.selected.sourceRevision
    value.toRevisionId
  sizeLimited : value.sizeLimited = decide (value.toRevisionId ≠ request.selected.targetRevision)
  covers : ∀ target ∈ currentTarget, target ≤ value.toRevisionId
  limited : value.sizeLimited = true →
    timeline.Limited request.selected.targetRevision request.selected.sourceRevision
      value.toRevisionId

theorem Records.new_ladder (h : timeline.Records core)
    (hrequested : timeline.Requested core.view.currentRevisionId request)
    (hcovered : timeline.Covered core.view.currentRevisionId request currentTarget) :
    ∃ targets, DeltaTargetLadder.targetBoundaries request.selected.sourceRevision = .ok targets ∧
      DeltaTargetLadder.new request.selected.sourceRevision request.head.revision currentTarget
        request.activeInterval = .ok ⟨request.selected.sourceRevision, request.head.revision,
          currentTarget, request.activeInterval, targets⟩ ∧
      DeltaTargetLadder.Descends request.selected.sourceRevision targets ∧
      request.selected.targetRevision ∈ targets ∧
      ∀ cached ∈ currentTarget, cached ∈ targets := by
  have hroom := h.headroom
  have hle := hrequested.captured.revision_le
  have hforward := hrequested.forward
  have hwithin := hrequested.within
  obtain ⟨targets, htargets, hmem⟩ := hrequested.onLadder
  obtain ⟨successor, more, htargets', hdescends, _⟩ := DeltaTargetLadder.targetBoundaries_eq_ok
    (show request.selected.sourceRevision + 128 ≤ u64Max by omega)
  rw [htargets, Except.ok.injEq] at htargets'
  subst htargets'
  have hcached : ∀ cached ∈ currentTarget, cached ∈ successor :: more := by
    intro cached hcached
    obtain ⟨targets', htargets', hmem'⟩ := (hcovered cached hcached).1.onLadder
    rw [htargets, Except.ok.injEq] at htargets'
    subst htargets'
    exact hmem'
  refine ⟨successor :: more, htargets, ?_, hdescends, hmem, hcached⟩
  unfold DeltaTargetLadder.new
  rw [ensure_pos (by omega), ok_bind, ensure_pos hrequested.interval, ok_bind, htargets, ok_bind]
  cases currentTarget with
  | none => rfl
  | some cached =>
    obtain ⟨hreaches, hlt⟩ := hcovered cached rfl
    dsimp only
    rw [ensure_pos ⟨hreaches.forward, by omega⟩, ok_bind, ensure_pos (hcached cached rfl), ok_bind]
    rfl

structure Candidates (request : CanonicalDeltaRequest) (currentTarget : Option Nat) (rest : List Nat) :
    Prop where
  descending : (request.selected.targetRevision :: rest).Pairwise (· > ·)
  later : ∀ target ∈ request.selected.targetRevision :: rest,
    request.selected.sourceRevision < target
  onLadder : ∀ target ∈ request.selected.targetRevision :: rest,
    OnLadder request.selected.sourceRevision target
  covers : ∀ target ∈ request.selected.targetRevision :: rest, ∀ cached ∈ currentTarget,
    cached ≤ target
  complete : ∀ target, OnLadder request.selected.sourceRevision target →
    target ≤ request.selected.targetRevision → (∀ cached ∈ currentTarget, cached ≤ target) →
    target ∈ request.selected.targetRevision :: rest
  last_resort : currentTarget.getD (request.selected.sourceRevision + 1) ∈
    request.selected.targetRevision :: rest

section Records

variable (h : timeline.Records core)
variable (hrequested : timeline.Requested core.view.currentRevisionId request)
variable (hcovered : timeline.Covered core.view.currentRevisionId request currentTarget)
include h hrequested hcovered

theorem Records.size_eq_bind :
    ∃ ladder rest, Candidates request currentTarget rest ∧
      DeltaTargetLadder.new request.selected.sourceRevision request.head.revision currentTarget
        request.activeInterval = .ok ladder ∧
      ladder.fittingTargets request.selected = .ok (request.selected.targetRevision :: rest) ∧
      sizeCanonicalDelta core.history request currentTarget
        = (core.history.fittingRange request.selected.sourceRevision
            (request.selected.targetRevision :: rest)
            (fun estimatedRawBytes => estimatedRawBytes < softDeltaEstimatedBytes)) >>=
          sizeFitting request := by
  obtain ⟨targets, htargets, hnew, hdescends, hmem, hcached⟩ := h.new_ladder hrequested hcovered
  obtain ⟨rest, hfitting, hpairwise, hon, hall⟩ := DeltaTargetLadder.fittingTargets_eq_ok
    hdescends hmem hrequested.within
    (fun cached hcached' => ⟨hcached cached hcached', Nat.le_of_lt (hcovered cached hcached').2⟩)
  refine ⟨_, rest, ⟨hpairwise, ?_, ?_, ?_, ?_, ?_⟩, hnew, hfitting, ?_⟩
  . intro target htarget
    exact hdescends.later target (hon target htarget).1
  . intro target htarget
    exact ⟨targets, htargets, (hon target htarget).1⟩
  . intro target htarget
    exact (hon target htarget).2
  . rintro target ⟨targets', htargets', hmem'⟩ hle
    rw [htargets, Except.ok.injEq] at htargets'
    subst htargets'
    exact hall target hmem' hle
  . cases currentTarget with
    | none =>
      exact hall _ hdescends.atomic hrequested.forward fun _ h => absurd h (Option.not_mem_none _)
    | some cached =>
      refine hall cached (hcached cached rfl) (Nat.le_of_lt (hcovered cached rfl).2) ?_
      rintro cached' ⟨⟩
      exact Nat.le_refl _
  . unfold sizeCanonicalDelta
    dsimp only
    rw [hnew, ok_bind, hfitting, ok_bind]

theorem Records.size_expired
    (hgone : request.selected.sourceRevision < core.history.replayFloorRevision ∨
      request.selected.sourceRevision < core.history.oldestAvailableRevision) :
    ∃ error, sizeCanonicalDelta core.history request currentTarget = .ok (.error error) ∧
      (error = .startBeforeReplayFloor request.selected.sourceRevision
          core.history.replayFloorRevision ∨
        error = .startPruned request.selected.sourceRevision core.history.oldestAvailableRevision) := by
  obtain ⟨_, rest, _, _, _, hsize⟩ := h.size_eq_bind hrequested hcovered
  obtain ⟨error, hfitting, herror⟩ := GraphHistory.fittingRange_eq_error hrequested.forward hgone
  exact ⟨error, by rw [hsize, hfitting, ok_bind]; rfl, herror⟩

theorem Records.last_resort_fits
    (holdest : core.history.oldestAvailableRevision ≤ request.selected.sourceRevision) :
    timeline.cost (currentTarget.getD (request.selected.sourceRevision + 1))
      - timeline.cost request.selected.sourceRevision < softDeltaEstimatedBytes := by
  cases currentTarget with
  | some cached => exact (hcovered cached rfl).1.fits
  | none =>
    have hlt := Nat.lt_of_lt_of_le hrequested.forward
      (Nat.le_trans hrequested.within hrequested.captured.revision_le)
    rw [h.revision] at hlt
    obtain ⟨entry, hentry, hfrom, hto⟩ := h.gapless.exists_entry holdest hlt
    have hmem := List.mem_of_getElem? hentry
    have hestimated := h.estimated entry hmem
    have hreplayable := h.replayable entry hmem
    rw [hfrom, hto] at hestimated
    rw [Option.getD_none]
    omega

theorem Records.fitting_eq_ok {rest : List Nat}
    (hcandidates : Candidates request currentTarget rest)
    (hfloor : core.history.replayFloorRevision ≤ request.selected.sourceRevision)
    (holdest : core.history.oldestAvailableRevision ≤ request.selected.sourceRevision) :
    ∃ target ∈ request.selected.targetRevision :: rest,
      timeline.Reaches request.selected.targetRevision request.selected.sourceRevision target ∧
      (∀ farther ∈ request.selected.targetRevision :: rest, target < farther →
        softDeltaEstimatedBytes
          ≤ timeline.cost farther - timeline.cost request.selected.sourceRevision) ∧
      core.history.fittingRange request.selected.sourceRevision
          (request.selected.targetRevision :: rest)
          (fun estimatedRawBytes => estimatedRawBytes < softDeltaEstimatedBytes)
        = .ok (.ok (some (core.history.fittingTo request.selected.sourceRevision
            request.selected.targetRevision target))) := by
  have hwithin := hrequested.within
  have hle := hrequested.captured.revision_le
  have hrevision := h.revision
  obtain ⟨target, hfound⟩ : ∃ target, (request.selected.targetRevision :: rest).find?
      (fun target => decide (timeline.cost target
        - timeline.cost request.selected.sourceRevision < softDeltaEstimatedBytes)) = some target := by
    rw [← Option.isSome_iff_exists, List.find?_isSome]
    exact ⟨_, hcandidates.last_resort,
      decide_eq_true (h.last_resort_fits hrequested hcovered holdest)⟩
  have hmem := List.mem_of_find?_eq_some hfound
  have hfits := List.find?_some hfound
  rw [decide_eq_true_eq] at hfits
  have htarget : target ≤ request.selected.targetRevision := by
    obtain rfl | htail := List.mem_cons.mp hmem
    . exact Nat.le_refl _
    . exact Nat.le_of_lt ((List.pairwise_cons.mp hcandidates.descending).1 target htail)
  refine ⟨target, hmem, ⟨hcandidates.later target hmem, htarget, hcandidates.onLadder target hmem,
    hfits⟩, ?_, ?_⟩
  . intro farther hfarther hlt
    by_contra hfits'
    have := GraphHistory.le_of_find?_descending hcandidates.descending hfound farther hfarther
      (decide_eq_true (Nat.not_le.mp hfits'))
    omega
  rw [h.gapless.fittingRange_eq_ok h.costed hfloor holdest (by omega) hcandidates.later
    hcandidates.descending, hfound]
  rfl

end Records

theorem Candidates.limited {rest : List Nat} {target : Nat} (h : Candidates request currentTarget rest)
    (hmem : target ∈ request.selected.targetRevision :: rest)
    (hle : target ≤ request.selected.targetRevision) (hshort : target ≠ request.selected.targetRevision)
    (hexceeds : ∀ farther ∈ request.selected.targetRevision :: rest, target < farther →
      softDeltaEstimatedBytes
        ≤ timeline.cost farther - timeline.cost request.selected.sourceRevision) :
    timeline.Limited request.selected.targetRevision request.selected.sourceRevision target := by
  intro farther honLadder hlt
  by_cases hwithin : farther ≤ request.selected.targetRevision
  . have hcandidate := h.complete farther honLadder hwithin fun cached hcached =>
      Nat.le_trans (h.covers target hmem cached hcached) (Nat.le_of_lt hlt)
    exact ⟨farther, Nat.le_refl _, hwithin, hexceeds farther hcandidate hlt⟩
  . exact ⟨request.selected.targetRevision, Nat.le_of_not_le hwithin, Nat.le_refl _,
      hexceeds _ List.mem_cons_self (Nat.lt_of_le_of_ne hle hshort)⟩

theorem Records.size_eq_ok (h : timeline.Records core)
    (hrequested : timeline.Requested core.view.currentRevisionId request)
    (hcovered : timeline.Covered core.view.currentRevisionId request currentTarget)
    (hfloor : core.history.replayFloorRevision ≤ request.selected.sourceRevision)
    (holdest : core.history.oldestAvailableRevision ≤ request.selected.sourceRevision) :
    ∃ value, timeline.Sizes request currentTarget value ∧
      timeline.stamp (request.selected.sourceRevision + 1) ≤ request.head.revisionTimestampMs ∧
      sizeCanonicalDelta core.history request currentTarget
        = .ok (.ok (if deltaCacheMaxAgeMs ≤ request.head.revisionTimestampMs
            - timeline.stamp (request.selected.sourceRevision + 1) then none
          else some ⟨timeline.stamp (request.selected.sourceRevision + 1), value⟩)) := by
  obtain ⟨_, rest, hcandidates, _, _, hsize⟩ := h.size_eq_bind hrequested hcovered
  obtain ⟨target, hmem, hreaches, hexceeds, hfitting⟩ :=
    h.fitting_eq_ok hrequested hcovered hcandidates hfloor holdest
  have hlt := hreaches.forward
  have htarget := hreaches.within
  have hwithin := hrequested.within
  have hle := hrequested.captured.revision_le
  have hrevision := h.revision
  obtain ⟨first, _, hfirst, _, hentry, _, hfrom, hto, _⟩ := h.gapless.fittingTo_entries
    request.selected.targetRevision holdest hlt (by omega)
  have hstamp : first.delta.revisionTimestampMs
      = timeline.stamp (request.selected.sourceRevision + 1) := by
    rw [h.stamped first hentry, hto]
  have hold : timeline.stamp (request.selected.sourceRevision + 1)
      ≤ request.head.revisionTimestampMs := by
    rw [hrequested.captured.stamp]
    exact h.stamp_le _ _ (by omega) hle
  refine ⟨⟨request.selected.sourceRevision, target, target ≠ request.selected.targetRevision⟩,
    ⟨rfl, hreaches, rfl, hcandidates.covers target hmem, ?_⟩, hold, ?_⟩
  . intro hlimited
    exact hcandidates.limited hmem htarget (of_decide_eq_true hlimited) hexceeds
  rw [hsize, hfitting, ok_bind]
  unfold sizeFitting
  dsimp only
  rw [orError_eq_ok.mpr rfl, ok_bind, hfirst, orError_eq_ok.mpr rfl, ok_bind,
    hstamp, ensure_pos hold, ok_bind, h.gapless.estimatedRawBytes_fittingTo h.costed holdest hlt
    (by omega), ok_bind, hfrom]
  split
  . rfl
  . rfl

end Timeline

end Kgi
