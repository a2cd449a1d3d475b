import GraphInspector.ApiCore.Lemmas.Session
import GraphInspector.ApiCore.Lemmas.SizeLimit

/-!
Delivery against the replay floor.
-/

namespace Kgi

open Data

def HeadSnapshotOutcome.revision? : HeadSnapshotOutcome → Option Nat
  | .complete snapshot => some snapshot.revision
  | .notModified etag => some etag.revision
  | .failed _ => none

def DeltaRequest.RespectsFloor (floor : Nat) (request : DeltaRequest) : Prop :=
  ∀ response delta, request = .responded response → delta ∈ response.delta? →
    floor ≤ delta.fromRevisionId

def HeadRequest.RespectsFloor (floor : Nat) (request : HeadRequest) : Prop :=
  ∀ outcome revision, request = .responded outcome → revision ∈ outcome.revision? → floor ≤ revision

theorem DeltaRequest.Serves.respectsFloor {head : GraphDeltaTargetCapture} {interval source : Nat}
    {request : DeltaRequest} (h : request.Serves head interval source) :
    request.RespectsFloor head.replayFloorRevision := by
  rintro response delta rfl hdelta
  obtain ⟨⟨hkeyed, _, _⟩, hfloor⟩ := DeltaAnswer.advances h hdelta
  exact hkeyed ▸ hfloor

namespace GraphPublication

variable {publication publication' publication'' : GraphPublication} {timeline : Timeline}
  {event : PublicationEvent}

def replayFloor (publication : GraphPublication) : Nat :=
  publication.core.history.replayFloorRevision

theorem Sound.moves_respectsFloor (h : Sound timeline publication) {index : Nat}
    {request request' : DeltaRequest} (hrequest : publication.deltaRequests[index]? = some request)
    (hmoves : DeltaMoves publication index event request request') :
    request'.RespectsFloor publication.replayFloor := by
  have hserves {interval source : Nat}
      (hserves : request.Serves publication.captureDeltaTarget interval source) :
      request'.RespectsFloor publication.replayFloor :=
    (h.moves_serves hrequest hmoves hserves).respectsFloor
  cases request with
  | captured head source interval =>
    exact hserves ⟨(h.requests _ (List.mem_of_getElem? hrequest)).1, rfl, rfl⟩
  | responded response => cases hmoves
  | panicked message => cases hmoves
  | _ => exact hserves ⟨rfl, rfl⟩

/--
The answers that are new in `publication'` respect the floor of `publication`.
-/
structure KeepsFloor (publication publication' : GraphPublication) : Prop where
  floor_le : publication.replayFloor ≤ publication'.replayFloor
  deltas : Renewed (DeltaRequest.RespectsFloor publication.replayFloor) publication.deltaRequests
    publication'.deltaRequests
  heads : Renewed (HeadRequest.RespectsFloor publication.replayFloor) publication.headRequests
    publication'.headRequests

theorem KeepsFloor.trans (h : KeepsFloor publication publication')
    (h' : KeepsFloor publication' publication'') : KeepsFloor publication publication'' where
  floor_le := Nat.le_trans h.floor_le h'.floor_le
  deltas := h.deltas.trans h'.deltas fun _ hrespects response delta hresponse hdelta =>
    Nat.le_trans h.floor_le (hrespects response delta hresponse hdelta)
  heads := h.heads.trans h'.heads fun _ hrespects outcome revision houtcome hrevision =>
    Nat.le_trans h.floor_le (hrespects outcome revision houtcome hrevision)

theorem DeltaStep.floor_le (h : DeltaStep publication publication' event) :
    publication.replayFloor ≤ publication'.replayFloor := by
  have hsame (hcore : SameCore publication publication') :
      publication.replayFloor ≤ publication'.replayFloor := by
    unfold replayFloor
    rw [hcore.2.2]
  cases h with
  | governed _ _ hfloor _ => exact hfloor
  | idle hcore _ => exact hsame hcore
  | asked _ _ _ _ hcore _ => exact hsame hcore
  | moved _ _ _ _ _ hcore _ => exact hsame hcore

theorem Sound.step_deltaRequests (h : Sound timeline publication)
    (hstep : publication.step event = some publication') :
    Renewed (DeltaRequest.RespectsFloor publication.replayFloor) publication.deltaRequests
      publication'.deltaRequests := by
  cases h.deltaStep hstep with
  | governed _ _ _ hrequests => exact hrequests ▸ .refl _ _
  | idle _ hrequests => exact hrequests ▸ .refl _ _
  | asked sourceRevision activeInterval client _ _ hrequests =>
    rw [hrequests]
    exact .append (selectDelta_serves client).respectsFloor
  | moved index _ _ hrequest hmoves _ hrequests =>
    rw [hrequests]
    exact .set index (h.moves_respectsFloor hrequest hmoves)

section Heads

theorem pruneDeltas_headRequests (index : Nat) (head : GraphDeltaTargetCapture)
    (sourceRevision activeInterval : Nat) (client : Option Bool) :
    (publication.pruneDeltas index head sourceRevision activeInterval client).headRequests
      = publication.headRequests := by
  unfold GraphPublication.pruneDeltas
  split
  . rfl
  . rfl

theorem lookupDelta_headRequests (index : Nat) (request : CanonicalDeltaRequest) :
    (publication.lookupDelta index request).headRequests = publication.headRequests := by
  unfold GraphPublication.lookupDelta
  split
  all_goals rfl

theorem electDelta_headRequests (index : Nat) (request : CanonicalDeltaRequest)
    (currentTarget : Option Nat) :
    (publication.electDelta index request currentTarget).headRequests = publication.headRequests := by
  unfold GraphPublication.electDelta
  split
  all_goals rfl

theorem admitHead_respectsFloor (depth : Nat) (condition : HeadSnapshotCondition)
    (candidate : CachedHeadSnapshot) :
    (publication.admitHead depth condition candidate).RespectsFloor publication.replayFloor := by
  intro outcome revision houtcome hrevision
  unfold GraphPublication.admitHead at houtcome
  split at houtcome
  . cases houtcome
  . next hfloor =>
    split at houtcome
    . cases houtcome
      cases hrevision
      exact candidate.etag_revision ▸ Nat.not_lt.mp hfloor
    . cases houtcome
      cases hrevision
      exact Nat.not_lt.mp hfloor

theorem lookupHead_renewed (hfloor : publication.replayFloor ≤ publication.core.view.currentRevisionId)
    (index depth : Nat) (condition : HeadSnapshotCondition) (boundary : HeadEligibilityBoundary) :
    Renewed (HeadRequest.RespectsFloor publication.replayFloor) publication.headRequests
      (publication.lookupHead index depth condition boundary).headRequests := by
  unfold GraphPublication.lookupHead
  split
  . refine .set index ?_
    rintro _ _ ⟨⟩
  . refine .set index ?_
    rintro _ _ ⟨⟩
  . refine .set index ?_
    rintro _ _ ⟨⟩
  . refine .set index ?_
    intro outcome revision houtcome hrevision
    cases hextent : publication.headTierExtent depth with
    | error message =>
      rw [hextent] at houtcome
      cases houtcome
    | ok extent =>
      rw [hextent, ok_bind] at houtcome
      dsimp only at houtcome
      split at houtcome
      . cases houtcome
        cases hrevision
        exact hfloor
      . cases houtcome

theorem electHead_renewed (floor index depth : Nat) (condition : HeadSnapshotCondition)
    (boundary : HeadEligibilityBoundary) :
    Renewed (HeadRequest.RespectsFloor floor) publication.headRequests
      (publication.electHead index depth condition boundary).headRequests := by
  unfold GraphPublication.electHead
  split
  . refine .set index ?_
    rintro _ _ ⟨⟩
  . refine .set index ?_
    rintro _ _ ⟨⟩
  . split
    . refine .set index ?_
      rintro _ _ ⟨⟩
    . refine .set index ?_
      rintro _ _ ⟨⟩

theorem resolveHead_respectsFloor (floor : Nat) {depth : Nat} {condition : HeadSnapshotCondition}
    {access : CacheAccess CachedHeadSnapshot} {cancelled : Bool} {request : HeadRequest}
    (h : publication.resolveHead depth condition access cancelled = some request) :
    request.RespectsFloor floor := by
  rintro outcome revision rfl hrevision
  unfold GraphPublication.resolveHead at h
  split at h
  . cases h
  . split at h
    . cases h
    . split at h
      . split at h
        . cases h
          cases hrevision
        . cases h
      . cases h
      . cases h
      . cases h
        cases hrevision

theorem Sound.step_headRequests (h : Sound timeline publication)
    (hstep : publication.step event = some publication') :
    Renewed (HeadRequest.RespectsFloor publication.replayFloor) publication.headRequests
      publication'.headRequests := by
  cases step_cases hstep with
  | update _ hclock hok =>
    obtain ⟨_, _, _, hrequests⟩ := h.applyOriginalUpdate_same hclock hok
    exact hrequests ▸ .refl _ _
  | pruneDeltas => exact pruneDeltas_headRequests .. ▸ .refl _ _
  | lookupDelta => exact lookupDelta_headRequests .. ▸ .refl _ _
  | electDelta => exact electDelta_headRequests .. ▸ .refl _ _
  | requestHead =>
    refine .append ?_
    rintro _ _ ⟨⟩
  | @selectHead index _ _ cancelled =>
    refine .set index ?_
    intro outcome revision houtcome hrevision
    cases cancelled with
    | true =>
      cases houtcome
      cases hrevision
    | false => cases houtcome
  | lookupHead => exact lookupHead_renewed h.records.floor_le _ _ _ _
  | electHead => exact electHead_renewed _ _ _ _ _
  | @resolveHead index _ _ _ _ _ _ hresolve =>
    exact .set index (resolveHead_respectsFloor _ hresolve)
  | @admitHead index => exact .set index (admitHead_respectsFloor _ _ _)
  | finishDelta _ _ hok =>
    obtain ⟨_, _, hok⟩ := bind_eq_ok.mp hok
    exact pure_eq_ok.mp hok ▸ .refl _ _
  | completeDelta _ _ hok =>
    obtain ⟨_, _, hok⟩ := bind_eq_ok.mp hok
    exact pure_eq_ok.mp hok ▸ .refl _ _
  | checkHead _ _ hok =>
    obtain ⟨admitted, _, hok⟩ := bind_eq_ok.mp hok
    cases admitted with
    | true => exact pure_eq_ok.mp hok ▸ .refl _ _
    | false => exact pure_eq_ok.mp hok ▸ .refl _ _
  | recaptureHead _ _ hok =>
    obtain ⟨_, _, hok⟩ := bind_eq_ok.mp hok
    exact pure_eq_ok.mp hok ▸ .refl _ _
  | finishHead _ _ hok =>
    obtain ⟨_, _, hok⟩ := bind_eq_ok.mp hok
    exact pure_eq_ok.mp hok ▸ .refl _ _
  | completeHead _ _ hok =>
    obtain ⟨_, _, hok⟩ := bind_eq_ok.mp hok
    exact pure_eq_ok.mp hok ▸ .refl _ _
  | _ => exact .refl _ _

end Heads

theorem Sound.step_keepsFloor (h : Sound timeline publication)
    (hstep : publication.step event = some publication') : KeepsFloor publication publication' :=
  ⟨(h.deltaStep hstep).floor_le, h.step_deltaRequests hstep, h.step_headRequests hstep⟩

theorem Sound.run_keepsFloor (h : Sound timeline publication) {events : List PublicationEvent}
    (hrun : Data.run GraphPublication.step publication events = some publication') :
    KeepsFloor publication publication' := by
  have hkept : ∀ before event after,
      ((∃ timeline, Sound timeline before) ∧ KeepsFloor publication before) →
      GraphPublication.step before event = some after →
      (∃ timeline, Sound timeline after) ∧ KeepsFloor publication after := by
    rintro before event after ⟨⟨_, hsound⟩, hkeeps⟩ hstep
    obtain ⟨timeline', _, hsound'⟩ := hsound.step hstep
    exact ⟨⟨timeline', hsound'⟩, hkeeps.trans (hsound.step_keepsFloor hstep)⟩
  exact (Data.run.invariant hkept
    ⟨⟨timeline, h⟩, Nat.le_refl _, .refl _ _, .refl _ _⟩ hrun).2

/--
From a state on, over every run, no request is answered with a delta whose source, or with a Head snapshot
whose revision, is below the replay floor of that state.
-/
theorem answers_respect_replay_floor (h : publication.Reachable) {events : List PublicationEvent}
    (hrun : Data.run GraphPublication.step publication events = some publication') :
    (∀ (index : Nat) (response : CanonicalDeltaResponse) (delta : CachedDelta),
      publication'.deltaRequests[index]? = some (.responded response) →
      publication.deltaRequests[index]? ≠ some (.responded response) → delta ∈ response.delta? →
      publication.core.history.replayFloorRevision ≤ delta.fromRevisionId) ∧
    ∀ (index : Nat) (outcome : HeadSnapshotOutcome) (revision : Nat),
      publication'.headRequests[index]? = some (.responded outcome) →
      publication.headRequests[index]? ≠ some (.responded outcome) → revision ∈ outcome.revision? →
      publication.core.history.replayFloorRevision ≤ revision := by
  obtain ⟨timeline, hsound⟩ := h.sound
  have hkeeps := hsound.run_keepsFloor hrun
  constructor
  . intro index response delta hresponse hnew hdelta
    obtain hold | hrespects := hkeeps.deltas index _ hresponse
    . exact absurd hold hnew
    . exact hrespects response delta rfl hdelta
  . intro index outcome revision houtcome hnew hrevision
    obtain hold | hrespects := hkeeps.heads index _ houtcome
    . exact absurd hold hnew
    . exact hrespects outcome revision rfl hrevision

def barrierDelivery : List PublicationEvent :=
  [.update GraphView.smallVspc 20, .selectDelta 1 smallInterval none] ++ service 0

def barrierAnswer : CanonicalDeltaResponse :=
  .success ⟨1, .live, 2, 20, 3, 1⟩ (.complete ⟨1, 2, false⟩) .reachedHead none (some 75)

/--
An update beyond the soft limit raises the replay floor to its revision, and a request from there is then
answered with a delta.
-/
theorem answers_respect_replay_floor_raised :
    ∃ start publication publication' : GraphPublication,
      start.Reachable ∧ start.core.history.replayFloorRevision = 0 ∧
      step start (.update (.block (heavyBlock 698913)) 10) = some publication ∧
      publication.core.history.replayFloorRevision = 1 ∧
      run step publication barrierDelivery = some publication' ∧
      publication'.deltaRequests[0]? = some (.responded barrierAnswer) ∧
      publication.core.history.replayFloorRevision ≤ 1 := by
  have hobserved : (GraphView.smallProjection.toOption.bind fun seed =>
      (AppliedLineageUpdate.apply ⟨seed, .new⟩ (.block (heavyBlock 698913)) 10
        fun _ => 828 + 698913 * blockRelationshipBytes).toOption.bind fun result =>
          (run step (GraphPublication.new 1 .live result.1) barrierDelivery).map fun publication' =>
            (seed, result, publication')).any
      (fun (seed, result, publication') =>
        decide (seed.currentRevisionTimestampMs ≤ 10) &&
        (result.2 == .ok (some ⟨1, some 1⟩)) && (result.1.history.replayFloorRevision == 1 &&
          publication'.deltaRequests[0]? == some (.responded barrierAnswer))) = true := by
    decide +kernel
  rw [Option.any_eq_true] at hobserved
  obtain ⟨⟨seed, ⟨core, outcome⟩, publication'⟩, hrun, hobserved⟩ := hobserved
  simp only [Option.bind_eq_some_iff, Option.map_eq_some_iff, toOption_eq_some] at hrun
  obtain ⟨_, hseed, _, happly, _, hrun', heq⟩ := hrun
  cases heq
  simp only [Bool.and_eq_true, decide_eq_true_eq, beq_iff_eq] at hobserved
  obtain ⟨⟨hclock, houtcome⟩, hfloor, hanswer⟩ := hobserved
  subst houtcome
  rw [← heavy_apply (by decide) hseed] at happly
  have hupdate : (GraphPublication.new 1 .live ⟨seed, .new⟩).applyOriginalUpdate
      (.block (heavyBlock 698913)) 10 = .ok (.new 1 .live core) := by
    unfold applyOriginalUpdate
    rw [ensure_pos (by nofun), ok_bind]
    exact congrArg (· >>= _) happly
  have hstep : step (.new 1 .live ⟨seed, .new⟩) (.update (.block (heavyBlock 698913)) 10)
      = some (.new 1 .live core) := by
    unfold step
    dsimp only
    rw [if_pos ⟨rfl, hclock⟩, hupdate]
    rfl
  have hlineage := lineage_smallProjection hseed
  have hreachable : (GraphPublication.new 1 .live core).Reachable :=
    ⟨1, .live, _, [.update (.block (heavyBlock 698913)) 10], hlineage,
      run.cons_eq_some.mpr ⟨_, hstep, rfl⟩⟩
  exact ⟨_, _, publication', ⟨1, .live, _, [], hlineage, rfl⟩, rfl, hstep, hfloor, hrun', hanswer,
    (answers_respect_replay_floor hreachable hrun').1 0 barrierAnswer ⟨1, 2, false⟩ hanswer (by nofun) rfl⟩

end GraphPublication

end Kgi
