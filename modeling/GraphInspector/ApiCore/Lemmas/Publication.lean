import GraphInspector.ApiCore.Lemmas.Cache
import GraphInspector.ApiCore.Lemmas.Sizing

/-!
Every slot, job and canonical-delta request of a publication stays within the record of its revisions.
-/

namespace Kgi

open Data

variable {request : CanonicalDeltaRequest} {slot : DeltaCacheSlot} {index : Nat} {job : DeltaJob}

structure Timeline.Delivers (timeline : Timeline) (revision source : Nat) (value : CachedDelta) :
    Prop where
  keyed : value.fromRevisionId = source
  reaches : timeline.Reaches revision source value.toRevisionId
  limited : value.sizeLimited = true → timeline.Limited revision source value.toRevisionId

theorem Timeline.Delivers.mono {timeline timeline' : Timeline} {revision revision' source : Nat}
    {value : CachedDelta} (h : timeline.Delivers revision source value) (hle : revision ≤ revision')
    (hextends : Extends timeline timeline' revision) :
    timeline'.Delivers revision' source value where
  keyed := h.keyed
  reaches := h.reaches.mono hle hextends
  limited := fun hlimited => (h.limited hlimited).mono
    (Nat.le_trans (Nat.le_of_lt h.reaches.forward) h.reaches.within) hle hextends

def JobFor (jobs : List DeltaJob) (index source : Nat) : Prop :=
  ∃ job, jobs[index]? = some job ∧ job.sourceRevision = source

def JobsKept (jobs jobs' : List DeltaJob) : Prop :=
  ∀ index source, JobFor jobs index source → JobFor jobs' index source

namespace JobsKept

variable {jobs : List DeltaJob}

theorem refl (jobs : List DeltaJob) : JobsKept jobs jobs :=
  fun _ _ h => h

theorem append (jobs : List DeltaJob) (job : DeltaJob) : JobsKept jobs (jobs ++ [job]) := by
  rintro index source ⟨job', hjob', hsource⟩
  refine ⟨job', ?_, hsource⟩
  rw [List.getElem?_append_left (List.getElem?_eq_some_iff.mp hjob').1]
  exact hjob'

theorem set {job job' : DeltaJob} (hjob : jobs[index]? = some job)
    (hsource : job'.sourceRevision = job.sourceRevision) : JobsKept jobs (jobs.set index job') := by
  rintro index' source ⟨job'', hjob'', hsource'⟩
  by_cases hindex : index = index'
  . subst hindex
    rw [hjob, Option.some.injEq] at hjob''
    subst hjob''
    refine ⟨job', ?_, hsource.trans hsource'⟩
    rw [List.getElem?_set_self (List.getElem?_eq_some_iff.mp hjob).1]
  . refine ⟨job'', ?_, hsource'⟩
    rw [List.getElem?_set_ne hindex]
    exact hjob''

end JobsKept

structure DeltaJob.Sound (timeline : Timeline) (revision : Nat) (job : DeltaJob) : Prop where
  value : timeline.Delivers revision job.sourceRevision job.value
  state : ∀ value, job.state = .complete (.ok value) → value = job.value
  task : ∀ value, job.task = .installed (.ok value) → value = job.value

structure DeltaCacheSlot.Sound (timeline : Timeline) (revision : Nat) (jobs : List DeltaJob)
    (source : Nat) (slot : DeltaCacheSlot) : Prop where
  within : source < revision
  stamp : slot.firstRevisionTimestampMs = timeline.stamp (source + 1)
  completed : ∀ value ∈ slot.completed, timeline.Delivers revision source value
  running : ∀ running ∈ slot.running, JobFor jobs running.job source

structure CanonicalDeltaRequest.Sound (timeline : Timeline) (capture : GraphDeltaTargetCapture)
    (request : CanonicalDeltaRequest) : Prop where
  requested : timeline.Requested capture.revision request
  publication : request.head.publicationId = capture.publicationId

def DeltaRequest.Sound (timeline : Timeline) (capture : GraphDeltaTargetCapture)
    (jobs : List DeltaJob) : DeltaRequest → Prop
  | .captured head sourceRevision activeInterval =>
    head = capture ∧ sourceRevision ≤ head.revision ∧ activeInterval ∈ adaptiveDeltaIntervals
  | .lookingUp request reentry =>
    request.Sound timeline capture ∧ (reentry = false → request.head = capture)
  | .sizing request currentTarget =>
    request.Sound timeline capture ∧ timeline.Covered capture.revision request currentTarget
  | .resolving request (.completed value) =>
    request.Sound timeline capture ∧
      timeline.Delivers capture.revision request.selected.sourceRevision value
  | .resolving request (.job job) =>
    request.Sound timeline capture ∧ JobFor jobs job request.selected.sourceRevision
  | .resolved request candidate =>
    request.Sound timeline capture ∧
      timeline.Delivers capture.revision request.selected.sourceRevision candidate
  | .responded _ => True
  | .panicked message => message = "a delta source timestamp does not postdate its publication Head"

section Mono

variable {timeline timeline' : Timeline} {capture capture' : GraphDeltaTargetCapture}
  {revision revision' : Nat} {jobs jobs' : List DeltaJob}

theorem DeltaJob.Sound.mono (h : job.Sound timeline revision) (hle : revision ≤ revision')
    (hextends : Timeline.Extends timeline timeline' revision) :
    job.Sound timeline' revision' :=
  ⟨h.value.mono hle hextends, h.state, h.task⟩

theorem DeltaCacheSlot.Sound.mono {source : Nat} (h : slot.Sound timeline revision jobs source)
    (hle : revision ≤ revision') (hextends : Timeline.Extends timeline timeline' revision)
    (hkept : JobsKept jobs jobs') :
    slot.Sound timeline' revision' jobs' source where
  within := Nat.lt_of_lt_of_le h.within hle
  stamp := h.stamp.trans (hextends _ h.within).1.symm
  completed := fun value hvalue => (h.completed value hvalue).mono hle hextends
  running := fun running hrunning => hkept _ _ (h.running running hrunning)

theorem CanonicalDeltaRequest.Sound.mono (h : request.Sound timeline capture)
    (hle : capture.revision ≤ capture'.revision) (hid : capture'.publicationId = capture.publicationId)
    (hextends : Timeline.Extends timeline timeline' capture.revision) :
    request.Sound timeline' capture' :=
  ⟨h.requested.mono hle hextends, h.publication.trans hid.symm⟩

theorem DeltaRequest.Sound.mono {request : DeltaRequest} (h : request.Sound timeline capture jobs)
    (hfree : request.holdsCore = true → capture' = capture)
    (hle : capture.revision ≤ capture'.revision)
    (hid : capture'.publicationId = capture.publicationId)
    (hextends : Timeline.Extends timeline timeline' capture.revision) (hkept : JobsKept jobs jobs') :
    request.Sound timeline' capture' jobs' := by
  cases request with
  | captured head sourceRevision activeInterval =>
    obtain ⟨hhead, hrest⟩ := h
    exact ⟨hhead.trans (hfree rfl).symm, hrest⟩
  | lookingUp request reentry =>
    obtain ⟨hrequest, hhead⟩ := h
    exact ⟨hrequest.mono hle hid hextends, fun hfalse => (hhead hfalse).trans (hfree rfl).symm⟩
  | sizing request currentTarget => exact ⟨h.1.mono hle hid hextends, h.2.mono hle hextends⟩
  | resolving request access =>
    cases access with
    | completed value => exact ⟨h.1.mono hle hid hextends, h.2.mono hle hextends⟩
    | job job => exact ⟨h.1.mono hle hid hextends, hkept _ _ h.2⟩
  | resolved request candidate => exact ⟨h.1.mono hle hid hextends, h.2.mono hle hextends⟩
  | responded response => trivial
  | panicked message => exact h

end Mono

namespace GraphPublication

variable {publication publication' : GraphPublication} {timeline timeline' : Timeline}
  {sourceRevision activeInterval : Nat} {jobs : List DeltaJob} {head : GraphDeltaTargetCapture}

structure Sound (timeline : Timeline) (publication : GraphPublication) : Prop where
  records : timeline.Records publication.core
  slots : ∀ (source : Nat) (slot : DeltaCacheSlot), publication.cache.deltas[source]? = some slot →
    slot.Sound timeline publication.core.view.currentRevisionId publication.deltaJobs source
  jobs : ∀ job ∈ publication.deltaJobs,
    job.Sound timeline publication.core.view.currentRevisionId
  requests : ∀ request ∈ publication.deltaRequests,
    request.Sound timeline publication.captureDeltaTarget publication.deltaJobs

section Delta

variable {deltas : DeltaCache} (h : Sound timeline publication)
include h

theorem Sound.setDeltaRequest (index : Nat) {request : DeltaRequest}
    (hrequest : request.Sound timeline publication.captureDeltaTarget publication.deltaJobs) :
    Sound timeline (publication.setDeltaRequest index request) where
  records := h.records
  slots := h.slots
  jobs := h.jobs
  requests := by
    intro request' hmem
    obtain hmem | rfl := List.mem_or_eq_of_mem_set hmem
    . exact h.requests request' hmem
    . exact hrequest

theorem Sound.setDeltas
    (hslots : ∀ (source : Nat) (slot : DeltaCacheSlot), deltas[source]? = some slot →
      slot.Sound timeline publication.core.view.currentRevisionId publication.deltaJobs source) :
    Sound timeline (publication.setDeltas deltas) :=
  ⟨h.records, hslots, h.jobs, h.requests⟩

theorem Sound.setDeltas_within (hwithin : deltas.Within publication.cache.deltas) :
    Sound timeline (publication.setDeltas deltas) :=
  h.setDeltas fun source slot hslot => h.slots source slot (hwithin source slot hslot)

theorem Sound.chronological : publication.cache.deltas.Chronological := by
  intro source source' slot slot' hslot hslot' hle
  have hsound := h.slots source slot hslot
  have hsound' := h.slots source' slot' hslot'
  rw [hsound.stamp, hsound'.stamp]
  exact h.records.stamp_le _ _ (by omega) hsound'.within

theorem Sound.not_postdates :
    ¬publication.cache.deltas.Postdates publication.captureDeltaTarget.revisionTimestampMs := by
  rintro ⟨first, last, hfirst, hlast, hlater⟩
  have hle : ∀ entry ∈ publication.cache.deltas.toList, entry.2.firstRevisionTimestampMs
      ≤ publication.captureDeltaTarget.revisionTimestampMs := by
    intro entry hentry
    have hsound := h.slots entry.1 entry.2 ((Map.mem_toList _ _ _).mp hentry)
    rw [hsound.stamp]
    exact (h.records.stamp_le _ _ hsound.within (Nat.le_refl _)).trans_eq h.records.stamp_current
  have := hle first (List.mem_of_head? hfirst)
  have := hle last (List.mem_of_getLast? hlast)
  omega

theorem Sound.captured :
    timeline.Captured publication.core.view.currentRevisionId publication.captureDeltaTarget :=
  ⟨Nat.le_refl _, h.records.stamp_current.symm⟩

end Delta

inductive Selects (head : GraphDeltaTargetCapture) (sourceRevision activeInterval : Nat)
    (client : Option Bool) : DeltaRequest → Prop where
  | upToDate (response : CanonicalDeltaResponse) (hsource : sourceRevision = head.revision)
      (hresponse : completeDeltaSuccess head .upToDate sourceRevision client activeInterval
        = .ok response) :
      Selects head sourceRevision activeInterval client (.responded response)
  | barrier (hsource : sourceRevision < head.replayFloorRevision) :
      Selects head sourceRevision activeInterval client
        (.responded (.freshViewRequired .deltaReplayBarrier))
  | waiting (response : CanonicalDeltaResponse) (targets : List Nat) (boundary : Nat)
      (hsource : sourceRevision < head.revision) (hfloor : head.replayFloorRevision ≤ sourceRevision)
      (htargets : DeltaTargetLadder.targetBoundaries sourceRevision = .ok targets)
      (hdescends : DeltaTargetLadder.Descends sourceRevision targets)
      (hnearest : DeltaTargetLadder.Nearest head.state activeInterval sourceRevision targets boundary)
      (hahead : head.revision < boundary)
      (hresponse : completeDeltaSuccess head .waitForWakeup sourceRevision client activeInterval
        = .ok response) :
      Selects head sourceRevision activeInterval client (.responded response)
  | selected (targets : List Nat) (target : Nat) (hsource : sourceRevision < head.revision)
      (htargets : DeltaTargetLadder.targetBoundaries sourceRevision = .ok targets)
      (hdescends : DeltaTargetLadder.Descends sourceRevision targets)
      (hmem : target ∈ targets) (hle : target ≤ head.revision) :
      Selects head sourceRevision activeInterval client
        (.lookingUp ⟨head, ⟨sourceRevision, target⟩, activeInterval⟩ false)

theorem selectTarget_eq_ok (client : Option Bool) (hsource : sourceRevision ≤ head.revision)
    (hroom : head.revision + 128 ≤ u64Max) (hinterval : activeInterval ∈ adaptiveDeltaIntervals) :
    ∃ request, selectTarget head sourceRevision activeInterval client = .ok request ∧
      Selects head sourceRevision activeInterval client request := by
  unfold selectTarget
  by_cases hcurrent : sourceRevision = head.revision
  . obtain ⟨_, _, _, hresponse⟩ := completeDeltaSuccess_eq_ok .upToDate client hsource hroom hinterval
    rw [if_pos hcurrent, hresponse, ok_bind]
    exact ⟨_, rfl, .upToDate _ hcurrent hresponse⟩
  . rw [if_neg hcurrent]
    by_cases hfloor : sourceRevision < head.replayFloorRevision
    . rw [if_pos hfloor]
      exact ⟨_, rfl, .barrier hfloor⟩
    . rw [if_neg hfloor]
      obtain ⟨successor, more, htargets, hdescends, _⟩ := DeltaTargetLadder.targetBoundaries_eq_ok
        (show sourceRevision + 128 ≤ u64Max by omega)
      obtain ⟨boundary, hnearest⟩ := DeltaTargetLadder.exists_nearest head.state activeInterval
        sourceRevision successor more
      rw [DeltaTargetLadder.new_eq_ok (by omega) hinterval htargets, ok_bind]
      by_cases hreached : boundary ≤ head.revision
      . obtain ⟨target, hselect, hmem, hle⟩ := DeltaTargetLadder.select_range hnearest hreached
        rw [hselect, ok_bind]
        exact ⟨_, rfl, .selected _ target (by omega) htargets hdescends hmem hle⟩
      . obtain ⟨_, _, _, hresponse⟩ :=
          completeDeltaSuccess_eq_ok .waitForWakeup client hsource hroom hinterval
        rw [DeltaTargetLadder.select_wait hnearest (by omega), ok_bind]
        rw [hresponse, ok_bind]
        exact ⟨_, rfl, .waiting _ _ boundary (by omega) (by omega) htargets hdescends hnearest
          (by omega) hresponse⟩

theorem Selects.sound {client : Option Bool} {request : DeltaRequest} (h : Sound timeline publication)
    (hinterval : activeInterval ∈ adaptiveDeltaIntervals)
    (hselects : Selects publication.captureDeltaTarget sourceRevision activeInterval client request) :
    request.Sound timeline publication.captureDeltaTarget publication.deltaJobs := by
  cases hselects with
  | upToDate => trivial
  | barrier => trivial
  | waiting => trivial
  | selected targets target hsource htargets hdescends hmem hle =>
    refine ⟨⟨⟨h.captured, hdescends.later target hmem, hle, ⟨targets, htargets, hmem⟩, hinterval⟩,
      rfl⟩, fun _ => rfl⟩

section Prune

variable (h : Sound timeline publication) (index : Nat) (client : Option Bool)
variable (hrequest : (DeltaRequest.captured head sourceRevision activeInterval).Sound timeline
  publication.captureDeltaTarget publication.deltaJobs)
include h hrequest

theorem Sound.pruneDeltas_eq :
    ∃ deltas request, publication.pruneDeltas index head sourceRevision activeInterval client
        = (publication.setDeltas deltas).setDeltaRequest index request ∧
      deltas.Within publication.cache.deltas ∧
      Selects head sourceRevision activeInterval client request := by
  obtain ⟨rfl, hsource, hinterval⟩ := hrequest
  obtain ⟨deltas, hdeltas, _⟩ := h.chronological.pruneExpired_eq_ok h.not_postdates
  obtain ⟨request, hrequest, hselects⟩ := selectTarget_eq_ok client hsource h.records.headroom hinterval
  refine ⟨deltas, request, ?_, DeltaCache.pruneExpired_within hdeltas, hselects⟩
  unfold GraphPublication.pruneDeltas
  rw [hdeltas]
  rw [hrequest]
  rfl

theorem Sound.pruneDeltas :
    Sound timeline (publication.pruneDeltas index head sourceRevision activeInterval client) := by
  obtain ⟨deltas, request, heq, hwithin, hselects⟩ := h.pruneDeltas_eq index client hrequest
  obtain ⟨rfl, _, hinterval⟩ := hrequest
  have hsound := hselects.sound h hinterval
  rw [heq]
  exact (h.setDeltas_within hwithin).setDeltaRequest index hsound

end Prune

theorem Sound.lookupDelta (h : Sound timeline publication) (index : Nat)
    (hrequest : request.Sound timeline publication.captureDeltaTarget) :
    Sound timeline (publication.lookupDelta index request) := by
  unfold GraphPublication.lookupDelta
  split
  . next message hlookup =>
    apply h.setDeltaRequest
    rw [DeltaCache.lookup_eq_error] at hlookup
    -- pruning panics only where a slot postdates the captured Head
    by_cases hpostdates : publication.cache.deltas.Postdates request.head.revisionTimestampMs
    . rw [DeltaCache.pruneExpired_eq_error hpostdates, Except.error.injEq] at hlookup
      exact hlookup.symm
    . obtain ⟨deltas, hdeltas, _⟩ := h.chronological.pruneExpired_eq_ok hpostdates
      rw [hdeltas] at hlookup
      cases hlookup
  . next deltas value hlookup =>
    obtain ⟨hwithin, hfinds⟩ := DeltaCache.lookup_eq_ok hlookup
    apply (h.setDeltas_within hwithin).setDeltaRequest
    cases hfinds with
    | completed slot value hslot hvalue hadequate =>
      exact ⟨hrequest, (h.slots _ slot (hwithin _ slot hslot)).completed value hvalue⟩
  . next deltas job hlookup =>
    obtain ⟨hwithin, hfinds⟩ := DeltaCache.lookup_eq_ok hlookup
    apply (h.setDeltas_within hwithin).setDeltaRequest
    cases hfinds with
    | running slot running hslot hrunning =>
      exact ⟨hrequest, (h.slots _ slot (hwithin _ slot hslot)).running running hrunning⟩
  . next deltas currentTarget hlookup =>
    obtain ⟨hwithin, hfinds⟩ := DeltaCache.lookup_eq_ok hlookup
    apply (h.setDeltas_within hwithin).setDeltaRequest
    refine ⟨hrequest, ?_⟩
    cases hfinds with
    | absent hslot =>
      intro target htarget
      cases htarget
    | short slot hslot hshort =>
      intro target htarget
      rw [Option.mem_def, Option.map_eq_some_iff] at htarget
      obtain ⟨value, hvalue, rfl⟩ := htarget
      refine ⟨((h.slots _ slot (hwithin _ slot hslot)).completed value hvalue).reaches, ?_⟩
      -- an adequate value would have been returned
      have hinadequate := hshort value hvalue
      unfold CachedDelta.isAdequateFor at hinadequate
      rw [Bool.or_eq_false_iff, decide_eq_false_iff_not] at hinadequate
      omega

theorem Sound.insert_slot (h : Sound timeline publication) {source : Nat}
    (hkept : JobsKept publication.deltaJobs jobs)
    (hslot : slot.Sound timeline publication.core.view.currentRevisionId jobs source) (source' : Nat)
    (slot' : DeltaCacheSlot)
    (hget : (publication.cache.deltas.insert source slot)[source']? = some slot') :
    slot'.Sound timeline publication.core.view.currentRevisionId jobs source' := by
  rw [Map.get_insert] at hget
  split at hget
  . next heq =>
    cases hget
    exact heq ▸ hslot
  . exact (h.slots source' slot' hget).mono (Nat.le_refl _) (Timeline.Extends.refl _ _) hkept

theorem jobFor_length (jobs : List DeltaJob) (job : DeltaJob) :
    JobFor (jobs ++ [job]) jobs.length job.sourceRevision :=
  ⟨job, List.getElem?_concat_length, rfl⟩

section Elect

variable (h : Sound timeline publication) (index : Nat)
variable (hrequest : request.Sound timeline publication.captureDeltaTarget)
include h hrequest

theorem Sound.elected {value : CachedDelta}
    (hvalue : timeline.Delivers publication.core.view.currentRevisionId
      request.selected.sourceRevision value)
    (hslot : slot.Sound timeline publication.core.view.currentRevisionId
      (publication.deltaJobs ++ [DeltaJob.pending request.selected.sourceRevision value])
      request.selected.sourceRevision) :
    Sound timeline ({ publication.setDeltas (publication.cache.deltas.insert
        request.selected.sourceRevision slot) with
      deltaJobs := publication.deltaJobs ++
        [DeltaJob.pending request.selected.sourceRevision value] }.setDeltaRequest index
          (.resolving request (.job publication.deltaJobs.length))) := by
  have hkept := JobsKept.append publication.deltaJobs
    (.pending request.selected.sourceRevision value)
  constructor
  case records => exact h.records
  case slots => exact h.insert_slot hkept hslot
  case jobs =>
    intro job hjob
    obtain hjob | hjob := List.mem_append.mp hjob
    . exact h.jobs job hjob
    . rw [List.mem_singleton] at hjob
      subst hjob
      refine ⟨hvalue, ?_, ?_⟩
      . intro value' hstate
        cases hstate
      . intro value' htask
        cases htask
  case requests =>
    intro request' hmem
    obtain hmem | rfl := List.mem_or_eq_of_mem_set hmem
    . exact (h.requests request' hmem).mono (fun _ => rfl) (Nat.le_refl _) rfl
        (Timeline.Extends.refl _ _) hkept
    . exact ⟨hrequest, jobFor_length _ _⟩

theorem Sound.electDelta {currentTarget : Option Nat}
    (hcovered : timeline.Covered publication.core.view.currentRevisionId request currentTarget) :
    Sound timeline (publication.electDelta index request currentTarget) := by
  have hrequested := hrequest.requested
  have hwithin : request.selected.sourceRevision < publication.core.view.currentRevisionId :=
    Nat.lt_of_lt_of_le hrequested.forward
      (Nat.le_trans hrequested.within hrequested.captured.revision_le)
  unfold GraphPublication.electDelta
  by_cases hgone : request.selected.sourceRevision < publication.core.history.replayFloorRevision ∨
      request.selected.sourceRevision < publication.core.history.oldestAvailableRevision
  . obtain ⟨error, hsize, herror⟩ := h.records.size_expired hrequested hcovered hgone
    rw [hsize]
    obtain rfl | rfl := herror
    . exact h.setDeltaRequest index trivial
    . exact h.setDeltaRequest index trivial
  . rw [not_or, Nat.not_lt, Nat.not_lt] at hgone
    obtain ⟨value, hsizes, hold, hsize⟩ := h.records.size_eq_ok hrequested hcovered hgone.1 hgone.2
    rw [hsize]
    by_cases hexpired : deltaCacheMaxAgeMs ≤ request.head.revisionTimestampMs
        - timeline.stamp (request.selected.sourceRevision + 1)
    . rw [if_pos hexpired]
      exact h.setDeltaRequest index trivial
    . rw [if_neg hexpired]
      have hvalue : timeline.Delivers publication.core.view.currentRevisionId
          request.selected.sourceRevision value :=
        (Timeline.Delivers.mk hsizes.source hsizes.reaches hsizes.limited).mono
          (Nat.le_trans hrequested.within hrequested.captured.revision_le)
          (Timeline.Extends.refl _ _)
      dsimp only
      have helects := DeltaCache.elects_elect publication.cache.deltas
        request.selected.sourceRevision (timeline.stamp (request.selected.sourceRevision + 1))
        value.toRevisionId value.sizeLimited publication.deltaJobs.length
      generalize DeltaCache.elect _ _ _ _ _ _ = elected at helects ⊢
      cases helects with
      | reclassified slot completed hslot hcompleted hlimited htarget =>
        have hsound := h.slots _ slot hslot
        have hold := hsound.completed completed hcompleted
        have hdelivers : timeline.Delivers publication.core.view.currentRevisionId
            request.selected.sourceRevision { completed with sizeLimited := true } :=
          ⟨hold.keyed, hold.reaches, fun _ => htarget ▸ hvalue.limited hlimited⟩
        refine (h.setDeltas (h.insert_slot (JobsKept.refl _) ?_)).setDeltaRequest index
          ⟨hrequest, hdelivers⟩
        refine ⟨hsound.within, hsound.stamp, ?_, hsound.running⟩
        rintro value' ⟨⟩
        exact hdelivers
      | completed slot completed hslot hcompleted =>
        exact (h.setDeltas h.slots).setDeltaRequest index
          ⟨hrequest, (h.slots _ slot hslot).completed completed hcompleted⟩
      | running slot running hslot hrunning =>
        exact (h.setDeltas h.slots).setDeltaRequest index
          ⟨hrequest, (h.slots _ slot hslot).running running hrunning⟩
      | extended slot hslot hrunning =>
        have hsound := (h.slots _ slot hslot).mono (Nat.le_refl _) (Timeline.Extends.refl _ _)
          (JobsKept.append publication.deltaJobs
            (.pending request.selected.sourceRevision value))
        apply h.elected index hrequest hvalue
        refine ⟨hsound.within, hsound.stamp, hsound.completed, ?_⟩
        rintro running ⟨⟩
        exact jobFor_length _ _
      | opened hslot =>
        apply h.elected index hrequest hvalue
        refine ⟨hwithin, rfl, ?_, ?_⟩
        . rintro value' ⟨⟩
        . rintro running ⟨⟩
          exact jobFor_length _ _

end Elect

theorem Sound.resolveDelta (h : Sound timeline publication) {access : CacheAccess CachedDelta}
    {cancelled : Bool} {request' : DeltaRequest}
    (hrequest : (DeltaRequest.resolving request access).Sound timeline publication.captureDeltaTarget
      publication.deltaJobs)
    (hresolve : publication.resolveDelta request access cancelled = some request') :
    request'.Sound timeline publication.captureDeltaTarget publication.deltaJobs := by
  unfold GraphPublication.resolveDelta at hresolve
  cases access with
  | completed value =>
    cases hresolve
    exact hrequest
  | job index =>
    obtain ⟨hrequest, job, hjob, hsource⟩ := hrequest
    dsimp only at hresolve
    rw [hjob] at hresolve
    have hsound := h.jobs job (List.mem_of_getElem? hjob)
    dsimp only at hresolve
    cases hstate : job.state with
    | pending =>
      rw [hstate] at hresolve
      dsimp only [CacheJobState.outcome] at hresolve
      split at hresolve
      . cases hresolve
        trivial
      . cases hresolve
    | complete result =>
      rw [hstate] at hresolve
      cases result with
      | error error =>
        cases hresolve
        trivial
      | ok value =>
        cases hresolve
        have heq := hsound.state value hstate
        subst heq
        exact ⟨hrequest, hsource ▸ hsound.value⟩
    | invalidatedByReplayFloor replayFloorRevision =>
      rw [hstate] at hresolve
      cases hresolve
      trivial

inductive Admits (publication : GraphPublication) (candidate : CachedDelta) (activeInterval : Nat)
    (client : Option Bool) : CanonicalDeltaResponse → Prop where
  | rejected (hfloor : candidate.fromRevisionId < publication.core.history.replayFloorRevision) :
      Admits publication candidate activeInterval client (.freshViewRequired .deltaReplayBarrier)
  | admitted (outcome : CanonicalDeltaSuccess) (response : CanonicalDeltaResponse)
      (hfloor : publication.core.history.replayFloorRevision ≤ candidate.fromRevisionId)
      (houtcome : outcome = .complete candidate ∨ outcome = .partialPrefix candidate)
      (hresponse : completeDeltaSuccess publication.captureDeltaTarget outcome
        candidate.toRevisionId client activeInterval = .ok response) :
      Admits publication candidate activeInterval client response

theorem Sound.admitCachedDelta_eq_ok (h : Sound timeline publication) {candidate : CachedDelta}
    {source activeInterval : Nat} (client : Option Bool)
    (hdelivers : timeline.Delivers publication.core.view.currentRevisionId source candidate)
    (hinterval : activeInterval ∈ adaptiveDeltaIntervals) :
    ∃ response, publication.admitCachedDelta candidate activeInterval client = .ok response ∧
      Admits publication candidate activeInterval client response := by
  have hwithin : candidate.toRevisionId ≤ publication.captureDeltaTarget.revision :=
    hdelivers.reaches.within
  unfold admitCachedDelta
  dsimp only
  rw [ensure_pos hwithin, ok_bind]
  by_cases hfloor : candidate.fromRevisionId < publication.captureDeltaTarget.replayFloorRevision
  . rw [if_pos hfloor]
    exact ⟨_, rfl, .rejected hfloor⟩
  . rw [if_neg hfloor]
    obtain ⟨_, _, _, hresponse⟩ := completeDeltaSuccess_eq_ok
      (if candidate.toRevisionId = publication.captureDeltaTarget.revision then
        .complete candidate else .partialPrefix candidate) client hwithin h.records.headroom hinterval
    refine ⟨_, hresponse, .admitted _ _ (Nat.not_lt.mp hfloor) ?_ hresponse⟩
    split
    . exact Or.inl rfl
    . exact Or.inr rfl

theorem Sound.reenterDelta_eq_ok (hrequest : request.Sound timeline publication.captureDeltaTarget) :
    publication.reenterDelta request = .ok (.lookingUp request true) := by
  have hrequested := hrequest.requested
  have hid : request.head.publicationId = publication.publicationId := hrequest.publication
  have hrevision : request.head.revision ≤ publication.core.view.currentRevisionId :=
    hrequested.captured.revision_le
  unfold reenterDelta
  rw [ensure_pos hid, ok_bind, ensure_pos hrequested.forward, ok_bind, ensure_pos hrequested.within,
    ok_bind, ensure_pos hrevision, ok_bind]
  rfl

variable {replayFloorRevision : Nat} (h : Sound timeline publication)
include h

theorem Sound.deliverDelta {candidate : CachedDelta} (client : Option Bool)
    (hrequest : (DeltaRequest.resolved request candidate).Sound timeline
      publication.captureDeltaTarget publication.deltaJobs) :
    (publication.deliverDelta request candidate client).Sound timeline
      publication.captureDeltaTarget publication.deltaJobs := by
  obtain ⟨hrequest, hdelivers⟩ := hrequest
  unfold GraphPublication.deliverDelta
  split
  . obtain ⟨response, hresponse, _⟩ :=
      h.admitCachedDelta_eq_ok client hdelivers hrequest.requested.interval
    rw [hresponse]
    trivial
  . rw [Sound.reenterDelta_eq_ok hrequest]
    refine ⟨hrequest, ?_⟩
    intro hfalse
    cases hfalse

theorem Sound.setDeltaJob {job job' : DeltaJob} (hjob : publication.deltaJobs[index]? = some job)
    (hsource : job'.sourceRevision = job.sourceRevision)
    (hsound : job'.Sound timeline publication.core.view.currentRevisionId) :
    Sound timeline { publication with deltaJobs := publication.deltaJobs.set index job' } := by
  have hkept := JobsKept.set hjob hsource
  constructor
  case records => exact h.records
  case slots =>
    intro source slot hslot
    exact (h.slots source slot hslot).mono (Nat.le_refl _) (Timeline.Extends.refl _ _) hkept
  case jobs =>
    intro job'' hmem
    obtain hmem | rfl := List.mem_or_eq_of_mem_set hmem
    . exact h.jobs job'' hmem
    . exact hsound
  case requests =>
    intro request hmem
    exact (h.requests request hmem).mono (fun _ => rfl) (Nat.le_refl _) rfl
      (Timeline.Extends.refl _ _) hkept

theorem Sound.finishDelta {failure : Option CacheBuildError}
    (hjob : publication.deltaJobs[index]? = some job)
    (hfinish : publication.finishDelta index job (buildResult job failure) = .ok publication') :
    Sound timeline publication' := by
  have hsound := h.jobs job (List.mem_of_getElem? hjob)
  have hresult : ∀ value, buildResult job failure = .ok value → value = job.value := by
    intro value hvalue
    unfold buildResult at hvalue
    split at hvalue
    . cases hvalue
      rfl
    . cases hvalue
  obtain ⟨deltas, hdeltas, hfinish⟩ := bind_eq_ok.mp hfinish
  rw [pure_eq_ok] at hfinish
  subst hfinish
  have hslots : ∀ (source : Nat) (slot : DeltaCacheSlot), deltas[source]? = some slot →
      slot.Sound timeline publication.core.view.currentRevisionId publication.deltaJobs source := by
    cases DeltaCache.finish_eq_ok hdeltas with
    | detached => exact h.slots
    | removed =>
      intro source slot hslot
      rw [Map.get_erase] at hslot
      split at hslot
      . cases hslot
      . exact h.slots source slot hslot
    | installed slot _ value hslot _ _ hvalue =>
      have hold := h.slots _ slot hslot
      apply h.insert_slot (JobsKept.refl _)
      refine ⟨hold.within, hold.stamp, ?_, ?_⟩
      . rintro value' ⟨⟩
        obtain hvalue | ⟨hvalue, _⟩ := hvalue
        . exact hold.completed value hvalue
        . rw [hresult value hvalue]
          exact hsound.value
      . rintro running ⟨⟩
  refine (h.setDeltas hslots).setDeltaJob hjob rfl ⟨hsound.value, hsound.state, ?_⟩
  intro value htask
  exact hresult value (DeltaJobTask.installed.inj htask)

theorem Sound.completeDelta {result : Except CacheBuildError CachedDelta}
    (hjob : publication.deltaJobs[index]? = some job) (htask : job.task = .installed result)
    (hcomplete : publication.completeDelta index job result = .ok publication') :
    Sound timeline publication' := by
  have hsound := h.jobs job (List.mem_of_getElem? hjob)
  obtain ⟨state, hstate, hcomplete⟩ := bind_eq_ok.mp hcomplete
  rw [pure_eq_ok] at hcomplete
  subst hcomplete
  refine h.setDeltaJob hjob rfl ⟨hsound.value, ?_, ?_⟩
  . intro value hvalue
    subst hvalue
    unfold CacheJobState.finish at hstate
    split at hstate
    . rw [pure_eq_ok, CacheJobState.complete.injEq] at hstate
      subst hstate
      exact hsound.task value htask
    . cases hstate
    . cases hstate
  . intro value hvalue
    cases hvalue

theorem Sound.invalidateDeltaJob {index : Nat}
    (hjobs : invalidateDeltaJob replayFloorRevision publication.deltaJobs index = .ok jobs) :
    Sound timeline { publication with deltaJobs := jobs } := by
  obtain ⟨job, hjob, hjobs⟩ := bind_eq_ok.mp hjobs
  obtain ⟨state, hstate, hjobs⟩ := bind_eq_ok.mp hjobs
  rw [orError_eq_ok] at hjob
  rw [pure_eq_ok] at hjobs
  subst hjobs
  have hsound := h.jobs job (List.mem_of_getElem? hjob)
  refine h.setDeltaJob hjob rfl ⟨hsound.value, ?_, hsound.task⟩
  intro value hvalue
  subst hvalue
  unfold CacheJobState.invalidateByReplayFloor at hstate
  split at hstate
  . cases hstate
  . cases hstate
  . cases hstate

theorem Sound.invalidateDeltaJobs {indexes : List Nat}
    (hjobs : indexes.foldlM (GraphPublication.invalidateDeltaJob replayFloorRevision)
      publication.deltaJobs = .ok jobs) :
    Sound timeline { publication with deltaJobs := jobs } := by
  induction indexes generalizing publication with
  | nil =>
    rw [List.foldlM_nil, pure_eq_ok] at hjobs
    subst hjobs
    exact h
  | cons index indexes ih =>
    rw [List.foldlM_cons] at hjobs
    obtain ⟨next, hnext, hjobs⟩ := bind_eq_ok.mp hjobs
    have hsound := h.invalidateDeltaJob hnext
    have hdone := ih hsound hjobs
    exact hdone

theorem Sound.invalidateReplayFloor
    (hok : publication.invalidateReplayFloor replayFloorRevision = .ok publication') :
    Sound timeline publication' := by
  obtain ⟨deltaJobs, hjobs, hok⟩ := bind_eq_ok.mp hok
  obtain ⟨headJobs, _, hok⟩ := bind_eq_ok.mp hok
  rw [pure_eq_ok] at hok
  subst hok
  have hinvalidated := (h.setDeltas_within
    (DeltaCache.Within.filter _ fun source _ => replayFloorRevision ≤ source)).invalidateDeltaJobs hjobs
  exact ⟨hinvalidated.records, hinvalidated.slots, hinvalidated.jobs, hinvalidated.requests⟩

theorem Sound.advance (hfree : publication.coreIsFree = true) (state : GraphPublicationState)
    {core : GraphPublicationCore} (hrecords : timeline'.Records core)
    (hle : publication.core.view.currentRevisionId ≤ core.view.currentRevisionId)
    (hextends : Timeline.Extends timeline timeline' publication.core.view.currentRevisionId) :
    Sound timeline' { publication with state := state, core := core } where
  records := hrecords
  slots := fun source slot hslot =>
    (h.slots source slot hslot).mono hle hextends (JobsKept.refl _)
  jobs := fun job hjob => (h.jobs job hjob).mono hle hextends
  requests := by
    intro request hmem
    refine (h.requests request hmem).mono ?_ hle rfl hextends (JobsKept.refl _)
    intro hholds
    unfold coreIsFree at hfree
    rw [Bool.and_eq_true, List.all_eq_true] at hfree
    have := hfree.1 request hmem
    rw [hholds] at this
    cases this

theorem Sound.applyOriginalUpdate (hfree : publication.coreIsFree = true) {update : OriginalUpdate}
    {revisionTimestampMs : Nat}
    (hclock : publication.core.view.currentRevisionTimestampMs ≤ revisionTimestampMs)
    (hok : publication.applyOriginalUpdate update revisionTimestampMs = .ok publication') :
    ∃ timeline', Timeline.Extends timeline timeline' publication.core.view.currentRevisionId ∧
      Sound timeline' publication' := by
  obtain ⟨_, _, hok⟩ := bind_eq_ok.mp hok
  obtain ⟨⟨core, outcome⟩, happly, hok⟩ := bind_eq_ok.mp hok
  obtain ⟨timeline', applied, hextends, hrecords, rfl, happlied⟩ := h.records.apply hclock happly
  refine ⟨timeline', hextends, ?_⟩
  cases happlied with
  | unchanged hsame =>
    rw [pure_eq_ok] at hok
    subst hok hsame
    exact h.advance hfree publication.state hrecords (Nat.le_refl _) hextends
  | replayed hrevision hfloor =>
    rw [pure_eq_ok] at hok
    subst hok
    exact h.advance hfree publication.state hrecords (by omega) hextends
  | barrier hrevision hfloor =>
    have hadvanced := h.advance hfree publication.state hrecords (by omega) hextends
    exact hadvanced.invalidateReplayFloor hok

end GraphPublication

end Kgi
