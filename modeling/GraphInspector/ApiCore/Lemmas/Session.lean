import GraphInspector.ApiCore.Lemmas.Panics

/-!
The session of a client that requests again from the revision it was given.
-/

namespace Kgi

open Data

namespace DeltaTargetLadder

variable {state : GraphPublicationState} {interval source boundary boundary' : Nat} {targets : List Nat}

theorem Descends.nearest_stale (h : Descends source targets) :
    Nearest .stale interval source targets (source + 1) :=
  ⟨⟨h.atomic, Or.inl rfl⟩, fun target htarget => h.later target htarget.1⟩

theorem Nearest.eq (h : Nearest state interval source targets boundary)
    (h' : Nearest state interval source targets boundary') : boundary = boundary' :=
  Nat.le_antisymm (h.2 boundary' h'.1) (h'.2 boundary h.1)

theorem nearest_live_iff (hstate : state ≠ .stale) :
    Nearest state interval source targets boundary ↔ Nearest .live interval source targets boundary := by
  have hiff : ∀ target, Eligible state interval source targets target ↔
      Eligible .live interval source targets target := by
    intro target
    unfold Eligible
    simp only [hstate, reduceCtorEq, false_or]
  unfold Nearest
  simp only [hiff]

end DeltaTargetLadder

open DeltaTargetLadder

theorem NextBoundary.eq {interval revision boundary boundary' : Nat}
    (h : NextBoundary interval revision boundary) (h' : NextBoundary interval revision boundary') :
    boundary = boundary' := by
  obtain ⟨targets, htargets, _, hnearest⟩ := h
  obtain ⟨targets', htargets', _, hnearest'⟩ := h'
  rw [htargets, Except.ok.injEq] at htargets'
  subst htargets'
  exact hnearest.eq hnearest'

def CanonicalDeltaSuccess.returnedRevision (sourceRevision : Nat) : CanonicalDeltaSuccess → Nat
  | .upToDate | .waitForWakeup => sourceRevision
  | .complete candidate | .partialPrefix candidate => candidate.toRevisionId

def CanonicalDeltaResponse.delta? : CanonicalDeltaResponse → Option CachedDelta
  | .success _ (.complete candidate) _ _ _ | .success _ (.partialPrefix candidate) _ _ _ => some candidate
  | _ => none

def CanonicalDeltaResponse.continuesAt (sourceRevision : Nat) : CanonicalDeltaResponse → Option Nat
  | .success _ outcome .continueImmediately _ _ => some (outcome.returnedRevision sourceRevision)
  | _ => none

variable {head : GraphDeltaTargetCapture} {interval source : Nat}

/--
What a request from `source` is answered with while the Head is `head`.
-/
inductive DeltaAnswer (head : GraphDeltaTargetCapture) (interval source : Nat) :
    CanonicalDeltaResponse → Prop where
  | future (hsource : head.revision < source) : DeltaAnswer head interval source .invalidFutureCursor
  | unregistered : DeltaAnswer head interval source .clientRegistrationRequired
  | freshView (reason : FreshViewReason) : DeltaAnswer head interval source (.freshViewRequired reason)
  | failed (error : CacheWaitError) : DeltaAnswer head interval source (.failed error)
  | upToDate (hsource : source = head.revision) (retryAfterMs : Option Nat) :
      DeltaAnswer head interval source (.success head .upToDate .reachedHead none retryAfterMs)
  | waiting {boundary : Nat} (hstate : head.state ≠ .stale)
      (hfloor : head.replayFloorRevision ≤ source) (hsource : source < head.revision)
      (hboundary : NextBoundary interval source boundary) (hahead : head.revision < boundary)
      (retryAfterMs : Option Nat) :
      DeltaAnswer head interval source
        (.success head .waitForWakeup .waitForWakeup (some boundary) retryAfterMs)
  | delivered {candidate : CachedDelta} {outcome : CanonicalDeltaSuccess} {boundary : Nat}
      (hkeyed : candidate.fromRevisionId = source) (hforward : source < candidate.toRevisionId)
      (hwithin : candidate.toRevisionId ≤ head.revision)
      (hfloor : head.replayFloorRevision ≤ source)
      (houtcome : outcome = .complete candidate ∨ outcome = .partialPrefix candidate)
      (hboundary : NextBoundary interval candidate.toRevisionId boundary)
      (retryAfterMs : Option Nat) :
      DeltaAnswer head interval source (.success head outcome
        (deltaContinuation head candidate.toRevisionId boundary)
        (if deltaContinuation head candidate.toRevisionId boundary = .waitForWakeup then some boundary
          else none) retryAfterMs)

theorem completeDeltaSuccess_answers {outcome : CanonicalDeltaSuccess} {returnedRevision : Nat}
    {client : Option Bool} {response : CanonicalDeltaResponse}
    (hreturned : returnedRevision ≤ head.revision)
    (hroom : head.revision + 128 ≤ u64Max) (hinterval : interval ∈ adaptiveDeltaIntervals)
    (h : completeDeltaSuccess head outcome returnedRevision client interval = .ok response) :
    response = .clientRegistrationRequired ∨ ∃ boundary retryAfterMs,
      NextBoundary interval returnedRevision boundary ∧
      response = .success head outcome (deltaContinuation head returnedRevision boundary)
        (if deltaContinuation head returnedRevision boundary = .waitForWakeup then some boundary
          else none) retryAfterMs := by
  obtain ⟨boundary, retryAfterMs, hboundary, hresponse⟩ :=
    completeDeltaSuccess_eq_ok outcome client hreturned hroom hinterval
  rw [h, Except.ok.injEq] at hresponse
  subst hresponse
  split
  . exact Or.inl rfl
  . exact Or.inr ⟨boundary, retryAfterMs, hboundary, rfl⟩

def DeltaRequest.Serves (head : GraphDeltaTargetCapture) (interval source : Nat) :
    DeltaRequest → Prop
  | .captured head' source' interval' => head' = head ∧ source' = source ∧ interval' = interval
  | .lookingUp request _ | .sizing request _ | .resolving request _ | .resolved request _ =>
    request.selected.sourceRevision = source ∧ request.activeInterval = interval
  | .responded response => DeltaAnswer head interval source response
  | .panicked _ => True

namespace GraphPublication

variable {publication publication' : GraphPublication} {timeline : Timeline} {index : Nat}

/--
A request from the revision would be given a range if the Head stood at `revision`.
-/
def GivesRange (head : GraphDeltaTargetCapture) (interval source revision : Nat) : Prop :=
  ∃ request, selectTarget { head with revision := revision } source interval none
    = .ok (.lookingUp request false)

theorem givesRange_iff {boundary revision : Nat} (hinterval : interval ∈ adaptiveDeltaIntervals)
    (hfloor : head.replayFloorRevision ≤ source) (hstate : head.state ≠ .stale)
    (hboundary : NextBoundary interval source boundary) (hsource : source < revision) :
    GivesRange head interval source revision ↔ boundary ≤ revision := by
  obtain ⟨targets, htargets, hdescends, hnearest⟩ := hboundary
  obtain ⟨successor, more, rfl⟩ := List.exists_cons_of_ne_nil (List.ne_nil_of_mem hdescends.atomic)
  rw [← nearest_live_iff hstate] at hnearest
  unfold GivesRange selectTarget
  rw [if_neg (Nat.ne_of_lt hsource), if_neg (Nat.not_lt.mpr hfloor),
    new_eq_ok hsource hinterval htargets, ok_bind]
  by_cases hreached : boundary ≤ revision
  . obtain ⟨target, hselect, _, _⟩ := select_range hnearest hreached
    rw [hselect, ok_bind]
    exact ⟨fun _ => hreached, fun _ => ⟨_, rfl⟩⟩
  . rw [select_wait hnearest (Nat.not_le.mp hreached), ok_bind]
    refine ⟨?_, fun hle => absurd hle hreached⟩
    rintro ⟨request, hrequest⟩
    obtain ⟨_, _, hrequest⟩ := bind_eq_ok.mp hrequest
    cases hrequest

theorem selectDelta_serves (client : Option Bool) :
    (publication.selectDelta source interval client).Serves publication.captureDeltaTarget interval
      source := by
  unfold GraphPublication.selectDelta
  split
  . next hfuture => exact .future hfuture
  . split
    . exact .unregistered
    . exact ⟨rfl, rfl, rfl⟩

variable {request : DeltaRequest} {event : PublicationEvent}

theorem Selects.serves {client : Option Bool} (hroom : head.revision + 128 ≤ u64Max)
    (hinterval : interval ∈ adaptiveDeltaIntervals)
    (h : Selects head source interval client request) : request.Serves head interval source := by
  cases h with
  | upToDate response hsource hresponse =>
    obtain rfl | ⟨boundary, retryAfterMs, _, rfl⟩ :=
      completeDeltaSuccess_answers (Nat.le_of_eq hsource) hroom hinterval hresponse
    . exact .unregistered
    . have hreached : deltaContinuation head source boundary = .reachedHead := if_pos hsource
      rw [hreached]
      exact .upToDate hsource retryAfterMs
  | barrier => exact .freshView _
  | waiting response targets boundary hsource hfloor htargets hdescends hnearest hahead hresponse =>
    obtain rfl | ⟨boundary', retryAfterMs, hboundary, rfl⟩ :=
      completeDeltaSuccess_answers (Nat.le_of_lt hsource) hroom hinterval hresponse
    . exact .unregistered
    . -- a Stale publication gives the next revision, which the Head has reached
      have hstate : head.state ≠ .stale := by
        intro hstale
        rw [hstale] at hnearest
        have := hnearest.eq hdescends.nearest_stale
        omega
      rw [nearest_live_iff hstate] at hnearest
      have heq := hboundary.eq ⟨targets, htargets, hdescends, hnearest⟩
      subst heq
      have hwait : deltaContinuation head source boundary' = .waitForWakeup := by
        unfold deltaContinuation
        rw [if_neg (Nat.ne_of_lt hsource), if_neg]
        rintro (hstale | hreached)
        . exact hstate hstale
        . omega
      rw [hwait, if_pos rfl]
      exact .waiting hstate hfloor hsource hboundary hahead retryAfterMs
  | selected => exact ⟨rfl, rfl⟩

theorem Sound.moves_serves (h : Sound timeline publication) {request' : DeltaRequest}
    (hrequest : publication.deltaRequests[index]? = some request)
    (hmoves : DeltaMoves publication index event request request')
    (hserves : request.Serves publication.captureDeltaTarget interval source) :
    request'.Serves publication.captureDeltaTarget interval source := by
  have hsound := h.requests _ (List.mem_of_getElem? hrequest)
  cases hmoves with
  | selected hhead hselects =>
    obtain ⟨rfl, rfl, rfl⟩ := hserves
    exact hselects.serves h.records.headroom hsound.2.2
  | refused => exact .freshView _
  | invalidated => exact .freshView _
  | failed => exact .failed _
  | admitted hadmits =>
    obtain ⟨rfl, rfl⟩ := hserves
    obtain ⟨hrequest, hdelivers⟩ := hsound
    cases hadmits with
    | rejected => exact .freshView _
    | admitted outcome _ hfloor houtcome hresponse =>
      obtain rfl | ⟨boundary, retryAfterMs, hboundary, rfl⟩ :=
        completeDeltaSuccess_answers hdelivers.reaches.within h.records.headroom
          hrequest.requested.interval hresponse
      . exact .unregistered
      . exact .delivered hdelivers.keyed hdelivers.reaches.forward hdelivers.reaches.within
          (hdelivers.keyed ▸ hfloor) houtcome hboundary retryAfterMs
  | late => trivial
  | found => exact hserves
  | missing => exact hserves
  | elected => exact hserves
  | resolved => exact hserves
  | reentered => exact hserves

/--
A run over which the Head, the state and the replay floor stay as they are.
-/
inductive Stands : GraphPublication → GraphPublication → Prop where
  | refl (publication : GraphPublication) : Stands publication publication
  | step {publication publication' publication'' : GraphPublication} {event : PublicationEvent}
      (h : Stands publication publication') (hstep : publication'.step event = some publication'')
      (hhead : publication''.captureDeltaTarget = publication'.captureDeltaTarget) :
      Stands publication publication''

theorem Sound.step_serves (h : Sound timeline publication)
    (hstep : publication.step event = some publication')
    (hserves : ∃ request, publication.deltaRequests[index]? = some request ∧
      request.Serves publication.captureDeltaTarget interval source) :
    ∃ request, publication'.deltaRequests[index]? = some request ∧
      request.Serves publication.captureDeltaTarget interval source := by
  obtain ⟨request, hrequest, hserves⟩ := hserves
  cases h.deltaStep hstep with
  | governed _ _ _ hrequests => exact ⟨request, hrequests ▸ hrequest, hserves⟩
  | idle _ hrequests => exact ⟨request, hrequests ▸ hrequest, hserves⟩
  | asked _ _ _ _ _ hrequests =>
    rw [hrequests, List.getElem?_append_left (List.getElem?_eq_some_iff.mp hrequest).1]
    exact ⟨request, hrequest, hserves⟩
  | moved index' request' request'' hrequest' hmoves _ hrequests =>
    rw [hrequests]
    by_cases heq : index' = index
    . subst heq
      rw [hrequest, Option.some.injEq] at hrequest'
      subst hrequest'
      rw [List.getElem?_set_self (List.getElem?_eq_some_iff.mp hrequest).1]
      exact ⟨request'', rfl, h.moves_serves hrequest hmoves hserves⟩
    . rw [List.getElem?_set_ne heq]
      exact ⟨request, hrequest, hserves⟩

theorem Stands.serves (hstands : Stands publication publication')
    (h : ∃ timeline, Sound timeline publication)
    (hserves : ∃ request, publication.deltaRequests[index]? = some request ∧
      request.Serves publication.captureDeltaTarget interval source) :
    (∃ timeline, Sound timeline publication') ∧
      publication'.captureDeltaTarget = publication.captureDeltaTarget ∧
      ∃ request, publication'.deltaRequests[index]? = some request ∧
        request.Serves publication.captureDeltaTarget interval source := by
  induction hstands with
  | refl => exact ⟨h, rfl, hserves⟩
  | step _ hstep hhead ih =>
    obtain ⟨⟨timeline', hsound⟩, hsame, hserves'⟩ := ih
    obtain ⟨timeline'', _, hsound'⟩ := hsound.step hstep
    rw [← hsame] at hserves' ⊢
    exact ⟨⟨timeline'', hsound'⟩, hhead, hsound.step_serves hstep hserves'⟩

/--
A request from `source` is made in a reachable state with the given Head, and is answered while the Head
stands still.
-/
def Answers (head : GraphDeltaTargetCapture) (interval : ActiveDeltaInterval) (source : Nat)
    (response : CanonicalDeltaResponse) : Prop :=
  ∃ (publication asked publication' : GraphPublication) (client : Option Bool),
    publication.Reachable ∧ publication.captureDeltaTarget = head ∧
      publication.step (.selectDelta source interval client) = some asked ∧
      Stands asked publication' ∧
      publication'.deltaRequests[publication.deltaRequests.length]? = some (.responded response)

theorem Answers.answer {interval : ActiveDeltaInterval} {response : CanonicalDeltaResponse}
    (h : Answers head interval source response) :
    DeltaAnswer head interval.value source response := by
  obtain ⟨publication, asked, publication', client, hreachable, rfl, hasked, hstands, hresponse⟩ := h
  obtain ⟨timeline, hsound⟩ := hreachable.sound
  obtain ⟨timeline', _, hsound'⟩ := hsound.step hasked
  cases hasked
  obtain ⟨_, _, request, hrequest, hserves⟩ := hstands.serves ⟨timeline', hsound'⟩
    ⟨_, List.getElem?_concat_length, selectDelta_serves client⟩
  rw [hresponse, Option.some.injEq] at hrequest
  subst hrequest
  exact hserves

/--
An answer that ends a session: at the Head, with a wait for the least Head at which a request would be given
a range, with a demand for a fresh view, or because the request is not served.
-/
def Concludes (head : GraphDeltaTargetCapture) (interval source : Nat)
    (response : CanonicalDeltaResponse) : Prop :=
  (∃ outcome retryAfterMs, response = .success head outcome .reachedHead none retryAfterMs ∧
    outcome.returnedRevision source = head.revision) ∨
  (∃ outcome boundary retryAfterMs,
    response = .success head outcome .waitForWakeup (some boundary) retryAfterMs ∧
    IsLeast {revision | head.revision < revision ∧
      GivesRange head interval (outcome.returnedRevision source) revision} boundary) ∨
  (∃ reason, response = .freshViewRequired reason) ∨
  response = .clientRegistrationRequired ∨ ∃ error, response = .failed error

/--
The answers to a client that requests again from the returned revision whenever it is told to continue.
-/
inductive Session (head : GraphDeltaTargetCapture) (interval : ActiveDeltaInterval) :
    Nat → List CanonicalDeltaResponse → Prop where
  | last {source : Nat} {response : CanonicalDeltaResponse}
      (h : Answers head interval source response) : Session head interval source [response]
  | next {source revision : Nat} {response : CanonicalDeltaResponse}
      {responses : List CanonicalDeltaResponse} (h : Answers head interval source response)
      (hcontinues : response.continuesAt source = some revision)
      (hrest : Session head interval revision responses) :
      Session head interval source (response :: responses)

end GraphPublication

open GraphPublication

namespace DeltaAnswer

variable {response : CanonicalDeltaResponse} {revision : Nat}
variable (h : DeltaAnswer head interval source response)
include h

theorem advances {delta : CachedDelta} (hdelta : delta ∈ response.delta?) :
    (delta.fromRevisionId = source ∧ source < delta.toRevisionId ∧
      delta.toRevisionId ≤ head.revision) ∧ head.replayFloorRevision ≤ source := by
  cases h with
  | delivered hkeyed hforward hwithin hfloor houtcome =>
    obtain rfl | rfl := houtcome
    . cases hdelta
      exact ⟨⟨hkeyed, hforward, hwithin⟩, hfloor⟩
    . cases hdelta
      exact ⟨⟨hkeyed, hforward, hwithin⟩, hfloor⟩
  | _ => cases hdelta

theorem of_continuesAt (hcontinues : response.continuesAt source = some revision) :
    source < revision ∧ revision < head.revision ∧
      ∃ boundary, NextBoundary interval revision boundary ∧
        (head.state = .stale ∨ boundary ≤ head.revision) := by
  cases h with
  | @delivered candidate outcome boundary hkeyed hforward hwithin _ houtcome hboundary retryAfterMs =>
    have hreturned : outcome.returnedRevision source = candidate.toRevisionId := by
      obtain rfl | rfl := houtcome
      . rfl
      . rfl
    unfold deltaContinuation at hcontinues
    split at hcontinues
    . cases hcontinues
    . next hbelow =>
      split at hcontinues
      . next hmore =>
        have heq := (Option.some.inj hcontinues).symm.trans hreturned
        subst heq
        exact ⟨hforward, by omega, boundary, hboundary, hmore⟩
      . cases hcontinues
  | _ => cases hcontinues

theorem not_waiting {boundary : Nat} (hboundary : NextBoundary interval source boundary)
    (hmore : head.state = .stale ∨ boundary ≤ head.revision) {continuation : DeltaContinuation}
    {wakeAtRevisionId retryAfterMs : Option Nat} :
    response ≠ .success head .waitForWakeup continuation wakeAtRevisionId retryAfterMs := by
  rintro rfl
  cases h with
  | waiting hstate _ _ hboundary' hahead =>
    have heq := hboundary.eq hboundary'
    obtain hstale | hle := hmore
    . exact hstate hstale
    . omega
  | delivered _ _ _ _ houtcome => simp at houtcome

theorem continues_or_concludes (hinterval : interval ∈ adaptiveDeltaIntervals)
    (hsource : source ≤ head.revision) :
    (∃ revision, response.continuesAt source = some revision) ∨
      Concludes head interval source response := by
  have hleast {revision boundary : Nat} (hstate : head.state ≠ .stale)
      (hfloor : head.replayFloorRevision ≤ revision) (hrevision : revision < head.revision)
      (hboundary : NextBoundary interval revision boundary) (hahead : head.revision < boundary) :
      IsLeast {later | head.revision < later ∧ GivesRange head interval revision later} boundary := by
    constructor
    . exact ⟨hahead, (givesRange_iff hinterval hfloor hstate hboundary hboundary.lt).mpr (Nat.le_refl _)⟩
    . rintro later ⟨hlater, hrange⟩
      exact (givesRange_iff hinterval hfloor hstate hboundary (by omega)).mp hrange
  cases h with
  | future hfuture => omega
  | unregistered => exact Or.inr (Or.inr (Or.inr (Or.inr (Or.inl rfl))))
  | freshView reason => exact Or.inr (Or.inr (Or.inr (Or.inl ⟨reason, rfl⟩)))
  | failed error => exact Or.inr (Or.inr (Or.inr (Or.inr (Or.inr ⟨error, rfl⟩))))
  | upToDate heq retryAfterMs => exact Or.inr (Or.inl ⟨_, retryAfterMs, rfl, heq⟩)
  | waiting hstate hfloor hlt hboundary hahead retryAfterMs =>
    exact Or.inr (Or.inr (Or.inl ⟨_, _, retryAfterMs, rfl, hleast hstate hfloor hlt hboundary hahead⟩))
  | @delivered candidate outcome boundary _ hforward hwithin hfloor houtcome hboundary retryAfterMs =>
    have hreturned : outcome.returnedRevision source = candidate.toRevisionId := by
      obtain rfl | rfl := houtcome
      . rfl
      . rfl
    unfold deltaContinuation
    split
    . next hhead => exact Or.inr (Or.inl ⟨_, retryAfterMs, rfl, hreturned.trans hhead⟩)
    . split
      . exact Or.inl ⟨_, rfl⟩
      . next hbelow hwait =>
        rw [not_or, Nat.not_le] at hwait
        refine Or.inr (Or.inr (Or.inl ⟨_, _, retryAfterMs, rfl, ?_⟩))
        rw [hreturned]
        exact hleast hwait.1 (by omega) (by omega) hboundary hwait.2

end DeltaAnswer

theorem GraphPublication.Session.length_le {interval : ActiveDeltaInterval}
    {responses : List CanonicalDeltaResponse} (h : Session head interval source responses) :
    responses.length ≤ head.revision - source + 1 := by
  induction h with
  | last => exact Nat.le_add_left 1 _
  | next hanswers hcontinues _ ih =>
    obtain ⟨hlt, hhead, _⟩ := hanswers.answer.of_continuesAt hcontinues
    rw [List.length_cons]
    omega

/--
While the Head stands still, every delta takes its client forward, a session is finite, and it ends at the
Head, with a wait or with a demand for a fresh view, unless a request is not served. A client that is told to
continue is not told to wait next, and a client that is told to wait is given a range at the announced Head
and at no earlier one.
-/
theorem delta_session_progresses (head : GraphDeltaTargetCapture) (interval : ActiveDeltaInterval) :
    (∀ source response delta, Answers head interval source response → delta ∈ response.delta? →
      delta.fromRevisionId = source ∧ source < delta.toRevisionId ∧
        delta.toRevisionId ≤ head.revision) ∧
    (∀ source responses, Session head interval source responses →
      responses.length ≤ head.revision - source + 1) ∧
    (∀ source response, Answers head interval source response → source ≤ head.revision →
      (∃ revision, response.continuesAt source = some revision) ∨
        Concludes head interval.value source response) ∧
    ∀ source revision response response', Answers head interval source response →
      response.continuesAt source = some revision → Answers head interval revision response' →
      source < revision ∧ revision < head.revision ∧
        ∀ continuation wakeAtRevisionId retryAfterMs,
          response' ≠ .success head .waitForWakeup continuation wakeAtRevisionId retryAfterMs := by
  refine ⟨?_, ?_, ?_, ?_⟩
  . intro source response delta hanswers hdelta
    exact (hanswers.answer.advances hdelta).1
  . intro source responses hsession
    exact hsession.length_le
  . intro source response hanswers hsource
    exact hanswers.answer.continues_or_concludes interval.permitted hsource
  . intro source revision response response' hanswers hcontinues hanswers'
    obtain ⟨hlt, hhead, boundary, hboundary, hmore⟩ := hanswers.answer.of_continuesAt hcontinues
    exact ⟨hlt, hhead, fun _ _ _ => hanswers'.answer.not_waiting hboundary hmore⟩

section Small

def standsStill (publication : GraphPublication) (event : PublicationEvent) : Bool :=
  (publication.step event).all fun publication' =>
    publication'.captureDeltaTarget == publication.captureDeltaTarget

theorem stands_of_checks {publication publication' : GraphPublication} {events : List PublicationEvent}
    (hchecks : run.checks step standsStill publication events = true)
    (hrun : run step publication events = some publication') : Stands publication publication' := by
  have hguard : ∀ before event, standsStill before event = true → ∀ after, step before event = some after →
      after.captureDeltaTarget = before.captureDeltaTarget := by
    intro before event hstill after hafter
    unfold standsStill at hstill
    rw [hafter, Option.all_some] at hstill
    exact eq_of_beq hstill
  exact run.invariant_of_guard
    (fun _ _ _ hstands hhead hstep => .step hstands hstep (hhead _ hstep)) (.refl publication)
    (fun _ _ _ _ hevents hpre => run.guard_of_checks hguard hchecks hevents hpre) hrun

/--
The events that build and deliver the answer to the request of an index.
-/
def service (index : Nat) : List PublicationEvent :=
  [.pruneDeltas index none, .lookupDelta index, .electDelta index, .finishDelta index none,
    .completeDelta index, .resolveDelta index false, .deliverDelta index none]

def serves (publication : GraphPublication) (source : Nat) (response : CanonicalDeltaResponse) : Bool :=
  (publication.step (.selectDelta source smallInterval none)).any fun asked =>
    run.checks step standsStill asked (service publication.deltaRequests.length) &&
    (run step asked (service publication.deltaRequests.length)).any fun publication' =>
      publication'.deltaRequests[publication.deltaRequests.length]? == some (.responded response)

theorem answers_of_serves {publication : GraphPublication} {response : CanonicalDeltaResponse}
    (hreachable : publication.Reachable) (h : serves publication source response = true) :
    Answers publication.captureDeltaTarget smallInterval source response := by
  unfold serves at h
  rw [Option.any_eq_true] at h
  obtain ⟨asked, hasked, h⟩ := h
  rw [Bool.and_eq_true, Option.any_eq_true] at h
  obtain ⟨hchecks, publication', hrun, hresponse⟩ := h
  exact ⟨publication, asked, publication', none, hreachable, rfl, hasked,
    stands_of_checks hchecks hrun, eq_of_beq hresponse⟩

def smallHead : GraphDeltaTargetCapture := ⟨1, .live, 3, 30, 3, 0⟩

def firstAnswer : CanonicalDeltaResponse :=
  .success smallHead (.partialPrefix ⟨0, 2, false⟩) .continueImmediately none none

def lastAnswer : CanonicalDeltaResponse :=
  .success smallHead (.complete ⟨2, 3, false⟩) .reachedHead none (some 75)

theorem small_answers :
    Answers smallHead smallInterval 0 firstAnswer ∧ Answers smallHead smallInterval 2 lastAnswer := by
  obtain ⟨seed, publication, hlineage, hrun, hobserved⟩ := exists_small_run
    (show (GraphView.smallProjection.toOption.bind fun seed =>
      run step (GraphPublication.new 1 .live ⟨seed, .new⟩)
        [.update GraphView.smallVspc 10, .update GraphView.smallBlock 20,
          .update (.vspc ⟨2, 3, [], [3], [⟨3, 1, some 2⟩]⟩) 30]).any
        (fun publication => publication.captureDeltaTarget == smallHead &&
          (serves publication 0 firstAnswer && serves publication 2 lastAnswer)) = true by
      decide +kernel)
  have hreachable : publication.Reachable := ⟨1, .live, _, _, hlineage, hrun⟩
  rw [Bool.and_eq_true, Bool.and_eq_true, beq_iff_eq] at hobserved
  obtain ⟨hhead, hfirst, hlast⟩ := hobserved
  rw [← hhead]
  exact ⟨answers_of_serves hreachable hfirst, answers_of_serves hreachable hlast⟩

/--
A client at revision 0 is taken to 2, told to continue, and taken to the Head 3.
-/
theorem delta_session_progresses_continuing :
    Session smallHead smallInterval 0 [firstAnswer, lastAnswer] ∧
      [firstAnswer, lastAnswer].length ≤ smallHead.revision - 0 + 1 ∧
      (0 < 2 ∧ 2 < smallHead.revision ∧ ∀ continuation wakeAtRevisionId retryAfterMs,
        lastAnswer ≠ .success smallHead .waitForWakeup continuation wakeAtRevisionId retryAfterMs) ∧
      Concludes smallHead smallInterval.value 2 lastAnswer := by
  obtain ⟨hfirst, hlast⟩ := small_answers
  have hsession : Session smallHead smallInterval 0 [firstAnswer, lastAnswer] :=
    .next hfirst rfl (.last hlast)
  obtain ⟨_, hlength, hconcludes, hforward⟩ := delta_session_progresses smallHead smallInterval
  refine ⟨hsession, hlength 0 _ hsession, hforward 0 2 firstAnswer lastAnswer hfirst rfl hlast, ?_⟩
  obtain ⟨_, hcontinues⟩ | hconcludes := hconcludes 2 lastAnswer hlast (by decide)
  . cases hcontinues
  . exact hconcludes

end Small

end Kgi
