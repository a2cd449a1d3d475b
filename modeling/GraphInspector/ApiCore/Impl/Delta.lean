import GraphInspector.ApiModel.Impl.History

/-!
Target selection of canonical deltas. A source revision has a ladder of dyadic target boundaries; the
publication state and the active interval decide which of them a request may be given, and its completion
which action is required of the client.
-/

namespace Kgi

open Data

def deltaBaseRevisionSpan : Nat := 4

def maxDeltaRevisionSpan : Nat := 128

def adaptiveDeltaIntervals : List Nat := [1, 2, 4, 8, 16, 32, 64, 128]

inductive GraphPublicationState where
  | synchronizing
  | live
  | stale
  deriving DecidableEq, Repr

structure ActiveDeltaInterval where
  value : Nat
  permitted : value ∈ adaptiveDeltaIntervals

structure DeltaRevisionRange where
  sourceRevision : Nat
  targetRevision : Nat
  deriving DecidableEq, Repr

inductive DeltaTargetSelection where
  | range (range : DeltaRevisionRange)
  | waitForWakeup (wakeAtRevisionId : Nat)
  deriving DecidableEq, Repr

def isolateLowestOne (word : Nat) : Nat :=
  word &&& (2 ^ 64 - word)

def nextPowerOfTwo (number : Nat) : Nat :=
  if number ≤ 1 then 1 else 2 ^ (Nat.log2 (number - 1) + 1)

structure DeltaTargetLadder where
  sourceRevision : Nat
  headRevision : Nat
  currentTarget : Option Nat
  activeInterval : Nat
  targets : List Nat
  deriving DecidableEq, Repr

namespace DeltaTargetLadder

def ordinarySuccessor (sourceRevision : Nat) : Panics Nat := do
  if sourceRevision = 0 ∨ isolateLowestOne sourceRevision < deltaBaseRevisionSpan then
    let minimum := sourceRevision + deltaBaseRevisionSpan
    ensure (minimum ≤ u64Max) "delta normalization minimum fits u64"
    let remainder := minimum % deltaBaseRevisionSpan
    if remainder = 0 then
      return minimum
    else
      let boundary := minimum + (deltaBaseRevisionSpan - remainder)
      ensure (boundary ≤ u64Max) "delta normalization boundary fits u64"
      return boundary
  else
    let span := min (isolateLowestOne sourceRevision) maxDeltaRevisionSpan
    ensure (sourceRevision + span ≤ u64Max) "delta ordinary successor fits u64"
    return sourceRevision + span

/--
The boundaries aligned to `span` and its halves, each appended unless it repeats the last one. A 64-bit
span is halved at most 64 times.
-/
def descendBoundaries (sourceRevision successor : Nat) :
    (rounds : Nat) → (span : Nat) → List Nat → Panics (List Nat)
  | 0, _, targets => return targets
  | rounds + 1, span, targets => do
    if span = 0 then
      return targets
    let target := (sourceRevision / span + 1) * span
    ensure (target ≤ u64Max) "delta target boundary fits u64"
    if target < successor ∧ targets.getLast? ≠ some target then
      descendBoundaries sourceRevision successor rounds (span / 2) (targets ++ [target])
    else
      descendBoundaries sourceRevision successor rounds (span / 2) targets

def targetBoundaries (sourceRevision : Nat) : Panics (List Nat) := do
  let successor ← ordinarySuccessor sourceRevision
  let successorSpan := successor - sourceRevision
  descendBoundaries sourceRevision successor 64 (nextPowerOfTwo successorSpan / 2) [successor]

def new (sourceRevision headRevision : Nat) (currentTarget : Option Nat) (activeInterval : Nat) :
    Panics DeltaTargetLadder := do
  ensure (sourceRevision < headRevision) "a delta target ladder requires a forward request"
  ensure (activeInterval ∈ adaptiveDeltaIntervals)
    "the active delta interval is validated before selection"
  let targets ← targetBoundaries sourceRevision
  match currentTarget with
  | none => return ⟨sourceRevision, headRevision, none, activeInterval, targets⟩
  | some currentTarget =>
    ensure (sourceRevision < currentTarget ∧ currentTarget ≤ headRevision)
      "an existing delta target lies inside the captured forward range"
    ensure (currentTarget ∈ targets)
      "an existing delta target is a boundary on its source ladder"
    return ⟨sourceRevision, headRevision, some currentTarget, activeInterval, targets⟩

def eligible (ladder : DeltaTargetLadder) (state : GraphPublicationState) (successor target : Nat) :
    Bool :=
  state = .stale || target = successor || ladder.activeInterval ≤ target - ladder.sourceRevision

def select (ladder : DeltaTargetLadder) (state : GraphPublicationState) :
    Panics DeltaTargetSelection := do
  let successor ← orError ladder.targets.head? "index out of bounds"
  if successor ≤ ladder.headRevision then
    return .range ⟨ladder.sourceRevision, successor⟩
  match ladder.targets.find? fun target =>
      target ≤ ladder.headRevision && ladder.eligible state successor target with
  | some target => return .range ⟨ladder.sourceRevision, target⟩
  | none =>
    let wakeAtRevisionId ← orError
      (ladder.targets.filter fun target =>
        ladder.headRevision < target && ladder.eligible state successor target).min?
      "the ordinary successor is always a future eligible boundary"
    return .waitForWakeup wakeAtRevisionId

def nextEligibleBoundaryFrom (sourceRevision activeInterval : Nat) : Panics Nat := do
  ensure (activeInterval ∈ adaptiveDeltaIntervals)
    "the active delta interval is validated before selection"
  let targets ← targetBoundaries sourceRevision
  let successor ← orError targets.head? "index out of bounds"
  orError
    (targets.filter fun target =>
      target = successor || activeInterval ≤ target - sourceRevision).min?
    "the ordinary successor is always an eligible boundary"

def fittingTargets (ladder : DeltaTargetLadder) (selected : DeltaRevisionRange) :
    Panics (List Nat) := do
  ensure (selected.sourceRevision = ladder.sourceRevision)
    "a fitting target belongs to this source ladder"
  let selectedIndex ← orError (ladder.targets.findIdx? fun target => target = selected.targetRevision)
    "the selected target is a boundary on its source ladder"
  ensure (selected.targetRevision ≤ ladder.headRevision)
    "the selected target does not exceed the captured Head"
  ensure (ladder.currentTarget.all fun current => current ≤ selected.targetRevision)
    "an inadequate cached target precedes the selected target"
  return (ladder.targets.drop selectedIndex).takeWhile fun target =>
    ladder.currentTarget.all fun current => current ≤ target

end DeltaTargetLadder

structure GraphDeltaTargetCapture where
  publicationId : Nat
  state : GraphPublicationState
  revision : Nat
  revisionTimestampMs : Nat
  headLevel : Nat
  replayFloorRevision : Nat
  deriving DecidableEq, Repr

structure CachedDelta where
  fromRevisionId : Nat
  toRevisionId : Nat
  sizeLimited : Bool
  deriving DecidableEq, Repr

def CachedDelta.isAdequateFor (delta : CachedDelta) (targetRevision : Nat) : Bool :=
  targetRevision ≤ delta.toRevisionId || delta.sizeLimited

inductive FreshViewReason where
  | publicationMismatch
  | startPruned
  | startUnavailable
  | deltaSourceExpired
  | deltaReplayBarrier
  deriving DecidableEq, Repr

def deltaHistoryErrorReason (error : GraphHistoryRangeError) : Panics FreshViewReason :=
  match error with
  | .startPruned _ _ => return .startPruned
  | .startBeforeReplayFloor _ _ => return .deltaReplayBarrier
  | .startUnavailable _ _ => return .startUnavailable
  | .backwardTarget _ _ =>
    .error "a validated forward canonical-delta request cannot select a backward history range"

inductive DeltaContinuation where
  | reachedHead
  | continueImmediately
  | waitForWakeup
  deriving DecidableEq, Repr

inductive CanonicalDeltaSuccess where
  | upToDate
  | waitForWakeup
  | complete (candidate : CachedDelta)
  | partialPrefix (candidate : CachedDelta)
  deriving DecidableEq, Repr

inductive CacheBuildError where
  | cancelled
  | encoding
  deriving DecidableEq, Repr

inductive CacheWaitError where
  | cancelled
  | build (error : CacheBuildError)
  | invalidatedByReplayFloor (replayFloorRevision : Nat)
  deriving DecidableEq, Repr

inductive CanonicalDeltaResponse where
  | freshViewRequired (reason : FreshViewReason)
  | invalidFutureCursor
  | clientRegistrationRequired
  | success (head : GraphDeltaTargetCapture) (outcome : CanonicalDeltaSuccess)
      (continuation : DeltaContinuation) (wakeAtRevisionId retryAfterMs : Option Nat)
  | failed (error : CacheWaitError)
  deriving DecidableEq, Repr

def deltaContinuation (head : GraphDeltaTargetCapture) (returnedRevision nextBoundary : Nat) :
    DeltaContinuation :=
  if returnedRevision = head.revision then .reachedHead
  else if head.state = .stale ∨ nextBoundary ≤ head.revision then .continueImmediately
  else .waitForWakeup

/--
Completes a request. `client` says for a request with a client identifier whether its registration is
still there.
-/
def completeDeltaSuccess (head : GraphDeltaTargetCapture) (outcome : CanonicalDeltaSuccess)
    (returnedRevision : Nat) (client : Option Bool) (activeInterval : Nat) :
    Panics CanonicalDeltaResponse := do
  ensure (returnedRevision ≤ head.revision) "a canonical delta does not pass its response Head"
  let nextBoundary ← DeltaTargetLadder.nextEligibleBoundaryFrom returnedRevision activeInterval
  let continuation := deltaContinuation head returnedRevision nextBoundary
  if client = some false then
    return .clientRegistrationRequired
  let wakeAtRevisionId := if continuation = .waitForWakeup then some nextBoundary else none
  if client.isSome ∨ continuation = .continueImmediately then
    return .success head outcome continuation wakeAtRevisionId none
  else if head.state = .stale ∧ returnedRevision = head.revision then
    return .success head outcome continuation wakeAtRevisionId (some 1000)
  else
    ensure (head.revision ≤ nextBoundary) "a Head or wakeup retry boundary follows the response Head"
    let retryAfterMs := max (nextBoundary - head.revision) 1 * 75
    ensure (retryAfterMs ≤ u64Max) "canonical delta retry delay fits u64"
    return .success head outcome continuation wakeAtRevisionId (some retryAfterMs)

end Kgi
