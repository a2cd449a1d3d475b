import GraphInspector.ApiModel.Impl.Graph
import GraphInspector.Data.BinarySearch

/-!
Level-scoped retained history of one canonical graph lineage.
-/

namespace Kgi

open Data

inductive GraphHistoryAppendError where
  | revisionMismatch (historyRevision deltaFrom : Nat)
  | nonAtomicDelta (fromRevisionId toRevisionId : Nat)
  deriving DecidableEq, Repr

inductive GraphHistoryReplayability where
  | replayable
  | replayBarrier
  deriving DecidableEq, Repr

inductive GraphHistoryRangeError where
  | backwardTarget (fromRevisionId targetRevisionId : Nat)
  | startBeforeReplayFloor (requested replayFloorRevision : Nat)
  | startPruned (requested oldestAvailable : Nat)
  | startUnavailable (requested current : Nat)
  deriving DecidableEq, Repr

structure GraphHistoryEntry where
  delta : GraphDelta
  estimatedRawBytes : Nat
  cumulativeEstimatedBytes : Nat

inductive GraphHistoryRange where
  | upToDate (revision : Nat)
  | deltas (fromRevisionId requestedTarget actualTarget : Nat) (entries : List GraphHistoryEntry)

structure GraphHistoryFittingRange where
  targetRevision : Nat
  shortened : Bool
  entries : List GraphHistoryEntry

def GraphHistoryFittingRange.estimatedRawBytes (fitting : GraphHistoryFittingRange) : Panics Nat := do
  let first ← orError fitting.entries.head? "a fitting history range is nonempty"
  let last ← orError fitting.entries.getLast? "a fitting history range is nonempty"
  ensure (first.estimatedRawBytes ≤ first.cumulativeEstimatedBytes)
    "an entry estimate does not exceed its cumulative boundary"
  let leftBoundary := first.cumulativeEstimatedBytes - first.estimatedRawBytes
  ensure (leftBoundary ≤ last.cumulativeEstimatedBytes) "history cumulative estimates do not regress"
  return last.cumulativeEstimatedBytes - leftBoundary

structure GraphHistory where
  currentRevisionId : Nat
  currentCumulativeEstimatedBytes : Nat
  replayFloorRevision : Nat
  entries : List GraphHistoryEntry

namespace GraphHistory

def new : GraphHistory := ⟨0, 0, 0, []⟩

def append (history : GraphHistory) (delta : GraphDelta) (estimatedRawBytes : Nat)
    (replayability : GraphHistoryReplayability) :
    Panics (GraphHistory × Except GraphHistoryAppendError Unit) := do
  if history.currentRevisionId ≠ delta.fromRevisionId then
    return (history, .error (.revisionMismatch history.currentRevisionId delta.fromRevisionId))
  let targetRevision := delta.toRevisionId
  ensure (delta.fromRevisionId < u64Max) "graph revision successor fits u64"
  if targetRevision ≠ delta.fromRevisionId + 1 then
    return (history, .error (.nonAtomicDelta delta.fromRevisionId targetRevision))
  let cumulativeEstimatedBytes := history.currentCumulativeEstimatedBytes + estimatedRawBytes
  ensure (cumulativeEstimatedBytes ≤ u64Max) "graph history cumulative estimate fits u64"
  match replayability with
  | .replayable =>
    return (⟨targetRevision, cumulativeEstimatedBytes, history.replayFloorRevision,
      history.entries ++ [⟨delta, estimatedRawBytes, cumulativeEstimatedBytes⟩]⟩, .ok ())
  | .replayBarrier => return (⟨targetRevision, cumulativeEstimatedBytes, targetRevision, []⟩, .ok ())

def prune (history : GraphHistory) (headLowLevel : Nat) : GraphHistory :=
  { history with
    entries := history.entries.dropWhile fun entry => entry.delta.headLevel < headLowLevel }

def oldestAvailableRevision (history : GraphHistory) : Nat :=
  match history.entries.head? with
  | none => history.currentRevisionId
  | some entry => entry.delta.fromRevisionId

def findBoundaryIndex (entries : List GraphHistoryEntry) (revisionId : Nat) : Option Nat :=
  binarySearch (fun entry => entry.delta.fromRevisionId) entries revisionId

def selectEntries (targetRevisionId : Nat) : Nat → List GraphHistoryEntry →
    Nat × List GraphHistoryEntry
  | actualTarget, [] => (actualTarget, [])
  | _, entry :: entries =>
    if entry.delta.toRevisionId = targetRevisionId then
      (entry.delta.toRevisionId, [entry])
    else
      let (actualTarget, selected) :=
        selectEntries targetRevisionId entry.delta.toRevisionId entries
      (actualTarget, entry :: selected)

def range (history : GraphHistory) (fromRevisionId targetRevisionId : Nat) :
    Except GraphHistoryRangeError GraphHistoryRange :=
  if targetRevisionId < fromRevisionId then
    .error (.backwardTarget fromRevisionId targetRevisionId)
  else if targetRevisionId = fromRevisionId then
    .ok (.upToDate fromRevisionId)
  else if fromRevisionId < history.replayFloorRevision then
    .error (.startBeforeReplayFloor fromRevisionId history.replayFloorRevision)
  else if fromRevisionId < history.oldestAvailableRevision then
    .error (.startPruned fromRevisionId history.oldestAvailableRevision)
  else if fromRevisionId = history.currentRevisionId then
    .ok (.upToDate fromRevisionId)
  else
    match findBoundaryIndex history.entries fromRevisionId with
    | none => .error (.startUnavailable fromRevisionId history.currentRevisionId)
    | some startIndex =>
      let (actualTarget, selected) :=
        selectEntries targetRevisionId fromRevisionId (history.entries.drop startIndex)
      .ok (.deltas fromRevisionId targetRevisionId actualTarget selected)

def descendTargets (entries : List GraphHistoryEntry) (fits : Nat → Bool)
    (fromRevisionId requestedTarget startIndex leftBoundary : Nat) :
    (previousTarget : Option Nat) → List Nat → Panics (Option GraphHistoryFittingRange)
  | _, [] => return none
  | previousTarget, targetRevision :: candidateTargets => do
    ensure (fromRevisionId < targetRevision ∧ targetRevision ≤ requestedTarget)
      "fitting targets descend within the selected forward range"
    ensure (previousTarget.all fun previousTarget => targetRevision < previousTarget)
      "fitting targets are strictly descending"
    let distance := targetRevision - fromRevisionId
    let entry ← orError entries[startIndex + (distance - 1)]?
      "a fitting target is retained through the selected boundary"
    ensure (entry.delta.toRevisionId = targetRevision)
      "a fitting target is an atomic history boundary"
    ensure (leftBoundary ≤ entry.cumulativeEstimatedBytes)
      "history cumulative estimates do not regress"
    if fits (entry.cumulativeEstimatedBytes - leftBoundary) then
      return some ⟨targetRevision, targetRevision ≠ requestedTarget,
        (entries.drop startIndex).take distance⟩
    else
      descendTargets entries fits fromRevisionId requestedTarget startIndex leftBoundary
        (some targetRevision) candidateTargets

def fittingRange (history : GraphHistory) (fromRevisionId : Nat) (candidateTargets : List Nat)
    (fits : Nat → Bool) :
    Panics (Except GraphHistoryRangeError (Option GraphHistoryFittingRange)) :=
  match candidateTargets with
  | [] => return .ok none
  | requestedTarget :: _ =>
    if requestedTarget < fromRevisionId then
      return .error (.backwardTarget fromRevisionId requestedTarget)
    else if requestedTarget = fromRevisionId then
      return .ok none
    else if fromRevisionId < history.replayFloorRevision then
      return .error (.startBeforeReplayFloor fromRevisionId history.replayFloorRevision)
    else if fromRevisionId < history.oldestAvailableRevision then
      return .error (.startPruned fromRevisionId history.oldestAvailableRevision)
    else if fromRevisionId = history.currentRevisionId then
      return .ok none
    else
      match findBoundaryIndex history.entries fromRevisionId with
      | none => return .error (.startUnavailable fromRevisionId history.currentRevisionId)
      | some startIndex => do
        let first ← orError history.entries[startIndex]? "Out of bounds access"
        ensure (first.estimatedRawBytes ≤ first.cumulativeEstimatedBytes)
          "an entry estimate does not exceed its cumulative boundary"
        let leftBoundary := first.cumulativeEstimatedBytes - first.estimatedRawBytes
        let fitting ← descendTargets history.entries fits fromRevisionId requestedTarget startIndex
          leftBoundary none candidateTargets
        return .ok fitting

end GraphHistory

end Kgi
