import GraphInspector.ApiModel.Impl.Update
import GraphInspector.ApiModel.Impl.History

/-!
The lineage of a publication, its Head view together with the history of its revisions, and the additive
estimate of the raw bytes of a delta.
-/

namespace Kgi

open Data

def entryAndBatchFramingBytes : Nat := 230
def distinctHashBytes : Nat := 68
def blockUpsertBytes : Nat := 236
def blockRelationshipBytes : Nat := 6
def edgeUpsertBytes : Nat := 152
def levelInstallationBytes : Nat := 68
def levelRemovalBytes : Nat := 38
def membershipMutationBytes : Nat := 32
def colorMutationBytes : Nat := 25

namespace GraphBlock

def relationships (block : GraphBlock) : List BlockHash :=
  block.directParents ++ block.blueMergeSet ++ block.redMergeSet

end GraphBlock

def estimateRawDeltaBytes (delta : GraphDelta) : Nat :=
  let blocks := delta.blockChanges.toList.filterMap Prod.snd
  let edges := delta.edgeChanges.toList.filterMap Prod.snd
  let hashes := KeySet.ofElems
    ((blocks.flatMap fun block => block.hash :: block.relationships) ++
      (edges.flatMap fun edge => [edge.id.parent, edge.id.child]) ++
      delta.isInVspcChanges.keys ++ delta.colorChanges.keys)
  let levelInstallations := delta.levelChanges.countP fun change => change.after.isSome
  let levelRemovals := delta.levelChanges.length - levelInstallations
  entryAndBatchFramingBytes +
    hashes.size * distinctHashBytes +
    blocks.length * blockUpsertBytes +
    (blocks.flatMap GraphBlock.relationships).length * blockRelationshipBytes +
    edges.length * edgeUpsertBytes +
    levelInstallations * levelInstallationBytes +
    levelRemovals * levelRemovalBytes +
    delta.isInVspcChanges.size * membershipMutationBytes +
    delta.colorChanges.size * colorMutationBytes

theorem framing_le_estimateRawDeltaBytes (delta : GraphDelta) :
    entryAndBatchFramingBytes ≤ estimateRawDeltaBytes delta := by
  unfold estimateRawDeltaBytes
  dsimp only
  omega

inductive PublicationProjectionError where
  | revisionMismatch (viewRevision historyRevision : Nat)
  | viewUpdate (error : GraphViewUpdateError)
  deriving DecidableEq, Repr

def softDeltaEstimatedBytes : Nat := 4 * 1024 * 1024

def classifyReplayability (estimatedRawBytes : Nat) : GraphHistoryReplayability :=
  if estimatedRawBytes < softDeltaEstimatedBytes then .replayable else .replayBarrier

structure GraphPublicationCore where
  view : GraphView
  history : GraphHistory

structure AppliedLineageUpdate where
  targetRevision : Nat
  replayFloorAdvance : Option Nat
  deriving DecidableEq, Repr

def AppliedLineageUpdate.apply (core : GraphPublicationCore) (update : OriginalUpdate)
    (revisionTimestampMs : Nat) (estimateDelta : GraphDelta → Nat) :
    Panics (GraphPublicationCore ×
      Except PublicationProjectionError (Option AppliedLineageUpdate)) := do
  let viewRevision := core.view.currentRevisionId
  let historyRevision := core.history.currentRevisionId
  if viewRevision ≠ historyRevision then
    return (core, .error (.revisionMismatch viewRevision historyRevision))
  let (view, outcome) ← update.apply core.view revisionTimestampMs
  match outcome with
  | .error error => return (⟨view, core.history⟩, .error (.viewUpdate error))
  | .ok none => return (⟨view, core.history⟩, .ok none)
  | .ok (some delta) =>
    let targetRevision := delta.toRevisionId
    let estimatedRawBytes := estimateDelta delta
    let replayability := classifyReplayability estimatedRawBytes
    let replayFloorAdvance := if replayability = .replayBarrier then some targetRevision else none
    let (history, appended) ← core.history.append delta estimatedRawBytes replayability
    match appended with
    | .error _ => .error "a successful Head update extends its matching history"
    | .ok () =>
      return (⟨view, history.prune view.lowLevel⟩, .ok (some ⟨targetRevision, replayFloorAdvance⟩))

end Kgi
