import GraphInspector.Data.Outcome
import GraphInspector.Data.Sequence
import GraphInspector.Model.Lifecycle

/-!
The normalizer of node responses and notifications. It checks what KGI consumes of a block and turns the
relationship vectors into lists without repetition.
-/

namespace Kgi

open Data

/--
The synthetic parent of Genesis, 32 bytes `0xfe`.
-/
def origin : BlockHash :=
  Fin.ofNat (2 ^ 256) (254 * ((2 ^ 256 - 1) / 255))

structure RpcHeader where
  hash : BlockHash
  parentsByLevel : List (List BlockHash)
  timestamp : Timestamp
  daaScore : Nat
  blueWork : Nat
  blueScore : Nat
  deriving DecidableEq, Repr

structure RpcBlockVerboseData where
  selectedParentHash : BlockHash
  mergeSetBluesHashes : List BlockHash
  mergeSetRedsHashes : List BlockHash
  deriving DecidableEq, Repr

structure RpcBlock where
  header : RpcHeader
  verboseData : Option RpcBlockVerboseData
  deriving DecidableEq, Repr

inductive ResponseNormalizationError where
  | scoreOutOfRange (fault : ScoreRangeFault)
  | malformed (kind : RecoveryInputKind)
  deriving DecidableEq, Repr

inductive BlockNormalizationError where
  | scoreOutOfRange (fault : ScoreRangeFault)
  | missingVerboseData
  | ownHashReference
  | selectedParentNotDirect
  deriving DecidableEq, Repr

structure ResponseNormalizer where
  genesisHash : BlockHash
  genesisHash_ne_origin : genesisHash ≠ origin

def retainFirstOccurrences (hashes : List BlockHash) (ownHash : BlockHash) :
    Except BlockNormalizationError { kept : List BlockHash // kept.Nodup ∧ ownHash ∉ kept } :=
  if h : ownHash ∈ firstOccurrences hashes then
    .error .ownHashReference
  else
    .ok ⟨firstOccurrences hashes, nodup_firstOccurrences hashes, h⟩

def checkScore {ε : Type} (value maximum : Nat) (error : ε) : Except ε Unit :=
  if value > maximum then .error error else .ok ()

def classifyBlockError (malformedKind : RecoveryInputKind) :
    BlockNormalizationError → ResponseNormalizationError
  | .scoreOutOfRange fault => .scoreOutOfRange fault
  | .missingVerboseData => .malformed malformedKind
  | .ownHashReference => .malformed malformedKind
  | .selectedParentNotDirect => .malformed malformedKind

namespace ResponseNormalizer

def genesisBlock (normalizer : ResponseNormalizer) (header : RpcHeader)
    (h : header.hash = normalizer.genesisHash) : ValidatedNodeBlock where
  hash := header.hash
  selectedParent := origin
  directParents := []
  blueMergeSet := []
  redMergeSet := []
  timestamp := header.timestamp
  daaScore := header.daaScore
  blueScore := 0
  blueWork := header.blueWork
  nodup_directParents := List.nodup_nil
  nodup_blueMergeSet := List.nodup_nil
  nodup_redMergeSet := List.nodup_nil
  hash_not_mem := List.not_mem_nil
  hash_ne_selectedParent := h ▸ normalizer.genesisHash_ne_origin

def ordinaryBlock (header : RpcHeader) (verbose : RpcBlockVerboseData) :
    Except BlockNormalizationError ValidatedNodeBlock := do
  let directParents ← retainFirstOccurrences (header.parentsByLevel.head?.getD []) header.hash
  if hselected : verbose.selectedParentHash ∈ directParents.val then
    let blueMergeSet ← retainFirstOccurrences verbose.mergeSetBluesHashes header.hash
    let redMergeSet ← retainFirstOccurrences verbose.mergeSetRedsHashes header.hash
    pure
      { hash := header.hash
        selectedParent := verbose.selectedParentHash
        directParents := directParents.val
        blueMergeSet := blueMergeSet.val
        redMergeSet := redMergeSet.val
        timestamp := header.timestamp
        daaScore := header.daaScore
        blueScore := header.blueScore
        blueWork := header.blueWork
        nodup_directParents := directParents.property.1
        nodup_blueMergeSet := blueMergeSet.property.1
        nodup_redMergeSet := redMergeSet.property.1
        hash_not_mem := by
          rw [List.mem_append, List.mem_append]
          rintro ((hmem | hmem) | hmem)
          . exact redMergeSet.property.2 hmem
          . exact blueMergeSet.property.2 hmem
          . exact directParents.property.2 hmem
        hash_ne_selectedParent := by
          rintro heq
          rw [← heq] at hselected
          exact directParents.property.2 hselected }
  else
    .error .selectedParentNotDirect

def validatedBlock (normalizer : ResponseNormalizer) (block : RpcBlock) :
    Except BlockNormalizationError ValidatedNodeBlock := do
  checkScore block.header.daaScore maxDaaScore (.scoreOutOfRange .daaScore)
  if h : block.header.hash = normalizer.genesisHash then
    pure (normalizer.genesisBlock block.header h)
  else
    checkScore block.header.blueScore maxBlueScore (.scoreOutOfRange .blueScore)
    let verbose ← orError block.verboseData .missingVerboseData
    ordinaryBlock block.header verbose

def blockAdded (normalizer : ResponseNormalizer) (block : RpcBlock) :
    Except BlockNormalizationError ValidatedNodeBlock :=
  normalizer.validatedBlock block

def responseBlock (normalizer : ResponseNormalizer) (malformedKind : RecoveryInputKind)
    (block : RpcBlock) : Except ResponseNormalizationError ValidatedNodeBlock :=
  (normalizer.validatedBlock block).mapError (classifyBlockError malformedKind)

def getBlocks (normalizer : ResponseNormalizer) (lowHash : BlockHash) (response : List RpcBlock) :
    Except ResponseNormalizationError (List ValidatedNodeBlock) :=
  match response with
  | [] => .error (.malformed .malformedGetBlocks)
  | anchor :: blocks =>
    if anchor.header.hash ≠ lowHash then
      .error (.malformed .malformedGetBlocks)
    else do
      let normalized ← blocks.mapM (normalizer.responseBlock .malformedGetBlocks)
      ensure (¬ normalized.getLast?.any (fun block => block.hash = lowHash))
        (.malformed .malformedGetBlocks)
      pure normalized

def fullBlock (normalizer : ResponseNormalizer) (requestedHash : BlockHash) (block : RpcBlock) :
    Except ResponseNormalizationError ValidatedNodeBlock :=
  if block.header.hash ≠ requestedHash then
    .error (.malformed .malformedGetBlock)
  else
    normalizer.responseBlock .malformedGetBlock block

end ResponseNormalizer

end Kgi
