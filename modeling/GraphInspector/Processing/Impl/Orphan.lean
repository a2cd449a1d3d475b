import GraphInspector.Data.Multimap
import GraphInspector.Model.Block

/-!
The missing-reference topology of the orphan manager: retained orphans, the reverse index from a
missing hash to the orphans that wait for it, and the hashes whose resolution was requested.
-/

namespace Kgi

open Data

def maxOrphanBlocks : Nat := 1024

def orphanResolutionThreshold : Nat := 256

structure OrphanEntry where
  block : ValidatedNodeBlock
  missing : KeySet BlockHash
  deriving DecidableEq

structure OrphanTopology where
  orphans : Map BlockHash OrphanEntry
  dependents : Multimap BlockHash BlockHash
  resolutionPending : KeySet BlockHash
  resolutionActive : Bool
  deriving DecidableEq

inductive TopologyError where
  | capacityExhausted
  | emptyMissingSet
  deriving DecidableEq, Repr

structure TopologyMutation where
  ready : List ValidatedNodeBlock
  cancel : List BlockHash
  thresholdCrossed : Bool
  deriving DecidableEq

namespace TopologyMutation

def default : TopologyMutation := ⟨[], [], false⟩

end TopologyMutation

namespace OrphanTopology

def empty : OrphanTopology := ⟨∅, ∅, ∅, false⟩

def removeUnneededPending (topology : OrphanTopology) : OrphanTopology × List BlockHash :=
  let unneeded := topology.resolutionPending.toList.filter
    fun hash => !topology.dependents.contains hash
  let pending := unneeded.foldl (fun pending hash => pending.erase hash) topology.resolutionPending
  ({ topology with resolutionPending := pending }, unneeded)

def addOrphan (topology : OrphanTopology) (block : ValidatedNodeBlock) (missing : List BlockHash) :
    OrphanTopology × Except TopologyError TopologyMutation :=
  if topology.orphans.contains block.hash then
    (topology, .ok .default)
  else if topology.orphans.size = maxOrphanBlocks then
    (topology, .error .capacityExhausted)
  else
    let missing := KeySet.ofElems missing
    if missing.isEmpty then
      (topology, .error .emptyMissingSet)
    else
      let dependents := missing.toList.foldl
        (fun dependents dependency => dependents.add dependency block.hash) topology.dependents
      let orphans := topology.orphans.insert block.hash ⟨block, missing⟩
      let ownCancel := if topology.resolutionPending.contains block.hash then [block.hash] else []
      let pending := topology.resolutionPending.erase block.hash
      let admitted := { topology with
        orphans := orphans, dependents := dependents, resolutionPending := pending }
      let (trimmed, unneeded) := admitted.removeUnneededPending
      let crossed := !trimmed.resolutionActive && orphanResolutionThreshold ≤ trimmed.orphans.size
      ({ trimmed with resolutionActive := trimmed.resolutionActive || crossed },
        .ok ⟨[], ownCancel ++ unneeded, crossed⟩)

def removeOrphan (topology : OrphanTopology) (hash : BlockHash) : OrphanTopology :=
  match topology.orphans[hash]? with
  | none => topology
  | some entry =>
    let dependents := entry.missing.toList.foldl
      (fun dependents dependency => dependents.remove dependency hash) topology.dependents
    { topology with orphans := topology.orphans.erase hash, dependents := dependents }

def resolveMissing (hash : BlockHash)
    (state : Map BlockHash OrphanEntry × List ValidatedNodeBlock) (orphanHash : BlockHash) :
    Map BlockHash OrphanEntry × List ValidatedNodeBlock :=
  match state.1[orphanHash]? with
  | none => state
  | some entry =>
    let missing := entry.missing.erase hash
    if missing.isEmpty then
      (state.1.erase orphanHash, state.2 ++ [entry.block])
    else
      (state.1.insert orphanHash { entry with missing := missing }, state.2)

def blockPersisted (topology : OrphanTopology) (hash : BlockHash) :
    OrphanTopology × TopologyMutation :=
  let ownCancel := if topology.resolutionPending.contains hash then [hash] else []
  let unpended := { topology with resolutionPending := topology.resolutionPending.erase hash }
  let removed := unpended.removeOrphan hash
  let affected := removed.dependents.bucket hash
  let (orphans, ready) := affected.foldl (resolveMissing hash) (removed.orphans, [])
  let resolved := { removed with
    orphans := orphans, dependents := removed.dependents.erase hash }
  let (trimmed, unneeded) := resolved.removeUnneededPending
  -- Sorting and deduplicating the cancellations is reading them back from a set.
  let cancel := (KeySet.ofElems (ownCancel ++ unneeded)).toList
  let active := if trimmed.orphans.isEmpty then false else trimmed.resolutionActive
  ({ trimmed with resolutionActive := active }, ⟨ready, cancel, false⟩)

def transitiveImpactLoop (topology : OrphanTopology) :
    Nat → List BlockHash → KeySet BlockHash → List BlockHash × KeySet BlockHash
  | 0, stack, visited => (stack, visited)
  | _ + 1, [], visited => ([], visited)
  | fuel + 1, hash :: stack, visited =>
    let (stack, visited) := (topology.dependents.bucket hash).foldl
      (fun (state : List BlockHash × KeySet BlockHash) child =>
        if state.2.contains child then state else (child :: state.1, state.2.insert child))
      (stack, visited)
    topology.transitiveImpactLoop fuel stack visited

def transitiveImpactFuel (topology : OrphanTopology) : Nat :=
  topology.dependents.toList.foldl (fun total entry => total + entry.2.size) 1

def transitiveImpact (topology : OrphanTopology) (dependency : BlockHash) : Nat :=
  (topology.transitiveImpactLoop topology.transitiveImpactFuel [dependency] ∅).2.size

def candidateLe (left right : BlockHash × Nat) : Bool :=
  right.2 < left.2 || (left.2 == right.2 && left.1 ≤ right.1)

def takeResolutionCandidates (topology : OrphanTopology) : OrphanTopology × List BlockHash :=
  if !topology.resolutionActive then
    (topology, [])
  else
    let candidates := (topology.dependents.keys.filter fun hash =>
        !topology.orphans.contains hash && !topology.resolutionPending.contains hash).map
      fun hash => (hash, topology.transitiveImpact hash)
    let hashes := (candidates.insertionSort (fun left right => candidateLe left right)).map Prod.fst
    let pending := hashes.foldl (fun pending hash => pending.insert hash) topology.resolutionPending
    ({ topology with resolutionPending := pending }, hashes)

end OrphanTopology

end Kgi
