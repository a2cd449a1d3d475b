import GraphInspector.Node.Impl.Normalization

/-!
What a block satisfies after it is normalized.
-/

namespace Kgi

open Data

namespace ResponseNormalizer

variable {normalizer : ResponseNormalizer} {rpc : RpcBlock} {block : ValidatedNodeBlock}

structure IsGenesis (normalizer : ResponseNormalizer) (block : ValidatedNodeBlock) : Prop where
  hash : block.hash = normalizer.genesisHash
  selectedParent : block.selectedParent = origin
  directParents : block.directParents = []
  blueMergeSet : block.blueMergeSet = []
  redMergeSet : block.redMergeSet = []

structure Normalized (normalizer : ResponseNormalizer) (block : ValidatedNodeBlock) : Prop where
  daaScore_le : block.daaScore ≤ maxDaaScore
  genesis : block.hash = normalizer.genesisHash → normalizer.IsGenesis block
  selectedParent_mem : block.hash ≠ normalizer.genesisHash → block.selectedParent ∈ block.directParents

theorem checkScore_eq_ok {ε : Type} {value maximum : Nat} {error : ε} {u : Unit} :
    checkScore value maximum error = .ok u ↔ value ≤ maximum := by
  unfold checkScore
  split
  . next h => simp [Nat.not_le.mpr h]
  . next h => simp [Nat.not_lt.mp h]

theorem ordinaryBlock_eq_ok {header : RpcHeader} {verbose : RpcBlockVerboseData}
    (h : ordinaryBlock header verbose = .ok block) :
    block.hash = header.hash ∧ block.daaScore = header.daaScore ∧
      block.selectedParent ∈ block.directParents := by
  unfold ordinaryBlock at h
  rw [bind_eq_ok] at h
  obtain ⟨directParents, _, h⟩ := h
  split at h
  . next hselected =>
    simp only [bind_eq_ok, pure_eq_ok] at h
    obtain ⟨_, _, _, _, rfl⟩ := h
    exact ⟨rfl, rfl, hselected⟩
  . cases h

theorem validatedBlock_eq_ok (h : normalizer.validatedBlock rpc = .ok block) :
    block.hash = rpc.header.hash ∧ normalizer.Normalized block := by
  unfold validatedBlock at h
  rw [bind_eq_ok] at h
  obtain ⟨_, hscore, h⟩ := h
  rw [checkScore_eq_ok] at hscore
  split at h
  . next hgenesis =>
    rw [pure_eq_ok] at h
    subst h
    refine ⟨rfl, hscore, ?_, ?_⟩
    . intro _
      exact ⟨hgenesis, rfl, rfl, rfl, rfl⟩
    . intro hne
      exact absurd hgenesis hne
  . next hgenesis =>
    simp only [bind_eq_ok] at h
    obtain ⟨_, _, _, _, h⟩ := h
    obtain ⟨hhash, hdaa, hmem⟩ := ordinaryBlock_eq_ok h
    refine ⟨hhash, hdaa ▸ hscore, ?_, fun _ => hmem⟩
    intro heq
    exact absurd (hhash.symm.trans heq) hgenesis

theorem responseBlock_eq_ok {kind : RecoveryInputKind} (h : normalizer.responseBlock kind rpc = .ok block) :
    normalizer.validatedBlock rpc = .ok block := by
  unfold responseBlock at h
  cases hvalidated : normalizer.validatedBlock rpc with
  | error e =>
    rw [hvalidated] at h
    cases h
  | ok validated =>
    rw [hvalidated] at h
    cases h
    rfl

inductive Accepts (normalizer : ResponseNormalizer) (block : ValidatedNodeBlock) : Prop where
  | notification (rpc : RpcBlock) (h : normalizer.blockAdded rpc = .ok block)
  | page (lowHash : BlockHash) (response : List RpcBlock) (blocks : List ValidatedNodeBlock)
      (h : normalizer.getBlocks lowHash response = .ok blocks) (hmem : block ∈ blocks)
  | fetch (requestedHash : BlockHash) (rpc : RpcBlock)
      (h : normalizer.fullBlock requestedHash rpc = .ok block)

theorem getBlocks_eq_ok {lowHash : BlockHash} {response : List RpcBlock} {blocks : List ValidatedNodeBlock}
    (h : normalizer.getBlocks lowHash response = .ok blocks) (hmem : block ∈ blocks) :
    ∃ rpc ∈ response, normalizer.validatedBlock rpc = .ok block := by
  unfold getBlocks at h
  split at h
  . cases h
  . next anchor rest =>
    split at h
    . cases h
    . simp only [bind_eq_ok, pure_eq_ok] at h
      obtain ⟨normalized, hmap, _, _, rfl⟩ := h
      obtain ⟨rpc, hrpc, hok⟩ := (mem_of_mapM_eq_ok hmap).mp hmem
      exact ⟨rpc, List.mem_cons_of_mem _ hrpc, responseBlock_eq_ok hok⟩

theorem Accepts.normalized (h : normalizer.Accepts block) : normalizer.Normalized block := by
  cases h with
  | notification rpc h => exact (validatedBlock_eq_ok h).2
  | page lowHash response blocks h hmem =>
    obtain ⟨rpc, _, hok⟩ := getBlocks_eq_ok h hmem
    exact (validatedBlock_eq_ok hok).2
  | fetch requestedHash rpc h =>
    unfold fullBlock at h
    split at h
    . cases h
    . exact (validatedBlock_eq_ok (responseBlock_eq_ok h)).2

end ResponseNormalizer

end Kgi
