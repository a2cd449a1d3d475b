import GraphInspector.ApiCore.Impl.Codec
import GraphInspector.ApiCore.Impl.Lineage

/-!
A projection to wire values records the hashes it meets in order, and its value depends on the places of
these hashes alone.
-/

namespace Kgi

open Data

abbrev Projects {α : Type} (x : Projecting α) (hashes : List BlockHash)
    (value : (BlockHash → HashRef) → α) : Prop :=
  Interning.Writes (2 ^ 32) x hashes value

theorem HashDictionary.intern_projects (hash : BlockHash) :
    Projects (HashDictionary.intern hash) [hash] fun number => number hash :=
  Interning.Writes.intern _ hash

theorem internHashes_projects (hashes : List BlockHash) :
    Projects (internHashes hashes) hashes fun number => hashes.map number := by
  have h := Interning.Writes.mapM HashDictionary.intern_projects hashes
  rw [List.flatMap_singleton'] at h
  exact h

namespace GraphBlockDto

def numbered (block : GraphBlock) (number : BlockHash → HashRef) : GraphBlockDto where
  hash := number block.hash
  coordinate := .ofCoordinate block.coordinate
  timestamp := block.timestamp
  daaScore := block.daaScore
  selectedParentIndex := block.selectedParentIndex
  directParents := block.directParents.map number
  blueMergeSet := block.blueMergeSet.map number
  redMergeSet := block.redMergeSet.map number
  color := block.color.dto
  isInVspc := block.isInVspc

theorem fromGraphBlock_projects (block : GraphBlock) :
    Projects (fromGraphBlock block) (block.hash :: block.relationships) (numbered block) := by
  have h := (HashDictionary.intern_projects block.hash).bind fun hash =>
    (internHashes_projects block.directParents).bind fun directParents =>
    (internHashes_projects block.blueMergeSet).bind fun blueMergeSet =>
    (internHashes_projects block.redMergeSet).bind fun redMergeSet =>
    Interning.Writes.pure (GraphBlockDto.mk hash (.ofCoordinate block.coordinate) block.timestamp
      block.daaScore block.selectedParentIndex directParents blueMergeSet redMergeSet block.color.dto
      block.isInVspc)
  rw [List.append_nil, ← List.append_assoc block.directParents] at h
  exact h

end GraphBlockDto

namespace GraphEdgeDto

def numbered (edge : GraphEdge) (number : BlockHash → HashRef) : GraphEdgeDto where
  id := ⟨number edge.id.parent, number edge.id.child⟩
  parentCoordinate := .ofCoordinate edge.parentCoordinate
  childCoordinate := .ofCoordinate edge.childCoordinate

theorem fromGraphEdge_projects (edge : GraphEdge) :
    Projects (fromGraphEdge edge) [edge.id.parent, edge.id.child] (numbered edge) := by
  have hid := (HashDictionary.intern_projects edge.id.parent).bind fun parent =>
    (HashDictionary.intern_projects edge.id.child).bind fun child =>
    Interning.Writes.pure (EdgeIdDto.mk parent child)
  exact hid.bind fun id => Interning.Writes.pure
    (GraphEdgeDto.mk id (.ofCoordinate edge.parentCoordinate) (.ofCoordinate edge.childCoordinate))

end GraphEdgeDto

namespace FieldMutationDto

variable {α β : Type}

def numbered (value : α → β) (change : BlockHash × FieldChange α) (number : BlockHash → HashRef) :
    FieldMutationDto β :=
  ⟨number change.1, value change.2.after⟩

theorem fromChange_projects (value : α → β) (change : BlockHash × FieldChange α) :
    Projects (fromChange value change.1 change.2) [change.1] (numbered value change) :=
  (HashDictionary.intern_projects change.1).bind fun hash =>
    Interning.Writes.pure (FieldMutationDto.mk hash (value change.2.after))

theorem mapM_fromChange_projects (value : α → β) (changes : List (BlockHash × FieldChange α)) :
    Projects (changes.mapM fun change => fromChange value change.1 change.2)
      (changes.map Prod.fst) fun number => changes.map fun change => numbered value change number := by
  have h := Interning.Writes.mapM (fromChange_projects value) changes
  rw [← List.map_eq_flatMap] at h
  exact h

end FieldMutationDto

namespace GraphDelta.Iteration

variable {delta : GraphDelta} (order : delta.Iteration)

def blocks : List GraphBlock :=
  order.blockChanges.filterMap Prod.snd

def edges : List GraphEdge :=
  order.edgeChanges.filterMap Prod.snd

def hashes : List BlockHash :=
  (order.blocks.flatMap fun block => block.hash :: block.relationships) ++
    ((order.edges.flatMap fun edge => [edge.id.parent, edge.id.child]) ++
      (order.isInVspcChanges.map Prod.fst ++ order.colorChanges.map Prod.fst))

end GraphDelta.Iteration

namespace GraphDeltaEntryDto

def numbered (delta : GraphDelta) (order : delta.Iteration) (number : BlockHash → HashRef) :
    GraphDeltaEntryDto where
  fromRevisionId := delta.fromRevisionId
  toRevisionId := delta.toRevisionId
  revisionTimestampMs := delta.revisionTimestampMs
  headLevel := delta.headLevel
  blockUpserts := order.blocks.map fun block => GraphBlockDto.numbered block number
  edgeUpserts := order.edges.map fun edge => GraphEdgeDto.numbered edge number
  levelMutations := delta.levelChanges.map .ofChange
  isInVspcMutations := order.isInVspcChanges.map fun change =>
    FieldMutationDto.numbered id change number
  colorMutations := order.colorChanges.map fun change =>
    FieldMutationDto.numbered BlockColor.dto change number

theorem fromDelta_projects (delta : GraphDelta) (order : delta.Iteration) :
    Projects (fromDelta delta order) order.hashes (numbered delta order) := by
  have h := (Interning.Writes.mapM GraphBlockDto.fromGraphBlock_projects order.blocks).bind
    fun blockUpserts =>
    (Interning.Writes.mapM GraphEdgeDto.fromGraphEdge_projects order.edges).bind fun edgeUpserts =>
    (FieldMutationDto.mapM_fromChange_projects id order.isInVspcChanges).bind
      fun isInVspcMutations =>
    (FieldMutationDto.mapM_fromChange_projects BlockColor.dto order.colorChanges).bind
      fun colorMutations =>
    Interning.Writes.pure (GraphDeltaEntryDto.mk delta.fromRevisionId delta.toRevisionId
      delta.revisionTimestampMs delta.headLevel blockUpserts edgeUpserts
      (delta.levelChanges.map .ofChange) isInVspcMutations colorMutations)
  rw [List.append_nil] at h
  exact h

end GraphDeltaEntryDto

namespace GraphDeltaBatchDto

variable (order : (delta : GraphDelta) → delta.Iteration) (entries : List GraphHistoryEntry)

def dictionary : HashDictionary :=
  Dictionary.empty.recordAll (entries.flatMap fun entry => (order entry.delta).hashes)

theorem fromEntries_eq_ok (h : (dictionary order entries).entries.length ≤ 2 ^ 32) :
    fromEntries order entries = .ok ⟨(dictionary order entries).entries,
      entries.map fun entry => GraphDeltaEntryDto.numbered entry.delta (order entry.delta)
        (dictionary order entries).number⟩ := by
  have hwrites : Projects
      (entries.mapM fun entry => GraphDeltaEntryDto.fromDelta entry.delta (order entry.delta)) _ _ :=
    Interning.Writes.mapM
      (fun entry : GraphHistoryEntry =>
        GraphDeltaEntryDto.fromDelta_projects entry.delta (order entry.delta)) entries
  unfold fromEntries StateT.run
  rw [hwrites Dictionary.empty _ h (Dictionary.numbers_number _), ok_bind]
  rfl

end GraphDeltaBatchDto

end Kgi
