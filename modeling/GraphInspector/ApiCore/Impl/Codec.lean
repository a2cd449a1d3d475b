import GraphInspector.ApiModel.Impl.History
import GraphInspector.Data.Dictionary
import GraphInspector.Data.Json

/-!
The wire values of a batch of deltas, and their JSON. A batch shares one dictionary of block hashes, and
everything else refers to a hash by its place in it.
-/

namespace Kgi

open Data

def maxUncompressedNonDeltaGraphResponseBytes : Nat := 16 * 1024 * 1024

abbrev HashRef := Nat

abbrev HashDictionary := Dictionary BlockHash

abbrev Projecting := Interning BlockHash String

namespace HashDictionary

def intern (hash : BlockHash) : Projecting HashRef :=
  Interning.intern (2 ^ 32)
    "one encoded graph response contains at most u32::MAX distinct block hashes" hash

end HashDictionary

def u64Json (value : Nat) : Json :=
  .str value.repr

def blockHashJson (hash : BlockHash) : Json :=
  .str hash.toHex

def optionJson {α : Type} (json : α → Json) : Option α → Json
  | none => .null
  | some value => json value

def BlockColor.dto : BlockColor → Nat
  | .gray => 0
  | .blue => 1
  | .red => 2

structure BlockCoordinateDto where
  level : Nat
  slot : Nat
  deriving DecidableEq, Repr

namespace BlockCoordinateDto

def ofCoordinate (coordinate : BlockCoordinate) : BlockCoordinateDto :=
  ⟨coordinate.level, coordinate.slot⟩

def toJson (dto : BlockCoordinateDto) : Json :=
  .obj [("level", .num dto.level), ("slot", .num dto.slot)]

end BlockCoordinateDto

structure GraphBlockDto where
  hash : HashRef
  coordinate : BlockCoordinateDto
  timestamp : Timestamp
  daaScore : Nat
  selectedParentIndex : Option Nat
  directParents : List HashRef
  blueMergeSet : List HashRef
  redMergeSet : List HashRef
  color : Nat
  isInVspc : Bool
  deriving DecidableEq, Repr

def internHashes (hashes : List BlockHash) : Projecting (List HashRef) :=
  hashes.mapM HashDictionary.intern

namespace GraphBlockDto

def fromGraphBlock (block : GraphBlock) : Projecting GraphBlockDto := do
  let hash ← HashDictionary.intern block.hash
  let directParents ← internHashes block.directParents
  let blueMergeSet ← internHashes block.blueMergeSet
  let redMergeSet ← internHashes block.redMergeSet
  return {
    hash, directParents, blueMergeSet, redMergeSet
    coordinate := .ofCoordinate block.coordinate
    timestamp := block.timestamp
    daaScore := block.daaScore
    selectedParentIndex := block.selectedParentIndex
    color := block.color.dto
    isInVspc := block.isInVspc }

def toJson (dto : GraphBlockDto) : Json :=
  .obj [
    ("hash", .num dto.hash),
    ("coordinate", dto.coordinate.toJson),
    ("timestamp", u64Json dto.timestamp),
    ("daa_score", u64Json dto.daaScore),
    ("selected_parent_index", optionJson .num dto.selectedParentIndex),
    ("direct_parents", .arr (dto.directParents.map .num)),
    ("blue_merge_set", .arr (dto.blueMergeSet.map .num)),
    ("red_merge_set", .arr (dto.redMergeSet.map .num)),
    ("color", .num dto.color),
    ("is_in_vspc", .bool dto.isInVspc)]

end GraphBlockDto

structure EdgeIdDto where
  parent : HashRef
  child : HashRef
  deriving DecidableEq, Repr

namespace EdgeIdDto

def edgeId (id : EdgeId) : Projecting EdgeIdDto := do
  let parent ← HashDictionary.intern id.parent
  let child ← HashDictionary.intern id.child
  return ⟨parent, child⟩

def toJson (dto : EdgeIdDto) : Json :=
  .obj [("parent", .num dto.parent), ("child", .num dto.child)]

end EdgeIdDto

structure GraphEdgeDto where
  id : EdgeIdDto
  parentCoordinate : BlockCoordinateDto
  childCoordinate : BlockCoordinateDto
  deriving DecidableEq, Repr

namespace GraphEdgeDto

def fromGraphEdge (edge : GraphEdge) : Projecting GraphEdgeDto := do
  let id ← EdgeIdDto.edgeId edge.id
  return ⟨id, .ofCoordinate edge.parentCoordinate, .ofCoordinate edge.childCoordinate⟩

def toJson (dto : GraphEdgeDto) : Json :=
  .obj [
    ("id", dto.id.toJson),
    ("parent_coordinate", dto.parentCoordinate.toJson),
    ("child_coordinate", dto.childCoordinate.toJson)]

end GraphEdgeDto

structure LevelValueDto where
  size : Nat
  daaScore : Option Nat
  deriving DecidableEq, Repr

namespace LevelValueDto

def ofLevel (level : Level) : LevelValueDto :=
  ⟨level.size, level.daaScore⟩

def toJson (dto : LevelValueDto) : Json :=
  .obj [("size", .num dto.size), ("daa_score", optionJson u64Json dto.daaScore)]

end LevelValueDto

structure LevelMutationDto where
  level : Nat
  value : Option LevelValueDto
  deriving DecidableEq, Repr

namespace LevelMutationDto

def ofChange (change : LevelChange) : LevelMutationDto :=
  ⟨change.level, change.after.map .ofLevel⟩

def toJson (dto : LevelMutationDto) : Json :=
  .obj [("level", .num dto.level), ("value", optionJson LevelValueDto.toJson dto.value)]

end LevelMutationDto

structure FieldMutationDto (α : Type) where
  hash : HashRef
  value : α
  deriving DecidableEq, Repr

namespace FieldMutationDto

def fromChange {α β : Type} (value : α → β) (hash : BlockHash) (change : FieldChange α) :
    Projecting (FieldMutationDto β) := do
  let hash ← HashDictionary.intern hash
  return ⟨hash, value change.after⟩

def toJson {α : Type} (json : α → Json) (dto : FieldMutationDto α) : Json :=
  .obj [("hash", .num dto.hash), ("value", json dto.value)]

end FieldMutationDto

structure GraphDelta.Iteration (delta : GraphDelta) where
  blockChanges : List (BlockHash × Option GraphBlock)
  edgeChanges : List (EdgeId × Option GraphEdge)
  isInVspcChanges : List (BlockHash × FieldChange Bool)
  colorChanges : List (BlockHash × FieldChange BlockColor)
  blockChanges_perm : blockChanges.Perm delta.blockChanges.toList
  edgeChanges_perm : edgeChanges.Perm delta.edgeChanges.toList
  isInVspcChanges_perm : isInVspcChanges.Perm delta.isInVspcChanges.toList
  colorChanges_perm : colorChanges.Perm delta.colorChanges.toList

def GraphDelta.Iteration.sorted (delta : GraphDelta) : delta.Iteration where
  blockChanges := delta.blockChanges.toList
  edgeChanges := delta.edgeChanges.toList
  isInVspcChanges := delta.isInVspcChanges.toList
  colorChanges := delta.colorChanges.toList
  blockChanges_perm := List.Perm.refl _
  edgeChanges_perm := List.Perm.refl _
  isInVspcChanges_perm := List.Perm.refl _
  colorChanges_perm := List.Perm.refl _

structure GraphDeltaEntryDto where
  fromRevisionId : Nat
  toRevisionId : Nat
  revisionTimestampMs : Nat
  headLevel : Nat
  blockUpserts : List GraphBlockDto
  edgeUpserts : List GraphEdgeDto
  levelMutations : List LevelMutationDto
  isInVspcMutations : List (FieldMutationDto Bool)
  colorMutations : List (FieldMutationDto Nat)
  deriving DecidableEq, Repr

namespace GraphDeltaEntryDto

def fromDelta (delta : GraphDelta) (order : delta.Iteration) : Projecting GraphDeltaEntryDto := do
  let blockUpserts ← (order.blockChanges.filterMap Prod.snd).mapM GraphBlockDto.fromGraphBlock
  let edgeUpserts ← (order.edgeChanges.filterMap Prod.snd).mapM GraphEdgeDto.fromGraphEdge
  let isInVspcMutations ← order.isInVspcChanges.mapM fun (hash, change) =>
    FieldMutationDto.fromChange id hash change
  let colorMutations ← order.colorChanges.mapM fun (hash, change) =>
    FieldMutationDto.fromChange BlockColor.dto hash change
  return {
    blockUpserts, edgeUpserts, isInVspcMutations, colorMutations
    fromRevisionId := delta.fromRevisionId
    toRevisionId := delta.toRevisionId
    revisionTimestampMs := delta.revisionTimestampMs
    headLevel := delta.headLevel
    levelMutations := delta.levelChanges.map .ofChange }

def toJson (dto : GraphDeltaEntryDto) : Json :=
  .obj [
    ("from_revision_id", u64Json dto.fromRevisionId),
    ("to_revision_id", u64Json dto.toRevisionId),
    ("revision_timestamp_ms", u64Json dto.revisionTimestampMs),
    ("head_level", .num dto.headLevel),
    ("block_upserts", .arr (dto.blockUpserts.map GraphBlockDto.toJson)),
    ("edge_upserts", .arr (dto.edgeUpserts.map GraphEdgeDto.toJson)),
    ("level_mutations", .arr (dto.levelMutations.map LevelMutationDto.toJson)),
    ("is_in_vspc_mutations", .arr (dto.isInVspcMutations.map (FieldMutationDto.toJson .bool))),
    ("color_mutations", .arr (dto.colorMutations.map (FieldMutationDto.toJson .num)))]

end GraphDeltaEntryDto

structure GraphDeltaBatchDto where
  hashes : List BlockHash
  deltas : List GraphDeltaEntryDto
  deriving DecidableEq, Repr

namespace GraphDeltaBatchDto

def fromEntries (order : (delta : GraphDelta) → delta.Iteration)
    (entries : List GraphHistoryEntry) : Panics GraphDeltaBatchDto := do
  let (deltas, hashes) ← StateT.run
    (entries.mapM fun entry => GraphDeltaEntryDto.fromDelta entry.delta (order entry.delta))
    Dictionary.empty
  return ⟨hashes.entries, deltas⟩

def toJson (batch : GraphDeltaBatchDto) : Json :=
  .obj [
    ("hashes", .arr (batch.hashes.map blockHashJson)),
    ("deltas", .arr (batch.deltas.map GraphDeltaEntryDto.toJson))]

def encode (batch : GraphDeltaBatchDto) : List UInt8 :=
  batch.toJson.encode

end GraphDeltaBatchDto

end Kgi
