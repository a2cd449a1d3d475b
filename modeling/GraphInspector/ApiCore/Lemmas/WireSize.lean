import GraphInspector.ApiCore.Lemmas.Codec

/-!
How many bytes the JSON of a batch takes.
-/

namespace Kgi

open Data

variable {bound : Nat}

structure GraphBlock.InRange (block : GraphBlock) : Prop where
  timestamp : block.timestamp < 2 ^ 64
  daaScore : block.daaScore < 2 ^ 64
  selectedParentIndex : ∀ index ∈ block.selectedParentIndex, index < 2 ^ 32

structure Level.InRange (level : Level) : Prop where
  size : level.size < 2 ^ 16
  daaScore : ∀ daaScore ∈ level.daaScore, daaScore < 2 ^ 64

structure LevelChange.InRange (change : LevelChange) : Prop where
  level : change.level < 2 ^ 32
  after : ∀ after ∈ change.after, after.InRange

structure GraphDelta.InRange (delta : GraphDelta) : Prop where
  toRevisionId : delta.toRevisionId < 2 ^ 64
  revisionTimestampMs : delta.revisionTimestampMs < 2 ^ 64
  headLevel : delta.headLevel < 2 ^ 32
  blocks : ∀ (hash : BlockHash) (block : GraphBlock),
    delta.blockChanges[hash]? = some (some block) → block.InRange
  levels : ∀ change ∈ delta.levelChanges, change.InRange

section Scalars

open Json

variable {value : Nat}

theorem size_u16_le (h : value < 2 ^ 16) : size (num value) ≤ 5 :=
  size_num_le (by decide) (Nat.lt_of_lt_of_le h (by decide))

theorem size_u32_le (h : value < 2 ^ 32) : size (num value) ≤ 10 :=
  size_num_le (by decide) (Nat.lt_of_lt_of_le h (by decide))

theorem size_u64Json_le (h : value < 2 ^ 64) : size (u64Json value) ≤ 22 :=
  size_decimal_le (by decide) (Nat.lt_of_lt_of_le h (by decide))

theorem size_blockHashJson (hash : BlockHash) : size (blockHashJson hash) = 66 := by
  have htext : hash.toHex.toList = (List.range 64).map fun index =>
      Nat.digitChar (hash / 16 ^ (63 - index) % 16) := by
    rw [BlockHash.toHex, String.toList_ofList]
  unfold blockHashJson
  rw [size_str, htext, List.length_map, List.length_range]
  rw [htext]
  intro c hc
  obtain ⟨index, _, rfl⟩ := List.mem_map.mp hc
  exact plain_digitChar _ (Nat.mod_lt _ (by decide))

theorem size_optionJson_le {α : Type} {json : α → Json} {value : Option α} (hnull : 4 ≤ bound)
    (h : ∀ a ∈ value, size (json a) ≤ bound) :
    size (optionJson json value) ≤ bound := by
  cases value with
  | none => exact hnull
  | some a => exact h a rfl

theorem size_color_le (color : BlockColor) : size (num color.dto) ≤ 1 :=
  size_num_le (by decide) (by cases color <;> decide)

theorem size_arr_const_le {α : Type} {json : α → Json} {items : List α}
    (h : ∀ item ∈ items, size (json item) < bound) :
    size (arr (items.map json)) ≤ items.length * bound + 2 := by
  have hsize := size_arr_map_le h
  rw [List.map_const', List.sum_replicate_nat] at hsize
  exact hsize

end Scalars

section Values

open Json

variable {number : BlockHash → HashRef} (hnumber : ∀ hash, number hash < 2 ^ 32)

theorem BlockCoordinateDto.size_le (coordinate : BlockCoordinate) :
    (toJson (ofCoordinate coordinate)).size ≤ 34 := by
  have hframing : framing ["level", "slot"] = 19 := by decide
  have hlevel := size_u32_le coordinate.level_lt
  have hslot : size (num coordinate.slot) ≤ 5 :=
    size_u16_le (Nat.lt_of_le_of_lt coordinate.slot_le (by decide))
  unfold toJson ofCoordinate
  apply Nat.le_trans (size_obj_le _)
  simp only [List.map_cons, List.map_nil, List.sum_cons, List.sum_nil, hframing]
  omega

include hnumber

theorem size_references_le (hashes : List BlockHash) :
    (arr ((hashes.map number).map .num)).size ≤ hashes.length * 11 + 2 := by
  have hitems : ∀ reference ∈ hashes.map number, size (num reference) < 11 := by
    intro reference hreference
    obtain ⟨hash, _, rfl⟩ := List.mem_map.mp hreference
    exact Nat.lt_succ_of_le (size_u32_le (hnumber hash))
  have h := size_arr_const_le hitems
  rw [List.length_map] at h
  exact h

theorem GraphBlockDto.size_lt {block : GraphBlock} (h : block.InRange) :
    (toJson (numbered block number)).size < 262 + block.relationships.length * 11 := by
  have hframing : framing ["hash", "coordinate", "timestamp", "daa_score", "selected_parent_index",
      "direct_parents", "blue_merge_set", "red_merge_set", "color", "is_in_vspc"] = 151 := by decide
  have hhash := size_u32_le (hnumber block.hash)
  have hcoordinate := BlockCoordinateDto.size_le block.coordinate
  have htimestamp := size_u64Json_le h.timestamp
  have hdaaScore := size_u64Json_le h.daaScore
  have hindex : size (optionJson .num block.selectedParentIndex) ≤ 10 :=
    size_optionJson_le (by decide) fun index hindex => size_u32_le (h.selectedParentIndex index hindex)
  have hparents := size_references_le hnumber block.directParents
  have hblue := size_references_le hnumber block.blueMergeSet
  have hred := size_references_le hnumber block.redMergeSet
  have hcolor := size_color_le block.color
  have hvspc := size_bool_le block.isInVspc
  unfold toJson numbered GraphBlock.relationships
  apply Nat.lt_of_le_of_lt (size_obj_le _)
  simp only [List.map_cons, List.map_nil, List.sum_cons, List.sum_nil, hframing, List.length_append]
  omega

theorem GraphEdgeDto.size_lt (edge : GraphEdge) :
    (toJson (numbered edge number)).size < 160 := by
  have hframing : framing ["id", "parent_coordinate", "child_coordinate"] = 49 := by decide
  have hidFraming : framing ["parent", "child"] = 21 := by decide
  have hparent := size_u32_le (hnumber edge.id.parent)
  have hchild := size_u32_le (hnumber edge.id.child)
  have hparentCoordinate := BlockCoordinateDto.size_le edge.parentCoordinate
  have hchildCoordinate := BlockCoordinateDto.size_le edge.childCoordinate
  have hid : (EdgeIdDto.toJson ⟨number edge.id.parent, number edge.id.child⟩).size ≤ 41 := by
    apply Nat.le_trans (size_obj_le _)
    simp only [List.map_cons, List.map_nil, List.sum_cons, List.sum_nil, hidFraming]
    omega
  unfold toJson numbered
  apply Nat.lt_of_le_of_lt (size_obj_le _)
  simp only [List.map_cons, List.map_nil, List.sum_cons, List.sum_nil, hframing]
  omega

theorem FieldMutationDto.size_lt {α β : Type} {value : α → β} {json : β → Json}
    (hvalue : ∀ a, (json (value a)).size ≤ bound) (change : BlockHash × FieldChange α) :
    (toJson json (numbered value change number)).size < bound + 30 := by
  have hframing : framing ["hash", "value"] = 19 := by decide
  have hhash := size_u32_le (hnumber change.1)
  have hafter := hvalue change.2.after
  unfold toJson numbered
  apply Nat.lt_of_le_of_lt (size_obj_le _)
  simp only [List.map_cons, List.map_nil, List.sum_cons, List.sum_nil, hframing]
  omega

omit hnumber

theorem LevelMutationDto.size_lt {change : LevelChange} (h : change.InRange) :
    (toJson (ofChange change)).size < if change.after.isSome then 82 else 36 := by
  have hframing : framing ["level", "value"] = 20 := by decide
  have hvalueFraming : framing ["size", "daa_score"] = 23 := by decide
  have hlevel := size_u32_le h.level
  unfold toJson ofChange
  apply Nat.lt_of_le_of_lt (size_obj_le _)
  simp only [List.map_cons, List.map_nil, List.sum_cons, List.sum_nil, hframing]
  cases hafter : change.after with
  | none =>
    have hnull : (optionJson LevelValueDto.toJson none).size = 4 := by decide
    simp only [Option.map_none, hnull, Option.isSome_none, Bool.false_eq_true, ↓reduceIte]
    omega
  | some level =>
    obtain ⟨hsize, hdaaScore⟩ := h.after level hafter
    have hsize := size_u16_le hsize
    have hdaaScore : size (optionJson u64Json level.daaScore) ≤ 22 :=
      size_optionJson_le (by decide) fun daaScore hmem => size_u64Json_le (hdaaScore daaScore hmem)
    have hvalue : (LevelValueDto.toJson (.ofLevel level)).size ≤ 50 := by
      unfold LevelValueDto.toJson LevelValueDto.ofLevel
      apply Nat.le_trans (size_obj_le _)
      simp only [List.map_cons, List.map_nil, List.sum_cons, List.sum_nil, hvalueFraming]
      omega
    simp only [Option.map_some, optionJson, Option.isSome_some, ↓reduceIte]
    omega

end Values

namespace GraphDelta

variable {delta : GraphDelta}

theorem sum_blocks (blocks : List GraphBlock) :
    (blocks.map fun block => 262 + block.relationships.length * 11).sum
      = blocks.length * 262 + (blocks.flatMap GraphBlock.relationships).length * 11 := by
  induction blocks with
  | nil => rfl
  | cons block blocks ih =>
    rw [List.map_cons, List.sum_cons, ih, List.flatMap_cons, List.length_append, List.length_cons]
    omega

theorem sum_levelChanges (changes : List LevelChange) :
    (changes.map fun change => if change.after.isSome then 82 else 36).sum
      = (changes.countP fun change => change.after.isSome) * 82
        + (changes.length - changes.countP fun change => change.after.isSome) * 36 := by
  induction changes with
  | nil => rfl
  | cons change changes ih =>
    have hle := List.countP_le_length (p := fun change : LevelChange => change.after.isSome)
      (l := changes)
    rw [List.map_cons, List.sum_cons, ih, List.countP_cons, List.length_cons]
    split
    . omega
    . omega

theorem Iteration.estimate_eq (order : delta.Iteration) :
    estimateRawDeltaBytes delta =
      230 + (KeySet.ofElems order.hashes).size * 68 + order.blocks.length * 236 +
      (order.blocks.flatMap GraphBlock.relationships).length * 6 + order.edges.length * 152 +
      (delta.levelChanges.countP fun change => change.after.isSome) * 68 +
      (delta.levelChanges.length - delta.levelChanges.countP fun change => change.after.isSome) * 38 +
      order.isInVspcChanges.length * 32 + order.colorChanges.length * 25 := by
  have hblocks : order.blocks.Perm (delta.blockChanges.toList.filterMap Prod.snd) :=
    order.blockChanges_perm.filterMap _
  have hedges : order.edges.Perm (delta.edgeChanges.toList.filterMap Prod.snd) :=
    order.edgeChanges_perm.filterMap _
  have hvspc : order.isInVspcChanges.length = delta.isInVspcChanges.size := by
    rw [order.isInVspcChanges_perm.length_eq, Std.ExtTreeMap.length_toList]
  have hcolor : order.colorChanges.length = delta.colorChanges.size := by
    rw [order.colorChanges_perm.length_eq, Std.ExtTreeMap.length_toList]
  have hhashes : KeySet.ofElems order.hashes = KeySet.ofElems
      (((delta.blockChanges.toList.filterMap Prod.snd).flatMap fun block =>
          block.hash :: block.relationships) ++
        ((delta.edgeChanges.toList.filterMap Prod.snd).flatMap fun edge =>
          [edge.id.parent, edge.id.child]) ++
        delta.isInVspcChanges.keys ++ delta.colorChanges.keys) := by
    apply Std.ExtTreeSet.ext_mem
    intro hash
    rw [KeySet.mem_ofElems, KeySet.mem_ofElems, List.append_assoc, List.append_assoc]
    apply List.Perm.mem_iff
    refine (hblocks.flatMap_right _).append ((hedges.flatMap_right _).append ?_)
    rw [← Std.ExtTreeMap.map_fst_toList_eq_keys, ← Std.ExtTreeMap.map_fst_toList_eq_keys]
    exact (order.isInVspcChanges_perm.map _).append (order.colorChanges_perm.map _)
  unfold estimateRawDeltaBytes
  dsimp only
  rw [← hhashes, ← hblocks.length_eq, ← hedges.length_eq, ← hvspc, ← hcolor,
    ← (hblocks.flatMap_right GraphBlock.relationships).length_eq]
  rfl

end GraphDelta

open Json in
theorem GraphDeltaEntryDto.size_le {delta : GraphDelta} (h : delta.InRange) (order : delta.Iteration)
    {number : BlockHash → HashRef} (hnumber : ∀ hash, number hash < 2 ^ 32) :
    (toJson (numbered delta order number)).size + 1 + (KeySet.ofElems order.hashes).size * 67 + 26 ≤
      4 * estimateRawDeltaBytes delta := by
  have hframing : framing ["from_revision_id", "to_revision_id", "revision_timestamp_ms",
      "head_level", "block_upserts", "edge_upserts", "level_mutations", "is_in_vspc_mutations",
      "color_mutations"] = 174 := by decide
  have hfrom := size_u64Json_le (Nat.lt_trans delta.forward h.toRevisionId)
  have hto := size_u64Json_le h.toRevisionId
  have htimestamp := size_u64Json_le h.revisionTimestampMs
  have hhead := size_u32_le h.headLevel
  have hblocks : (arr ((order.blocks.map fun block =>
      GraphBlockDto.numbered block number).map GraphBlockDto.toJson)).size ≤
      order.blocks.length * 262 + (order.blocks.flatMap GraphBlock.relationships).length * 11 + 2 := by
    rw [← GraphDelta.sum_blocks, List.map_map]
    apply size_arr_map_le
    intro block hblock
    obtain ⟨⟨hash, change⟩, hmem, hchange⟩ := List.mem_filterMap.mp hblock
    subst hchange
    have hmem := order.blockChanges_perm.mem_iff.mp hmem
    rw [Map.mem_toList] at hmem
    exact GraphBlockDto.size_lt hnumber (h.blocks hash block hmem)
  have hedges : (arr ((order.edges.map fun edge =>
      GraphEdgeDto.numbered edge number).map GraphEdgeDto.toJson)).size ≤
      order.edges.length * 160 + 2 := by
    rw [List.map_map]
    exact size_arr_const_le fun edge _ => GraphEdgeDto.size_lt hnumber edge
  have hlevels : (arr ((delta.levelChanges.map .ofChange).map LevelMutationDto.toJson)).size ≤
      (delta.levelChanges.countP fun change => change.after.isSome) * 82
        + (delta.levelChanges.length - delta.levelChanges.countP fun change =>
            change.after.isSome) * 36 + 2 := by
    rw [← GraphDelta.sum_levelChanges, List.map_map]
    exact size_arr_map_le fun change hchange => LevelMutationDto.size_lt (h.levels change hchange)
  have hvspc : (arr ((order.isInVspcChanges.map fun change =>
      FieldMutationDto.numbered id change number).map (FieldMutationDto.toJson .bool))).size ≤
      order.isInVspcChanges.length * 35 + 2 := by
    rw [List.map_map]
    exact size_arr_const_le fun change _ => FieldMutationDto.size_lt hnumber size_bool_le change
  have hcolor : (arr ((order.colorChanges.map fun change =>
      FieldMutationDto.numbered BlockColor.dto change number).map
        (FieldMutationDto.toJson .num))).size ≤ order.colorChanges.length * 31 + 2 := by
    rw [List.map_map]
    exact size_arr_const_le fun change _ => FieldMutationDto.size_lt hnumber size_color_le change
  have hsize : (toJson (numbered delta order number)).size ≤ 260 +
      order.blocks.length * 262 + (order.blocks.flatMap GraphBlock.relationships).length * 11 +
      order.edges.length * 160 +
      (delta.levelChanges.countP fun change => change.after.isSome) * 82 +
      (delta.levelChanges.length - delta.levelChanges.countP fun change =>
        change.after.isSome) * 36 +
      order.isInVspcChanges.length * 35 + order.colorChanges.length * 31 := by
    unfold toJson numbered
    apply Nat.le_trans (size_obj_le _)
    simp only [List.map_cons, List.map_nil, List.sum_cons, List.sum_nil, hframing]
    omega
  rw [order.estimate_eq]
  omega

namespace GraphDeltaBatchDto

variable (order : (delta : GraphDelta) → delta.Iteration) {entries : List GraphHistoryEntry}

def estimatedBytes (entries : List GraphHistoryEntry) : Nat :=
  (entries.map fun entry => estimateRawDeltaBytes entry.delta).sum

theorem length_dictionary_le (entries : List GraphHistoryEntry) :
    (dictionary order entries).entries.length ≤
      (entries.map fun entry => (KeySet.ofElems (order entry.delta).hashes).size).sum := by
  have h := Dictionary.empty.length_recordAll_flatMap_le
    (fun entry : GraphHistoryEntry => (order entry.delta).hashes) entries
  rw [show (Dictionary.empty : HashDictionary).entries.length = 0 from rfl, Nat.zero_add] at h
  exact h

theorem number_lt (h : (dictionary order entries).entries.length ≤ 2 ^ 32) (hash : BlockHash) :
    (dictionary order entries).number hash < 2 ^ 32 := by
  unfold Dictionary.number
  cases hreference : (dictionary order entries).references[hash]? with
  | none => decide
  | some reference =>
    rw [Dictionary.resolves] at hreference
    exact Nat.lt_of_lt_of_le (List.getElem?_eq_some_iff.mp hreference).1 h

variable {number : BlockHash → HashRef}

theorem sum_sizes_le (hnumber : ∀ hash, number hash < 2 ^ 32)
    (hrange : ∀ entry ∈ entries, entry.delta.InRange) :
    (entries.map fun entry => (GraphDeltaEntryDto.toJson
        (.numbered entry.delta (order entry.delta) number)).size + 1).sum
      + (entries.map fun entry => (KeySet.ofElems (order entry.delta).hashes).size).sum * 67
      + entries.length * 26 ≤ 4 * estimatedBytes entries := by
  induction entries with
  | nil => exact Nat.le_refl _
  | cons entry entries ih =>
    have hentry := GraphDeltaEntryDto.size_le (hrange entry List.mem_cons_self) (order entry.delta)
      hnumber
    have hrest := ih fun entry hentry => hrange entry (List.mem_cons_of_mem _ hentry)
    unfold estimatedBytes at hrest ⊢
    simp only [List.map_cons, List.sum_cons, List.length_cons] at hrest ⊢
    omega

open Json in
theorem size_toJson_le {dictionary : HashDictionary} (hnumber : ∀ hash, number hash < 2 ^ 32)
    (hdictionary : dictionary.entries.length ≤
      (entries.map fun entry => (KeySet.ofElems (order entry.delta).hashes).size).sum)
    (hrange : ∀ entry ∈ entries, entry.delta.InRange) :
    (toJson ⟨dictionary.entries, entries.map fun entry =>
        .numbered entry.delta (order entry.delta) number⟩).size + entries.length * 26 ≤
      26 + 4 * estimatedBytes entries := by
  have hframing : framing ["hashes", "deltas"] = 22 := by decide
  have hhashes : (arr (dictionary.entries.map blockHashJson)).size ≤
      dictionary.entries.length * 67 + 2 :=
    size_arr_const_le fun hash _ => Nat.lt_succ_of_le (Nat.le_of_eq (size_blockHashJson hash))
  have hdeltas : (arr ((entries.map fun entry =>
      GraphDeltaEntryDto.numbered entry.delta (order entry.delta) number).map
        GraphDeltaEntryDto.toJson)).size ≤
      (entries.map fun entry => (GraphDeltaEntryDto.toJson
        (.numbered entry.delta (order entry.delta) number)).size + 1).sum + 2 := by
    rw [List.map_map]
    exact size_arr_map_le fun entry _ => Nat.lt_succ_self _
  have hsum := sum_sizes_le order hnumber hrange
  have hsize : (toJson ⟨dictionary.entries, entries.map fun entry =>
      .numbered entry.delta (order entry.delta) number⟩).size ≤ 26 +
        dictionary.entries.length * 67 +
        (entries.map fun entry => (GraphDeltaEntryDto.toJson
          (.numbered entry.delta (order entry.delta) number)).size + 1).sum := by
    apply Nat.le_trans (size_obj_le _)
    simp only [List.map_cons, List.map_nil, List.sum_cons, List.sum_nil, hframing]
    omega
  omega

/--
Whatever the order of iteration, a batch below the soft limit encodes, within four times its summed
estimates unless it has no entry, and below the hard bound.
-/
theorem encoded_batch_size (order : (delta : GraphDelta) → delta.Iteration)
    (entries : List GraphHistoryEntry) (hrange : ∀ entry ∈ entries, entry.delta.InRange)
    (hsoft : estimatedBytes entries < softDeltaEstimatedBytes) :
    ∃ batch, fromEntries order entries = .ok batch ∧
      (entries ≠ [] → batch.encode.length ≤ 4 * estimatedBytes entries) ∧
      batch.encode.length < maxUncompressedNonDeltaGraphResponseBytes := by
  have hsoftBytes : softDeltaEstimatedBytes = 4194304 := rfl
  have hhardBytes : maxUncompressedNonDeltaGraphResponseBytes = 16777216 := rfl
  have hdictionary := length_dictionary_le order entries
  -- the numbering is of no consequence for how many hashes are charged
  have hcharged := sum_sizes_le order (fun _ => Nat.two_pow_pos 32) hrange
  have hfits : (dictionary order entries).entries.length ≤ 2 ^ 32 := by omega
  have hsize := size_toJson_le order (number_lt order hfits) hdictionary hrange
  refine ⟨_, fromEntries_eq_ok order entries hfits, ?_⟩
  unfold encode
  unfold Json.size at hsize
  cases entries with
  | nil =>
    rw [show estimatedBytes [] = 0 from rfl] at hsize
    exact ⟨fun hne => absurd rfl hne, by omega⟩
  | cons entry entries =>
    rw [List.length_cons] at hsize
    exact ⟨fun _ => by omega, by omega⟩

def firstBlockEntry : GraphHistoryEntry where
  delta := ⟨0, 1, 5, 1, (∅ : Map BlockHash (Option GraphBlock)).insert 7
    (some ⟨7, .root, 3, 4, some 0, [2], [2], [], .gray, false⟩), ∅,
    [⟨1, none, some ⟨1, some 4⟩⟩], (∅ : Map BlockHash (FieldChange Bool)).insert 7 ⟨false, true⟩,
    ∅, Nat.one_pos, Nat.one_pos⟩
  estimatedRawBytes := 714
  cumulativeEstimatedBytes := 714

theorem firstBlockEntry_inRange : firstBlockEntry.delta.InRange where
  toRevisionId := by decide
  revisionTimestampMs := by decide
  headLevel := by decide
  blocks := by
    intro hash block hblock
    have hget := Map.get_insert (∅ : Map BlockHash (Option GraphBlock)) 7 hash
      (some ⟨7, .root, 3, 4, some 0, [2], [2], [], .gray, false⟩)
    rw [show firstBlockEntry.delta.blockChanges[hash]? = _ from hget] at hblock
    split at hblock
    . cases hblock
      exact ⟨by decide, by decide, by decide⟩
    . cases hblock
  levels := by
    intro change hchange
    cases List.mem_singleton.mp hchange
    refine ⟨by decide, ?_⟩
    intro level hlevel
    cases hlevel
    exact ⟨by decide, by decide⟩

theorem encoded_batch_size_first_block :
    estimatedBytes [firstBlockEntry] < softDeltaEstimatedBytes ∧
    ∃ batch, fromEntries GraphDelta.Iteration.sorted [firstBlockEntry] = .ok batch ∧
      batch.encode.length ≤ 4 * estimatedBytes [firstBlockEntry] := by
  have hrange : ∀ entry ∈ [firstBlockEntry], entry.delta.InRange := by
    intro entry hentry
    rw [List.mem_singleton.mp hentry]
    exact firstBlockEntry_inRange
  have hsoft : estimatedBytes [firstBlockEntry] < softDeltaEstimatedBytes := by decide +kernel
  obtain ⟨batch, hbatch, hsize, _⟩ := encoded_batch_size _ _ hrange hsoft
  exact ⟨hsoft, batch, hbatch, hsize (List.cons_ne_nil _ _)⟩

/--
Without an entry nothing pays for the framing of the batch.
-/
theorem encoded_batch_size_empty :
    estimatedBytes [] < softDeltaEstimatedBytes ∧
    ∃ batch, fromEntries GraphDelta.Iteration.sorted [] = .ok batch ∧
      4 * estimatedBytes [] < batch.encode.length :=
  ⟨by decide, ⟨[], []⟩, rfl, by decide⟩

/--
A batch is its deltas with a number for every hash. The dictionary has the hashes of the deltas without
repetition, and each at its number.
-/
theorem fromEntries_resolves (h : (dictionary order entries).entries.length ≤ 2 ^ 32) :
    ∃ batch number, fromEntries order entries = .ok batch ∧
      batch.deltas = entries.map (fun entry =>
        GraphDeltaEntryDto.numbered entry.delta (order entry.delta) number) ∧
      batch.hashes.Nodup ∧
      (∀ hash, hash ∈ batch.hashes ↔ ∃ entry ∈ entries, hash ∈ (order entry.delta).hashes) ∧
      ∀ hash ∈ batch.hashes, batch.hashes[number hash]? = some hash := by
  refine ⟨_, _, fromEntries_eq_ok order entries h, rfl, (dictionary order entries).nodup_entries, ?_, ?_⟩
  . intro hash
    unfold dictionary
    rw [Dictionary.mem_entries_recordAll, List.mem_flatMap]
    exact or_iff_right List.not_mem_nil
  . exact fun hash hmem => Dictionary.get_number hmem

theorem fromEntries_resolves_first_block :
    ∃ batch, ∃ number : BlockHash → HashRef,
      fromEntries GraphDelta.Iteration.sorted [firstBlockEntry] = .ok batch ∧
      ∀ hash ∈ batch.hashes, batch.hashes[number hash]? = some hash := by
  have hfits : (dictionary GraphDelta.Iteration.sorted [firstBlockEntry]).entries.length ≤ 2 ^ 32 := by
    decide +kernel
  obtain ⟨batch, number, hbatch, _, _, _, hresolves⟩ := fromEntries_resolves _ hfits
  exact ⟨batch, number, hbatch, hresolves⟩

end GraphDeltaBatchDto

end Kgi
