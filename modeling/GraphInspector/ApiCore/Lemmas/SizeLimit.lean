import GraphInspector.ApiCore.Lemmas.Panics

/-!
A completed delta that is marked size-limited stays the farthest fitting boundary of its source.
-/

namespace Kgi

open Data

namespace Timeline

variable {timeline timeline' : Timeline} {core : GraphPublicationCore}

theorem Records.costed_of_extends (h : timeline.Records core)
    (hextends : Extends timeline timeline' core.view.currentRevisionId) :
    core.history.Costed timeline'.cost where
  cumulative := fun entry hentry => (h.entry_of_extends hextends hentry).2.1
  estimated := fun entry hentry => (h.entry_of_extends hextends hentry).2.2
  monotone := by
    intro r r' hle hr
    rw [← h.revision] at hr
    rw [(hextends r (by omega)).2, (hextends r' hr).2]
    have := h.cost_le hle hr
    omega

theorem Records.exceeds (h : timeline.Records core) {source target farther : Nat}
    (hlimited : timeline.Limited core.view.currentRevisionId source target)
    (honLadder : OnLadder source farther) (hlt : target < farther)
    (hwithin : farther ≤ core.view.currentRevisionId) :
    softDeltaEstimatedBytes ≤ timeline.cost farther - timeline.cost source := by
  obtain ⟨excess, hle, _, hexceeds⟩ := hlimited farther honLadder hlt
  have := h.cost_le hle hwithin
  omega

end Timeline

def GraphHistory.DescendsTo (history : GraphHistory) (source target : Nat) : Prop :=
  ∀ headRevision activeInterval currentTarget selectedTarget,
    headRevision ≤ history.currentRevisionId → activeInterval ∈ adaptiveDeltaIntervals →
    OnLadder source selectedTarget → target < selectedTarget → selectedTarget ≤ headRevision →
    (∀ cached ∈ currentTarget, OnLadder source cached ∧ source < cached ∧ cached ≤ target) →
    ∃ ladder candidates fitting,
      DeltaTargetLadder.new source headRevision currentTarget activeInterval = .ok ladder ∧
      ladder.fittingTargets ⟨source, selectedTarget⟩ = .ok candidates ∧
      history.fittingRange source candidates
          (fun estimatedRawBytes => estimatedRawBytes < softDeltaEstimatedBytes)
        = .ok (.ok (some fitting)) ∧
      fitting.targetRevision = target ∧ fitting.shortened = true

theorem Timeline.Records.descendsTo {timeline : Timeline} {core : GraphPublicationCore}
    {source target : Nat} (h : timeline.Records core)
    (hreaches : timeline.Reaches core.view.currentRevisionId source target)
    (hlimited : timeline.Limited core.view.currentRevisionId source target)
    (hfloor : core.history.replayFloorRevision ≤ source)
    (holdest : core.history.oldestAvailableRevision ≤ source) :
    core.history.DescendsTo source target := by
  intro headRevision activeInterval currentTarget selectedTarget hhead hinterval honLadder hlt hle
    hcurrent
  rw [← h.revision] at hhead
  have hforward := hreaches.forward
  have hwithin := hreaches.within
  -- a request that captured this Head
  let request : CanonicalDeltaRequest := ⟨⟨0, .live, headRevision, timeline.stamp headRevision, 1,
    core.history.replayFloorRevision⟩, ⟨source, selectedTarget⟩, activeInterval⟩
  have hrequested : timeline.Requested core.view.currentRevisionId request :=
    ⟨⟨hhead, rfl⟩, Nat.lt_trans hforward hlt, hle, honLadder, hinterval⟩
  have hcovered : timeline.Covered core.view.currentRevisionId request currentTarget := by
    intro cached hcached
    obtain ⟨hcachedOn, hafter, hcachedLe⟩ := hcurrent cached hcached
    refine ⟨⟨hafter, Nat.le_trans hcachedLe hwithin, hcachedOn, ?_⟩, Nat.lt_of_le_of_lt hcachedLe hlt⟩
    have hcost := h.cost_le hcachedLe hwithin
    have hfits := hreaches.fits
    dsimp only [request]
    omega
  obtain ⟨ladder, rest, hcandidates, hnew, hfitting, _⟩ := h.size_eq_bind hrequested hcovered
  obtain ⟨found, hmem, hfound, hexceeds, hrange⟩ :=
    h.fitting_eq_ok hrequested hcovered hcandidates hfloor holdest
  have hcandidate := hcandidates.complete target hreaches.onLadder (Nat.le_of_lt hlt)
    fun cached hcached => (hcurrent cached hcached).2.2
  have heq : found = target := by
    apply Nat.le_antisymm
    . by_contra hfarther
      have hbeyond := h.exceeds hlimited hfound.onLadder (Nat.not_le.mp hfarther)
        (Nat.le_trans hfound.within (Nat.le_trans hle hhead))
      have hfits := hfound.fits
      dsimp only [request] at hfits
      omega
    . by_contra hnearer
      have hbeyond := hexceeds target hcandidate (Nat.not_le.mp hnearer)
      have hfits := hreaches.fits
      dsimp only [request] at hbeyond
      omega
  subst heq
  exact ⟨ladder, _, _, hnew, hfitting, hrange, rfl, decide_eq_true (Nat.ne_of_lt hlt)⟩

theorem AppliedLineageUpdate.apply_congr {core : GraphPublicationCore} {update : OriginalUpdate}
    {revisionTimestampMs : Nat} {estimateDelta estimateDelta' : GraphDelta → Nat}
    (h : ∀ view delta, update.apply core.view revisionTimestampMs = .ok (view, .ok (some delta)) →
      estimateDelta delta = estimateDelta' delta) :
    AppliedLineageUpdate.apply core update revisionTimestampMs estimateDelta
      = AppliedLineageUpdate.apply core update revisionTimestampMs estimateDelta' := by
  unfold AppliedLineageUpdate.apply
  dsimp only
  split
  . rfl
  . cases hok : update.apply core.view revisionTimestampMs with
    | error message => rfl
    | ok result =>
      obtain ⟨view, outcome⟩ := result
      match outcome with
      | .error error => rfl
      | .ok none => rfl
      | .ok (some delta) =>
        rw [ok_bind, ok_bind]
        dsimp only
        rw [h view delta hok]

namespace GraphPublication

variable {publication publication' : GraphPublication} {timeline : Timeline}

theorem Sound.run_costed (h : Sound timeline publication) {events : List PublicationEvent}
    (hrun : Data.run GraphPublication.step publication events = some publication') :
    ∃ timeline', Timeline.Extends timeline timeline' publication.core.view.currentRevisionId ∧
      publication.core.view.currentRevisionId ≤ publication'.core.view.currentRevisionId ∧
      Sound timeline' publication' ∧
      ∀ pre post mid, events = pre ++ post → Data.run GraphPublication.step publication pre = some mid →
        mid.core.history.Costed timeline'.cost := by
  induction events generalizing publication timeline with
  | nil =>
    cases hrun
    refine ⟨timeline, Timeline.Extends.refl _ _, Nat.le_refl _, h, ?_⟩
    intro pre post mid hevents hmid
    obtain ⟨rfl, _⟩ := List.append_eq_nil_iff.mp hevents.symm
    cases hmid
    exact h.records.costed
  | cons event events ih =>
    obtain ⟨next, hstep, hrest⟩ := Data.run.cons_eq_some.mp hrun
    obtain ⟨timeline', hextends, hnext⟩ := h.step hstep
    have hle := (h.deltaStep hstep).revision_le
    obtain ⟨timeline'', hextends', hle', hsound, hcosted⟩ := ih hnext hrest
    have hwhole : Timeline.Extends timeline timeline'' publication.core.view.currentRevisionId :=
      hextends.trans hle hextends'
    refine ⟨timeline'', hwhole, Nat.le_trans hle hle', hsound, ?_⟩
    intro pre post mid hevents hmid
    cases pre with
    | nil =>
      cases hmid
      exact h.records.costed_of_extends hwhole
    | cons first pre =>
      obtain ⟨rfl, htail⟩ := List.cons_eq_cons.mp hevents
      obtain ⟨next', hstep', hmid⟩ := Data.run.cons_eq_some.mp hmid
      rw [hstep, Option.some.injEq] at hstep'
      subst hstep'
      exact hcosted pre post mid htail hmid

/--
From the moment the completed delta of a source is marked, its target is the farthest boundary that fits,
and while the source is replayable every descent from a farther boundary comes back to it.
-/
theorem sizeLimited_stays_farthest (h : publication.Reachable) {source : Nat} {slot : DeltaCacheSlot}
    {value : CachedDelta} (hslot : publication.cache.deltas[source]? = some slot)
    (hvalue : slot.completed = some value) (hlimited : value.sizeLimited = true)
    {events : List PublicationEvent}
    (hrun : Data.run GraphPublication.step publication events = some publication') :
    (∃ cost : Nat → Nat,
      (∀ pre post mid, events = pre ++ post →
        Data.run GraphPublication.step publication pre = some mid → mid.core.history.Costed cost) ∧
      cost value.toRevisionId - cost source < softDeltaEstimatedBytes ∧
      ∀ farther, OnLadder source farther → value.toRevisionId < farther →
        farther ≤ publication'.core.view.currentRevisionId →
        softDeltaEstimatedBytes ≤ cost farther - cost source) ∧
    (publication'.core.history.replayFloorRevision ≤ source →
      publication'.core.history.oldestAvailableRevision ≤ source →
      GraphHistory.summedEstimate
          (publication'.core.history.rangeEntries source value.toRevisionId)
        < softDeltaEstimatedBytes ∧
      (∀ farther, OnLadder source farther → value.toRevisionId < farther →
        farther ≤ publication'.core.view.currentRevisionId →
        softDeltaEstimatedBytes ≤ GraphHistory.summedEstimate
          (publication'.core.history.rangeEntries source farther)) ∧
      publication'.core.history.DescendsTo source value.toRevisionId) := by
  obtain ⟨timeline, hsound⟩ := h.sound
  have hdelivers := (hsound.slots source slot hslot).completed value hvalue
  obtain ⟨timeline', hextends, hle, hsound', hcosted⟩ := hsound.run_costed hrun
  have hdelivers' := hdelivers.mono hle hextends
  have hrecords := hsound'.records
  have hreaches := hdelivers'.reaches
  have hexceeds : ∀ farther, OnLadder source farther → value.toRevisionId < farther →
      farther ≤ publication'.core.view.currentRevisionId →
      softDeltaEstimatedBytes ≤ timeline'.cost farther - timeline'.cost source :=
    fun farther honLadder hlt hwithin =>
      hrecords.exceeds (hdelivers'.limited hlimited) honLadder hlt hwithin
  refine ⟨⟨timeline'.cost, hcosted, hreaches.fits, hexceeds⟩, ?_⟩
  intro hfloor holdest
  have hsummed : ∀ target, source < target → target ≤ publication'.core.view.currentRevisionId →
      GraphHistory.summedEstimate (publication'.core.history.rangeEntries source target)
        = timeline'.cost target - timeline'.cost source := by
    intro target hlt hwithin
    exact hrecords.gapless.summedEstimate_range hrecords.costed hfloor holdest hlt
      (hrecords.revision ▸ hwithin)
  refine ⟨?_, ?_, hrecords.descendsTo hreaches (hdelivers'.limited hlimited) hfloor holdest⟩
  . rw [hsummed _ hreaches.forward hreaches.within]
    exact hreaches.fits
  . intro farther honLadder hlt hwithin
    rw [hsummed farther (Nat.lt_trans hreaches.forward hlt) hwithin]
    exact hexceeds farther honLadder hlt hwithin

section Heavy

variable {delta : GraphDelta} {seed view : GraphView} {merged : Nat}

/--
A block whose delta has an estimate of `828 + merged * 6` bytes: the soft limit lies between 698912 and
698913 merged blocks.
-/
def heavyBlock (merged : Nat) : BlockCommitted :=
  ⟨3, 3, .grandchild, 2, 2, some 0,
    [⟨2, some .child⟩], List.replicate merged 2, [], .gray, false,
    [⟨2, 1, some 1⟩, ⟨3, 1, none⟩]⟩

structure DeltaOutline where
  blocks : List (BlockHash × Option (BlockHash × List BlockHash × List BlockHash))
  edges : List EdgeId
  levelInstallations : Nat
  levels : Nat
  membership : List BlockHash
  colors : List BlockHash
  deriving DecidableEq

def deltaOutline (delta : GraphDelta) : DeltaOutline where
  blocks := delta.blockChanges.toList.map fun entry =>
    (entry.1, entry.2.map fun block => (block.hash, block.directParents, block.redMergeSet))
  edges := (delta.edgeChanges.toList.filterMap Prod.snd).map GraphEdge.id
  levelInstallations := delta.levelChanges.countP fun change => change.after.isSome
  levels := delta.levelChanges.length
  membership := delta.isInVspcChanges.keys
  colors := delta.colorChanges.keys

theorem heavy_outline (hmerged : merged ∈ [698912, 698913])
    (hseed : GraphView.smallProjection = .ok seed)
    (hok : (OriginalUpdate.block (heavyBlock merged)).apply seed 10 = .ok (view, .ok (some delta))) :
    deltaOutline delta = ⟨[(1, none), (3, some (3, [2], []))], [⟨2, 3⟩], 1, 1, [], []⟩ := by
  have hboth : ∀ merged ∈ [698912, 698913], (GraphView.smallProjection.toOption.bind fun seed =>
      ((OriginalUpdate.block (heavyBlock merged)).apply seed 10).toOption.bind fun result =>
        result.2.toOption.bind fun delta => delta.map deltaOutline)
          = some ⟨[(1, none), (3, some (3, [2], []))], [⟨2, 3⟩], 1, 1, [], []⟩ := by
    decide +kernel
  have hobserved := hboth merged hmerged
  rw [toOption_eq_some.mpr hseed, Option.bind_some, toOption_eq_some.mpr hok] at hobserved
  exact Option.some.inj hobserved

theorem heavy_blueMergeSet {block : GraphBlock} (hseed : GraphView.smallProjection = .ok seed)
    (hok : (OriginalUpdate.block (heavyBlock merged)).apply seed 10 = .ok (view, .ok (some delta)))
    (hblock : delta.blockChanges[(3 : BlockHash)]? = some (some block)) :
    block.blueMergeSet = List.replicate merged 2 := by
  have habsent : (GraphView.smallProjection.toOption.map fun seed =>
      seed.blocks[(3 : BlockHash)]?.isNone) = some true := by
    decide +kernel
  rw [toOption_eq_some.mpr hseed, Option.map_some, Option.some.injEq, Option.isNone_iff_eq_none]
    at habsent
  obtain ⟨_, hrecords⟩ := (lineage_smallProjection hseed).records
  obtain ⟨extent, _, houtcome, _, _, _, hwindow, hemits⟩ :=
    GraphView.applyHeadBlockCommitted_eq_ok hrecords.head hok
  rw [Except.ok.injEq] at houtcome
  subst houtcome
  cases hemits with
  | changed _ _ _ hconnects =>
    have hblocks := hconnects.blocks 3
    rw [hblock, Option.getD_some, Option.map_some] at hblocks
    have hcommitted := congrArg (fun window : Window => window.blocks 3) hwindow
    dsimp only [GraphView.window] at hcommitted
    rw [hblocks] at hcommitted
    have hcommitted := hcommitted.trans (Window.commitBlock_blocks extent (heavyBlock merged) seed.window 3)
    obtain ⟨hcommitted, _⟩ := Option.filter_eq_some_iff.mp hcommitted.symm
    split at hcommitted
    . rw [Option.some.injEq] at hcommitted
      exact (congrArg GraphBlock.blueMergeSet hcommitted).symm
    . exact absurd (hcommitted.symm.trans habsent) (by nofun)

theorem estimate_of_outline {merged : List BlockHash}
    (houtline : deltaOutline delta = ⟨[(1, none), (3, some (3, [2], []))], [⟨2, 3⟩], 1, 1, [], []⟩)
    (hmerged : ∀ block, delta.blockChanges[(3 : BlockHash)]? = some (some block) →
      block.blueMergeSet = merged) (hhashes : ∀ hash, hash ∈ merged ↔ hash = 2) :
    estimateRawDeltaBytes delta = 828 + merged.length * blockRelationshipBytes := by
  unfold deltaOutline at houtline
  simp only [DeltaOutline.mk.injEq] at houtline
  obtain ⟨hblocks, hedges, hinstalled, hlevels, hmembership, hcolors⟩ := houtline
  obtain ⟨removed, rest, htoList, hremoved, hrest⟩ := List.map_eq_cons_iff.mp hblocks
  obtain ⟨⟨hash, change⟩, rfl, hinserted⟩ := List.map_eq_singleton_iff.mp hrest
  rw [Prod.mk.injEq, Option.map_eq_some_iff] at hinserted
  obtain ⟨rfl, block, rfl, hblock⟩ := hinserted
  rw [Prod.mk.injEq, Option.map_eq_none_iff] at hremoved
  obtain ⟨edge, hedge, hid⟩ := List.map_eq_singleton_iff.mp hedges
  simp only [Prod.mk.injEq] at hblock
  obtain ⟨hhash, hparents, hred⟩ := hblock
  have hblue := hmerged block ((Map.mem_toList delta.blockChanges 3 (some block)).mp
    (htoList ▸ List.mem_cons_of_mem _ List.mem_cons_self))
  have hchanged : delta.blockChanges.toList.filterMap Prod.snd = [block] := by
    rw [htoList, List.filterMap_cons, hremoved.2]
    rfl
  have hrelationships : block.relationships = 2 :: merged := by
    unfold GraphBlock.relationships
    rw [hparents, hblue, hred, List.append_nil]
    rfl
  -- the only hashes of the delta are those of the block and of its parent
  have hdistinct : KeySet.ofElems (3 :: 2 :: merged ++ [2, 3] ++ [] ++ [])
      = KeySet.ofElems [(2 : BlockHash), 3] := by
    apply Std.ExtTreeSet.ext_mem
    intro hash
    rw [KeySet.mem_ofElems, KeySet.mem_ofElems]
    simp only [List.mem_cons, List.mem_append, hhashes, List.not_mem_nil]
    tauto
  have hsize : (KeySet.ofElems [(2 : BlockHash), 3]).size = 2 := by decide +kernel
  unfold estimateRawDeltaBytes
  dsimp only
  rw [hchanged, hedge, hinstalled, hlevels, hmembership, hcolors, List.flatMap_singleton,
    List.flatMap_singleton, List.flatMap_singleton, hid, hrelationships, hhash, hdistinct, hsize,
    ← Std.ExtTreeMap.length_keys, ← Std.ExtTreeMap.length_keys, hmembership, hcolors]
  simp only [List.length_cons, List.length_nil, entryAndBatchFramingBytes, distinctHashBytes,
    blockUpsertBytes, blockRelationshipBytes, edgeUpsertBytes, levelInstallationBytes,
    levelRemovalBytes, membershipMutationBytes, colorMutationBytes]
  omega

theorem heavy_estimate (hmerged : merged ∈ [698912, 698913])
    (hseed : GraphView.smallProjection = .ok seed)
    (hok : (OriginalUpdate.block (heavyBlock merged)).apply seed 10 = .ok (view, .ok (some delta))) :
    estimateRawDeltaBytes delta = 828 + merged * blockRelationshipBytes := by
  have hhashes : ∀ hash, hash ∈ List.replicate merged (2 : BlockHash) ↔ hash = 2 := by
    intro hash
    rw [List.mem_replicate]
    refine and_iff_right ?_
    rintro rfl
    simp at hmerged
  have hestimate := estimate_of_outline (heavy_outline hmerged hseed hok)
    (fun _ hblock => heavy_blueMergeSet hseed hok hblock) hhashes
  rw [List.length_replicate] at hestimate
  exact hestimate

theorem heavy_apply (hmerged : merged ∈ [698912, 698913])
    (hseed : GraphView.smallProjection = .ok seed) :
    AppliedLineageUpdate.apply ⟨seed, .new⟩ (.block (heavyBlock merged)) 10 estimateRawDeltaBytes
      = AppliedLineageUpdate.apply ⟨seed, .new⟩ (.block (heavyBlock merged)) 10
        fun _ => 828 + merged * blockRelationshipBytes :=
  AppliedLineageUpdate.apply_congr fun _ _ hok => heavy_estimate hmerged hseed hok

def heavyRun : List PublicationEvent :=
  [.update GraphView.smallVspc 20, .selectDelta 0 smallInterval none, .pruneDeltas 0 none,
    .lookupDelta 0, .electDelta 0, .finishDelta 0 none]

def laterScore : OriginalUpdate :=
  .vspc ⟨2, 3, [], [], [⟨3, 1, some 2⟩]⟩

theorem sizeLimited_stays_farthest_heavy :
    ∃ publication publication' : GraphPublication, publication.Reachable ∧
      run step publication [.completeDelta 0, .update laterScore 30] = some publication' ∧
      publication'.core.view.currentRevisionId = 3 ∧
      publication'.core.history.DescendsTo 0 1 := by
  -- the estimate of the heavy delta is known without computing it
  have hobserved : (GraphView.smallProjection.toOption.bind fun seed =>
      (AppliedLineageUpdate.apply ⟨seed, .new⟩ (.block (heavyBlock 698912)) 10
        fun _ => 828 + 698912 * blockRelationshipBytes).toOption.bind fun result =>
        result.2.toOption.bind fun _ =>
          (run step (GraphPublication.new 1 .live result.1) heavyRun).bind fun publication =>
            (run step publication [.completeDelta 0, .update laterScore 30]).map fun publication' =>
              (seed, publication, publication')).any
      (fun (seed, publication, publication') =>
        decide (seed.currentRevisionTimestampMs ≤ 10) &&
        (publication.cache.deltas[0]?.any fun slot => slot.completed == some ⟨0, 1, true⟩) &&
        decide (publication'.core.view.currentRevisionId = 3) &&
        decide (publication'.core.history.replayFloorRevision ≤ 0) &&
        decide (publication'.core.history.oldestAvailableRevision ≤ 0)) = true := by
    decide +kernel
  rw [Option.any_eq_true] at hobserved
  obtain ⟨⟨seed, publication, publication'⟩, hrun, hobserved⟩ := hobserved
  simp only [Option.bind_eq_some_iff, Option.map_eq_some_iff, toOption_eq_some] at hrun
  obtain ⟨_, hseed, ⟨core, outcome⟩, happly, applied, houtcome, _, hrun, _, hrun', heq⟩ := hrun
  cases heq
  subst houtcome
  simp only [Bool.and_eq_true, decide_eq_true_eq, Option.any_eq_true, beq_iff_eq] at hobserved
  obtain ⟨⟨⟨⟨hclock, slot, hslot, hcompleted⟩, hrevision⟩, hfloor⟩, holdest⟩ := hobserved
  rw [← heavy_apply (by decide) hseed] at happly
  have hreachable : publication.Reachable :=
    ⟨1, .live, core, heavyRun, .apply (lineage_smallProjection hseed) hclock happly, hrun⟩
  exact ⟨publication, publication', hreachable, hrun', hrevision,
    ((sizeLimited_stays_farthest hreachable hslot hcompleted rfl hrun').2 hfloor holdest).2.2⟩

end Heavy

end GraphPublication

end Kgi
