import GraphInspector.ApiCore.Lemmas.Lineage
import GraphInspector.ApiModel.Lemmas.Fitting

/-!
The full record of a publication: for every revision up to the current one its timestamp and the cost of
reaching it.
-/

namespace Kgi

open Data

structure Timeline where
  stamp : Nat → Nat
  cost : Nat → Nat

namespace Timeline

variable {timeline timeline' : Timeline} {core core' : GraphPublicationCore}

def Extends (timeline timeline' : Timeline) (revision : Nat) : Prop :=
  ∀ r ≤ revision, timeline'.stamp r = timeline.stamp r ∧ timeline'.cost r = timeline.cost r

theorem Extends.refl (timeline : Timeline) (revision : Nat) : Extends timeline timeline revision :=
  fun _ _ => ⟨rfl, rfl⟩

variable {revision revision' : Nat} {view : GraphView}

theorem Extends.trans {timeline'' : Timeline} (h : Extends timeline timeline' revision)
    (hle : revision ≤ revision') (h' : Extends timeline' timeline'' revision') :
    Extends timeline timeline'' revision := by
  intro r hr
  obtain ⟨hstamp, hcost⟩ := h r hr
  obtain ⟨hstamp', hcost'⟩ := h' r (Nat.le_trans hr hle)
  exact ⟨hstamp'.trans hstamp, hcost'.trans hcost⟩

structure Records (timeline : Timeline) (core : GraphPublicationCore) : Prop where
  head : core.view.Head
  revision : core.view.currentRevisionId = core.history.currentRevisionId
  gapless : core.history.Gapless
  stamp_current : timeline.stamp core.view.currentRevisionId = core.view.currentRevisionTimestampMs
  stamp_le : ∀ r r', r ≤ r' → r' ≤ core.view.currentRevisionId → timeline.stamp r ≤ timeline.stamp r'
  cost_current :
    timeline.cost core.view.currentRevisionId = core.history.currentCumulativeEstimatedBytes
  cost_succ : ∀ r < core.view.currentRevisionId,
    timeline.cost r + entryAndBatchFramingBytes ≤ timeline.cost (r + 1)
  cost_bound : core.history.currentCumulativeEstimatedBytes ≤ u64Max
  stamped : ∀ entry ∈ core.history.entries,
    entry.delta.revisionTimestampMs = timeline.stamp entry.delta.toRevisionId
  cumulative : ∀ entry ∈ core.history.entries,
    entry.cumulativeEstimatedBytes = timeline.cost entry.delta.toRevisionId
  estimated : ∀ entry ∈ core.history.entries, timeline.cost entry.delta.fromRevisionId
    + entry.estimatedRawBytes = timeline.cost entry.delta.toRevisionId
  replayable : ∀ entry ∈ core.history.entries, entry.estimatedRawBytes < softDeltaEstimatedBytes

section Records

variable (h : timeline.Records core)
include h

theorem Records.cost_le {r r' : Nat} (hle : r ≤ r') (hr : r' ≤ core.view.currentRevisionId) :
    timeline.cost r + entryAndBatchFramingBytes * (r' - r) ≤ timeline.cost r' := by
  induction r', hle using Nat.le_induction with
  | base => simp
  | succ r' hle ih =>
    have := ih (by omega)
    have := h.cost_succ r' (by omega)
    rw [Nat.succ_sub hle, Nat.mul_succ]
    omega

theorem Records.costed : core.history.Costed timeline.cost where
  cumulative := h.cumulative
  estimated := h.estimated
  monotone := by
    intro r r' hle hr
    have := h.cost_le hle (h.revision ▸ hr)
    omega

theorem Records.headroom : core.view.currentRevisionId + 128 ≤ u64Max := by
  have hcost := h.cost_le (Nat.zero_le _) (Nat.le_refl _)
  have hcurrent := h.cost_current
  have hbound := h.cost_bound
  unfold entryAndBatchFramingBytes at hcost
  unfold u64Max at hbound ⊢
  omega

theorem Records.floor_le : core.history.replayFloorRevision ≤ core.view.currentRevisionId := by
  have := h.gapless.length_le
  rw [h.revision]
  omega

end Records

theorem Records.initial (hhead : view.Head) (hrevision : view.currentRevisionId = 0) :
    Records ⟨fun _ => view.currentRevisionTimestampMs, fun _ => 0⟩ ⟨view, .new⟩ where
  head := hhead
  revision := hrevision
  gapless := GraphHistory.new_gapless
  stamp_current := rfl
  stamp_le := fun _ _ _ _ => Nat.le_refl _
  cost_current := rfl
  cost_succ := by
    intro r hr
    rw [hrevision] at hr
    omega
  cost_bound := Nat.zero_le _
  stamped := fun entry hentry => absurd hentry List.not_mem_nil
  cumulative := fun entry hentry => absurd hentry List.not_mem_nil
  estimated := fun entry hentry => absurd hentry List.not_mem_nil
  replayable := fun entry hentry => absurd hentry List.not_mem_nil

def extend (timeline : Timeline) (revision stamp cost : Nat) : Timeline :=
  ⟨Function.update timeline.stamp revision stamp, Function.update timeline.cost revision cost⟩

theorem extend_extends (timeline : Timeline) (hlt : revision < revision') (stamp cost : Nat) :
    Extends timeline (timeline.extend revision' stamp cost) revision := by
  intro r hr
  exact ⟨Function.update_of_ne (by omega) _ _, Function.update_of_ne (by omega) _ _⟩

theorem Records.entry_of_extends (h : timeline.Records core)
    (hextends : Extends timeline timeline' core.view.currentRevisionId) {entry : GraphHistoryEntry}
    (hentry : entry ∈ core.history.entries) :
    entry.delta.revisionTimestampMs = timeline'.stamp entry.delta.toRevisionId ∧
      entry.cumulativeEstimatedBytes = timeline'.cost entry.delta.toRevisionId ∧
      timeline'.cost entry.delta.fromRevisionId + entry.estimatedRawBytes
        = timeline'.cost entry.delta.toRevisionId := by
  obtain ⟨hlt, hto⟩ := h.gapless.revision_of_mem hentry
  have hrevision := h.revision
  obtain ⟨hstamp, hcost⟩ := hextends entry.delta.toRevisionId (by omega)
  obtain ⟨_, hcost'⟩ := hextends entry.delta.fromRevisionId (by omega)
  rw [hstamp, hcost, hcost']
  exact ⟨h.stamped entry hentry, h.cumulative entry hentry, h.estimated entry hentry⟩

theorem Records.append (h : timeline.Records core) {history : GraphHistory} {delta : GraphDelta}
    {estimatedRawBytes : Nat} (headLowLevel : Nat) (hhead : view.Head)
    (hnext : view.currentRevisionId = core.view.currentRevisionId + 1)
    (hclock : core.view.currentRevisionTimestampMs ≤ view.currentRevisionTimestampMs)
    (hconnects : GraphView.Connects delta core.view view)
    (hframing : entryAndBatchFramingBytes ≤ estimatedRawBytes)
    (happend : core.history.append delta estimatedRawBytes (classifyReplayability estimatedRawBytes)
      = .ok (history, .ok ())) :
    (timeline.extend view.currentRevisionId view.currentRevisionTimestampMs
      (core.history.currentCumulativeEstimatedBytes + estimatedRawBytes)).Records
        ⟨view, history.prune headLowLevel⟩ := by
  obtain ⟨hfrom, hto⟩ := hconnects.revision
  have hcurrent := h.revision
  obtain ⟨_, hgapless, hrevision, _⟩ := h.gapless.append
    (hfrom.symm.trans h.revision) (by rw [← hto, ← hfrom, hnext]) happend
  obtain ⟨_, hfits, _, hcumulative, happended⟩ := GraphHistory.append_eq_ok
    (hfrom.symm.trans h.revision) (by rw [← hto, ← hfrom, hnext]) happend
  have hextends := extend_extends timeline (show core.view.currentRevisionId
    < view.currentRevisionId by omega) view.currentRevisionTimestampMs
    (core.history.currentCumulativeEstimatedBytes + estimatedRawBytes)
  -- the new entry is the only one beyond the old record
  have hentries : ∀ entry ∈ (history.prune headLowLevel).entries, entry ∈ core.history.entries ∨
      entry = ⟨delta, estimatedRawBytes,
        core.history.currentCumulativeEstimatedBytes + estimatedRawBytes⟩ ∧
      classifyReplayability estimatedRawBytes = .replayable := by
    intro entry hentry
    have hentry' : entry ∈ history.entries := (List.dropWhile_suffix _).mem hentry
    obtain ⟨hclass, _, hentries⟩ | ⟨_, _, hentries⟩ := happended
    . rw [hentries, List.mem_append, List.mem_singleton] at hentry'
      exact hentry'.imp_right fun hnew => ⟨hnew, hclass⟩
    . rw [hentries] at hentry'
      exact absurd hentry' List.not_mem_nil
  have hstamp : ∀ r ≤ core.view.currentRevisionId,
      Function.update timeline.stamp view.currentRevisionId view.currentRevisionTimestampMs r
        = timeline.stamp r :=
    fun r hr => (hextends r hr).1
  have hcost : ∀ r ≤ core.view.currentRevisionId,
      Function.update timeline.cost view.currentRevisionId
        (core.history.currentCumulativeEstimatedBytes + estimatedRawBytes) r = timeline.cost r :=
    fun r hr => (hextends r hr).2
  constructor
  case head => exact hhead
  case revision => exact (hnext.trans (congrArg (· + 1) h.revision)).trans hrevision.symm
  case gapless => exact hgapless.prune headLowLevel
  case stamp_current => exact Function.update_self _ _ _
  case cost_current => exact (Function.update_self _ _ _).trans hcumulative.symm
  case cost_bound => exact hcumulative ▸ hfits
  case stamp_le =>
    intro r r' hle hr
    dsimp only [extend] at hr ⊢
    by_cases hold : r' ≤ core.view.currentRevisionId
    . rw [hstamp r (by omega), hstamp r' hold]
      exact h.stamp_le r r' hle hold
    . rw [show r' = view.currentRevisionId by omega, Function.update_self]
      by_cases hnew : r = view.currentRevisionId
      . rw [hnew, Function.update_self]
      . rw [hstamp r (by omega)]
        apply Nat.le_trans (h.stamp_le r _ (by omega) (Nat.le_refl _))
        rw [h.stamp_current]
        exact hclock
  case cost_succ =>
    intro r hr
    dsimp only [extend] at hr ⊢
    by_cases hold : r < core.view.currentRevisionId
    . rw [hcost r (by omega), hcost (r + 1) (by omega)]
      exact h.cost_succ r hold
    . rw [show r + 1 = view.currentRevisionId by omega, Function.update_self, hcost r (by omega),
        show r = core.view.currentRevisionId by omega, h.cost_current]
      omega
  case stamped =>
    intro entry hentry
    obtain hold | ⟨rfl, _⟩ := hentries entry hentry
    . exact (h.entry_of_extends hextends hold).1
    . dsimp only [extend]
      rw [← hto, Function.update_self, hconnects.timestamp]
  case cumulative =>
    intro entry hentry
    obtain hold | ⟨rfl, _⟩ := hentries entry hentry
    . exact (h.entry_of_extends hextends hold).2.1
    . dsimp only [extend]
      rw [← hto, Function.update_self]
  case estimated =>
    intro entry hentry
    obtain hold | ⟨rfl, _⟩ := hentries entry hentry
    . exact (h.entry_of_extends hextends hold).2.2
    . dsimp only [extend]
      rw [← hto, ← hfrom, Function.update_self, hcost _ (Nat.le_refl _), h.cost_current]
  case replayable =>
    intro entry hentry
    obtain hold | ⟨rfl, hclass⟩ := hentries entry hentry
    . exact h.replayable entry hold
    . unfold classifyReplayability at hclass
      split at hclass
      . assumption
      . cases hclass

inductive Applied (core core' : GraphPublicationCore) : Option AppliedLineageUpdate → Prop where
  | unchanged (hsame : core' = core) : Applied core core' none
  | replayed (hrevision : core'.view.currentRevisionId = core.view.currentRevisionId + 1)
      (hfloor : core'.history.replayFloorRevision = core.history.replayFloorRevision) :
      Applied core core' (some ⟨core'.view.currentRevisionId, none⟩)
  | barrier (hrevision : core'.view.currentRevisionId = core.view.currentRevisionId + 1)
      (hfloor : core'.history.replayFloorRevision = core'.view.currentRevisionId) :
      Applied core core' (some ⟨core'.view.currentRevisionId, some core'.view.currentRevisionId⟩)

theorem Records.apply (h : timeline.Records core) {update : OriginalUpdate}
    {revisionTimestampMs : Nat}
    {outcome : Except PublicationProjectionError (Option AppliedLineageUpdate)}
    (hclock : core.view.currentRevisionTimestampMs ≤ revisionTimestampMs)
    (hok : AppliedLineageUpdate.apply core update revisionTimestampMs estimateRawDeltaBytes
      = .ok (core', outcome)) :
    ∃ timeline' applied, Extends timeline timeline' core.view.currentRevisionId ∧
      timeline'.Records core' ∧ outcome = .ok applied ∧ Applied core core' applied := by
  obtain ⟨rfl, rfl⟩ | ⟨delta, view, history, happend, rfl, rfl, hhead, hnext, hstamp, hconnects⟩ :=
    GraphPublicationCore.apply_eq_ok h.head h.revision hok
  . exact ⟨timeline, none, Extends.refl timeline _, h, rfl, .unchanged rfl⟩
  . obtain ⟨hfrom, hto⟩ := hconnects.revision
    refine ⟨_, _, extend_extends timeline (by omega) _ _, h.append view.lowLevel hhead hnext
      (hstamp ▸ hclock) hconnects (framing_le_estimateRawDeltaBytes delta) happend, rfl, ?_⟩
    obtain ⟨_, _, hcurrent, _, ⟨hclass, hfloor, _⟩ | ⟨hclass, hfloor, _⟩⟩ := GraphHistory.append_eq_ok
      (hfrom.symm.trans h.revision) (by rw [← hto, ← hfrom, hnext]) happend
    . rw [hclass, ← hto]
      exact .replayed hnext hfloor
    . rw [hclass, ← hto]
      refine .barrier hnext ?_
      rw [hnext, h.revision]
      exact hfloor

end Timeline

/--
The cores that a runtime hands to a publication: a database projection that has followed updates with the
clock of the publication.
-/
inductive Lineage : GraphPublicationCore → Prop where
  | seed {maxDepth : Nat} {extent : LevelExtent} {levels : Map Nat Level}
      {blocks : Map BlockHash GraphBlock} {edges : Map EdgeId GraphEdge} {view : GraphView}
      (hkeyed : ∀ (id : EdgeId) (edge : GraphEdge), edges[id]? = some edge → edge.id = id)
      (hlow : extent.lowLevel = max 1 (extent.highLevel + 1 - maxDepth))
      (hseed : GraphView.fromDatabaseProjection maxDepth extent .head levels blocks edges = .ok view) :
      Lineage ⟨view, .new⟩
  | apply {core core' : GraphPublicationCore} {update : OriginalUpdate} {revisionTimestampMs : Nat}
      {applied : Option AppliedLineageUpdate} (h : Lineage core)
      (hclock : core.view.currentRevisionTimestampMs ≤ revisionTimestampMs)
      (hok : AppliedLineageUpdate.apply core update revisionTimestampMs estimateRawDeltaBytes
        = .ok (core', .ok applied)) :
      Lineage core'

theorem Lineage.records {core : GraphPublicationCore} (h : Lineage core) :
    ∃ timeline : Timeline, timeline.Records core := by
  induction h with
  | seed hkeyed hlow hseed =>
    obtain ⟨_, _, _, _, hzero, _⟩ := GraphView.fromDatabaseProjection_eq_ok hkeyed hseed
    exact ⟨_, Timeline.Records.initial (GraphView.fromDatabaseProjection_head hkeyed hlow hseed) hzero⟩
  | apply h hclock hok ih =>
    obtain ⟨timeline, hrecords⟩ := ih
    obtain ⟨timeline', _, _, hrecords', _⟩ := hrecords.apply hclock hok
    exact ⟨timeline', hrecords'⟩

end Kgi
