import GraphInspector.ApiModel.Lemmas.Lineage
import GraphInspector.Storage.Lemmas.Run

/-!
The blocks that storage commits, and the Head lineage that follows them.
-/

namespace Kgi

open Data

namespace Database

def placeOf (database : Database) (hash : BlockHash) : Option BlockCoordinate :=
  (database.identifiers.ids[hash]?).bind fun id => (database.blocks[id]?).map BlockRow.coordinate

variable {database database' : Database} {hash : BlockHash} {coordinate : BlockCoordinate}

theorem Extends.placeOf (hext : Extends database database')
    (h : database.placeOf hash = some coordinate) : database'.placeOf hash = some coordinate := by
  unfold Database.placeOf at h ⊢
  rw [Option.bind_eq_some_iff] at h ⊢
  obtain ⟨id, hid, hrow⟩ := h
  exact ⟨id, hext.ids hash id hid, (hext.coordinate hid).trans hrow⟩

end Database

namespace Storage

def commitOf (storage : Storage) : StorageEvent → Option BlockCommitted
  | .materialize block policy =>
    match storage.materializeBlock block policy with
    | .ok (_, .inserted committed) => some committed
    | .ok (_, .alreadyMaterialized _ _) => none
    | .error _ => none
  | .applyVspc _ => none
  | .evict _ => none
  | .sequenceAdvanced _ => none

def commits (storage : Storage) : List StorageEvent → List BlockCommitted
  | [] => []
  | event :: events => (storage.commitOf event).toList ++ (storage.step event).commits events

end Storage

namespace Generation

variable {generation reached : Generation} {events : List StorageEvent} {committed : BlockCommitted}

theorem WellFormed.placeOf_commitOf (h : generation.WellFormed) {event : StorageEvent}
    (hcommit : generation.storage.commitOf event = some committed) :
    (generation.storage.step event).database.placeOf committed.hash = some committed.coordinate := by
  cases event with
  | materialize block policy =>
    unfold Storage.commitOf at hcommit
    dsimp only at hcommit
    split at hcommit
    . next storage' committed' hok =>
      cases hcommit
      obtain ⟨_, _, ⟨_, _, houtcome, _⟩ | ⟨id, row, _, houtcome, hinsertion, hcommitted⟩⟩ :=
        materializeBlock_cases h.stores h.coherent hok
      . cases houtcome
      . cases houtcome
        unfold Storage.step
        dsimp only
        unfold Database.placeOf
        rw [hok, hcommitted.hash, hcommitted.coordinate, hinsertion.represents.hash, Option.bind_some,
          hinsertion.represents.stored, Option.map_some]
    . cases hcommit
    . cases hcommit
  | applyVspc change => cases hcommit
  | evict eviction => cases hcommit
  | sequenceAdvanced count => cases hcommit

theorem run_placeOf (h : generation.WellFormed) (hrun : run step generation events = some reached)
    (hcommitted : committed ∈ generation.storage.commits events) :
    reached.storage.database.placeOf committed.hash = some committed.coordinate := by
  induction events generalizing generation with
  | nil => exact absurd hcommitted List.not_mem_nil
  | cons event events ih =>
    rw [run.cons_eq_some] at hrun
    obtain ⟨next, hstep, hrun⟩ := hrun
    have hnext := h.step hstep
    cases hstep
    unfold Storage.commits at hcommitted
    rw [List.mem_append, Option.mem_toList] at hcommitted
    obtain hfirst | hlater := hcommitted
    . exact (run_extends hnext hrun).placeOf (h.placeOf_commitOf hfirst)
    . exact ih hnext hrun hlater

end Generation

namespace GraphView

/--
A Head lineage follows the blocks that one generation of storage commits. Consecutive deltas of it,
composed in any grouping, replay all their steps at once.
-/
theorem composition_replays {block : ValidatedNodeBlock} {genesisHash : BlockHash} {storage : Storage}
    {anchor : MaterializedSyncAnchor} {storageEvents : List StorageEvent} {reached : Generation}
    {maxDepth : Nat} {extent : LevelExtent} {levels : Map Nat Level}
    {blocks : Map BlockHash GraphBlock} {edges : Map EdgeId GraphEdge} {seed view view' : GraphView}
    {before events : List (OriginalUpdate × Nat)} {grouping : DeltaGrouping}
    (hrebuild : Storage.performRebuild block genesisHash = .ok (storage, anchor))
    (hstorage : run Generation.step ⟨storage, [block], anchor.point⟩ storageEvents = some reached)
    (hkeyed : ∀ (id : EdgeId) (edge : GraphEdge), edges[id]? = some edge → edge.id = id)
    (hlow : extent.lowLevel = max 1 (extent.highLevel + 1 - maxDepth))
    (hseed : fromDatabaseProjection maxDepth extent .head levels blocks edges = .ok seed)
    (hplaced : ∀ (hash : BlockHash) (stored : GraphBlock), blocks[hash]? = some stored →
      reached.storage.database.placeOf hash = some stored.coordinate)
    (hcommitted : ∀ committed timestamp, (.block committed, timestamp) ∈ before ++ events →
      committed ∈ storage.commits storageEvents)
    (hbefore : run advance seed before = some view) (hrun : run advance view events = some view')
    (hgrouping : grouping.deltas = emitted view events) :
    view.applyDeltas (emitted view events) = some view' ∧
      ∃ delta, grouping.compose = .ok (.ok delta) ∧ view.applyDelta delta = .ok (view', .ok ()) := by
  obtain ⟨_, row, parentIds, hrebuilt⟩ := performRebuild_eq_ok hrebuild
  have hseedHead := fromDatabaseProjection_head hkeyed hlow hseed
  obtain ⟨_, _, _, _, _, _, _, hwindow⟩ := fromDatabaseProjection_eq_ok hkeyed hseed
  let level : BlockHash → Nat := fun hash =>
    (reached.storage.database.placeOf hash).elim 0 BlockCoordinate.level
  have hlevel : ∀ hash coordinate, reached.storage.database.placeOf hash = some coordinate →
      coordinate.level = level hash := by
    intro hash coordinate hplace
    dsimp only [level]
    rw [hplace, Option.elim_some]
  have hseedLevels : seed.OnLevels level := by
    intro hash stored hstored
    rw [blocks_eq_of_window_eq hwindow] at hstored
    exact hlevel hash stored.coordinate (hplaced hash stored hstored)
  have hevents : ∀ event ∈ before ++ events, event.1.OnLevel level := by
    rintro ⟨update, timestamp⟩ hevent
    cases update with
    | block committed =>
      exact hlevel committed.hash committed.coordinate (Generation.run_placeOf
        ⟨hrebuilt.stores, hrebuilt.coherent⟩ hstorage (hcommitted committed timestamp hevent))
    | vspc committed => trivial
  obtain ⟨hhead, hlevels, _⟩ := run_spans hseedHead hseedLevels
    (fun event hevent => hevents event (List.mem_append_left events hevent)) hbefore
  exact compose_replays hhead hlevels
    (fun event hevent => hevents event (List.mem_append_right before hevent)) hrun hgrouping

def anchorProjection : Panics GraphView :=
  fromDatabaseProjection 2 (.upTo 0) .head
    ((∅ : Map Nat Level).insert 1 ⟨1, some 0⟩)
    ((∅ : Map BlockHash GraphBlock).insert 1
      ⟨1, .root, 0, 0, none, [], [], [], .blue, true⟩) ∅

def reorganization (third fourth : BlockCommitted) : List (OriginalUpdate × Nat) :=
  [(.vspc ⟨1, 2, [], [2], [⟨2, 1, some 0⟩]⟩, 20), (.block third, 30),
    (.vspc ⟨2, 3, [2], [3], [⟨2, 2, some 0⟩]⟩, 40), (.block fourth, 50)]

theorem composition_replays_reorganization :
    ∃ (storage : Storage) (anchor : MaterializedSyncAnchor) (second third fourth : BlockCommitted)
      (seed view view' : GraphView) (first next last final delta : GraphDelta),
      Storage.performRebuild (.ofParent 1 0 (by decide)) 99 = .ok (storage, anchor) ∧
      storage.commits forkEvents = [second, third, fourth] ∧
      anchorProjection = .ok seed ∧ run advance seed [(.block second, 10)] = some view ∧
      run advance view (reorganization third fourth) = some view' ∧
      emitted view (reorganization third fourth) = [first, next, last, final] ∧
      (DeltaGrouping.pair (.pair (.single first) (.single next))
        (.pair (.single last) (.single final))).compose = .ok (.ok delta) ∧
      view.applyDelta delta = .ok (view', .ok ()) := by
  have hobserved : ((Storage.performRebuild (.ofParent 1 0 (by decide)) 99).toOption.bind fun result =>
      (result.1.commits forkEvents)[0]?.bind fun second =>
      (result.1.commits forkEvents)[1]?.bind fun third =>
      (result.1.commits forkEvents)[2]?.bind fun fourth =>
        anchorProjection.toOption.bind fun seed =>
          (run advance seed [(.block second, 10)]).bind fun view =>
            (run advance view (reorganization third fourth)).map fun _ =>
              ((result.1.commits forkEvents).length,
                (emitted view (reorganization third fourth)).length,
                (forkEvents.foldl Storage.step result.1).database.placeOf 1))
      = some (3, 4, some .root) := by
    decide +kernel
  simp only [Option.bind_eq_some_iff, Option.map_eq_some_iff, toOption_eq_some, Prod.mk.injEq]
    at hobserved
  obtain ⟨⟨storage, anchor⟩, hrebuild, second, hsecond, third, hthird, fourth, hfourth, seed, hseed,
    view, hbefore, view', hrun, hthree, hlength, hplace⟩ := hobserved
  obtain ⟨_, _, _, hcommits⟩ := List.length_eq_three.mp hthree
  rw [hcommits] at hsecond hthird hfourth
  cases hsecond
  cases hthird
  cases hfourth
  obtain ⟨first, next, last, final, hemitted⟩ := List.length_eq_four.mp hlength
  obtain ⟨reached, hstorage⟩ := Generation.exists_run
    ⟨storage, [.ofParent 1 0 (by decide)], anchor.point⟩ forkEvents
  have hreached : reached.storage = forkEvents.foldl Storage.step storage := by
    cases hstorage
    rfl
  obtain ⟨_, delta, hcompose, hreplay⟩ := composition_replays hrebuild hstorage
    (by
      intro id edge hedge
      simp at hedge)
    (by decide) hseed
    (by
      intro hash stored hstored
      rw [Map.get_insert] at hstored
      split at hstored
      . next heq =>
        cases hstored
        rw [← heq, hreached]
        exact hplace
      . simp at hstored)
    (by
      intro committed timestamp hevent
      rw [hcommits]
      unfold reorganization at hevent
      simp only [List.cons_append, List.nil_append, List.mem_cons, Prod.mk.injEq,
        OriginalUpdate.block.injEq, reduceCtorEq, false_and, false_or, List.not_mem_nil,
        or_false] at hevent
      obtain ⟨rfl, _⟩ | ⟨rfl, _⟩ | ⟨rfl, _⟩ := hevent
      . simp
      . simp
      . simp)
    hbefore hrun
    (show (DeltaGrouping.pair (.pair (.single first) (.single next))
      (.pair (.single last) (.single final))).deltas = _ from hemitted.symm)
  exact ⟨storage, anchor, second, third, fourth, seed, view, view', first, next, last, final, delta,
    hrebuild, hcommits, hseed, hbefore, hrun, hemitted, hcompose, hreplay⟩

end GraphView

end Kgi
