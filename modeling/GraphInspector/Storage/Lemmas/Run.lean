import GraphInspector.Storage.Lemmas.Steps

/-!
Runs of a rebuilt generation: the stored graph, and the selected-parent chain of its VSPC.
-/

namespace Kgi

open Data

variable {event : StorageEvent}

def Storage.insertedBy (storage : Storage) : StorageEvent → List ValidatedNodeBlock
  | .materialize block policy =>
    match storage.materializeBlock block policy with
    | .ok (_, .inserted _) => [block]
    | _ => []
  | _ => []

def Storage.committedBy (storage : Storage) (destination : VspcPoint) : StorageEvent → VspcPoint
  | .applyVspc change =>
    match storage.applyVspcChange change with
    | .ok (_, outcome) => outcome.destination
    | .error _ => destination
  | _ => destination

structure Generation where
  storage : Storage
  inserted : List ValidatedNodeBlock
  destination : VspcPoint

namespace Generation

def step (generation : Generation) (event : StorageEvent) : Option Generation :=
  some
    { storage := generation.storage.step event
      inserted := generation.inserted ++ generation.storage.insertedBy event
      destination := generation.storage.committedBy generation.destination event }

end Generation

section Step

variable {storage : Storage} {inserted : List ValidatedNodeBlock}

section Cases

variable (hstores : storage.database.Stores inserted)
variable (hco : Coherent storage.database storage.caches) (event : StorageEvent)
include hstores hco

theorem step_cases :
    Coherent (storage.step event).database (storage.step event).caches ∧
    ((storage.insertedBy event = [] ∧
        Recolored storage.database (storage.step event).database) ∨
      ∃ block id row, storage.insertedBy event = [block] ∧
        Insertion storage.database (storage.step event).database block id row) := by
  have hrefl : Recolored storage.database storage.database :=
    ⟨rfl, rfl, fun _ => rfl, fun _ => rfl⟩
  cases event with
  | materialize block policy =>
    unfold Storage.step Storage.insertedBy
    dsimp only
    cases h : storage.materializeBlock block policy with
    | error e => exact ⟨hco, Or.inl ⟨rfl, hrefl⟩⟩
    | ok result =>
      obtain ⟨storage', outcome⟩ := result
      obtain ⟨hco', -, ⟨id, coordinate, rfl, hdb⟩ | ⟨id, row, committed, rfl, hinsertion, -⟩⟩ :=
        materializeBlock_cases hstores hco h
      . refine ⟨hco', Or.inl ⟨rfl, ?_⟩⟩
        rw [hdb]
        exact hrefl
      . exact ⟨hco', Or.inr ⟨block, id, row, rfl, hinsertion⟩⟩
  | applyVspc change =>
    unfold Storage.step
    dsimp only
    cases h : storage.applyVspcChange change with
    | error e => exact ⟨hco, Or.inl ⟨rfl, hrefl⟩⟩
    | ok result =>
      obtain ⟨hrecolored, hco', -, -⟩ := applyVspcChange_recolored hstores hco h
      exact ⟨hco', Or.inl ⟨rfl, hrecolored⟩⟩
  | evict eviction => exact ⟨hco.evict eviction, Or.inl ⟨rfl, hrefl⟩⟩
  | sequenceAdvanced count =>
    have hrecolored : Recolored storage.database (storage.step (.sequenceAdvanced count)).database :=
      ⟨rfl, rfl, fun _ => rfl, fun _ => rfl⟩
    exact ⟨hco.of_extends hstores hrecolored.extends', Or.inl ⟨rfl, hrecolored⟩⟩

theorem step_stores :
    (storage.step event).database.Stores (inserted ++ storage.insertedBy event) := by
  obtain ⟨-, ⟨hnil, hrecolored⟩ | ⟨block, id, row, hblock, hinsertion⟩⟩ :=
    step_cases hstores hco event
  . rw [hnil, List.append_nil]
    exact hrecolored.stores hstores
  . rw [hblock]
    exact hinsertion.stores hstores

theorem step_extends : Database.Extends storage.database (storage.step event).database := by
  obtain ⟨-, ⟨-, hrecolored⟩ | ⟨block, id, row, -, hinsertion⟩⟩ := step_cases hstores hco event
  . exact hrecolored.extends'
  . exact hinsertion.extends' hstores

end Cases

theorem Storage.Consistent.step_kept {path : List CompactId} (h : storage.Consistent inserted path)
    (hevent : ∀ change result, event = .applyVspc change →
      storage.applyVspcChange change ≠ .ok result) :
    (storage.step event).Consistent (inserted ++ storage.insertedBy event) path := by
  have hstores := step_stores h.stores h.coherent event
  have hco := (step_cases h.stores h.coherent event).1
  have hids := (step_extends h.stores h.coherent event).ids
  have hkept : (storage.step event).database.VspcChain path ∧
      ((storage.step event).caches.vspcSink = storage.caches.vspcSink ∨
        (storage.step event).caches.vspcSink = none) := by
    cases event with
    | materialize block policy =>
      unfold Storage.step
      dsimp only
      cases hok : storage.materializeBlock block policy with
      | error e => exact ⟨h.chain, Or.inl rfl⟩
      | ok result =>
        obtain ⟨storage', outcome⟩ := result
        obtain ⟨-, hsink, ⟨id, coordinate, rfl, hdb⟩ | ⟨id, row, committed, rfl, hinsertion, -⟩⟩ :=
          materializeBlock_cases h.stores h.coherent hok
        . refine ⟨?_, Or.inl hsink⟩
          rw [hdb]
          exact h.chain
        . exact ⟨hinsertion.chain h.stores h.chain, Or.inl hsink⟩
    | applyVspc change =>
      unfold Storage.step
      dsimp only
      cases hok : storage.applyVspcChange change with
      | error e => exact ⟨h.chain, Or.inl rfl⟩
      | ok result => exact absurd hok (hevent change result rfl)
    | evict eviction =>
      refine ⟨h.chain, ?_⟩
      simp only [Storage.step, ProcessingCacheDomains.evict]
      split
      . exact Or.inr rfl
      . exact Or.inl rfl
    | sequenceAdvanced count =>
      exact ⟨⟨h.chain.nonempty, h.chain.linked, h.chain.materialized, h.chain.marked, h.chain.root,
        h.chain.score⟩, Or.inl rfl⟩
  refine ⟨hstores, hco, hkept.1, ?_⟩
  intro sink hsink
  obtain heq | hnone := hkept.2
  . rw [heq] at hsink
    obtain ⟨hhead, hid⟩ := h.sink sink hsink
    exact ⟨hhead, hids _ _ hid⟩
  . rw [hnone] at hsink
    cases hsink

end Step

/--
The blocks 2 and 3 are children of the pruning point 1, and 4 is a child of 3. Their identifiers are
one greater than their hashes.
-/
def forkEvents : List StorageEvent :=
  [.materialize (.ofParent 2 1 (by decide)) .requireMaterialized,
    .materialize (.ofParent 3 1 (by decide)) .requireMaterialized,
    .materialize (.ofParent 4 3 (by decide)) .requireMaterialized]

def extendingChange : ReadyVspcChange :=
  ⟨⟨⟨0, 1⟩, 2⟩, ⟨⟨0, 2⟩, 3⟩, [], [3]⟩

def replacingChange : ReadyVspcChange :=
  ⟨⟨⟨0, 2⟩, 3⟩, ⟨⟨0, 4⟩, 5⟩, [3], [4, 5]⟩

namespace Generation

variable {generation reached : Generation} {events : List StorageEvent}

theorem exists_run (generation : Generation) (events : List StorageEvent) :
    ∃ reached, run step generation events = some reached := by
  induction events generalizing generation with
  | nil => exact ⟨generation, rfl⟩
  | cons event events ih => exact ih _

structure WellFormed (generation : Generation) : Prop where
  stores : generation.storage.database.Stores generation.inserted
  coherent : Coherent generation.storage.database generation.storage.caches

variable {next : Generation} {pruningPoint : CompactId}

theorem WellFormed.step (h : generation.WellFormed) (hstep : generation.step event = some next) :
    next.WellFormed := by
  cases hstep
  exact ⟨step_stores h.stores h.coherent event, (step_cases h.stores h.coherent event).1⟩

theorem run_wellFormed (h : generation.WellFormed) (hrun : run step generation events = some reached) :
    reached.WellFormed :=
  run.invariant (fun _ _ _ h hstep => h.step hstep) h hrun

theorem run_extends (h : generation.WellFormed) (hrun : run step generation events = some reached) :
    Database.Extends generation.storage.database reached.storage.database := by
  induction events generalizing generation with
  | nil =>
    cases hrun
    exact Database.Extends.refl _
  | cons event events ih =>
    rw [run.cons_eq_some] at hrun
    obtain ⟨next, hstep, hrun⟩ := hrun
    have hnext := h.step hstep
    cases hstep
    exact (step_extends h.stores h.coherent event).trans (ih hnext hrun)

/--
In every run of a rebuilt generation the tables hold exactly the inserted blocks, without gaps in slots
and levels, with every block one level above its materialized direct parents and after the identities
it refers to. A boundary identity stays one in every continuation, and a submission that inserts nothing
leaves the tables as they are.
-/
theorem stored_graph {block : ValidatedNodeBlock} {genesisHash : BlockHash} {storage : Storage}
    {anchor : MaterializedSyncAnchor}
    (hrebuild : Storage.performRebuild block genesisHash = .ok (storage, anchor))
    (hrun : run step ⟨storage, [block], anchor.point⟩ events = some reached) :
    reached.storage.database.Stores reached.inserted ∧
    (∀ (hash : BlockHash) (id : CompactId),
      reached.storage.database.identifiers.ids[hash]? = some id →
      reached.storage.database.blocks[id]? = none →
      ∀ further later, run step reached further = some later →
        later.storage.database.identifiers.ids[hash]? = some id ∧
        later.storage.database.blocks[id]? = none) ∧
    (∀ submitted policy,
      reached.storage.insertedBy (.materialize submitted policy) = [] →
      (reached.storage.step (.materialize submitted policy)).database = reached.storage.database) := by
  obtain ⟨-, row, parentIds, hrebuilt⟩ := performRebuild_eq_ok hrebuild
  have hreached : reached.WellFormed :=
    run_wellFormed ⟨hrebuilt.stores, hrebuilt.coherent⟩ hrun
  refine ⟨hreached.stores, ?_, ?_⟩
  . intro hash id hid hnone further later hlater
    have hext := run_extends hreached hlater
    exact ⟨hext.ids hash id hid, hext.get_eq_none hid hnone⟩
  . intro submitted policy hnil
    unfold Storage.step
    unfold Storage.insertedBy at hnil
    dsimp only at hnil ⊢
    cases h : reached.storage.materializeBlock submitted policy with
    | error e => rfl
    | ok result =>
      obtain ⟨storage', outcome⟩ := result
      obtain ⟨-, -, ⟨id, coordinate, rfl, hdb⟩ | ⟨id, row, committed, rfl, -, -⟩⟩ :=
        materializeBlock_cases hreached.stores hreached.coherent h
      . exact hdb
      . rw [h] at hnil
        cases hnil

/--
Three children of the pruning point and its child, and one of them again.
-/
theorem stored_graph_forked :
    ∃ storage anchor reached,
      Storage.performRebuild (.ofParent 1 0 (by decide)) 99 = .ok (storage, anchor) ∧
      run step ⟨storage, [.ofParent 1 0 (by decide)], anchor.point⟩
        (forkEvents ++ forkEvents.take 1) = some reached ∧
      reached.storage.database.Stores reached.inserted := by
  obtain ⟨storage, anchor, hrebuild, -⟩ :=
    exists_performRebuild (.ofParent 1 0 (by decide)) 99 (fun _ => true) (by decide +kernel)
  obtain ⟨reached, hrun⟩ := exists_run ⟨storage, [.ofParent 1 0 (by decide)], anchor.point⟩
    (forkEvents ++ forkEvents.take 1)
  exact ⟨storage, anchor, reached, hrebuild, hrun, (stored_graph hrebuild hrun).1⟩

/--
The assumption on the VSPC changes a generation receives: a change that commits follows selected
parents, ends at its destination and keeps the pruning point.
-/
def Connected (pruningPoint : CompactId) (generation : Generation) (event : StorageEvent) : Prop :=
  ∀ change, event = .applyVspc change →
    ∀ result, generation.storage.applyVspcChange change = .ok result →
      (∀ pair ∈ generation.storage.database.pathPairs change,
        generation.storage.database.selectedParent pair.1 = some pair.2) ∧
      generation.storage.database.ReachesDestination change ∧
      pruningPoint ∉ change.removed

def connects (pruningPoint : CompactId) (generation : Generation) : StorageEvent → Bool
  | .applyVspc change =>
    (generation.storage.database.pathPairs change).all (fun pair =>
      generation.storage.database.selectedParent pair.1 == some pair.2) &&
    (change.added.getLast? == some change.destination.id &&
      generation.storage.database.identifiers.ids[change.destination.hash]?
        == some change.destination.id) &&
    !change.removed.contains pruningPoint
  | _ => true

theorem connected_of_connects (h : generation.connects pruningPoint event = true) :
    generation.Connected pruningPoint event := by
  intro change hevent result _
  subst hevent
  simpa [connects, Database.ReachesDestination, and_assoc] using h

structure OnChain (pruningPoint : CompactId) (generation : Generation) : Prop where
  consistent : ∃ path, generation.storage.Consistent generation.inserted path ∧
    path.head? = some generation.destination.id ∧ path.getLast? = some pruningPoint
  destination : generation.storage.database.identifiers.ids[generation.destination.hash]?
    = some generation.destination.id

theorem transition_getLast {database : Database} {path : List CompactId} {change : ReadyVspcChange}
    (haccepts : database.Accepts path change) (hchain : database.VspcChain path)
    (hlast : path.getLast? = some pruningPoint) (hkept : pruningPoint ∉ change.removed) :
    (Database.transition path change).getLast? = some pruningPoint := by
  have hpath := haccepts.removed_isPrefix hchain
  unfold Database.transition
  rw [List.getLast?_append]
  cases hrest : (path.drop change.removed.length).getLast? with
  | some last =>
    rw [hpath, List.getLast?_append, hrest] at hlast
    exact hlast
  | none =>
    rw [List.getLast?_eq_none_iff] at hrest
    rw [hrest, List.append_nil] at hpath
    rw [hpath] at hlast
    exact absurd (List.mem_of_getLast? hlast) hkept

theorem OnChain.step (h : generation.OnChain pruningPoint)
    (hguard : generation.Connected pruningPoint event) (hstep : generation.step event = some next) :
    next.OnChain pruningPoint := by
  obtain ⟨⟨path, hconsistent, hhead, hlast⟩, hdestination⟩ := h
  have hext := step_extends hconsistent.stores hconsistent.coherent event
  cases hstep
  by_cases hcommit : ∃ change result, event = .applyVspc change ∧
      generation.storage.applyVspcChange change = .ok result
  . obtain ⟨change, ⟨storage', outcome⟩, rfl, hok⟩ := hcommit
    obtain ⟨hpairs, hreaches, hkept⟩ := hguard change rfl (storage', outcome) hok
    have haccepts := applyVspcChange_accepts hconsistent hpairs hok
    obtain ⟨-, -, -, houtcome⟩ :=
      applyVspcChange_recolored hconsistent.stores hconsistent.coherent hok
    have hstep : generation.storage.step (.applyVspc change) = storage' := by
      unfold Storage.step
      dsimp only
      rw [hok]
    have hcommitted : generation.storage.committedBy generation.destination (.applyVspc change)
        = change.destination := by
      unfold Storage.committedBy
      dsimp only
      rw [hok]
      exact houtcome
    have hinserted : generation.storage.insertedBy (.applyVspc change) = [] := rfl
    rw [hstep] at hext ⊢
    rw [hcommitted, hinserted, List.append_nil]
    refine ⟨⟨_, hconsistent.applyVspc hpairs hreaches hok, Database.transition_head hreaches.1,
      transition_getLast haccepts hconsistent.chain hlast hkept⟩, hext.ids _ _ hreaches.2⟩
  . have hcommitted : generation.storage.committedBy generation.destination event
        = generation.destination := by
      unfold Storage.committedBy
      split
      . next change =>
        split
        . next storage' outcome hok => exact absurd ⟨change, _, rfl, hok⟩ hcommit
        . rfl
      . rfl
    refine ⟨⟨path, hconsistent.step_kept fun change result heq hok =>
      hcommit ⟨change, result, heq, hok⟩, ?_, hlast⟩, ?_⟩
    . dsimp only
      rw [hcommitted]
      exact hhead
    . dsimp only
      rw [hcommitted]
      exact hext.ids _ _ hdestination

theorem exists_run_connected (events : List StorageEvent) (destination : VspcPoint)
    (h : (Storage.performRebuild (.ofParent 1 0 (by decide)) 99).toOption.any (fun result =>
      run.checks step (connects result.2.point.id)
        ⟨result.1, [.ofParent 1 0 (by decide)], result.2.point⟩ events &&
      (run step ⟨result.1, [.ofParent 1 0 (by decide)], result.2.point⟩ events).any fun reached =>
        reached.destination == destination) = true) :
    ∃ storage anchor reached,
      Storage.performRebuild (.ofParent 1 0 (by decide)) 99 = .ok (storage, anchor) ∧
      (∀ pre event post current, events = pre ++ event :: post →
        run step ⟨storage, [.ofParent 1 0 (by decide)], anchor.point⟩ pre = some current →
        current.Connected anchor.point.id event) ∧
      run step ⟨storage, [.ofParent 1 0 (by decide)], anchor.point⟩ events = some reached ∧
      reached.destination = destination := by
  obtain ⟨storage, anchor, hrebuild, hobserved⟩ := exists_performRebuild _ _ _ h
  rw [Bool.and_eq_true, Option.any_eq_true] at hobserved
  obtain ⟨hchecks, reached, hrun, hdestination⟩ := hobserved
  refine ⟨storage, anchor, reached, hrebuild, ?_, hrun, eq_of_beq hdestination⟩
  intro pre event post current hevents hpre
  have hconnected : ∀ generation event, connects anchor.point.id generation event = true →
      Connected anchor.point.id generation event := fun _ _ => connected_of_connects
  exact run.guard_of_checks hconnected hchecks hevents hpre

theorem run_onChain {block : ValidatedNodeBlock} {genesisHash : BlockHash} {storage : Storage}
    {anchor : MaterializedSyncAnchor}
    (hrebuild : Storage.performRebuild block genesisHash = .ok (storage, anchor))
    (hguard : ∀ pre event post current, events = pre ++ event :: post →
      run step ⟨storage, [block], anchor.point⟩ pre = some current →
      current.Connected anchor.point.id event)
    (hrun : run step ⟨storage, [block], anchor.point⟩ events = some reached) :
    reached.OnChain anchor.point.id := by
  obtain ⟨hhash, row, parentIds, hrebuilt⟩ := performRebuild_eq_ok hrebuild
  have hstart : OnChain anchor.point.id ⟨storage, [block], anchor.point⟩ := by
    refine ⟨⟨[anchor.point.id], hrebuilt.consistent, rfl, rfl⟩, ?_⟩
    rw [hhash]
    exact hrebuilt.hash
  exact run.invariant_of_guard (fun _ _ _ h hguard hstep => OnChain.step h hguard hstep) hstart
    hguard hrun

/--
In every run of a rebuilt generation whose changes are connected, the marked blocks are the
selected-parent chain from the last committed destination to the pruning point. A level has at most
one of them and stores its score. The cached and the queried sink are that destination.
-/
theorem vspc_chain {block : ValidatedNodeBlock} {genesisHash : BlockHash} {storage : Storage}
    {anchor : MaterializedSyncAnchor}
    (hrebuild : Storage.performRebuild block genesisHash = .ok (storage, anchor))
    (hguard : ∀ pre event post current, events = pre ++ event :: post →
      run step ⟨storage, [block], anchor.point⟩ pre = some current →
      current.Connected anchor.point.id event)
    (hrun : run step ⟨storage, [block], anchor.point⟩ events = some reached) :
    (∃ path : List CompactId, path.head? = some reached.destination.id ∧
      path.getLast? = some anchor.point.id ∧
      (path.IsChain fun child parent =>
        reached.storage.database.selectedParent child = some parent) ∧
      ∀ id, id ∈ path ↔ ∃ row : BlockRow,
        reached.storage.database.blocks[id]? = some row ∧ row.isInVspc = true) ∧
    (∀ (id id' : CompactId) (row row' : BlockRow),
      reached.storage.database.blocks[id]? = some row →
      reached.storage.database.blocks[id']? = some row' →
      row.isInVspc = true → row'.isInVspc = true →
      row.coordinate.level = row'.coordinate.level → id = id') ∧
    reached.storage.database.queryVspcSink
      = some (reached.destination.id, reached.destination.hash) ∧
    loadCurrentSink reached.storage.database reached.storage.caches
      = .ok (reached.destination.id, reached.destination.hash) ∧
    (∀ (level : Nat) (levelRow : LevelRow),
      reached.storage.database.levels[level]? = some levelRow →
      (∀ (id : CompactId) (row : BlockRow), reached.storage.database.blocks[id]? = some row →
        row.isInVspc = true → row.coordinate.level = level → levelRow.daaScore = row.daaScore) ∧
      ((∀ (id : CompactId) (row : BlockRow), reached.storage.database.blocks[id]? = some row →
        row.isInVspc = true → row.coordinate.level ≠ level) → levelRow.daaScore = noVspcDaaScore)) := by
  obtain ⟨⟨path, hconsistent, hhead, hlast⟩, hdestination⟩ := run_onChain hrebuild hguard hrun
  have hchain := hconsistent.chain
  have hmarked : ∀ id, id ∈ path ↔ ∃ row : BlockRow,
      reached.storage.database.blocks[id]? = some row ∧ row.isInVspc = true := by
    intro id
    constructor
    . intro hmem
      obtain ⟨row, hrow⟩ := hchain.materialized id hmem
      exact ⟨row, hrow, (hchain.marked id row hrow).mpr hmem⟩
    . rintro ⟨row, hrow, hin⟩
      exact (hchain.marked id row hrow).mp hin
  refine ⟨⟨path, hhead, hlast, hchain.linked, hmarked⟩, ?_, ?_, ?_, ?_⟩
  . intro id id' row row' hrow hrow' hin hin' hlevel
    exact hchain.marked_unique hconsistent.stores hrow hrow' hin hin' hlevel
  . exact hchain.queryVspcSink_eq hconsistent.stores hhead hdestination
  . obtain ⟨sink, hash, hsink, hids, hload⟩ := loadCurrentSink_eq_ok hconsistent
    rw [hhead, Option.some.injEq] at hsink
    subst hsink
    rw [hload, reached.storage.database.identifiers.ids_injective hids hdestination]
  . intro level levelRow hlevelRow
    obtain ⟨hscore, hnone⟩ := hchain.score level levelRow hlevelRow
    constructor
    . intro id row hrow hin hlevel
      exact hscore id ((hchain.marked id row hrow).mp hin) row hrow hlevel
    . intro habsent
      apply hnone
      intro id hmem row hrow
      exact habsent id row hrow ((hchain.marked id row hrow).mpr hmem)

/--
The VSPC of the fork goes to 2, and then the branch of 3 and 4 replaces it.
-/
theorem vspc_chain_forked :
    ∃ storage anchor reached,
      Storage.performRebuild (.ofParent 1 0 (by decide)) 99 = .ok (storage, anchor) ∧
      run step ⟨storage, [.ofParent 1 0 (by decide)], anchor.point⟩
        (forkEvents ++ [.applyVspc extendingChange, .applyVspc replacingChange]) = some reached ∧
      reached.storage.database.queryVspcSink = some (5, 4) := by
  obtain ⟨storage, anchor, reached, hrebuild, hguard, hrun, hdestination⟩ := exists_run_connected
    (forkEvents ++ [.applyVspc extendingChange, .applyVspc replacingChange]) ⟨⟨0, 4⟩, 5⟩
    (by decide +kernel)
  refine ⟨storage, anchor, reached, hrebuild, hrun, ?_⟩
  rw [(vspc_chain hrebuild hguard hrun).2.2.1, hdestination]
  rfl

/--
What is stored stays stored, whatever happens to the caches: an identity is never given away again, and a
block keeps its parents and the fields it was inserted with.
-/
theorem committed_rows_kept {reached later : Generation} {events further : List StorageEvent}
    {block : ValidatedNodeBlock} {genesisHash : BlockHash} {storage : Storage}
    {anchor : MaterializedSyncAnchor}
    (hrebuild : Storage.performRebuild block genesisHash = .ok (storage, anchor))
    (hrun : run step ⟨storage, [block], anchor.point⟩ events = some reached)
    (hlater : run step reached further = some later) :
    Database.Extends reached.storage.database later.storage.database ∧
      Coherent later.storage.database later.storage.caches := by
  obtain ⟨_, _, _, hrebuilt⟩ := performRebuild_eq_ok hrebuild
  have hreached := run_wellFormed ⟨hrebuilt.stores, hrebuilt.coherent⟩ hrun
  exact ⟨run_extends hreached hlater, (run_wellFormed hreached hlater).coherent⟩

theorem committed_rows_kept_forked :
    ∃ (storage : Storage) (anchor : MaterializedSyncAnchor) (later : Generation),
      Storage.performRebuild (.ofParent 1 0 (by decide)) 99 = .ok (storage, anchor) ∧
      run step ⟨storage, [.ofParent 1 0 (by decide)], anchor.point⟩ forkEvents = some later ∧
      Database.Extends storage.database later.storage.database := by
  obtain ⟨storage, anchor, hrebuild, -⟩ :=
    exists_performRebuild (.ofParent 1 0 (by decide)) 99 (fun _ => true) (by decide +kernel)
  obtain ⟨later, hlater⟩ :=
    exists_run ⟨storage, [.ofParent 1 0 (by decide)], anchor.point⟩ forkEvents
  have hstart : run step ⟨storage, [.ofParent 1 0 (by decide)], anchor.point⟩ [] = some _ := rfl
  exact ⟨storage, anchor, later, hrebuild, hlater, (committed_rows_kept hrebuild hstart hlater).1⟩

end Generation

section Conforms

variable {storage : Storage} {inserted : List ValidatedNodeBlock} {path : List CompactId}
variable {change : ReadyVspcChange}

/--
Storage treats a change as intended exactly when it is not one with an unchecked added pair.
-/
theorem applyVspcChange_conforms_iff (h : storage.Consistent inserted path)
    (hadded : change.added ≠ []) :
    Conforms storage path change ↔ ¬ UncheckedAddedPair storage.database path change := by
  have hattempt := vspcAttempt_eq h hadded
  have hchange := applyVspcChange_eq storage hadded
  constructor
  . intro hconforms hunchecked
    obtain ⟨hchecked, hviolation⟩ := hunchecked.violation
    obtain ⟨error, herror⟩ := Option.ne_none_iff_exists'.mp hviolation
    have hreport := (hconforms.reports error herror).1
    rw [hchecked] at hattempt
    rw [hchange, hattempt] at hreport
    cases hcommit : applyValidatedChange storage.database storage.caches change
        (loadMembers storage.database storage.caches (distinctMemberIds change)) with
    | ok result =>
      rw [hcommit] at hreport
      cases hreport
    | error e =>
      rw [hcommit] at hreport
      cases hreport
      exact applyValidatedChange_withoutSemantic _ _ _ _ error hcommit
  . intro hunchecked
    rw [violationOf_checked hunchecked] at hattempt
    cases hviolation : storage.database.violation path change with
    | none =>
      have haccepts := (Database.violation_eq_none hadded).mp hviolation
      rw [hviolation] at hattempt
      obtain ⟨database', success, hcommit, -⟩ :=
        applyValidatedChange_of_scores h.stores h.coherent haccepts.1.members
          fun _ hremarked level _ => hremarked.vspcScore_isOk h.stores h.chain haccepts.1 level
      rw [hcommit] at hattempt
      rw [hattempt] at hchange
      refine ⟨⟨fun _ => haccepts, fun _ => ⟨_, _, hchange⟩⟩, ?_⟩
      intro error herror
      rw [hviolation] at herror
      cases herror
    | some error =>
      rw [hviolation] at hattempt
      rw [hattempt] at hchange
      constructor
      . constructor
        . rintro ⟨storage', outcome, hok⟩
          rw [hchange] at hok
          cases hok
        . intro haccepts
          rw [(Database.violation_eq_none hadded).mpr haccepts] at hviolation
          cases hviolation
      . intro error' herror
        rw [hviolation] at herror
        cases herror
        refine ⟨hchange, ?_⟩
        unfold Storage.step
        dsimp only
        rw [hchange]

/--
The change that replaces 2 by the branch of 3 and 4, over the path from 2 to the pruning point.
-/
theorem applyVspcChange_conforms_iff_forked :
    ∃ storage anchor reached path,
      Storage.performRebuild (.ofParent 1 0 (by decide)) 99 = .ok (storage, anchor) ∧
      run Generation.step ⟨storage, [.ofParent 1 0 (by decide)], anchor.point⟩
        (forkEvents ++ [.applyVspc extendingChange]) = some reached ∧
      path.head? = some 3 ∧ path.getLast? = some anchor.point.id ∧
      Conforms reached.storage path replacingChange := by
  obtain ⟨storage, anchor, reached, hrebuild, hguard, hrun, hdestination⟩ :=
    Generation.exists_run_connected (forkEvents ++ [.applyVspc extendingChange]) ⟨⟨0, 2⟩, 3⟩
      (by decide +kernel)
  obtain ⟨path, hconsistent, hhead, hlast⟩ :=
    (Generation.run_onChain hrebuild hguard hrun).consistent
  rw [hdestination] at hhead
  refine ⟨storage, anchor, reached, path, hrebuild, hrun, hhead, hlast, ?_⟩
  rw [applyVspcChange_conforms_iff hconsistent (by decide)]
  intro hunchecked
  cases hunchecked.removed

/--
The change goes from 1 over 2 to 4, although the selected parent of 4 is 3. It commits.
-/
theorem applyVspcChange_commits_broken_path :
    ∃ storage anchor, Storage.performRebuild (.ofParent 1 0 (by decide)) 99 = .ok (storage, anchor) ∧
      ((forkEvents.foldl Storage.step storage).applyVspcChange
        ⟨⟨⟨0, 1⟩, 2⟩, ⟨⟨0, 4⟩, 5⟩, [], [3, 5]⟩).isOk = true ∧
      (forkEvents.foldl Storage.step storage).database.selectedParent 5 = some 4 := by
  obtain ⟨storage, anchor, hrebuild, hobserved⟩ := exists_performRebuild
    (.ofParent 1 0 (by decide)) 99
    (fun result =>
      ((forkEvents.foldl Storage.step result.1).applyVspcChange
        ⟨⟨⟨0, 1⟩, 2⟩, ⟨⟨0, 4⟩, 5⟩, [], [3, 5]⟩).isOk &&
      (forkEvents.foldl Storage.step result.1).database.selectedParent 5 == some 4) (by decide +kernel)
  rw [Bool.and_eq_true, beq_iff_eq] at hobserved
  exact ⟨storage, anchor, hrebuild, hobserved⟩

end Conforms

end Kgi
