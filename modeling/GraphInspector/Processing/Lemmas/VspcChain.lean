import GraphInspector.Processing.Lemmas.VspcMoves

/-!
The commits of the VSPC processor form one chain from the anchor, and pruning keeps what it needs.
-/

namespace Kgi

open Data

variable {effects : List VspcProcessorEffect} {change : VspcChange}

structure SelectedParentTree where
  order : BlockHash → ConsensusOrder
  selectedParent : BlockHash → BlockHash

namespace SelectedParentTree

variable {tree : SelectedParentTree}

def Depicts (tree : SelectedParentTree) (block : PersistedBlock) : Prop :=
  block.point.order = tree.order block.point.hash ∧
    block.selectedParent = tree.selectedParent block.point.hash

def source (tree : SelectedParentTree) (change : VspcChange) : Option BlockHash :=
  match change.removed.head? with
  | some source => some source
  | none => change.added.head?.map tree.selectedParent

def needed (tree : SelectedParentTree) (change : VspcChange) : List BlockHash :=
  change.added.getLast?.toList ++
    match change.removed.head? with
    | some source => [source]
    | none => change.added ++ (tree.source change).toList

/--
The removed blocks lead down and the added blocks lead up along selected parents from a common one.
-/
structure Links (tree : SelectedParentTree) (change : VspcChange) : Prop where
  added : change.added.IsChain fun parent child => tree.selectedParent child = parent
  removed : change.removed.IsChain fun child parent => tree.selectedParent child = parent
  fork : ∀ last ∈ change.removed.getLast?, ∀ first ∈ change.added.head?,
    tree.selectedParent last = tree.selectedParent first

/--
The order rises from every selected parent to its child and from the source to the destination.
-/
structure Connects (tree : SelectedParentTree) (change : VspcChange) : Prop extends tree.Links change where
  ascends : ∀ hash ∈ change.removed ++ change.added,
    tree.order (tree.selectedParent hash) < tree.order hash
  rises : ∀ source ∈ tree.source change, ∀ destination ∈ change.added.getLast?,
    tree.order source < tree.order destination

def Admits (tree : SelectedParentTree) : VspcProcessorInput → Prop
  | .initializeRun anchor => tree.Depicts ⟨anchor.point, anchor.selectedParent⟩
  | .persisted (some block) => tree.Depicts block
  | .synthetic change => tree.Connects change
  | .notification change => tree.Connects change
  | _ => True

theorem lt_of_mem_path {first : BlockHash} {path : List BlockHash}
    (hlinks : (first :: path).IsChain fun parent child => tree.selectedParent child = parent)
    (hascends : ∀ hash ∈ first :: path, tree.order (tree.selectedParent hash) < tree.order hash) :
    ∀ hash ∈ first :: path, tree.order (tree.selectedParent first) < tree.order hash := by
  induction path generalizing first with
  | nil =>
    intro hash hmem
    rw [List.mem_singleton] at hmem
    rw [hmem]
    exact hascends first List.mem_cons_self
  | cons second path ih =>
    have hfirst := hascends first List.mem_cons_self
    obtain ⟨hsecond, hlinks⟩ := List.isChain_cons_cons.mp hlinks
    have hrest := ih hlinks fun hash hmem => hascends hash (List.mem_cons_of_mem _ hmem)
    rw [hsecond] at hrest
    intro hash hmem
    rcases List.mem_cons.mp hmem with rfl | hmem
    . exact hfirst
    . exact hfirst.trans (hrest hash hmem)

theorem Connects.source_le (h : tree.Connects change) {source hash : BlockHash}
    (hsource : tree.source change = some source) (hneeded : hash ∈ tree.needed change) :
    tree.order source ≤ tree.order hash := by
  rcases List.mem_append.mp hneeded with hlast | hneeded
  . rw [Option.mem_toList] at hlast
    exact le_of_lt (h.rises source hsource hash hlast)
  . cases hremoved : change.removed.head? with
    | some removed =>
      rw [hremoved] at hneeded
      unfold SelectedParentTree.source at hsource
      rw [hremoved] at hsource
      cases hsource
      rw [List.mem_singleton.mp hneeded]
    | none =>
      rw [hremoved] at hneeded
      rcases List.mem_append.mp hneeded with hadded | hneeded
      . have hsource' := hsource
        unfold SelectedParentTree.source at hsource'
        rw [hremoved] at hsource'
        obtain ⟨first, hfirst, rfl⟩ := Option.map_eq_some_iff.mp hsource'
        obtain ⟨path, hpath⟩ := List.head?_eq_some_iff.mp hfirst
        have hlinks := h.added
        rw [hpath] at hlinks hadded
        apply le_of_lt
        apply lt_of_mem_path hlinks ?_ hash hadded
        intro member hmember
        apply h.ascends
        rw [hpath]
        exact List.mem_append_right _ hmember
      . rw [Option.mem_toList, hsource] at hneeded
        cases hneeded
        exact le_refl _

theorem Links.suffixAfter (h : tree.Links change) {hash : BlockHash}
    (hsuffix : VspcState.suffixAfter hash change.added ≠ []) :
    tree.Links ⟨[], VspcState.suffixAfter hash change.added⟩ ∧
      tree.source ⟨[], VspcState.suffixAfter hash change.added⟩ = some hash := by
  obtain ⟨before, hpath⟩ := VspcState.suffixAfter_split hsuffix
  have hlinks := h.added
  rw [hpath] at hlinks
  have hlinks := hlinks.right_of_append
  obtain ⟨first, path, hcons⟩ := List.exists_cons_of_ne_nil hsuffix
  constructor
  . constructor
    case added => exact hlinks.tail
    case removed => exact List.isChain_nil
    case fork =>
      intro last hlast
      cases hlast
  . rw [hcons] at hlinks ⊢
    obtain ⟨hfirst, -⟩ := List.isChain_cons_cons.mp hlinks
    exact congrArg some hfirst

theorem Connects.suffixAfter (h : tree.Connects change) {hash : BlockHash}
    (hsuffix : VspcState.suffixAfter hash change.added ≠ []) :
    tree.Connects ⟨[], VspcState.suffixAfter hash change.added⟩ := by
  obtain ⟨hlinks, hsource⟩ := h.toLinks.suffixAfter hsuffix
  obtain ⟨before, hpath⟩ := VspcState.suffixAfter_split hsuffix
  have hascends : ∀ member ∈ VspcState.suffixAfter hash change.added,
      tree.order (tree.selectedParent member) < tree.order member := by
    intro member hmember
    apply h.ascends
    rw [hpath]
    exact List.mem_append_right _ (List.mem_append_right _ (List.mem_cons_of_mem _ hmember))
  constructor
  case toLinks => exact hlinks
  case ascends =>
    intro member hmember
    exact hascends member (by simpa using hmember)
  case rises =>
    intro source hsource' destination hdestination
    obtain ⟨first, path, hcons⟩ := List.exists_cons_of_ne_nil hsuffix
    have hmem := List.mem_of_mem_getLast? hdestination
    have hadded := hlinks.added
    rw [hcons] at hsource' hadded hascends hmem
    cases hsource'
    exact lt_of_mem_path hadded hascends destination hmem

end SelectedParentTree

namespace VspcState

variable {state next : VspcState} {id : PendingId}

/-!
Candidates and records come from somewhere.
-/

def Keeps (before after : VspcState) : Prop :=
  ∀ (id : PendingId) (candidate : PendingCandidate), after.pending[id]? = some candidate →
    ∃ kept, before.pending[id]? = some kept ∧ candidate.change = kept.change ∧
      candidate.source = kept.source

theorem Keeps.trans {before between after : VspcState} (h : Keeps before between)
    (h' : Keeps between after) : Keeps before after := by
  intro id candidate hget
  obtain ⟨kept, hkept, hchange, hsource⟩ := h' id candidate hget
  obtain ⟨original, horiginal, hchange', hsource'⟩ := h id kept hkept
  exact ⟨original, horiginal, hchange.trans hchange', hsource.trans hsource'⟩

theorem keeps_removeCandidate (state : VspcState) (id : PendingId) :
    Keeps state (state.removeCandidate id) := by
  intro other candidate hget
  rw [get_removeCandidate] at hget
  split at hget
  . cases hget
  . exact ⟨candidate, hget, rfl, rfl⟩

theorem keeps_refreshAll (state : VspcState) (ids : List PendingId) :
    Keeps state (state.refreshAll ids) := by
  intro other candidate hget
  rw [get_refreshAll] at hget
  split at hget
  . obtain ⟨kept, hkept, rfl⟩ := Option.map_eq_some_iff.mp hget
    exact ⟨kept, hkept, rfl, rfl⟩
  . exact ⟨candidate, hget, rfl, rfl⟩

theorem keeps_persist (state : VspcState) (persisted : PersistedBlock) :
    Keeps state (state.persist persisted) := by
  unfold persist
  split
  . exact fun id candidate hget => ⟨candidate, hget, rfl, rfl⟩
  . exact keeps_refreshAll { state with history := state.history.insert persisted } _

theorem keeps_pruneHistory (state : VspcState) : Keeps state state.pruneHistory :=
  keeps_refreshAll { state with history := state.history.pruneBelow state.committedSink } _

theorem Sound.keeps_enterLive (h : state.Sound) : Keeps state state.enterLive := by
  obtain ⟨-, -, hget⟩ := h.foldl_removeCandidate state.syntheticFifo
  refine Keeps.trans ?_ (keeps_pruneHistory { state.clearSynthetic with phase := .live })
  intro id candidate hcandidate
  have hcandidate := (hget id).symm.trans hcandidate
  split at hcandidate
  . cases hcandidate
  . exact ⟨candidate, hcandidate, rfl, rfl⟩

theorem keeps_committed (state : VspcState) (id : PendingId) (destination : VspcPoint) :
    Keeps state (state.committed id destination) := by
  have hremoved := keeps_removeCandidate { state with committedSink := destination } id
  unfold committed
  dsimp only
  split
  . exact hremoved
  . exact hremoved.trans (keeps_pruneHistory _)

structure Prunes (before after : MaterializedHistory) (point : VspcPoint) : Prop where
  known : ∀ (hash : BlockHash) (block : PersistedBlock), after.byHash[hash]? = some block →
    before.byHash[hash]? = some block
  kept : ∀ (hash : BlockHash) (block : PersistedBlock), before.byHash[hash]? = some block →
    point.order ≤ block.point.order → after.byHash[hash]? = some block

theorem Prunes.refl (history : MaterializedHistory) (point : VspcPoint) : Prunes history history point :=
  ⟨fun _ _ hget => hget, fun _ _ hget _ => hget⟩

theorem prunes_pruneHistory (hhistory : state.history.Consistent) :
    Prunes state.history state.pruneHistory.history state.committedSink := by
  unfold pruneHistory
  rw [(sameBase_refreshAll _ _).history]
  constructor
  case known =>
    intro hash block hget
    rw [hhistory.get_pruneBelow, Option.filter_eq_some_iff] at hget
    exact hget.1
  case kept =>
    intro hash block hget hle
    rw [hhistory.get_pruneBelow, hget, Option.filter_some, if_pos (decide_eq_true hle)]

theorem committedSink_pruneHistory (state : VspcState) :
    state.pruneHistory.committedSink = state.committedSink :=
  (sameBase_refreshAll { state with history := state.history.pruneBelow state.committedSink } _).committedSink

theorem Sound.prunes_enterLive (h : state.Sound) :
    Prunes state.history state.enterLive.history state.committedSink ∧
      state.enterLive.committedSink = state.committedSink := by
  obtain ⟨-, hbase, -⟩ := h.foldl_removeCandidate state.syntheticFifo
  have hpruned := prunes_pruneHistory h.clearSynthetic.history
  have hhistory : state.clearSynthetic.history = state.history := hbase.history
  have hsink : state.clearSynthetic.committedSink = state.committedSink := hbase.committedSink
  constructor
  . rw [← hhistory, ← hsink]
    exact hpruned
  . unfold VspcState.enterLive
    rw [committedSink_pruneHistory]
    exact hsink

theorem Sound.prunes_committed (h : state.Sound) (id : PendingId) (destination : VspcPoint) :
    Prunes state.history (state.committed id destination).history destination ∧
      (state.committed id destination).committedSink = destination := by
  have hbase := sameBase_removeCandidate { state with committedSink := destination } id
  have hhistory : ({ state with committedSink := destination }.removeCandidate id).history
    = state.history := hbase.history
  have hsink : ({ state with committedSink := destination }.removeCandidate id).committedSink
    = destination := hbase.committedSink
  unfold VspcState.committed
  dsimp only
  split
  . exact ⟨by rw [hhistory]; exact .refl _ _, hsink⟩
  . have hpruned := prunes_pruneHistory (hhistory ▸ h.history)
    rw [hhistory, hsink] at hpruned
    exact ⟨hpruned, by rw [committedSink_pruneHistory, hsink]⟩

theorem sameBase_persist (state : VspcState) (persisted : PersistedBlock) :
    SameBase { state with history := state.history.insert persisted } (state.persist persisted) := by
  unfold persist
  split
  . next hcontains =>
    unfold MaterializedHistory.insert
    rw [if_pos hcontains]
    exact SameBase.refl state
  . exact sameBase_refreshAll { state with history := state.history.insert persisted } _

/-!
What the state retains of a run.
-/

def Delivered (anchor : MaterializedSyncAnchor) (trace : List VspcProcessorEffect)
    (block : PersistedBlock) : Prop :=
  block = ⟨anchor.point, anchor.selectedParent⟩ ∨ .delivered block ∈ trace

structure Retains (tree : SelectedParentTree) (anchor : MaterializedSyncAnchor)
    (trace : List VspcProcessorEffect) (state : VspcState) : Prop where
  depicted : ∀ (hash : BlockHash) (block : PersistedBlock), state.history.byHash[hash]? = some block →
    tree.Depicts block
  connected : ∀ (id : PendingId) (candidate : PendingCandidate), state.pending[id]? = some candidate →
    tree.Connects candidate.change
  delivered : ∀ block, Delivered anchor trace block → tree.Depicts block
  kept : ∀ block, Delivered anchor trace block → state.committedSink.order ≤ block.point.order →
    ∃ record, state.history.byHash[block.point.hash]? = some record

variable {tree : SelectedParentTree} {anchor : MaterializedSyncAnchor} {trace : List VspcProcessorEffect}

theorem Retains.rises (h : Retains tree anchor trace state) (hsound : state.Sound)
    {candidate : PendingCandidate} (hget : state.pending[id]? = some candidate)
    {source destination : VspcPoint}
    (hendpoints : state.endpoints candidate.change = some (source, destination)) :
    source.order < destination.order := by
  obtain ⟨sourceHash, last, sourceBlock, lastBlock, hhash, hlast, hsourceBlock, hlastBlock, rfl, rfl⟩ :=
    endpoints_eq_some.mp hendpoints
  have hsource : tree.source candidate.change = some sourceHash := by
    unfold VspcState.sourceHash at hhash
    unfold SelectedParentTree.source
    cases hremoved : candidate.change.removed.head? with
    | some source =>
      rw [hremoved] at hhash
      exact hhash
    | none =>
      rw [hremoved] at hhash
      obtain ⟨first, hfirst, hparent⟩ := Option.bind_eq_some_iff.mp hhash
      obtain ⟨block, hblock, rfl⟩ := Option.map_eq_some_iff.mp hparent
      rw [hfirst, Option.map_some, (h.depicted first block hblock).2, (hsound.history.byHash _ _ hblock).1]
  have hrises := (h.connected id candidate hget).rises sourceHash hsource last hlast
  rw [(h.depicted _ _ hsourceBlock).1, (h.depicted _ _ hlastBlock).1,
    (hsound.history.byHash _ _ hsourceBlock).1, (hsound.history.byHash _ _ hlastBlock).1]
  exact hrises

theorem Retains.new (hdepicts : tree.Depicts ⟨anchor.point, anchor.selectedParent⟩)
    (htrace : ∀ block, .delivered block ∉ trace) : Retains tree anchor trace (new anchor) where
  depicted hash block hget := by
    have hinsert : (MaterializedHistory.new anchor).byHash[hash]?
        = if anchor.point.hash = hash then some ⟨anchor.point, anchor.selectedParent⟩
          else (∅ : Map BlockHash PersistedBlock)[hash]? :=
      MaterializedHistory.get_insert_of_absent (by simp) hash
    have hget := hinsert.symm.trans hget
    split at hget
    . cases hget
      exact hdepicts
    . simp at hget
  connected id candidate hget := by simp [VspcState.new] at hget
  delivered block hdelivered := by
    rcases hdelivered with rfl | hdelivered
    . exact hdepicts
    . exact absurd hdelivered (htrace block)
  kept block hdelivered _ := by
    rcases hdelivered with rfl | hdelivered
    . exact ⟨_, (MaterializedHistory.get_insert_of_absent (by simp) _).trans (if_pos rfl)⟩
    . exact absurd hdelivered (htrace block)

theorem Retains.prune (h : Retains tree anchor trace state) (hsound : state.Sound)
    (hkeeps : Keeps state next) (hprunes : Prunes state.history next.history next.committedSink)
    (hsink : state.committedSink.order ≤ next.committedSink.order) : Retains tree anchor trace next where
  depicted hash block hget := h.depicted hash block (hprunes.known hash block hget)
  connected id candidate hget := by
    obtain ⟨kept, hkept, hchange, -⟩ := hkeeps id candidate hget
    rw [hchange]
    exact h.connected id kept hkept
  delivered := h.delivered
  kept block hdelivered hle := by
    obtain ⟨record, hrecord⟩ := h.kept block hdelivered (hsink.trans hle)
    refine ⟨record, hprunes.kept _ _ hrecord ?_⟩
    rw [(h.depicted _ _ hrecord).1, (hsound.history.byHash _ _ hrecord).1,
      ← (h.delivered block hdelivered).1]
    exact hle

theorem Delivered.of_append {block : PersistedBlock} (h : Delivered anchor (trace ++ effects) block) :
    Delivered anchor trace block ∨ .delivered block ∈ effects := by
  rcases h with h | h
  . exact Or.inl (Or.inl h)
  . rcases List.mem_append.mp h with h | h
    . exact Or.inl (Or.inr h)
    . exact Or.inr h

variable (h : Retains tree anchor trace state)
include h

theorem Retains.append (effects : List VspcProcessorEffect)
    (heffects : ∀ block, .delivered block ∉ effects) :
    Retains tree anchor (trace ++ effects) state where
  depicted := h.depicted
  connected := h.connected
  delivered block hdelivered := by
    rcases hdelivered.of_append with hdelivered | hdelivered
    . exact h.delivered block hdelivered
    . exact absurd hdelivered (heffects block)
  kept block hdelivered hle := by
    rcases hdelivered.of_append with hdelivered | hdelivered
    . exact h.kept block hdelivered hle
    . exact absurd hdelivered (heffects block)

theorem Retains.admitChange (hconnects : tree.Connects change) (destination : BlockHash)
    (source : CandidateSource) :
    Retains tree anchor trace (state.admitChange change destination source) := by
  have hbase := sameBase_admitChange state change destination source
  constructor
  case depicted =>
    rw [hbase.history]
    exact h.depicted
  case connected =>
    intro id candidate hget
    rw [get_admitChange] at hget
    split at hget
    . cases hget
      exact hconnects
    . exact h.connected id candidate hget
  case delivered => exact h.delivered
  case kept =>
    rw [hbase.history, hbase.committedSink]
    exact h.kept

theorem Retains.persist {block : PersistedBlock} (hdepicts : tree.Depicts block) :
    Retains tree anchor (trace ++ [.delivered block]) (state.persist block) := by
  obtain ⟨-, hsink, hhistory⟩ := sameBase_persist state block
  have hget : ∀ hash, (state.persist block).history.byHash[hash]?
      = if block.point.hash = hash ∧ state.history.byHash[hash]? = none then some block
        else state.history.byHash[hash]? := by
    intro hash
    rw [hhistory]
    cases hfound : state.history.byHash[block.point.hash]? with
    | none =>
      rw [MaterializedHistory.get_insert_of_absent hfound]
      by_cases heq : block.point.hash = hash
      . rw [if_pos heq, if_pos ⟨heq, heq ▸ hfound⟩]
      . rw [if_neg heq, if_neg fun hand => heq hand.1]
    | some record =>
      rw [if_neg]
      . unfold MaterializedHistory.insert
        rw [if_pos ((Map.contains_iff _ _).mpr ⟨record, hfound⟩)]
      . rintro ⟨rfl, hnone⟩
        rw [hfound] at hnone
        cases hnone
  constructor
  case depicted =>
    intro hash record hrecord
    rw [hget] at hrecord
    split at hrecord
    . cases hrecord
      exact hdepicts
    . exact h.depicted hash record hrecord
  case connected =>
    intro id candidate hcandidate
    obtain ⟨kept, hkept, hchange, -⟩ := keeps_persist state block id candidate hcandidate
    rw [hchange]
    exact h.connected id kept hkept
  case delivered =>
    intro other hdelivered
    rcases hdelivered.of_append with hdelivered | hdelivered
    . exact h.delivered other hdelivered
    . cases List.mem_singleton.mp hdelivered
      exact hdepicts
  case kept =>
    intro other hdelivered hle
    rw [hsink] at hle
    rw [hget]
    split
    . exact ⟨block, rfl⟩
    . next hpresent =>
      rcases hdelivered.of_append with hdelivered | hdelivered
      . exact h.kept other hdelivered hle
      . cases List.mem_singleton.mp hdelivered
        exact Option.ne_none_iff_exists'.mp fun hnone => hpresent ⟨rfl, hnone⟩

theorem Retains.moves (hsound : state.Sound) {input : VspcProcessorInput}
    (hinput : tree.Admits input) (hmoves : state.Moves input next effects) :
    Retains tree anchor (trace ++ effects) next := by
  cases hmoves with
  | catchup bound _ =>
    rw [List.append_nil]
    exact ⟨h.depicted, h.connected, h.delivered, h.kept⟩
  | live bound _ =>
    rw [List.append_nil]
    obtain ⟨hprunes, hsink⟩ := hsound.prunes_enterLive
    apply h.prune hsound hsound.keeps_enterLive
    . rw [hsink]
      exact hprunes
    . rw [hsink]
  | persisted block => exact h.persist hinput
  | synthetic change destination _ _ =>
    rw [List.append_nil]
    exact h.admitChange hinput destination .synthetic
  | notification change destination _ _ _ =>
    rw [List.append_nil]
    exact h.admitChange hinput destination .notification
  | discard answers id overlap _ =>
    rw [List.append_nil]
    have hbase := sameBase_removeCandidate state id
    apply h.prune hsound (keeps_removeCandidate state id)
    . rw [hbase.history]
      exact .refl _ _
    . rw [hbase.committedSink]
  | normalizeCrossing answers id suffix haction =>
    rw [List.append_nil]
    have hbase := sameBase_normalized state id suffix
    cases Choice.of_nextAction haction with
    | crossing bound order id candidate _ _ hget hsuffix =>
      constructor
      case depicted =>
        rw [hbase.history]
        exact h.depicted
      case connected =>
        intro other found hfound
        rw [get_normalized hget] at hfound
        split at hfound
        . cases hfound
          exact (h.connected id candidate hget).suffixAfter hsuffix
        . exact h.connected other found hfound
      case delivered => exact h.delivered
      case kept =>
        rw [hbase.history, hbase.committedSink]
        exact h.kept
  | markOverlap answers id haction =>
    rw [List.append_nil]
    cases Choice.of_nextAction haction with
    | overlap bound order id candidate _ _ hget _ _ =>
      refine ⟨h.depicted, ?_, h.delivered, h.kept⟩
      intro other found hfound
      rw [get_overlapMarked hget] at hfound
      split at hfound
      . cases hfound
        exact h.connected id candidate hget
      . exact h.connected other found hfound
  | commit answers id candidate prepared outcome haction hget hprepared hdestination =>
    have happended := h.append [.applied state.phase prepared.ready prepared.hashes,
      .offered ⟨prepared.ready.source.hash, prepared.ready.destination.hash, prepared.hashes.removed,
        prepared.hashes.added, outcome.levelSnapshots⟩] (by simp)
    obtain ⟨hendpoints, -⟩ := prepareCandidate_eq_ok hprepared
    obtain ⟨destination, hsource⟩ := (Choice.of_nextAction haction).commit_source hget
    obtain ⟨hprunes, hsink⟩ := hsound.prunes_committed id prepared.ready.destination
    apply happended.prune hsound (keeps_committed state id _)
    . rw [hsink]
      exact hprunes
    . rw [hsink]
      rw [hendpoints] at hsource
      have heq : prepared.ready.source = state.committedSink := congrArg Prod.fst (Option.some.inj hsource)
      rw [← heq]
      exact le_of_lt (h.rises hsound hget hendpoints)

end VspcState

namespace VspcProcessorWorker

variable {worker next : VspcProcessorWorker} {input : VspcProcessorInput}
variable {tree : SelectedParentTree} {anchor : MaterializedSyncAnchor} {trace : List VspcProcessorEffect}

/-!
The commits and offers of a run.
-/

structure Commit where
  phase : VspcPhase
  ready : ReadyVspcChange
  hashes : VspcChange
  deriving DecidableEq, Repr

def commits (trace : List VspcProcessorEffect) : List Commit :=
  trace.filterMap fun
    | .applied phase ready hashes => some ⟨phase, ready, hashes⟩
    | _ => none

def offers (trace : List VspcProcessorEffect) : List VspcCommitted :=
  trace.filterMap fun
    | .offered update => some update
    | _ => none

def Commit.names (commit : Commit) : BlockHash × BlockHash × VspcChange :=
  (commit.ready.source.hash, commit.ready.destination.hash, commit.hashes)

def offeredNames (update : VspcCommitted) : BlockHash × BlockHash × VspcChange :=
  (update.source, update.destination, ⟨update.removed, update.added⟩)

structure Chained (anchor : MaterializedSyncAnchor) (trace : List VspcProcessorEffect)
    (sink : VspcPoint) : Prop where
  walk : Walk (fun commit : Commit => commit.ready.source) (fun commit => commit.ready.destination)
    anchor.point (commits trace) sink
  named : (offers trace).map offeredNames = (commits trace).map Commit.names
  live : ∀ commit ∈ commits trace, commit.phase = .live →
    commit.ready.source.order < commit.ready.destination.order

variable {sink : VspcPoint} {mode : RecoveryMode} {inputs : List VspcProcessorInput}

theorem Chained.append (h : Chained anchor trace sink) (hcommits : commits effects = [])
    (hoffers : offers effects = []) : Chained anchor (trace ++ effects) sink := by
  have hcommits' : commits (trace ++ effects) = commits trace := by
    rw [commits, List.filterMap_append]
    exact (congrArg (commits trace ++ ·) hcommits).trans (List.append_nil _)
  have hoffers' : offers (trace ++ effects) = offers trace := by
    rw [offers, List.filterMap_append]
    exact (congrArg (offers trace ++ ·) hoffers).trans (List.append_nil _)
  constructor
  case walk =>
    rw [hcommits']
    exact h.walk
  case named =>
    rw [hcommits', hoffers']
    exact h.named
  case live =>
    rw [hcommits']
    exact h.live

theorem Chained.commit (h : Chained anchor trace sink) (phase : VspcPhase)
    (ready : ReadyVspcChange) (hashes : VspcChange) (levelSnapshots : List LevelCommitted)
    (hsource : ready.source = sink)
    (hlive : phase = .live → ready.source.order < ready.destination.order) :
    Chained anchor (trace ++ [.applied phase ready hashes,
      .offered ⟨ready.source.hash, ready.destination.hash, hashes.removed, hashes.added, levelSnapshots⟩])
      ready.destination := by
  have hcommits : commits (trace ++ [.applied phase ready hashes,
      .offered ⟨ready.source.hash, ready.destination.hash, hashes.removed, hashes.added, levelSnapshots⟩])
      = commits trace ++ [⟨phase, ready, hashes⟩] := by
    rw [commits, List.filterMap_append]
    rfl
  have hoffers : offers (trace ++ [.applied phase ready hashes,
      .offered ⟨ready.source.hash, ready.destination.hash, hashes.removed, hashes.added, levelSnapshots⟩])
      = offers trace ++ [⟨ready.source.hash, ready.destination.hash, hashes.removed, hashes.added,
        levelSnapshots⟩] := by
    rw [offers, List.filterMap_append]
    rfl
  constructor
  case walk =>
    rw [hcommits]
    exact h.walk.append_singleton hsource
  case named =>
    rw [hcommits, hoffers, List.map_append, List.map_append, h.named]
    rfl
  case live =>
    rw [hcommits]
    intro commit hmem
    rcases List.mem_append.mp hmem with hmem | hmem
    . exact h.live commit hmem
    . rw [List.mem_singleton.mp hmem]
      exact hlive

theorem Chained.moves {state state' : VspcState} (h : Chained anchor trace state.committedSink)
    (hsound : state.Sound) (hmoves : state.Moves input state' effects) :
    Chained anchor (trace ++ effects) state'.committedSink := by
  cases hmoves with
  | catchup bound _ => exact h.append rfl rfl
  | live bound _ =>
    rw [hsound.prunes_enterLive.2]
    exact h.append rfl rfl
  | persisted block =>
    rw [(VspcState.sameBase_persist state block).committedSink]
    exact h.append rfl rfl
  | synthetic change destination _ _ =>
    rw [(VspcState.sameBase_admitChange state change destination .synthetic).committedSink]
    exact h.append rfl rfl
  | notification change destination _ _ _ =>
    rw [(VspcState.sameBase_admitChange state change destination .notification).committedSink]
    exact h.append rfl rfl
  | discard answers id overlap _ =>
    rw [(VspcState.sameBase_removeCandidate state id).committedSink]
    exact h.append rfl rfl
  | normalizeCrossing answers id suffix _ =>
    rw [(VspcState.sameBase_normalized state id suffix).committedSink]
    exact h.append rfl rfl
  | markOverlap answers id _ => exact h.append rfl rfl
  | commit answers id candidate prepared outcome haction hget hprepared _ =>
    have hchoice := VspcState.Choice.of_nextAction haction
    obtain ⟨hendpoints, -⟩ := VspcState.prepareCandidate_eq_ok hprepared
    obtain ⟨destination, hstart⟩ := hchoice.commit_source hget
    rw [hendpoints] at hstart
    have hsource : prepared.ready.source = state.committedSink := congrArg Prod.fst (Option.some.inj hstart)
    rw [(hsound.prunes_committed id _).2]
    apply h.commit _ _ _ _ hsource
    intro hphase
    rw [hsource]
    exact hsound.live_commit hchoice hphase hget hendpoints

structure Anchored (worker : VspcProcessorWorker) : Prop where
  inert : ∀ mode, worker.run = .inert mode → worker.anchor = none ∧
    ∀ effect ∈ worker.trace, ∃ fault, effect = .fault fault
  active : ∀ state, worker.run = .active state →
    state.Sound ∧ ∃ anchor, worker.anchor = some anchor ∧ Chained anchor worker.trace state.committedSink

theorem commits_eq_nil (h : ∀ effect ∈ trace, ∃ fault, effect = .fault fault) :
    commits trace = [] ∧ offers trace = [] ∧ ∀ block, .delivered block ∉ trace := by
  refine ⟨?_, ?_, ?_⟩
  . apply List.filterMap_eq_nil_iff.mpr
    intro effect hmem
    obtain ⟨fault, rfl⟩ := h effect hmem
    rfl
  . apply List.filterMap_eq_nil_iff.mpr
    intro effect hmem
    obtain ⟨fault, rfl⟩ := h effect hmem
    rfl
  . intro block hmem
    obtain ⟨fault, hfault⟩ := h _ hmem
    cases hfault

theorem Anchored.new (mode : RecoveryMode) : (new mode).Anchored where
  inert _ _ := ⟨rfl, fun effect hmem => by cases hmem⟩
  active state hactive := by cases hactive

theorem Anchored.step (h : worker.Anchored) (hstep : worker.step input = some next) : next.Anchored := by
  cases Transition.of_step hstep with
  | quiet hrun hanchor htrace =>
    constructor
    case inert =>
      rw [hrun, hanchor, htrace]
      exact h.inert
    case active =>
      rw [hrun, hanchor, htrace]
      exact h.active
  | fault fault _ hrun hanchor htrace =>
    constructor
    case inert =>
      rw [hrun, hanchor, htrace]
      intro mode hinert
      obtain ⟨hnone, hfaults⟩ := h.inert mode hinert
      refine ⟨hnone, ?_⟩
      intro effect hmem
      rcases List.mem_append.mp hmem with hmem | hmem
      . exact hfaults effect hmem
      . exact ⟨fault, List.mem_singleton.mp hmem⟩
    case active =>
      rw [hrun, hanchor, htrace]
      intro state hactive
      obtain ⟨hsound, anchor, hsome, hchained⟩ := h.active state hactive
      exact ⟨hsound, anchor, hsome, hchained.append rfl rfl⟩
  | initialized mode anchor _ hinert hrun hanchor htrace =>
    obtain ⟨-, hfaults⟩ := h.inert mode hinert
    obtain ⟨hcommits, hoffers, -⟩ := commits_eq_nil hfaults
    constructor
    case inert =>
      intro mode' hinert'
      rw [hrun] at hinert'
      cases hinert'
    case active =>
      intro state hactive
      rw [hrun] at hactive
      cases hactive
      refine ⟨.new anchor, anchor, hanchor, ?_⟩
      rw [htrace]
      constructor
      case walk =>
        rw [hcommits]
        exact rfl
      case named =>
        rw [hcommits, hoffers]
        exact rfl
      case live =>
        rw [hcommits]
        intro commit hmem
        cases hmem
  | moved state state' effects hactive hmoves hrun hanchor htrace =>
    obtain ⟨hsound, anchor, hsome, hchained⟩ := h.active state hactive
    constructor
    case inert =>
      intro mode hinert
      rw [hrun] at hinert
      cases hinert
    case active =>
      intro after hafter
      rw [hrun] at hafter
      cases hafter
      rw [hanchor, htrace]
      exact ⟨hsound.moves hmoves, anchor, hsome, hchained.moves hsound hmoves⟩

theorem anchored_run (hrun : Data.run step (new mode) inputs = some worker) : worker.Anchored :=
  run.invariant (fun _ _ _ h hstep => h.step hstep) (.new mode) hrun

def Retaining (tree : SelectedParentTree) (worker : VspcProcessorWorker) : Prop :=
  worker.Anchored ∧ ∀ state anchor, worker.run = .active state → worker.anchor = some anchor →
    state.Retains tree anchor worker.trace

theorem Retaining.step (h : worker.Retaining tree) (hinput : tree.Admits input)
    (hstep : worker.step input = some next) : next.Retaining tree := by
  obtain ⟨hanchored, hretains⟩ := h
  refine ⟨hanchored.step hstep, ?_⟩
  intro state anchor hactive hsome
  cases Transition.of_step hstep with
  | quiet hrun hanchor htrace =>
    rw [hrun] at hactive
    rw [hanchor] at hsome
    rw [htrace]
    exact hretains state anchor hactive hsome
  | fault fault _ hrun hanchor htrace =>
    rw [hrun] at hactive
    rw [hanchor] at hsome
    rw [htrace]
    exact (hretains state anchor hactive hsome).append _ (by simp)
  | initialized mode anchor' hinit hinert hrun hanchor htrace =>
    rw [hrun] at hactive
    rw [hanchor] at hsome
    cases hactive
    cases hsome
    subst hinit
    rw [htrace]
    exact .new hinput (commits_eq_nil (hanchored.inert mode hinert).2).2.2
  | moved before after effects hbefore hmoves hrun hanchor htrace =>
    rw [hrun] at hactive
    rw [hanchor] at hsome
    cases hactive
    rw [htrace]
    exact (hretains before anchor hbefore hsome).moves (hanchored.active before hbefore).1 hinput hmoves

theorem retaining_run (hinputs : ∀ input ∈ inputs, tree.Admits input)
    (hrun : Data.run step (new mode) inputs = some worker) : worker.Retaining tree := by
  have hnew : (new mode).Retaining tree :=
    ⟨.new mode, fun state anchor hactive => by cases hactive⟩
  apply run.invariant_of_guard (fun _ _ _ h hinput hstep => h.step hinput hstep) hnew ?_ hrun
  intro before input after _ heq _
  apply hinputs
  rw [heq]
  simp

/--
In every run, the commits of an initialized worker form one chain from its anchor to the sink, the offers
name the same changes in the same order, and the commits made in Live raise the sink. The history holds the
sink. If the inputs agree with a tree of selected parents, it holds every delivered block that a pending
change whose source is not below the sink needs.
-/
theorem commit_chain {mode : RecoveryMode} {inputs : List VspcProcessorInput}
    (hrun : Data.run step (new mode) inputs = some worker) :
    (worker.anchor = none ∧ commits worker.trace = [] ∧ offers worker.trace = []) ∨
      ∃ anchor state, worker.anchor = some anchor ∧ worker.run = .active state ∧
        Walk (fun commit : Commit => commit.ready.source) (fun commit => commit.ready.destination)
          anchor.point (commits worker.trace) state.committedSink ∧
        (offers worker.trace).map offeredNames = (commits worker.trace).map Commit.names ∧
        (∀ commit ∈ commits worker.trace, commit.phase = .live →
          commit.ready.source.order < commit.ready.destination.order) ∧
        (∃ block, state.history.byHash[state.committedSink.hash]? = some block ∧
          block.point = state.committedSink) ∧
        ∀ tree : SelectedParentTree, (∀ input ∈ inputs, tree.Admits input) →
          ∀ (id : PendingId) (candidate : PendingCandidate) (source : BlockHash),
            state.pending[id]? = some candidate → tree.source candidate.change = some source →
            state.committedSink.order ≤ tree.order source →
            ∀ block, VspcState.Delivered anchor worker.trace block →
              block.point.hash ∈ tree.needed candidate.change →
              ∃ record, state.history.byHash[block.point.hash]? = some record := by
  have hanchored := anchored_run hrun
  cases hworker : worker.run with
  | inert mode =>
    obtain ⟨hnone, hfaults⟩ := hanchored.inert mode hworker
    obtain ⟨hcommits, hoffers, -⟩ := commits_eq_nil hfaults
    exact Or.inl ⟨hnone, hcommits, hoffers⟩
  | active state =>
    obtain ⟨hsound, anchor, hsome, hchained⟩ := hanchored.active state hworker
    refine Or.inr ⟨anchor, state, hsome, rfl, hchained.walk, hchained.named, hchained.live, hsound.sink, ?_⟩
    intro tree hinputs id candidate source hget hsource hsink block hdelivered hneeded
    have hretains := (retaining_run hinputs hrun).2 state anchor hworker hsome
    apply hretains.kept block hdelivered
    rw [(hretains.delivered block hdelivered).1]
    exact hsink.trans ((hretains.connected id candidate hget).source_le hsource hneeded)

/-!
A chain of blocks whose hashes count up.
-/

def countingPoint (hash : BlockHash) : VspcPoint :=
  ⟨⟨hash.val, hash⟩, hash.val⟩

def countingBlock (hash : BlockHash) : PersistedBlock :=
  ⟨countingPoint hash, hash - 1⟩

def countingTree : SelectedParentTree :=
  ⟨fun hash => (countingPoint hash).order, fun hash => hash - 1⟩

def countingAnswers (hash : BlockHash) : VspcAnswers :=
  ⟨.ok [], .ok ⟨countingPoint hash, []⟩, none⟩

def countingInputs : List VspcProcessorInput :=
  [.initializeRun ⟨countingPoint 1, 0, 0⟩, .start, .persisted (some (countingBlock 2)),
    .synthetic ⟨[], [2]⟩, .drive (countingAnswers 2), .catchup (countingPoint 2), .live,
    .notification ⟨[], [3]⟩, .notification ⟨[], [4, 5]⟩, .persisted (some (countingBlock 4)),
    .persisted (some (countingBlock 3)), .drive (countingAnswers 3)]

theorem countingTree_connects (path : List BlockHash) (hpath : path ∈ [[2], [3], [2, 3], [4, 5]]) :
    countingTree.Connects ⟨[], path⟩ where
  added := by
    revert path
    decide +kernel
  removed := List.isChain_nil
  fork last hlast := by cases hlast
  ascends := by
    revert path
    simp only [List.forall_mem_cons, List.nil_append, List.not_mem_nil, false_implies, implies_true]
    decide +kernel
  rises := by
    simp only [List.mem_cons, List.not_mem_nil, or_false] at hpath
    rcases hpath with rfl | rfl | rfl | rfl
    all_goals
      intro source hsource destination hdestination
      cases hsource
      cases hdestination
      decide +kernel

theorem countingTree_admits : ∀ input ∈ countingInputs, countingTree.Admits input := by
  unfold countingInputs
  simp only [List.forall_mem_cons]
  refine ⟨⟨rfl, by decide⟩, trivial, ⟨rfl, rfl⟩, ?_, trivial, trivial, trivial, ?_, ?_, ⟨rfl, rfl⟩,
    ⟨rfl, rfl⟩, trivial, fun input hmem => by cases hmem⟩
  . exact countingTree_connects [2] (by decide)
  . exact countingTree_connects [3] (by decide)
  . exact countingTree_connects [4, 5] (by decide)

/--
A synthetic change is committed during synchronization and a notification in Live, and what a longer
notification needs stays.
-/
theorem commit_chain_retained :
    ∃ worker anchor state, Data.run step (new .resync) countingInputs = some worker ∧
      worker.anchor = some anchor ∧ worker.run = .active state ∧
      (commits worker.trace).map Commit.phase = [.synchronizing, .live] ∧
      Walk (fun commit : Commit => commit.ready.source) (fun commit => commit.ready.destination)
        anchor.point (commits worker.trace) state.committedSink ∧
      ∃ record, state.history.byHash[(4 : BlockHash)]? = some record := by
  have hobserved : (Data.run step (new .resync) countingInputs).map (fun worker =>
      ((commits worker.trace).map Commit.phase, decide (.delivered (countingBlock 4) ∈ worker.trace),
        worker.activeState.map fun state =>
          (state.committedSink, state.pending[2]?.map PendingCandidate.change)))
      = some ([.synchronizing, .live], true, some (countingPoint 3, some ⟨[], [4, 5]⟩)) := by
    decide +kernel
  obtain ⟨worker, hrun, hobserved⟩ := Option.map_eq_some_iff.mp hobserved
  simp only [Prod.mk.injEq] at hobserved
  obtain ⟨hphases, hdelivered, hstate⟩ := hobserved
  rcases commit_chain hrun with ⟨-, hnone, -⟩ | ⟨anchor, state, hanchor, hactive, hwalk, -, -, -, hretained⟩
  . rw [hnone] at hphases
    cases hphases
  . rw [activeState_eq_some.mpr hactive] at hstate
    obtain ⟨hsink, hpending⟩ := Prod.mk.inj (Option.some.inj hstate)
    obtain ⟨candidate, hget, hchange⟩ := Option.map_eq_some_iff.mp hpending
    refine ⟨worker, anchor, state, hrun, hanchor, hactive, hphases, hwalk, ?_⟩
    have hsource : countingTree.source candidate.change = some 3 := by
      rw [hchange]
      decide
    have hneeded : (countingBlock 4).point.hash ∈ countingTree.needed candidate.change := by
      rw [hchange]
      decide
    have hle : state.committedSink.order ≤ countingTree.order 3 := by
      rw [hsink]
      exact le_refl _
    exact hretained countingTree countingTree_admits 2 candidate 3 hget hsource hle (countingBlock 4)
      (Or.inr (of_decide_eq_true hdelivered)) hneeded

end VspcProcessorWorker

end Kgi
