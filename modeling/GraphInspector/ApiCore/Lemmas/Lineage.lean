import GraphInspector.ApiCore.Impl.Lineage
import GraphInspector.ApiModel.Lemmas.History
import GraphInspector.ApiModel.Lemmas.Replay

/-!
Publication runs. The history replays the views of the run.
-/

namespace Kgi

open Data

inductive LineageEvent where
  | apply (update : OriginalUpdate) (revisionTimestampMs : Nat) (estimateDelta : GraphDelta → Nat)
  | prune (headLowLevel : Nat)

def replayEntries (view : GraphView) (entries : List GraphHistoryEntry) : Option GraphView :=
  entries.foldlM (fun view entry =>
    match view.applyDelta entry.delta with
    | .ok (view, .ok ()) => some view
    | .ok (_, .error _) => none
    | .error _ => none) view

namespace GraphPublicationCore

variable {start : GraphPublicationCore} {events : List LineageEvent}
  {outcome : Except PublicationProjectionError (Option AppliedLineageUpdate)}

def step (core : GraphPublicationCore) (event : LineageEvent) : Option GraphPublicationCore :=
  match event with
  | .apply update revisionTimestampMs estimateDelta =>
    match AppliedLineageUpdate.apply core update revisionTimestampMs estimateDelta with
    | .ok (core, .ok _) => some core
    | .ok (_, .error _) => none
    | .error _ => none
  | .prune headLowLevel => some { core with history := core.history.prune headLowLevel }

structure Coherent (views : Nat → GraphView) (core : GraphPublicationCore) : Prop where
  head : core.view.Head
  revision : core.view.currentRevisionId = core.history.currentRevisionId
  gapless : core.history.Gapless
  current : views core.view.currentRevisionId = core.view
  replays : ∀ entry ∈ core.history.entries,
    (views entry.delta.fromRevisionId).applyDelta entry.delta
      = .ok (views entry.delta.toRevisionId, .ok ())

variable {views views' : Nat → GraphView} {core core' : GraphPublicationCore}

theorem Coherent.prune (h : Coherent views core) (headLowLevel : Nat) :
    Coherent views { core with history := core.history.prune headLowLevel } := by
  refine ⟨h.head, h.revision, h.gapless.prune headLowLevel, h.current, ?_⟩
  intro entry hentry
  apply h.replays
  exact (List.dropWhile_suffix _).mem hentry

variable {update : OriginalUpdate} {revisionTimestampMs revision r : Nat}
variable {estimateDelta : GraphDelta → Nat}

theorem apply_eq_ok (hhead : core.view.Head)
    (hrevision : core.view.currentRevisionId = core.history.currentRevisionId)
    (hok : AppliedLineageUpdate.apply core update revisionTimestampMs estimateDelta
      = .ok (core', outcome)) :
    (outcome = .ok none ∧ core' = core) ∨
      ∃ delta view history,
        core.history.append delta (estimateDelta delta) (classifyReplayability (estimateDelta delta))
          = .ok (history, .ok ()) ∧
        outcome = .ok (some ⟨delta.toRevisionId,
          if classifyReplayability (estimateDelta delta) = .replayBarrier then
            some delta.toRevisionId
          else none⟩) ∧
        core' = ⟨view, history.prune view.lowLevel⟩ ∧ view.Head ∧
        view.currentRevisionId = core.view.currentRevisionId + 1 ∧
        view.currentRevisionTimestampMs = revisionTimestampMs ∧
        GraphView.Connects delta core.view view := by
  unfold AppliedLineageUpdate.apply at hok
  rw [if_neg (not_not.mpr hrevision), bind_eq_ok] at hok
  obtain ⟨⟨view, updated⟩, hupdate, hok⟩ := hok
  obtain ⟨delta, rfl, hhead', hemits⟩ := GraphView.apply_eq_ok hhead hupdate
  cases hemits with
  | unchanged hsame =>
    rw [pure_eq_ok, Prod.mk.injEq] at hok
    obtain ⟨rfl, rfl⟩ := hok
    subst hsame
    exact Or.inl ⟨rfl, rfl⟩
  | changed delta hwindow hnext hconnects =>
    obtain ⟨hfrom, hto⟩ := hconnects.revision
    rw [bind_eq_ok] at hok
    obtain ⟨⟨history, appended⟩, happend, hok⟩ := hok
    have happended := (GraphHistory.append_eq_ok (hfrom.symm.trans hrevision)
      (by rw [← hto, ← hfrom, hnext]) happend).1
    subst happended
    rw [pure_eq_ok, Prod.mk.injEq] at hok
    obtain ⟨rfl, rfl⟩ := hok
    exact Or.inr ⟨delta, view, history, happend, rfl, rfl, hhead', hnext,
      GraphView.apply_timestamp hupdate, hconnects⟩

theorem Coherent.apply (h : Coherent views core)
    (hok : AppliedLineageUpdate.apply core update revisionTimestampMs estimateDelta
      = .ok (core', outcome)) :
    (∃ applied, outcome = .ok applied) ∧
      ((core'.view = core.view ∧ Coherent views core') ∨
        (core'.view.currentRevisionId = core.view.currentRevisionId + 1 ∧
          Coherent (Function.update views core'.view.currentRevisionId core'.view) core')) := by
  obtain ⟨rfl, rfl⟩ | ⟨delta, view, history, happend, rfl, rfl, hhead, hrevision, _, hconnects⟩ :=
    apply_eq_ok h.head h.revision hok
  . exact ⟨⟨_, rfl⟩, Or.inl ⟨rfl, h⟩⟩
  . obtain ⟨hfrom, hto⟩ := hconnects.revision
    obtain ⟨_, hgapless, hcurrent, hentries⟩ := h.gapless.append
      (hfrom.symm.trans h.revision) (by rw [← hto, ← hfrom, hrevision]) happend
    refine ⟨⟨_, rfl⟩, Or.inr ⟨hrevision, hhead, ?_, hgapless.prune _, ?_, ?_⟩⟩
    . exact (hrevision.trans (congrArg (· + 1) h.revision)).trans hcurrent.symm
    . exact Function.update_self _ _ _
    . intro entry hentry
      have hnext : view.currentRevisionId = core.history.currentRevisionId + 1 := by
        rw [hrevision, h.revision]
      obtain hold | hnew := hentries entry ((List.dropWhile_suffix _).mem hentry)
      . obtain ⟨hlt, hsucc⟩ := h.gapless.revision_of_mem hold
        dsimp only
        rw [Function.update_of_ne (by omega), Function.update_of_ne (by omega)]
        exact h.replays entry hold
      . dsimp only
        rw [hnew, ← hfrom, ← hto, Function.update_self, Function.update_of_ne (by omega), h.current]
        exact GraphView.applyDelta_eq_ok h.head.derived hhead.derived hconnects

theorem Coherent.replayEntries (h : Coherent views core) {entries : List GraphHistoryEntry}
    (hconsecutive : Consecutive revision entries)
    (hentries : ∀ entry ∈ entries, entry ∈ core.history.entries) :
    Kgi.replayEntries (views revision) entries = some (views (revision + entries.length)) := by
  induction entries generalizing revision with
  | nil => rfl
  | cons entry entries ih =>
    rw [Consecutive.cons_iff] at hconsecutive
    obtain ⟨hfrom, hto, htail⟩ := hconsecutive
    have hstep := h.replays entry (hentries entry List.mem_cons_self)
    rw [hfrom, hto] at hstep
    have hrest := ih htail fun entry' hmem => hentries entry' (List.mem_cons_of_mem entry hmem)
    unfold Kgi.replayEntries at hrest ⊢
    rw [List.foldlM_cons, hstep, List.length_cons]
    rw [show revision + (entries.length + 1) = revision + 1 + entries.length by omega]
    exact hrest

structure Views (start : GraphPublicationCore) (events : List LineageEvent) (revision : Nat)
    (views : Nat → GraphView) : Prop where
  reached : ∀ r ≤ revision, ∃ done rest state, events = done ++ rest ∧
    run step start done = some state ∧ state.view.currentRevisionId = r
  view : ∀ done rest state, events = done ++ rest → run step start done = some state →
    state.view.currentRevisionId ≤ revision ∧ views state.view.currentRevisionId = state.view

theorem Views.snoc {start middle : GraphPublicationCore} {event : LineageEvent}
    (h : Views start events middle.view.currentRevisionId views)
    (hrun : run step start (events ++ [event]) = some core)
    (hrevision : core.view.currentRevisionId = middle.view.currentRevisionId ∧
        core.view = middle.view ∧ views' = views ∨
      core.view.currentRevisionId = middle.view.currentRevisionId + 1 ∧
        views' = Function.update views core.view.currentRevisionId core.view)
    (hcurrent : views' core.view.currentRevisionId = core.view) :
    Views start (events ++ [event]) core.view.currentRevisionId views' := by
  constructor
  . intro r hr
    by_cases hle : r ≤ middle.view.currentRevisionId
    . obtain ⟨done, rest, state, rfl, hstate, hr⟩ := h.reached r hle
      exact ⟨done, rest ++ [event], state, List.append_assoc _ _ _, hstate, hr⟩
    . refine ⟨events ++ [event], [], core, (List.append_nil _).symm, hrun, ?_⟩
      obtain ⟨hsame, _⟩ | ⟨hnext, _⟩ := hrevision
      . omega
      . omega
  . intro done rest state hevents hstate
    obtain ⟨rfl, rfl⟩ | ⟨rest', rfl⟩ := run.initial_cases hevents
    . rw [hrun, Option.some.injEq] at hstate
      subst hstate
      exact ⟨Nat.le_refl _, hcurrent⟩
    . obtain ⟨hle, hview⟩ := h.view done rest' state rfl hstate
      obtain ⟨hsame, _, rfl⟩ | ⟨hnext, rfl⟩ := hrevision
      . exact ⟨by omega, hview⟩
      . refine ⟨by omega, ?_⟩
        rw [Function.update_of_ne (by omega)]
        exact hview

theorem exists_views (hhead : start.view.Head) (hrevision : start.view.currentRevisionId = 0)
    (hhistory : start.history = .new) (events : List LineageEvent)
    (hrun : run step start events = some core) :
    ∃ views, Views start events core.view.currentRevisionId views ∧ Coherent views core := by
  -- the induction is on the last event; the views of the earlier revisions stay
  induction events using List.reverseRecOn generalizing core with
  | nil =>
    cases hrun
    refine ⟨fun _ => start.view, ⟨?_, ?_⟩, hhead, ?_, ?_, rfl, ?_⟩
    . intro r hr
      exact ⟨[], [], start, rfl, rfl, by omega⟩
    . intro done rest state hevents hstate
      rw [List.nil_eq_append_iff] at hevents
      obtain ⟨rfl, rfl⟩ := hevents
      cases hstate
      exact ⟨Nat.le_refl _, rfl⟩
    . rw [hrevision, hhistory]
      rfl
    . rw [hhistory]
      exact GraphHistory.new_gapless
    . rw [hhistory]
      intro entry hentry
      exact absurd hentry List.not_mem_nil
  | append_singleton events event ih =>
    have hrun' := hrun
    rw [run.append_eq_some] at hrun'
    obtain ⟨middle, hmiddle, hlast⟩ := hrun'
    rw [run.cons_eq_some] at hlast
    obtain ⟨_, hstep, hlast⟩ := hlast
    cases hlast
    obtain ⟨views, hviews, hcoherent⟩ := ih hmiddle
    unfold step at hstep
    cases event with
    | prune headLowLevel =>
      cases hstep
      have hpruned := hcoherent.prune headLowLevel
      exact ⟨views, hviews.snoc hrun (Or.inl ⟨rfl, rfl, rfl⟩) hpruned.current, hpruned⟩
    | apply update revisionTimestampMs estimateDelta =>
      dsimp only at hstep
      split at hstep
      . next next applied hok =>
        cases hstep
        obtain ⟨_, ⟨hsame, hnext⟩ | ⟨hnext, hupdated⟩⟩ := hcoherent.apply hok
        . refine ⟨views, hviews.snoc hrun (Or.inl ⟨?_, hsame, rfl⟩) hnext.current, hnext⟩
          rw [hsame]
        . exact ⟨_, hviews.snoc hrun (Or.inr ⟨hnext, rfl⟩) hupdated.current, hupdated⟩
      . cases hstep
      . cases hstep

def WasCurrent (start : GraphPublicationCore) (events : List LineageEvent) (revision : Nat)
    (view : GraphView) : Prop :=
  ∃ done rest state, events = done ++ rest ∧ run step start done = some state ∧
    state.view.currentRevisionId = revision ∧ state.view = view

theorem Views.eq_of_wasCurrent {view : GraphView} (h : Views start events revision views)
    (hview : WasCurrent start events r view) : views r = view := by
  obtain ⟨done, rest, state, hevents, hstate, rfl, rfl⟩ := hview
  exact (h.view done rest state hevents hstate).2

theorem Views.wasCurrent (h : Views start events revision views) (hr : r ≤ revision) :
    WasCurrent start events r (views r) := by
  obtain ⟨done, rest, state, hevents, hstate, rfl⟩ := h.reached r hr
  exact ⟨done, rest, state, hevents, hstate, rfl, (h.view done rest state hevents hstate).2.symm⟩

/--
The history is at the revision of the Head view, and a range of it leads from the Head view of its first
revision to the Head view of its last.
-/
theorem history_replays {maxDepth : Nat} {extent : LevelExtent} {levels : Map Nat Level}
    {blocks : Map BlockHash GraphBlock} {edges : Map EdgeId GraphEdge} {seed : GraphView}
    {events : List LineageEvent}
    (hkeyed : ∀ (id : EdgeId) (edge : GraphEdge), edges[id]? = some edge → edge.id = id)
    (hlow : extent.lowLevel = max 1 (extent.highLevel + 1 - maxDepth))
    (hseed : GraphView.fromDatabaseProjection maxDepth extent .head levels blocks edges = .ok seed)
    (hrun : run step ⟨seed, .new⟩ events = some core) :
    core.view.currentRevisionId = core.history.currentRevisionId ∧
    (∀ update revisionTimestampMs estimateDelta core' outcome,
      AppliedLineageUpdate.apply core update revisionTimestampMs estimateDelta
        = .ok (core', outcome) → ∃ applied, outcome = .ok applied) ∧
    ∀ r t, r < t →
      ((∃ start requested reached entries, core.history.range r t
          = .ok (.deltas start requested reached entries)) ↔
        core.history.replayFloorRevision ≤ r ∧ core.history.oldestAvailableRevision ≤ r ∧
          r < core.history.currentRevisionId) ∧
      ∀ start requested reached entries, core.history.range r t
          = .ok (.deltas start requested reached entries) →
        start = r ∧ requested = t ∧ reached = min t core.history.currentRevisionId ∧
        Consecutive r entries ∧ r + entries.length = reached ∧
        (∃ source, WasCurrent ⟨seed, .new⟩ events r source) ∧
        (∃ target, WasCurrent ⟨seed, .new⟩ events reached target) ∧
        ∀ source target, WasCurrent ⟨seed, .new⟩ events r source →
          WasCurrent ⟨seed, .new⟩ events reached target →
          Kgi.replayEntries source entries = some target := by
  have hhead := GraphView.fromDatabaseProjection_head hkeyed hlow hseed
  obtain ⟨_, _, _, _, hzero, _⟩ := GraphView.fromDatabaseProjection_eq_ok hkeyed hseed
  obtain ⟨views, hviews, hcoherent⟩ := exists_views hhead hzero rfl events hrun
  refine ⟨hcoherent.revision, ?_, ?_⟩
  . intro update revisionTimestampMs estimateDelta core' outcome hok
    exact (hcoherent.apply hok).1
  . intro r t hlt
    have hiff := hcoherent.gapless.range_isDeltas_iff hlt
    refine ⟨hiff, ?_⟩
    intro start requested reached entries hrange
    obtain ⟨hfloor, holdest, hcurrent⟩ := hiff.mp ⟨start, requested, reached, entries, hrange⟩
    rw [hcoherent.gapless.range_eq_deltas hlt hfloor holdest hcurrent, Except.ok.injEq,
      GraphHistoryRange.deltas.injEq] at hrange
    obtain ⟨rfl, rfl, rfl, rfl⟩ := hrange
    have hlength := hcoherent.gapless.length_le
    have heq := hcoherent.gapless.oldestAvailableRevision_eq
    have hconsecutive := (hcoherent.gapless.consecutive.drop
      (r - core.history.oldestAvailableRevision)).take (t - r)
    rw [← heq, Nat.add_sub_cancel' holdest] at hconsecutive
    have hcount : r + ((core.history.entries.drop
        (r - core.history.oldestAvailableRevision)).take (t - r)).length
          = min t core.history.currentRevisionId := by
      rw [List.length_take, List.length_drop]
      omega
    have hsource : r ≤ core.view.currentRevisionId := by
      rw [hcoherent.revision]
      omega
    have htarget : min t core.history.currentRevisionId ≤ core.view.currentRevisionId := by
      rw [hcoherent.revision]
      exact Nat.min_le_right _ _
    refine ⟨rfl, rfl, rfl, hconsecutive, hcount, ⟨_, hviews.wasCurrent hsource⟩,
      ⟨_, hviews.wasCurrent htarget⟩, ?_⟩
    intro source target hsource' htarget'
    rw [← hviews.eq_of_wasCurrent hsource', ← hviews.eq_of_wasCurrent htarget', ← hcount]
    apply hcoherent.replayEntries hconsecutive
    intro entry hentry
    exact List.mem_of_mem_drop (List.mem_of_mem_take hentry)

/--
Two revisions of a small window, replayed from the first.
-/
theorem history_replays_moved_window :
    ∃ seed core entries, GraphView.smallProjection = .ok seed ∧
      run step ⟨seed, .new⟩ [.apply GraphView.smallVspc 10 fun _ => 100,
        .apply GraphView.smallBlock 20 fun _ => 100] = some core ∧
      core.history.range 0 5 = .ok (.deltas 0 5 2 entries) ∧
      Kgi.replayEntries seed entries = some core.view := by
  have hobserved : (GraphView.smallProjection.toOption.bind fun seed =>
      (run step ⟨seed, .new⟩ [.apply GraphView.smallVspc 10 fun _ => 100,
        .apply GraphView.smallBlock 20 fun _ => 100]).bind fun core =>
          if core.view.currentRevisionId = 2 ∧ seed.currentRevisionId = 0 ∧
              core.history.currentRevisionId = 2 ∧ core.history.oldestAvailableRevision = 0 ∧
              core.history.replayFloorRevision = 0 then some () else none) = some () := by
    decide +kernel
  simp only [Option.bind_eq_some_iff, toOption_eq_some] at hobserved
  obtain ⟨seed, hseed, core, hrun, hobserved⟩ := hobserved
  split at hobserved
  . next hrevisions =>
    obtain ⟨hview, hstart, hcurrent, holdest, hfloor⟩ := hrevisions
    obtain ⟨_, _, hrange⟩ := history_replays GraphView.smallEdges_keyed (by decide) hseed hrun
    obtain ⟨hiff, hdeltas⟩ := hrange 0 5 (by decide)
    obtain ⟨start, requested, reached, entries, hok⟩ := hiff.mpr ⟨by omega, by omega, by omega⟩
    obtain ⟨rfl, rfl, rfl, _, _, _, _, hreplay⟩ := hdeltas start requested reached entries hok
    rw [hcurrent] at hok hreplay
    refine ⟨seed, core, entries, hseed, hrun, hok, hreplay seed core.view ?_ ?_⟩
    . exact ⟨[], _, ⟨seed, .new⟩, rfl, rfl, hstart, rfl⟩
    . exact ⟨_, [], core, (List.append_nil _).symm, hrun, hview, rfl⟩
  . cases hobserved

end GraphPublicationCore

end Kgi
