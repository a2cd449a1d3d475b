import GraphInspector.Processing.Lemmas.VspcPending

/-!
The invariant of the VSPC processor's state, and the operations that keep it.
-/

namespace Kgi

open Data

namespace VspcState

variable {state next : VspcState} {id : PendingId} {candidate : PendingCandidate}
  {change : VspcChange}

/-!
The suffix of a crossing path.
-/

theorem suffixAfter_cons (hash first : BlockHash) (path : List BlockHash) :
    suffixAfter hash (first :: path) = if first = hash then path else suffixAfter hash path := by
  unfold suffixAfter
  rw [List.dropWhile_cons]
  split
  . next h => rw [if_neg (of_decide_eq_true h)]
  . next h =>
    rw [if_pos]
    . rfl
    . by_contra hne
      exact h (decide_eq_true hne)

variable {hash destination : BlockHash} {path : List BlockHash} {source : CandidateSource}
variable {history : MaterializedHistory} {persisted block : PersistedBlock}

theorem suffixAfter_split (h : suffixAfter hash path ≠ []) :
    ∃ before, path = before ++ hash :: suffixAfter hash path := by
  induction path with
  | nil => exact absurd rfl h
  | cons first path ih =>
    rw [suffixAfter_cons] at h ⊢
    by_cases heq : first = hash
    . rw [if_pos heq, heq]
      exact ⟨[], rfl⟩
    . rw [if_neg heq] at h ⊢
      obtain ⟨before, hbefore⟩ := ih h
      refine ⟨first :: before, ?_⟩
      rw [List.cons_append, ← hbefore]

theorem getLast_suffixAfter (h : suffixAfter hash path ≠ []) :
    (suffixAfter hash path).getLast? = path.getLast? := by
  obtain ⟨before, hbefore⟩ := suffixAfter_split h
  conv_rhs => rw [hbefore, List.getLast?_append, List.getLast?_cons, List.getLast?_eq_some_getLast h]
  rw [List.getLast?_eq_some_getLast h]
  rfl

/-!
The invariant of the state.
-/

structure Sound (state : VspcState) : Prop where
  history : state.history.Consistent
  sink : ∃ block, state.history.byHash[state.committedSink.hash]? = some block ∧
    block.point = state.committedSink
  indexed : state.Indexed
  fresh : state.Fresh
  synchronizing : state.phase = .synchronizing → ∀ (id : PendingId) (candidate : PendingCandidate),
    state.pending[id]? = some candidate → candidate.source = .synthetic
  live : state.phase = .live → ∀ (id : PendingId) (candidate : PendingCandidate),
    state.pending[id]? = some candidate → candidate.source = .notification

theorem Sound.new (anchor : MaterializedSyncAnchor) : (new anchor).Sound where
  history := .new anchor
  sink := by
    refine ⟨⟨anchor.point, anchor.selectedParent⟩, ?_, rfl⟩
    exact (MaterializedHistory.get_insert_of_absent (by simp) _).trans (if_pos rfl)
  indexed := .new anchor
  fresh := .new anchor
  synchronizing _ id candidate hget := by simp [VspcState.new] at hget
  live _ id candidate hget := by simp [VspcState.new] at hget

theorem Sound.removeCandidate (h : state.Sound) (id : PendingId) : (state.removeCandidate id).Sound := by
  have hbase := sameBase_removeCandidate state id
  have hkept : ∀ (other : PendingId) (candidate : PendingCandidate),
      (state.removeCandidate id).pending[other]? = some candidate →
      state.pending[other]? = some candidate := by
    intro other candidate hget
    rw [get_removeCandidate] at hget
    split at hget
    . cases hget
    . exact hget
  constructor
  case history =>
    rw [hbase.history]
    exact h.history
  case sink =>
    rw [hbase.history, hbase.committedSink]
    exact h.sink
  case indexed => exact h.indexed.removeCandidate id
  case fresh => exact h.fresh.removeCandidate id
  case synchronizing =>
    intro hphase other candidate hget
    rw [hbase.phase] at hphase
    exact h.synchronizing hphase other candidate (hkept other candidate hget)
  case live =>
    intro hphase other candidate hget
    rw [hbase.phase] at hphase
    exact h.live hphase other candidate (hkept other candidate hget)

/-!
Admitting a change.
-/

def admitted (state : VspcState) (change : VspcChange) (destination : BlockHash)
    (source : CandidateSource) : VspcState :=
  let candidate : PendingCandidate := ⟨source, change, destination, ∅, none, false⟩
  { state with
    nextPendingId := state.nextPendingId + 1
    pending := state.pending.insert state.nextPendingId candidate
    notificationByDestination := Indexes.insertKey state.notificationByDestination
      candidate.notifiedDestination state.nextPendingId
    syntheticFifo :=
      if source = .notification then state.syntheticFifo
      else state.syntheticFifo ++ [state.nextPendingId] }

section Admit

variable (state) (change) (destination) (source)

theorem admitChange_eq :
    state.admitChange change destination source
      = (state.admitted change destination source).refreshCandidate state.nextPendingId := by
  cases source with
  | synthetic => rfl
  | notification => rfl

theorem get_admitted (other : PendingId) :
    (state.admitted change destination source).pending[other]?
      = if state.nextPendingId = other then some ⟨source, change, destination, ∅, none, false⟩
        else state.pending[other]? :=
  Map.get_insert _ _ _ _

theorem sameBase_admitChange : SameBase state (state.admitChange change destination source) := by
  rw [admitChange_eq]
  have hbase : SameBase state (state.admitted change destination source) := ⟨rfl, rfl, rfl⟩
  exact hbase.trans (sameBase_refreshCandidate _ _)

theorem get_admitChange (other : PendingId) :
    (state.admitChange change destination source).pending[other]?
      = if state.nextPendingId = other then
          some (state.refreshed ⟨source, change, destination, ∅, none, false⟩)
        else state.pending[other]? := by
  rw [admitChange_eq, get_refreshCandidate, get_admitted, get_admitted, if_pos rfl]
  split
  . rfl
  . rfl

end Admit

theorem Indexed.next_absent (h : state.Indexed) : state.pending[state.nextPendingId]? = none := by
  cases hget : state.pending[state.nextPendingId]? with
  | none => rfl
  | some candidate => exact absurd (h.known _ candidate hget) (Nat.lt_irrefl _)

theorem Indexed.admitted (h : state.Indexed)
    (hdestination : change.added.getLast? = some destination)
    (hunique : source = .notification → state.notificationByDestination[destination]? = none) :
    (state.admitted change destination source).Indexed := by
  have habsent := h.next_absent
  constructor
  case known =>
    intro other candidate hget
    rw [get_admitted] at hget
    split at hget
    . next heq =>
      rw [← heq]
      exact Nat.lt_succ_self _
    . exact Nat.lt_succ_of_lt (h.known other candidate hget)
  case destination =>
    intro other candidate hget
    rw [get_admitted] at hget
    split at hget
    . cases hget
      exact hdestination
    . exact h.destination other candidate hget
  case order =>
    intro other candidate order hget horder
    rw [get_admitted] at hget
    split at hget
    . cases hget
      cases horder
    . exact h.order other candidate order hget horder
  case waiting =>
    have hwaiting := h.waiting.insert (r := ⟨source, change, destination, ∅, none, false⟩) habsent
    exact hwaiting
  case notified =>
    apply h.notified.insert habsent
    intro k hk
    rw [PendingCandidate.notifiedDestination_eq_some] at hk
    obtain ⟨hsource, rfl⟩ := hk
    exact hunique hsource
  case resolved =>
    have hnone : PendingCandidate.notifiedOrder ⟨source, change, destination, ∅, none, false⟩ = none := by
      unfold PendingCandidate.notifiedOrder
      split
      . rfl
      . rfl
    have hresolved := h.resolved.insert (r := ⟨source, change, destination, ∅, none, false⟩) habsent
      (by rw [hnone]; intro k hk; cases hk)
    rw [hnone] at hresolved
    exact hresolved
  case synthetic =>
    unfold VspcState.admitted
    split
    . next hsource =>
      apply h.synthetic.insert_of_not habsent
      rw [PendingCandidate.isSynthetic_iff]
      exact fun hne => hne hsource
    . next hsource =>
      apply h.synthetic.insert
      exact (PendingCandidate.isSynthetic_iff _).mpr hsource

theorem Sound.admitChange (h : state.Sound)
    (hdestination : change.added.getLast? = some destination)
    (hnotification : source = .notification → state.phase ≠ .synchronizing)
    (hsynthetic : source = .synthetic → state.phase ≠ .live)
    (hunique : source = .notification → state.notificationByDestination[destination]? = none) :
    (state.admitChange change destination source).Sound := by
  have hbase := sameBase_admitChange state change destination source
  constructor
  case history =>
    rw [hbase.history]
    exact h.history
  case sink =>
    rw [hbase.history, hbase.committedSink]
    exact h.sink
  case indexed =>
    rw [admitChange_eq]
    exact (h.indexed.admitted hdestination hunique).refreshCandidate h.history _
  case fresh =>
    intro other candidate hget
    unfold Current
    rw [hbase.refreshed_eq]
    rw [get_admitChange] at hget
    split at hget
    . cases hget
      exact current_refreshed state _
    . exact h.fresh other candidate hget
  case synchronizing =>
    intro hphase other candidate hget
    rw [hbase.phase] at hphase
    rw [get_admitChange] at hget
    split at hget
    . cases hget
      cases hsource : source with
      | synthetic => rfl
      | notification => exact absurd hphase (hnotification hsource)
    . exact h.synchronizing hphase other candidate hget
  case live =>
    intro hphase other candidate hget
    rw [hbase.phase] at hphase
    rw [get_admitChange] at hget
    split at hget
    . cases hget
      cases hsource : source with
      | notification => rfl
      | synthetic => exact absurd hphase (hsynthetic hsource)
    . exact h.live hphase other candidate hget

/-!
Driving an action.
-/

theorem Indexed.update (h : state.Indexed) (hget : state.pending[id]? = some candidate)
    {candidate' : PendingCandidate} (hsource : candidate'.source = candidate.source)
    (hdestination : candidate'.destination = candidate.destination)
    (hmissing : candidate'.missing = candidate.missing)
    (horder : candidate'.resolvedDestinationOrder = candidate.resolvedDestinationOrder)
    (hlast : candidate'.change.added.getLast? = candidate.change.added.getLast?) :
    { state with pending := state.pending.insert id candidate' }.Indexed := by
  have hcases : ∀ (other : PendingId) (found : PendingCandidate),
      (state.pending.insert id candidate')[other]? = some found →
      (id = other ∧ candidate' = found) ∨ state.pending[other]? = some found := by
    intro other found hfound
    rw [Map.get_insert] at hfound
    split at hfound
    . next heq => exact Or.inl ⟨heq, Option.some.inj hfound⟩
    . exact Or.inr hfound
  constructor
  case known =>
    intro other found hfound
    rcases hcases other found hfound with ⟨rfl, rfl⟩ | hfound
    . exact h.known id candidate hget
    . exact h.known other found hfound
  case destination =>
    intro other found hfound
    rcases hcases other found hfound with ⟨rfl, rfl⟩ | hfound
    . rw [hlast, hdestination]
      exact h.destination id candidate hget
    . exact h.destination other found hfound
  case order =>
    intro other found order hfound hfoundOrder
    rcases hcases other found hfound with ⟨rfl, rfl⟩ | hfound
    . rw [hdestination]
      rw [horder] at hfoundOrder
      exact h.order id candidate order hget hfoundOrder
    . exact h.order other found order hfound hfoundOrder
  case waiting => exact h.waiting.update hget hmissing
  case notified =>
    apply h.notified.update hget
    unfold PendingCandidate.notifiedDestination
    rw [hsource, hdestination]
  case resolved =>
    apply h.resolved.update hget
    unfold PendingCandidate.notifiedOrder
    rw [hsource, horder]
  case synthetic =>
    apply h.synthetic.update hget
    unfold PendingCandidate.isSynthetic
    rw [hsource]

theorem Sound.replace (h : state.Sound) (hget : state.pending[id]? = some candidate)
    (candidate' : PendingCandidate) (hsource : candidate'.source = candidate.source)
    (hbase : SameBase state next) (hindexed : next.Indexed) (hcurrent : state.Current candidate')
    (hpending : ∀ other, next.pending[other]?
      = if id = other then some candidate' else state.pending[other]?) : next.Sound := by
  constructor
  case history =>
    rw [hbase.history]
    exact h.history
  case sink =>
    rw [hbase.history, hbase.committedSink]
    exact h.sink
  case indexed => exact hindexed
  case fresh =>
    intro other found hfound
    unfold Current
    rw [hbase.refreshed_eq]
    rw [hpending] at hfound
    split at hfound
    . cases hfound
      exact hcurrent
    . exact h.fresh other found hfound
  case synchronizing =>
    intro hphase other found hfound
    rw [hbase.phase] at hphase
    rw [hpending] at hfound
    split at hfound
    . cases hfound
      rw [hsource]
      exact h.synchronizing hphase id candidate hget
    . exact h.synchronizing hphase other found hfound
  case live =>
    intro hphase other found hfound
    rw [hbase.phase] at hphase
    rw [hpending] at hfound
    split at hfound
    . cases hfound
      rw [hsource]
      exact h.live hphase id candidate hget
    . exact h.live hphase other found hfound

def normalized (state : VspcState) (id : PendingId) (suffix : List BlockHash) : VspcState :=
  { state with
    pending := state.pending.modify id fun candidate =>
      { candidate with change := ⟨[], suffix⟩, overlapCredited := true } }.refreshCandidate id

def normalizedCandidate (candidate : PendingCandidate) (suffix : List BlockHash) : PendingCandidate :=
  { candidate with change := ⟨[], suffix⟩, overlapCredited := true }

theorem get_normalized (hget : state.pending[id]? = some candidate) (suffix : List BlockHash)
    (other : PendingId) : (state.normalized id suffix).pending[other]?
      = if id = other then some (state.refreshed (normalizedCandidate candidate suffix))
        else state.pending[other]? := by
  unfold normalized
  rw [get_refreshCandidate]
  rw [Map.get_modify, Map.get_modify, if_pos rfl, hget]
  split
  . rfl
  . rfl

theorem sameBase_normalized (state : VspcState) (id : PendingId) (suffix : List BlockHash) :
    SameBase state (state.normalized id suffix) := by
  refine SameBase.trans ?_ (sameBase_refreshCandidate _ _)
  exact ⟨rfl, rfl, rfl⟩

theorem Sound.normalized (h : state.Sound) (hget : state.pending[id]? = some candidate)
    {suffix : List BlockHash} (hlast : suffix.getLast? = candidate.change.added.getLast?) :
    (state.normalized id suffix).Sound := by
  apply h.replace hget (state.refreshed (normalizedCandidate candidate suffix))
  . exact rfl
  . exact sameBase_normalized state id suffix
  . unfold VspcState.normalized
    rw [Map.modify_eq_insert _ hget]
    apply Indexed.refreshCandidate
    . exact h.indexed.update hget rfl rfl rfl rfl hlast
    . exact h.history
  . exact current_refreshed state _
  . exact get_normalized hget suffix

def overlapMarked (state : VspcState) (id : PendingId) : VspcState :=
  { state with
    pending := state.pending.modify id fun candidate => { candidate with overlapCredited := true } }

theorem get_overlapMarked (hget : state.pending[id]? = some candidate) (other : PendingId) :
    (state.overlapMarked id).pending[other]?
      = if id = other then some { candidate with overlapCredited := true }
        else state.pending[other]? := by
  unfold overlapMarked
  rw [Map.get_modify, hget]
  rfl

theorem Sound.overlapMarked (h : state.Sound) (hget : state.pending[id]? = some candidate) :
    (state.overlapMarked id).Sound := by
  have hcurrent := h.fresh id candidate hget
  apply h.replace hget { candidate with overlapCredited := true }
  . exact rfl
  . exact ⟨rfl, rfl, rfl⟩
  . unfold VspcState.overlapMarked
    rw [Map.modify_eq_insert _ hget]
    exact h.indexed.update hget rfl rfl rfl rfl rfl
  . exact congrArg (fun candidate : PendingCandidate => { candidate with overlapCredited := true }) hcurrent
  . exact get_overlapMarked hget

/-!
The history changes, and the candidates follow.
-/

theorem mem_requiredHistory (state : VspcState) (change : VspcChange) (hash : BlockHash) :
    hash ∈ state.requiredHistory change ↔
      hash ∈ neededHistory state.history change ∧ state.history.byHash[hash]? = none := by
  unfold requiredHistory
  rw [KeySet.mem_ofElems, List.mem_filter]
  apply and_congr_right
  intro _
  rw [Std.ExtTreeMap.contains_eq_isSome_getElem?]
  cases state.history.byHash[hash]? with
  | none => simp
  | some block => simp

theorem neededHistory_insert (habsent : history.byHash[persisted.point.hash]? = none)
    (hneeded : persisted.point.hash ∉ neededHistory history change) :
    neededHistory (history.insert persisted) change = neededHistory history change := by
  unfold neededHistory at hneeded ⊢
  cases hremoved : change.removed.head? with
  | some source => rfl
  | none =>
    rw [hremoved] at hneeded
    cases hadded : change.added with
    | nil => rfl
    | cons first rest =>
      have hne : persisted.point.hash ≠ first := by
        rintro heq
        apply hneeded
        rw [hadded, heq]
        simp
      dsimp only [List.head?_cons, Option.bind_some]
      rw [MaterializedHistory.get_insert_of_absent habsent, if_neg hne]

theorem refreshed_insert (habsent : state.history.byHash[persisted.point.hash]? = none)
    (hlast : candidate.change.added.getLast? = some candidate.destination)
    (hwaiting : persisted.point.hash ∉ state.requiredHistory candidate.change) :
    { state with history := state.history.insert persisted }.refreshed candidate
      = state.refreshed candidate := by
  have hneeded : persisted.point.hash ∉ neededHistory state.history candidate.change :=
    fun hmem => hwaiting ((mem_requiredHistory state _ _).mpr ⟨hmem, habsent⟩)
  have hkept : ∀ hash ∈ neededHistory state.history candidate.change,
      (state.history.insert persisted).byHash[hash]? = state.history.byHash[hash]? := by
    intro hash hhash
    rw [MaterializedHistory.get_insert_of_absent habsent, if_neg]
    rintro rfl
    exact hneeded hhash
  have hdestination : candidate.destination ∈ neededHistory state.history candidate.change := by
    unfold neededHistory
    rw [hlast]
    simp
  have hrequired : { state with history := state.history.insert persisted }.requiredHistory candidate.change
      = state.requiredHistory candidate.change := by
    apply Std.ExtTreeSet.ext_mem
    intro hash
    rw [mem_requiredHistory, mem_requiredHistory, neededHistory_insert habsent hneeded]
    apply and_congr_right
    intro hhash
    rw [hkept hash hhash]
  unfold refreshed
  rw [hrequired]
  rw [hkept _ hdestination]

theorem Indexed.of_history (h : state.Indexed) (history : MaterializedHistory) :
    { state with history := history }.Indexed :=
  ⟨h.known, h.destination, h.order, h.waiting, h.notified, h.resolved, h.synthetic⟩

theorem Sound.refreshAll (h : state.Sound) (hhistory : history.Consistent)
    (hsink : ∃ block, history.byHash[state.committedSink.hash]? = some block ∧
      block.point = state.committedSink) {ids : List PendingId}
    (hother : ∀ (id : PendingId) (candidate : PendingCandidate), state.pending[id]? = some candidate →
      id ∉ ids → { state with history := history }.Current candidate) :
    ({ state with history := history }.refreshAll ids).Sound := by
  have hbase := sameBase_refreshAll { state with history := history } ids
  have hkept : ∀ (id : PendingId) (candidate : PendingCandidate),
      ({ state with history := history }.refreshAll ids).pending[id]? = some candidate →
      ∃ before, state.pending[id]? = some before ∧ candidate.source = before.source := by
    intro id candidate hcandidate
    rw [get_refreshAll] at hcandidate
    split at hcandidate
    . obtain ⟨before, hbefore, rfl⟩ := Option.map_eq_some_iff.mp hcandidate
      exact ⟨before, hbefore, rfl⟩
    . exact ⟨candidate, hcandidate, rfl⟩
  constructor
  case history =>
    rw [hbase.history]
    exact hhistory
  case sink =>
    rw [hbase.history, hbase.committedSink]
    exact hsink
  case indexed => exact (h.indexed.of_history history).refreshAll hhistory ids
  case fresh => exact fresh_refreshAll hother
  case synchronizing =>
    intro hphase id candidate hcandidate
    rw [hbase.phase] at hphase
    obtain ⟨before, hbefore, hsource⟩ := hkept id candidate hcandidate
    rw [hsource]
    exact h.synchronizing hphase id before hbefore
  case live =>
    intro hphase id candidate hcandidate
    rw [hbase.phase] at hphase
    obtain ⟨before, hbefore, hsource⟩ := hkept id candidate hcandidate
    rw [hsource]
    exact h.live hphase id before hbefore

theorem Sound.persist (h : state.Sound) (persisted : PersistedBlock) : (state.persist persisted).Sound := by
  unfold VspcState.persist
  split
  . exact h
  . next hcontains =>
    have habsent : state.history.byHash[persisted.point.hash]? = none := by
      rw [Map.contains_iff, not_exists] at hcontains
      exact Option.eq_none_iff_forall_ne_some.mpr hcontains
    apply h.refreshAll
    . exact h.history.insert persisted
    . obtain ⟨block, hblock, hpoint⟩ := h.sink
      refine ⟨block, ?_, hpoint⟩
      rw [MaterializedHistory.get_insert_of_absent habsent, if_neg]
      . exact hblock
      . intro heq
        rw [← heq, habsent] at hblock
        cases hblock
    . intro id candidate hget hid
      have hcurrent := h.fresh id candidate hget
      unfold Current
      rw [refreshed_insert habsent (h.indexed.destination id candidate hget)]
      . exact hcurrent
      . -- A candidate that waits for the block would be refreshed.
        intro hrequired
        apply hid
        rw [Multimap.mem_bucket, h.indexed.waiting]
        refine ⟨candidate, hget, ?_⟩
        rw [← hcurrent]
        exact hrequired

theorem Sound.pruneHistory (h : state.Sound) : state.pruneHistory.Sound := by
  apply h.refreshAll
  . exact h.history.pruneBelow _
  . obtain ⟨block, hblock, hpoint⟩ := h.sink
    refine ⟨block, ?_, hpoint⟩
    rw [h.history.get_pruneBelow, hblock, Option.filter_some, if_pos]
    rw [hpoint]
    exact decide_eq_true (le_refl _)
  . intro id candidate hget hid
    exact absurd (List.mem_map.mpr ⟨(id, candidate), (Map.mem_toList _ _ _).mpr hget, rfl⟩) hid

theorem Sound.foldl_removeCandidate (h : state.Sound) (ids : List PendingId) :
    (ids.foldl VspcState.removeCandidate state).Sound ∧
      SameBase state (ids.foldl VspcState.removeCandidate state) ∧
      ∀ other : PendingId, (ids.foldl VspcState.removeCandidate state).pending[other]?
        = if other ∈ ids then none else state.pending[other]? := by
  induction ids generalizing state with
  | nil => exact ⟨h, SameBase.refl state, fun other => by simp⟩
  | cons id ids ih =>
    obtain ⟨hsound, hbase, hget⟩ := ih (h.removeCandidate id)
    refine ⟨hsound, (sameBase_removeCandidate state id).trans hbase, fun other => ?_⟩
    rw [List.foldl_cons, hget, get_removeCandidate]
    by_cases hid : id = other
    . simp [hid]
    . simp [hid, Ne.symm hid]

def enterLive (state : VspcState) : VspcState :=
  { state.clearSynthetic with phase := .live }.pruneHistory

theorem Sound.clearSynthetic (h : state.Sound) : { state.clearSynthetic with phase := .live }.Sound := by
  obtain ⟨hsound, hbase, hget⟩ := h.foldl_removeCandidate state.syntheticFifo
  have hnotified : ∀ (id : PendingId) (candidate : PendingCandidate),
      state.clearSynthetic.pending[id]? = some candidate → candidate.source = .notification := by
    intro id candidate hcandidate
    have hcandidate := (hget id).symm.trans hcandidate
    split at hcandidate
    . cases hcandidate
    . next hid =>
      by_contra hsource
      apply hid
      rw [h.indexed.synthetic]
      exact ⟨candidate, hcandidate, (PendingCandidate.isSynthetic_iff candidate).mpr hsource⟩
  constructor
  case history => exact hsound.history
  case sink => exact hsound.sink
  case indexed =>
    have hindexed := hsound.indexed
    exact ⟨hindexed.known, hindexed.destination, hindexed.order, hindexed.waiting, hindexed.notified,
      hindexed.resolved, hindexed.synthetic⟩
  case fresh => exact hsound.fresh
  case synchronizing =>
    intro hphase
    cases hphase
  case live => exact fun _ => hnotified

theorem Sound.enterLive (h : state.Sound) : state.enterLive.Sound :=
  h.clearSynthetic.pruneHistory

theorem Sound.enterCatchup (h : state.Sound) (syntheticSinkLowerBound : VspcPoint) :
    { state with phase := .catchup syntheticSinkLowerBound }.Sound where
  history := h.history
  sink := h.sink
  indexed :=
    have hindexed := h.indexed
    ⟨hindexed.known, hindexed.destination, hindexed.order, hindexed.waiting, hindexed.notified,
      hindexed.resolved, hindexed.synthetic⟩
  fresh := h.fresh
  synchronizing hphase := by cases hphase
  live hphase := by cases hphase

def committed (state : VspcState) (id : PendingId) (destination : VspcPoint) : VspcState :=
  let committed := { state with committedSink := destination }.removeCandidate id
  match committed.phase with
  | .catchup _ => committed
  | _ => committed.pruneHistory

theorem Sound.moveSink (h : state.Sound)
    (hblock : state.history.byHash[block.point.hash]? = some block) :
    { state with committedSink := block.point }.Sound where
  history := h.history
  sink := ⟨block, hblock, rfl⟩
  indexed :=
    have hindexed := h.indexed
    ⟨hindexed.known, hindexed.destination, hindexed.order, hindexed.waiting, hindexed.notified,
      hindexed.resolved, hindexed.synthetic⟩
  fresh := h.fresh
  synchronizing := h.synchronizing
  live := h.live

theorem Sound.committed (h : state.Sound) (id : PendingId)
    (hblock : state.history.byHash[block.point.hash]? = some block) :
    (state.committed id block.point).Sound := by
  have hmoved := (h.moveSink hblock).removeCandidate id
  unfold VspcState.committed
  dsimp only
  split
  . exact hmoved
  . exact hmoved.pruneHistory

end VspcState

end Kgi
