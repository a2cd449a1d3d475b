import GraphInspector.Data.Index
import GraphInspector.Processing.Lemmas.VspcHistory

/-!
The pending changes of the VSPC processor: the four indexes agree with the candidates.
-/

namespace Kgi

open Data

variable {order : ConsensusOrder}

namespace PendingCandidate

def isSynthetic (candidate : PendingCandidate) : Prop :=
  candidate.source = .synthetic

def notifiedDestination (candidate : PendingCandidate) : Option BlockHash :=
  if candidate.source = .notification then some candidate.destination else none

def notifiedOrder (candidate : PendingCandidate) : Option ConsensusOrder :=
  if candidate.source = .notification then candidate.resolvedDestinationOrder else none

theorem notifiedOrder_eq_some {candidate : PendingCandidate} :
    candidate.notifiedOrder = some order ↔
      candidate.source = .notification ∧ candidate.resolvedDestinationOrder = some order := by
  unfold notifiedOrder
  split
  . next h => simp [h]
  . next h => simp [h]

theorem notifiedDestination_eq_some {candidate : PendingCandidate} {destination : BlockHash} :
    candidate.notifiedDestination = some destination ↔
      candidate.source = .notification ∧ candidate.destination = destination := by
  unfold notifiedDestination
  split
  . next h => simp [h]
  . next h => simp [h]

theorem isSynthetic_iff (candidate : PendingCandidate) :
    candidate.isSynthetic ↔ candidate.source ≠ .notification := by
  unfold isSynthetic
  cases candidate.source with
  | synthetic => simp
  | notification => simp

end PendingCandidate

namespace VspcState

variable {state : VspcState} {id : PendingId} {candidate : PendingCandidate}

theorem unresolve_eq (state : VspcState) (order : Option ConsensusOrder) :
    state.unresolve order = { state with
      resolvedNotifications := Indexes.eraseKey state.resolvedNotifications order } := by
  cases order with
  | none => rfl
  | some order => rfl

theorem removeCandidate_eq (hget : state.pending[id]? = some candidate) :
    state.removeCandidate id = { state with
      pending := state.pending.erase id
      missingToPending := candidate.missing.toList.foldl
        (fun waiters hash => Multimap.remove waiters hash id) state.missingToPending
      notificationByDestination :=
        Indexes.eraseKey state.notificationByDestination candidate.notifiedDestination
      resolvedNotifications := Indexes.eraseKey state.resolvedNotifications candidate.notifiedOrder
      syntheticFifo :=
        if candidate.source = .notification then state.syntheticFifo
        else state.syntheticFifo.filter fun pending => pending ≠ id } := by
  unfold removeCandidate PendingCandidate.notifiedDestination PendingCandidate.notifiedOrder
  rw [hget]
  dsimp only
  split
  . rw [unresolve_eq]
    rfl
  . rfl

theorem removeCandidate_of_absent (hget : state.pending[id]? = none) : state.removeCandidate id = state := by
  unfold removeCandidate
  rw [hget]

def refreshed (state : VspcState) (candidate : PendingCandidate) : PendingCandidate :=
  { candidate with
    missing := state.requiredHistory candidate.change
    resolvedDestinationOrder :=
      state.history.byHash[candidate.destination]?.map fun block => block.point.order }

theorem refreshCandidate_eq (hget : state.pending[id]? = some candidate) :
    state.refreshCandidate id = { state with
      pending := state.pending.insert id (state.refreshed candidate)
      missingToPending := (state.refreshed candidate).missing.toList.foldl
        (fun waiters hash => Multimap.add waiters hash id)
        (candidate.missing.toList.foldl (fun waiters hash => Multimap.remove waiters hash id)
          state.missingToPending)
      resolvedNotifications := Indexes.insertKey
        (Indexes.eraseKey state.resolvedNotifications candidate.notifiedOrder)
        (state.refreshed candidate).notifiedOrder id } := by
  unfold refreshCandidate PendingCandidate.notifiedOrder refreshed
  rw [hget]
  by_cases hsource : candidate.source = .notification
  . simp only [hsource, if_true, unresolve_eq]
    cases state.history.byHash[candidate.destination]? with
    | none => rfl
    | some block => rfl
  . simp only [hsource, if_false]
    rfl

theorem refreshCandidate_of_absent (hget : state.pending[id]? = none) :
    state.refreshCandidate id = state := by
  unfold refreshCandidate
  rw [hget]

structure Indexed (state : VspcState) : Prop where
  known : ∀ (id : PendingId) (candidate : PendingCandidate), state.pending[id]? = some candidate →
    id < state.nextPendingId
  destination : ∀ (id : PendingId) (candidate : PendingCandidate), state.pending[id]? = some candidate →
    candidate.change.added.getLast? = some candidate.destination
  order : ∀ (id : PendingId) (candidate : PendingCandidate) (order : ConsensusOrder),
    state.pending[id]? = some candidate → candidate.resolvedDestinationOrder = some order →
    order.hash = candidate.destination
  waiting : Postings state.missingToPending state.pending PendingCandidate.missing
  notified : Indexes state.notificationByDestination state.pending PendingCandidate.notifiedDestination
  resolved : Indexes state.resolvedNotifications state.pending PendingCandidate.notifiedOrder
  synthetic : Lists state.syntheticFifo state.pending PendingCandidate.isSynthetic

def Current (state : VspcState) (candidate : PendingCandidate) : Prop :=
  state.refreshed candidate = candidate

theorem current_refreshed (state : VspcState) (candidate : PendingCandidate) :
    state.Current (state.refreshed candidate) :=
  rfl

def Fresh (state : VspcState) : Prop :=
  ∀ (id : PendingId) (candidate : PendingCandidate), state.pending[id]? = some candidate →
    state.Current candidate

theorem Indexed.new (anchor : MaterializedSyncAnchor) : (new anchor).Indexed where
  known id candidate hget := by simp [VspcState.new] at hget
  destination id candidate hget := by simp [VspcState.new] at hget
  order id candidate order hget := by simp [VspcState.new] at hget
  waiting := Postings.empty
  notified := Indexes.empty
  resolved := Indexes.empty
  synthetic := Lists.empty

theorem Fresh.new (anchor : MaterializedSyncAnchor) : (new anchor).Fresh := by
  intro id candidate hget
  simp [VspcState.new] at hget

/-!
Removing candidates.
-/

variable {other : PendingId} {before after : VspcState}

theorem get_of_get_erase (hget : (state.pending.erase id)[other]? = some candidate) :
    state.pending[other]? = some candidate := by
  rw [Map.get_erase] at hget
  split at hget
  . cases hget
  . exact hget

theorem Indexed.removeCandidate (h : state.Indexed) (id : PendingId) :
    (state.removeCandidate id).Indexed := by
  cases hget : state.pending[id]? with
  | none =>
    rw [removeCandidate_of_absent hget]
    exact h
  | some candidate =>
    rw [removeCandidate_eq hget]
    constructor
    case known => exact fun other candidate hother => h.known other candidate (get_of_get_erase hother)
    case destination =>
      exact fun other candidate hother => h.destination other candidate (get_of_get_erase hother)
    case order =>
      exact fun other candidate order hother => h.order other candidate order (get_of_get_erase hother)
    case waiting => exact h.waiting.erase hget
    case notified => exact h.notified.erase hget
    case resolved => exact h.resolved.erase hget
    case synthetic =>
      split
      . next hsource =>
        apply h.synthetic.erase_of_not hget
        rw [PendingCandidate.isSynthetic_iff]
        exact fun hne => hne hsource
      . exact h.synthetic.erase id

theorem get_removeCandidate (state : VspcState) (id other : PendingId) :
    (state.removeCandidate id).pending[other]? = if id = other then none else state.pending[other]? := by
  cases hget : state.pending[id]? with
  | none =>
    rw [removeCandidate_of_absent hget]
    split
    . next heq => rw [← heq, hget]
    . rfl
  | some candidate =>
    rw [removeCandidate_eq hget]
    exact Map.get_erase _ _ _

/-!
What is known of the state apart from its candidates.
-/

structure SameBase (before after : VspcState) : Prop where
  phase : after.phase = before.phase
  committedSink : after.committedSink = before.committedSink
  history : after.history = before.history

theorem SameBase.refl (state : VspcState) : SameBase state state :=
  ⟨rfl, rfl, rfl⟩

theorem SameBase.trans {between : VspcState} (h : SameBase before between)
    (h' : SameBase between after) : SameBase before after :=
  ⟨h'.phase.trans h.phase, h'.committedSink.trans h.committedSink, h'.history.trans h.history⟩

theorem SameBase.refreshed_eq (h : SameBase before after) (candidate : PendingCandidate) :
    after.refreshed candidate = before.refreshed candidate := by
  unfold refreshed requiredHistory
  rw [h.history]

theorem SameBase.endpoints_eq (h : SameBase before after) (change : VspcChange) :
    after.endpoints change = before.endpoints change := by
  unfold endpoints
  rw [h.history]

theorem sameBase_removeCandidate (state : VspcState) (id : PendingId) :
    SameBase state (state.removeCandidate id) := by
  cases hget : state.pending[id]? with
  | none =>
    rw [removeCandidate_of_absent hget]
    exact SameBase.refl state
  | some candidate =>
    rw [removeCandidate_eq hget]
    exact ⟨rfl, rfl, rfl⟩

theorem sameBase_refreshCandidate (state : VspcState) (id : PendingId) :
    SameBase state (state.refreshCandidate id) := by
  cases hget : state.pending[id]? with
  | none =>
    rw [refreshCandidate_of_absent hget]
    exact SameBase.refl state
  | some candidate =>
    rw [refreshCandidate_eq hget]
    exact ⟨rfl, rfl, rfl⟩

theorem Fresh.removeCandidate (h : state.Fresh) (id : PendingId) : (state.removeCandidate id).Fresh := by
  intro other candidate hget
  rw [get_removeCandidate] at hget
  split at hget
  . cases hget
  . unfold Current
    rw [(sameBase_removeCandidate state id).refreshed_eq]
    exact h other candidate hget

/-!
Refreshing candidates.
-/

theorem get_refreshCandidate (state : VspcState) (id other : PendingId) :
    (state.refreshCandidate id).pending[other]?
      = if id = other then state.pending[id]?.map state.refreshed else state.pending[other]? := by
  cases hget : state.pending[id]? with
  | none =>
    rw [refreshCandidate_of_absent hget]
    split
    . next heq => rw [← heq, hget, Option.map_none]
    . rfl
  | some candidate =>
    rw [refreshCandidate_eq hget]
    exact Map.get_insert _ _ _ _

theorem Indexed.id_eq_of_order (h : state.Indexed) (hget : state.pending[id]? = some candidate)
    (hsource : candidate.source = .notification) (hhash : order.hash = candidate.destination)
    (hother : state.resolvedNotifications[order]? = some other) : other = id := by
  obtain ⟨competitor, hcompetitor, horder⟩ := (h.resolved order other).mp hother
  rw [PendingCandidate.notifiedOrder_eq_some] at horder
  have hdestination := h.order other competitor order hcompetitor horder.2
  apply h.notified.id_eq hcompetitor
  . exact PendingCandidate.notifiedDestination_eq_some.mpr ⟨horder.1, rfl⟩
  . exact hget
  . rw [PendingCandidate.notifiedDestination_eq_some, ← hdestination]
    exact ⟨hsource, hhash.symm⟩

theorem hash_of_refreshed (hhistory : state.history.Consistent)
    (horder : (state.refreshed candidate).resolvedDestinationOrder = some order) :
    order.hash = candidate.destination := by
  obtain ⟨block, hblock, rfl⟩ := Option.map_eq_some_iff.mp horder
  exact (hhistory.byHash _ _ hblock).1

theorem Indexed.refreshCandidate (h : state.Indexed) (hhistory : state.history.Consistent)
    (id : PendingId) : (state.refreshCandidate id).Indexed := by
  cases hget : state.pending[id]? with
  | none =>
    rw [refreshCandidate_of_absent hget]
    exact h
  | some candidate =>
    rw [refreshCandidate_eq hget]
    constructor
    case known =>
      intro other candidate' hother
      have hother : (state.pending.insert id (state.refreshed candidate))[other]? = some candidate' := hother
      rw [Map.get_insert] at hother
      split at hother
      . next heq =>
        rw [← heq]
        exact h.known id candidate hget
      . exact h.known other candidate' hother
    case destination =>
      intro other candidate' hother
      have hother : (state.pending.insert id (state.refreshed candidate))[other]? = some candidate' := hother
      rw [Map.get_insert] at hother
      split at hother
      . cases hother
        exact h.destination id candidate hget
      . exact h.destination other candidate' hother
    case order =>
      intro other candidate' order hother horder
      have hother : (state.pending.insert id (state.refreshed candidate))[other]? = some candidate' := hother
      rw [Map.get_insert] at hother
      split at hother
      . cases hother
        exact hash_of_refreshed hhistory horder
      . exact h.order other candidate' order hother horder
    case waiting => exact h.waiting.replace hget _
    case notified => exact h.notified.update hget rfl
    case resolved =>
      apply h.resolved.replace hget
      intro order other horder hother
      rw [PendingCandidate.notifiedOrder_eq_some] at horder
      exact h.id_eq_of_order hget horder.1 (hash_of_refreshed hhistory horder.2) hother
    case synthetic => exact h.synthetic.update hget Iff.rfl

theorem Indexed.refreshAll (h : state.Indexed) (hhistory : state.history.Consistent)
    (ids : List PendingId) : (state.refreshAll ids).Indexed := by
  induction ids generalizing state with
  | nil => exact h
  | cons id ids ih =>
    apply ih (h.refreshCandidate hhistory id)
    rw [(sameBase_refreshCandidate state id).history]
    exact hhistory

theorem sameBase_refreshAll (state : VspcState) (ids : List PendingId) :
    SameBase state (state.refreshAll ids) := by
  induction ids generalizing state with
  | nil => exact SameBase.refl state
  | cons id ids ih => exact (sameBase_refreshCandidate state id).trans (ih _)

theorem get_refreshAll (state : VspcState) (ids : List PendingId) (other : PendingId) :
    (state.refreshAll ids).pending[other]?
      = if other ∈ ids then state.pending[other]?.map state.refreshed else state.pending[other]? := by
  induction ids generalizing state with
  | nil => simp [VspcState.refreshAll]
  | cons id ids ih =>
    have hrefreshed : (state.refreshCandidate id).refreshed = state.refreshed :=
      funext (sameBase_refreshCandidate state id).refreshed_eq
    have hget := ih (state.refreshCandidate id)
    unfold VspcState.refreshAll at hget ⊢
    rw [List.foldl_cons, hget, hrefreshed, get_refreshCandidate]
    by_cases hid : id = other
    . subst hid
      rw [if_pos rfl, if_pos List.mem_cons_self]
      -- A candidate may be refreshed twice to the same effect.
      split
      . rw [Option.map_map]
        rfl
      . rfl
    . rw [if_neg hid]
      simp [Ne.symm hid]

theorem fresh_refreshAll {ids : List PendingId}
    (hother : ∀ (id : PendingId) (candidate : PendingCandidate), state.pending[id]? = some candidate →
      id ∉ ids → state.Current candidate) : (state.refreshAll ids).Fresh := by
  intro id candidate hcandidate
  unfold Current
  rw [(sameBase_refreshAll state ids).refreshed_eq]
  rw [get_refreshAll] at hcandidate
  split at hcandidate
  . obtain ⟨before, -, rfl⟩ := Option.map_eq_some_iff.mp hcandidate
    exact current_refreshed state before
  . next hid => exact hother id candidate hcandidate hid

end VspcState

end Kgi
