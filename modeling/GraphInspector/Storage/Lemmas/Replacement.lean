import GraphInspector.Storage.Impl.Replacement

/-!
The guarantees of the replacement gate over all interleavings of its callers.
-/

namespace Kgi

open Data

variable {gate : GateState}

namespace GateState

variable {state : GateState} {epoch : Nat}

theorem ensureCurrentAttempt_eq_ok {u : Unit} :
    state.ensureCurrentAttempt epoch = .ok u ↔
      state.controlAvailable = true ∧ state.admission = .closed epoch := by
  unfold ensureCurrentAttempt ensureControlAvailable
  rw [bind_eq_ok]
  simp only [ensure_eq_ok]
  constructor
  . rintro ⟨_, havailable, hclosed⟩
    exact ⟨havailable, hclosed⟩
  . rintro ⟨havailable, hclosed⟩
    exact ⟨(), havailable, hclosed⟩

theorem activeIsEmpty_eq_ok {empty : Bool} :
    state.activeIsEmpty epoch = .ok empty ↔
      (state.controlAvailable = true ∧ state.admission = .closed epoch) ∧
        state.activeLeases.isEmpty = empty := by
  unfold activeIsEmpty
  rw [bind_eq_ok]
  simp only [ensureCurrentAttempt_eq_ok, pure_eq_ok, exists_const]

theorem openAdmission_eq_ok {opened : GateState} :
    state.openAdmission epoch = .ok opened ↔
      state.controlAvailable = true ∧
        (state.admission = .closed epoch ∧ state.activeLeases.isEmpty = true) ∧
        opened = { state with admission := .opened } := by
  unfold openAdmission ensureControlAvailable
  simp only [bind_eq_ok, ensure_eq_ok, pure_eq_ok, exists_const]
  rw [eq_comm (b := opened)]

theorem tryAcquireLease_of_closed (havailable : state.controlAvailable = true)
    (hclosed : state.admission = .closed epoch) : state.tryAcquireLease = .ok (state, none) := by
  unfold tryAcquireLease ensureControlAvailable
  rw [ensure_pos havailable, ok_bind, hclosed]
  rfl

theorem tryAcquireLease_cases {lease : Option Nat} (h : state.tryAcquireLease = .ok (gate, lease)) :
    gate = state ∨
      (state.admission = .opened ∧ gate = { state with
        nextLeaseId := state.nextLeaseId + 1
        activeLeases := state.activeLeases.insert state.nextLeaseId false }) := by
  unfold tryAcquireLease at h
  rw [bind_eq_ok] at h
  obtain ⟨_, _, h⟩ := h
  split at h
  . rw [pure_eq_ok] at h
    exact Or.inl (congrArg Prod.fst h).symm
  . next hopened =>
    rw [bind_eq_ok] at h
    obtain ⟨_, _, h⟩ := h
    rw [pure_eq_ok] at h
    exact Or.inr ⟨hopened, (congrArg Prod.fst h).symm⟩

theorem beginReplacement_eq_ok (h : state.beginReplacement = .ok (gate, epoch)) :
    epoch = state.nextEpoch ∧ gate = { state with
      nextEpoch := epoch + 1
      admission := .closed epoch
      activeLeases := Map.mapEntries state.activeLeases fun _ _ => some true } := by
  unfold beginReplacement at h
  rw [bind_eq_ok] at h
  obtain ⟨_, _, h⟩ := h
  rw [bind_eq_ok] at h
  obtain ⟨_, _, h⟩ := h
  rw [pure_eq_ok] at h
  cases h
  exact ⟨rfl, rfl⟩

end GateState

namespace ReplacementSystem

variable {state next reached : ReplacementSystem} {event : ReplacementEvent}

inductive Move (state next : ReplacementSystem) : ReplacementEvent → Prop
  | handles {event : ReplacementEvent} (gate : next.gate = state.gate)
      (attempts : ∀ epoch ∈ next.attempts, epoch ∈ state.attempts)
      (exclusives : ∀ epoch ∈ next.exclusives, epoch ∈ state.exclusives ∨
        (epoch ∈ state.attempts ∧ state.gate.admission = .closed epoch ∧
          state.gate.activeLeases.isEmpty = true)) : Move state next event
  | granted (opened : state.gate.admission = .opened)
      (move : next = { state with gate := { state.gate with
        nextLeaseId := state.gate.nextLeaseId + 1
        activeLeases := state.gate.activeLeases.insert state.gate.nextLeaseId false } }) :
      Move state next .acquireLease
  | released (leaseId : Nat) (move : next = { state with gate := state.gate.release leaseId }) :
      Move state next (.releaseLease leaseId)
  | began (move : next = { state with
        gate := { state.gate with
          nextEpoch := state.gate.nextEpoch + 1
          admission := .closed state.gate.nextEpoch
          activeLeases := Map.mapEntries state.gate.activeLeases fun _ _ => some true }
        attempts := state.gate.nextEpoch :: state.attempts }) : Move state next .beginReplacement
  | opened (epoch : Nat) (gate : state.gate.openAdmission epoch = .ok next.gate)
      (attempts : next.attempts = state.attempts)
      (exclusives : next.exclusives = state.exclusives.erase epoch) :
      Move state next (.openGate epoch)

theorem Move.refl (state : ReplacementSystem) (event : ReplacementEvent) : Move state state event :=
  .handles rfl (fun _ h => h) fun _ h => Or.inl h

theorem step_move (h : state.step event = some next) : Move state next event := by
  unfold step at h
  cases event with
  | acquireLease =>
    dsimp only at h
    split at h
    . next gate lease hok =>
      cases h
      obtain rfl | ⟨hopened, rfl⟩ := GateState.tryAcquireLease_cases hok
      . exact Move.refl _ _
      . exact .granted hopened rfl
    . cases h
      exact Move.refl _ _
  | releaseLease leaseId =>
    cases h
    exact .released leaseId rfl
  | beginReplacement =>
    dsimp only at h
    split at h
    . next gate epoch hok =>
      cases h
      obtain ⟨rfl, rfl⟩ := GateState.beginReplacement_eq_ok hok
      exact .began rfl
    . cases h
      exact Move.refl _ _
  | acquireExclusive epoch =>
    dsimp only at h
    split at h
    . next hmem =>
      split at h
      . next hok =>
        cases h
        obtain ⟨⟨_, hclosed⟩, hempty⟩ := GateState.activeIsEmpty_eq_ok.mp hok
        refine .handles rfl (fun _ he => he) ?_
        intro epoch' he
        obtain rfl | he := List.mem_cons.mp he
        . exact Or.inr ⟨hmem, hclosed, hempty⟩
        . exact Or.inl he
      . cases h
        exact Move.refl _ _
      . cases h
        exact Move.refl _ _
    . cases h
  | dropAttempt epoch =>
    dsimp only at h
    split at h
    . cases h
      exact .handles rfl (fun _ he => List.mem_of_mem_erase he) fun _ he => Or.inl he
    . cases h
  | openGate epoch =>
    dsimp only at h
    split at h
    . split at h
      . next gate hok =>
        cases h
        exact .opened epoch hok rfl rfl
      . cases h
        exact .handles rfl (fun _ he => he) fun _ he => Or.inl (List.mem_of_mem_erase he)
    . cases h
  | dropExclusive epoch =>
    dsimp only at h
    split at h
    . cases h
      exact .handles rfl (fun _ he => he) fun _ he => Or.inl (List.mem_of_mem_erase he)
    . cases h

structure Fenced (state : ReplacementSystem) : Prop where
  available : state.gate.controlAvailable = true
  issued : ∀ epoch ∈ state.attempts ++ state.exclusives, epoch < state.gate.nextEpoch
  closed : ∀ epoch, state.gate.admission = .closed epoch → epoch < state.gate.nextEpoch
  leases : ∀ (id : Nat) (cancelled : Bool), state.gate.activeLeases[id]? = some cancelled →
    id < state.gate.nextLeaseId
  drained : ∀ epoch ∈ state.exclusives, state.gate.admission = .closed epoch →
    state.gate.activeLeases.isEmpty = true

theorem Fenced.new : ReplacementSystem.new.Fenced where
  available := rfl
  issued := fun _ h => nomatch h
  closed := fun _ h => nomatch h
  leases := by
    intro id cancelled h
    change (∅ : Map Nat Bool)[id]? = some cancelled at h
    simp at h
  drained := fun _ h => nomatch h

variable {m : Map Nat Bool} {floor epoch : Nat}

theorem isEmpty_mapEntries (h : m.isEmpty = true) :
    (Map.mapEntries m fun _ _ => some true).isEmpty = true := by
  rw [Map.isEmpty_iff_forall] at h ⊢
  intro id
  rw [Map.get_mapEntries, h id]
  rfl

theorem isEmpty_erase (h : m.isEmpty = true) (id : Nat) : (m.erase id).isEmpty = true := by
  rw [Map.isEmpty_iff_forall] at h ⊢
  intro id'
  rw [Map.get_erase, h id']
  split
  . rfl
  . rfl

theorem Fenced.step (h : state.Fenced) (hstep : state.step event = some next) : next.Fenced := by
  cases step_move hstep with
  | handles gate attempts exclusives =>
    constructor
    case available => rw [gate]; exact h.available
    case issued =>
      intro epoch hepoch
      rw [gate]
      apply h.issued
      rw [List.mem_append] at hepoch ⊢
      obtain hepoch | hepoch := hepoch
      . exact Or.inl (attempts epoch hepoch)
      . obtain hold | ⟨hattempt, _⟩ := exclusives epoch hepoch
        . exact Or.inr hold
        . exact Or.inl hattempt
    case closed => rw [gate]; exact h.closed
    case leases => rw [gate]; exact h.leases
    case drained =>
      intro epoch hepoch
      rw [gate]
      obtain hold | ⟨_, _, hempty⟩ := exclusives epoch hepoch
      . exact h.drained epoch hold
      . exact fun _ => hempty
  | granted opened move =>
    subst move
    refine ⟨h.available, h.issued, h.closed, ?_, ?_⟩
    . intro id cancelled hlease
      dsimp only at hlease ⊢
      rw [Map.get_insert] at hlease
      split at hlease
      . next heq => omega
      . exact Nat.lt_succ_of_lt (h.leases id cancelled hlease)
    . intro epoch _ hclosed
      rw [opened] at hclosed
      cases hclosed
  | released leaseId move =>
    subst move
    refine ⟨h.available, h.issued, h.closed, ?_, ?_⟩
    . intro id cancelled hlease
      unfold GateState.release at hlease
      rw [Map.get_erase] at hlease
      split at hlease
      . cases hlease
      . exact h.leases id cancelled hlease
    . intro epoch hepoch hclosed
      exact isEmpty_erase (h.drained epoch hepoch hclosed) leaseId
  | began move =>
    subst move
    constructor
    case available => exact h.available
    case issued =>
      intro epoch hepoch
      rw [List.cons_append, List.mem_cons] at hepoch
      obtain rfl | hepoch := hepoch
      . exact Nat.lt_succ_self _
      . exact Nat.lt_succ_of_lt (h.issued epoch hepoch)
    case closed =>
      intro epoch hclosed
      cases hclosed
      exact Nat.lt_succ_self _
    case leases =>
      intro id cancelled hlease
      rw [Map.get_mapEntries, Option.bind_eq_some_iff] at hlease
      obtain ⟨flag, hflag, _⟩ := hlease
      exact h.leases id flag hflag
    case drained =>
      intro epoch hepoch hclosed
      cases hclosed
      exact absurd (h.issued _ (List.mem_append_right _ hepoch)) (Nat.lt_irrefl _)
  | opened epoch gate attempts exclusives =>
    obtain ⟨_, _, hgate⟩ := GateState.openAdmission_eq_ok.mp gate
    constructor
    case available => rw [hgate]; exact h.available
    case issued =>
      intro epoch' hepoch
      rw [hgate]
      apply h.issued
      rw [attempts, exclusives, List.mem_append] at hepoch
      exact List.mem_append.mpr (hepoch.imp id List.mem_of_mem_erase)
    case closed =>
      intro epoch' hclosed
      rw [hgate] at hclosed
      cases hclosed
    case leases => rw [hgate]; exact h.leases
    case drained =>
      intro epoch' _ hclosed
      rw [hgate] at hclosed
      cases hclosed

theorem Fenced.run (h : state.Fenced) {events : List ReplacementEvent}
    (hrun : Data.run ReplacementSystem.step state events = some reached) : reached.Fenced :=
  run.invariant (fun _ _ _ hs hstep => hs.step hstep) h hrun

def Sealed (state : ReplacementSystem) : Prop :=
  (∃ epoch, state.gate.admission = .closed epoch) ∧ state.gate.activeLeases.isEmpty = true

def KeepsShut (state : ReplacementSystem) (event : ReplacementEvent) : Prop :=
  ∀ epoch gate, event = .openGate epoch → state.gate.openAdmission epoch ≠ .ok gate

theorem Sealed.step (h : state.Sealed) (hguard : state.KeepsShut event)
    (hstep : state.step event = some next) : next.Sealed := by
  obtain ⟨⟨epoch, hclosed⟩, hempty⟩ := h
  cases step_move hstep with
  | handles gate attempts exclusives =>
    unfold Sealed
    rw [gate]
    exact ⟨⟨epoch, hclosed⟩, hempty⟩
  | granted opened move =>
    rw [hclosed] at opened
    cases opened
  | released leaseId move =>
    subst move
    exact ⟨⟨epoch, hclosed⟩, isEmpty_erase hempty leaseId⟩
  | began move =>
    subst move
    exact ⟨⟨_, rfl⟩, isEmpty_mapEntries hempty⟩
  | opened epoch' gate attempts exclusives => exact absurd gate (hguard epoch' _ rfl)

structure Past (floor : Nat) (state : ReplacementSystem) : Prop where
  closed : ∀ epoch, state.gate.admission = .closed epoch → floor ≤ epoch
  next : floor ≤ state.gate.nextEpoch

theorem Past.step (h : Past floor state) (hstep : state.step event = some next) :
    Past floor next := by
  cases step_move hstep with
  | handles gate attempts exclusives => exact ⟨by rw [gate]; exact h.closed, by rw [gate]; exact h.next⟩
  | granted opened move =>
    subst move
    exact ⟨h.closed, h.next⟩
  | released leaseId move =>
    subst move
    exact ⟨h.closed, h.next⟩
  | began move =>
    subst move
    refine ⟨?_, Nat.le_succ_of_le h.next⟩
    intro epoch hclosed
    cases hclosed
    exact h.next
  | opened epoch gate attempts exclusives =>
    obtain ⟨_, _, hgate⟩ := GateState.openAdmission_eq_ok.mp gate
    refine ⟨?_, by rw [hgate]; exact h.next⟩
    intro epoch' hclosed
    rw [hgate] at hclosed
    cases hclosed

structure Cancelled (bound : Nat) (state : ReplacementSystem) : Prop where
  flags : ∀ (id : Nat) (cancelled : Bool), id < bound →
    state.gate.activeLeases[id]? = some cancelled → cancelled = true
  next : bound ≤ state.gate.nextLeaseId

theorem Cancelled.step {bound : Nat} (h : Cancelled bound state) (hstep : state.step event = some next) :
    Cancelled bound next := by
  cases step_move hstep with
  | handles gate attempts exclusives => exact ⟨by rw [gate]; exact h.flags, by rw [gate]; exact h.next⟩
  | granted opened move =>
    subst move
    refine ⟨?_, Nat.le_succ_of_le h.next⟩
    intro id cancelled hid hlease
    have hnext := h.next
    rw [Map.get_insert_of_ne _ _ (by omega)] at hlease
    exact h.flags id cancelled hid hlease
  | released leaseId move =>
    subst move
    refine ⟨?_, h.next⟩
    intro id cancelled hid hlease
    unfold GateState.release at hlease
    rw [Map.get_erase] at hlease
    split at hlease
    . cases hlease
    . exact h.flags id cancelled hid hlease
  | began move =>
    subst move
    refine ⟨?_, h.next⟩
    intro id cancelled _ hlease
    rw [Map.get_mapEntries, Option.bind_eq_some_iff] at hlease
    obtain ⟨_, _, hflag⟩ := hlease
    exact (Option.some.inj hflag).symm
  | opened epoch gate attempts exclusives =>
    obtain ⟨_, _, hgate⟩ := GateState.openAdmission_eq_ok.mp gate
    exact ⟨by rw [hgate]; exact h.flags, by rw [hgate]; exact h.next⟩

theorem begin_past (hbegin : state.gate.beginReplacement = .ok (gate, epoch))
    (hstep : state.step .beginReplacement = some next) :
    next.gate = gate ∧ Past state.gate.nextEpoch next ∧ Cancelled state.gate.nextLeaseId next := by
  unfold ReplacementSystem.step at hstep
  rw [hbegin] at hstep
  cases hstep
  obtain ⟨rfl, rfl⟩ := GateState.beginReplacement_eq_ok hbegin
  refine ⟨rfl, ⟨?_, Nat.le_succ _⟩, ⟨?_, Nat.le_refl _⟩⟩
  . intro epoch hclosed
    cases hclosed
    exact Nat.le_refl _
  . intro id cancelled _ hlease
    rw [Map.get_mapEntries, Option.bind_eq_some_iff] at hlease
    obtain ⟨_, _, hflag⟩ := hlease
    exact (Option.some.inj hflag).symm

theorem Past.refused (h : Past floor state) (hepoch : epoch < floor) :
    (∀ u, state.gate.ensureCurrentAttempt epoch ≠ .ok u) ∧
      (∀ empty, state.gate.activeIsEmpty epoch ≠ .ok empty) ∧
      (∀ gate, state.gate.openAdmission epoch ≠ .ok gate) := by
  have hne : state.gate.admission ≠ .closed epoch := by
    intro hclosed
    have := h.closed epoch hclosed
    omega
  refine ⟨?_, ?_, ?_⟩
  . intro u hok
    exact hne (GateState.ensureCurrentAttempt_eq_ok.mp hok).2
  . intro empty hok
    exact hne (GateState.activeIsEmpty_eq_ok.mp hok).1.2
  . intro gate hok
    exact hne (GateState.openAdmission_eq_ok.mp hok).2.1.1

/--
Along every interleaving: from a state with a current capability on, no lease is active and none is granted
until the gate opens; once a replacement begins, the handles of earlier ones are refused for good, and the
leases that were active are cancelled.
-/
theorem replacement_exclusion {events : List ReplacementEvent}
    (hrun : run ReplacementSystem.step ReplacementSystem.new events = some state) :
    (∀ epoch ∈ state.exclusives, state.gate.ensureCurrentAttempt epoch = .ok () →
      ∀ later reached, run ReplacementSystem.step state later = some reached →
        (∀ done epoch rest middle gate, later = done ++ .openGate epoch :: rest →
          run ReplacementSystem.step state done = some middle →
          middle.gate.openAdmission epoch ≠ .ok gate) →
        reached.gate.activeLeases.isEmpty = true ∧
          reached.gate.tryAcquireLease = .ok (reached.gate, none)) ∧
      ∀ gate epoch next, state.gate.beginReplacement = .ok (gate, epoch) →
        state.step .beginReplacement = some next →
        (∀ id : Nat, next.gate.activeLeases[id]? = (state.gate.activeLeases[id]?).map fun _ => true) ∧
        ∀ later reached, run ReplacementSystem.step next later = some reached →
          (∀ superseded ∈ state.attempts ++ state.exclusives,
            (∀ u, reached.gate.ensureCurrentAttempt superseded ≠ .ok u) ∧
            (∀ empty, reached.gate.activeIsEmpty superseded ≠ .ok empty) ∧
            ∀ gate, reached.gate.openAdmission superseded ≠ .ok gate) ∧
          ∀ (id : Nat) (cancelled before : Bool), state.gate.activeLeases[id]? = some before →
            reached.gate.activeLeases[id]? = some cancelled → cancelled = true := by
  have hfenced := Fenced.new.run hrun
  refine ⟨?_, ?_⟩
  . intro epoch hepoch hcurrent later reached hlater hunopened
    have hclosed := (GateState.ensureCurrentAttempt_eq_ok.mp hcurrent).2
    have hsealed : state.Sealed := ⟨⟨epoch, hclosed⟩, hfenced.drained epoch hepoch hclosed⟩
    have hreached : reached.Sealed := by
      apply run.invariant_of_guard (fun _ _ _ hs hguard hstep => Sealed.step hs hguard hstep) hsealed _ hlater
      intro done event rest middle heq hmiddle epoch' gate hevent
      subst hevent
      exact hunopened done epoch' rest middle gate heq hmiddle
    obtain ⟨⟨epoch', hclosed'⟩, hempty⟩ := hreached
    exact ⟨hempty, GateState.tryAcquireLease_of_closed (hfenced.run hlater).available hclosed'⟩
  . intro gate epoch next hbegin hstep
    obtain ⟨hgate, hpast, hcancelled⟩ := begin_past hbegin hstep
    refine ⟨?_, ?_⟩
    . intro id
      rw [hgate, (GateState.beginReplacement_eq_ok hbegin).2, Map.get_mapEntries]
      cases state.gate.activeLeases[id]? with
      | none => rfl
      | some flag => rfl
    . intro later reached hlater
      have hpast' := run.invariant (fun _ _ _ hs hstep => Past.step hs hstep) hpast hlater
      have hcancelled' := run.invariant (fun _ _ _ hs hstep => Cancelled.step hs hstep) hcancelled hlater
      refine ⟨fun superseded hmem => hpast'.refused (hfenced.issued superseded hmem), ?_⟩
      intro id cancelled before hactive hlease
      exact hcancelled'.flags id cancelled (hfenced.leases id before hactive) hlease

def drainedEvents : List ReplacementEvent :=
  [.acquireLease, .beginReplacement, .acquireExclusive 1, .releaseLease 1, .acquireExclusive 1]

theorem replacement_exclusion_drained :
    ∃ state, run ReplacementSystem.step ReplacementSystem.new drainedEvents = some state ∧
      state.exclusives = [1] ∧ state.gate.ensureCurrentAttempt 1 = .ok () ∧
      state.gate.tryAcquireLease = .ok (state.gate, none) := by
  have hobserved : (run ReplacementSystem.step ReplacementSystem.new drainedEvents).map (fun state =>
      (state.exclusives, state.gate.ensureCurrentAttempt 1)) = some ([1], .ok ()) := by
    decide +kernel
  obtain ⟨state, hrun, hstate⟩ := Option.map_eq_some_iff.mp hobserved
  have hexclusives : state.exclusives = [1] := congrArg Prod.fst hstate
  have hcurrent : state.gate.ensureCurrentAttempt 1 = .ok () := congrArg Prod.snd hstate
  have hfirst := (replacement_exclusion hrun).1 1 (by rw [hexclusives]; exact List.mem_cons_self) hcurrent
    [] state rfl (by
      intro done epoch rest middle gate heq
      cases done with
      | nil => cases heq
      | cons event done => cases heq)
  exact ⟨state, hrun, hexclusives, hcurrent, hfirst.2⟩

end ReplacementSystem

end Kgi
