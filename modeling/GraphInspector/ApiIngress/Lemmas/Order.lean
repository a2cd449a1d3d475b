import GraphInspector.ApiIngress.Lemmas.Locks

/-!
What enters the graph-update channel, and in which order.
-/

namespace Kgi

open Data

def GraphUpdate.isOrdinary : GraphUpdate → Bool
  | .catchup => false
  | .blockCommitted _ => true
  | .vspcCommitted _ => true
  | .live => false

namespace IngressEvent

def receivedValue : IngressEvent → Option QueuedUpdate
  | .received _ value => some value
  | _ => none

def offeredTicket : IngressEvent → Option Nat
  | .offered ticket _ => some ticket
  | _ => none

end IngressEvent

namespace GraphUpdateIngress

variable {value : QueuedUpdate}

def receivedValues (ingress : GraphUpdateIngress) : List QueuedUpdate :=
  ingress.trace.filterMap IngressEvent.receivedValue

def offeredTickets (ingress : GraphUpdateIngress) : List Nat :=
  ingress.trace.filterMap IngressEvent.offeredTicket

def accepted (ingress : GraphUpdateIngress) : List QueuedUpdate :=
  ingress.receivedValues ++ ingress.channel.items

structure InFlight (ingress : GraphUpdateIngress) (ticket : Nat) (update : GraphUpdate) : Prop where
  latest : ticket + 1 = ingress.nextTicket
  ordinary : update.isOrdinary = true
  offered : .offered ticket update ∈ ingress.trace
  fresh : ∀ earlier ∈ ingress.accepted.filterMap QueuedUpdate.ticket, earlier < ticket

def TaskOrdered (ingress : GraphUpdateIngress) : ProducerTask → Prop
  | .offering ticket update => ingress.InFlight ticket update
  | .sending ⟨some ticket, update⟩ => ingress.InFlight ticket update ∧ ingress.gate = .opened
  | .sending ⟨none, update⟩ =>
    update = .catchup ∧ ingress.gate = .awaitingCatchup ∧ ingress.accepted = []
  | .recording ⟨some _, update⟩ => update.isOrdinary = true ∧ ingress.gate = .opened
  | .recording ⟨none, update⟩ =>
    (update = .catchup ∧ ingress.gate = .awaitingCatchup ∧ ingress.accepted ≠ []) ∨
      (update = .live ∧ ingress.gate = .opened)
  | .lost ticket => ingress.gate = .opened ∧ ticket + 1 = ingress.nextTicket
  | .reporting ticket _ => ingress.gate = .opened ∧ ticket + 1 = ingress.nextTicket
  | .awaitingPermit => ingress.gate = .opened
  | .reserved => ingress.gate = .opened
  | .panicked _ => True

def ValueOrdered (ingress : GraphUpdateIngress) (value : QueuedUpdate) : Prop :=
  match value.ticket with
  | some ticket => value.update.isOrdinary = true ∧ .offered ticket value.update ∈ ingress.trace
  | none => value.update = .catchup ∨ value.update = .live

structure Ordered (ingress : GraphUpdateIngress) : Prop where
  tasks : ∀ (producer : Nat) (task : ProducerTask), ingress.producers[producer]? = some task →
    ingress.TaskOrdered task
  first : ∀ value rest, ingress.accepted = value :: rest → value.update = .catchup
  empty : ingress.gate = .awaitingCatchup → ingress.accepted = [] ∨
    ∃ producer : Nat, ingress.producers[producer]? = some (.recording ⟨none, .catchup⟩)
  opened : ingress.gate = .opened → ingress.channelState.receiverClosed = false →
    ingress.accepted ≠ []
  values : ∀ value ∈ ingress.accepted, ingress.ValueOrdered value
  increasing : (ingress.accepted.filterMap QueuedUpdate.ticket).Pairwise (· < ·)
  issued : ingress.offeredTickets = List.range ingress.nextTicket
  failed : .catchupFailed ∈ ingress.trace →
    ingress.gate = .awaitingCatchup ∧ ingress.channelState.receiverClosed = true

variable {ingress next : GraphUpdateIngress} {producer : Nat} {task : ProducerTask}

theorem Ordered.new : GraphUpdateIngress.new.Ordered := by
  constructor
  case tasks => intro producer task h; simp [GraphUpdateIngress.new] at h
  case first => intro value rest h; cases h
  case empty => intro _; exact Or.inl rfl
  case opened => intro h; cases h
  case values => intro value h; cases h
  case increasing => exact List.Pairwise.nil
  case issued => rfl
  case failed => intro h; cases h

theorem Ordered.ticket_lt (h : ingress.Ordered) {ticket : Nat} {update : GraphUpdate}
    (hoffered : .offered ticket update ∈ ingress.trace) : ticket < ingress.nextTicket := by
  have hmem : ticket ∈ ingress.offeredTickets := List.mem_filterMap.mpr ⟨_, hoffered, rfl⟩
  rw [h.issued] at hmem
  exact List.mem_range.mp hmem

theorem Ordered.accepted_ticket_lt (h : ingress.Ordered) {ticket : Nat}
    (hmem : ticket ∈ ingress.accepted.filterMap QueuedUpdate.ticket) : ticket < ingress.nextTicket := by
  rw [List.mem_filterMap] at hmem
  obtain ⟨value, hvalue, hticket⟩ := hmem
  have := h.values value hvalue
  unfold ValueOrdered at this
  rw [hticket] at this
  exact h.ticket_lt this.2

theorem TaskOrdered.of_not_holdsGate (h : ingress.TaskOrdered task) (hgate : task.holdsGate = false)
    (hopen : ingress.gate = .opened → next.gate = .opened) : next.TaskOrdered task := by
  cases task with
  | offering ticket update => cases hgate
  | sending value => cases hgate
  | recording value =>
    obtain ⟨ticket, update⟩ := value
    cases ticket with
    | some ticket => exact ⟨h.1, hopen h.2⟩
    | none =>
      obtain ⟨rfl, _⟩ | ⟨rfl, hopened⟩ := h
      . cases hgate
      . exact Or.inr ⟨rfl, hopen hopened⟩
  | lost ticket => cases hgate
  | reporting ticket generation => cases hgate
  | awaitingPermit => exact hopen h
  | reserved => exact hopen h
  | panicked message => trivial

structure Keeps (ingress next : GraphUpdateIngress) : Prop where
  gate : next.gate = ingress.gate
  nextTicket : next.nextTicket = ingress.nextTicket
  accepted : next.accepted = ingress.accepted
  trace : ∀ event ∈ ingress.trace, event ∈ next.trace
  issued : next.offeredTickets = ingress.offeredTickets
  failed : .catchupFailed ∈ next.trace → .catchupFailed ∈ ingress.trace ∨
    (ingress.gate = .awaitingCatchup ∧ ingress.channelState.receiverClosed = true)
  closed : ingress.channelState.receiverClosed = true → next.channelState.receiverClosed = true

theorem TaskOrdered.transfer (h : ingress.TaskOrdered task) (hgate : next.gate = ingress.gate)
    (hticket : next.nextTicket = ingress.nextTicket)
    (htrace : ∀ event ∈ ingress.trace, event ∈ next.trace)
    (htickets : next.accepted.filterMap QueuedUpdate.ticket
      = ingress.accepted.filterMap QueuedUpdate.ticket)
    (haccepted : ingress.gate = .awaitingCatchup → next.accepted = ingress.accepted) :
    next.TaskOrdered task := by
  have hflight : ∀ {ticket update}, ingress.InFlight ticket update → next.InFlight ticket update := by
    intro ticket update h
    refine ⟨h.latest.trans hticket.symm, h.ordinary, htrace _ h.offered, ?_⟩
    rw [htickets]
    exact h.fresh
  cases task with
  | offering ticket update => exact hflight h
  | sending value =>
    obtain ⟨ticket, update⟩ := value
    cases ticket with
    | some ticket => exact ⟨hflight h.1, hgate.trans h.2⟩
    | none => exact ⟨h.1, hgate.trans h.2.1, (haccepted h.2.1).trans h.2.2⟩
  | recording value =>
    obtain ⟨ticket, update⟩ := value
    cases ticket with
    | some ticket => exact ⟨h.1, hgate.trans h.2⟩
    | none =>
      obtain ⟨hupdate, hawaiting, hne⟩ | ⟨hupdate, hopened⟩ := h
      . refine Or.inl ⟨hupdate, hgate.trans hawaiting, ?_⟩
        rw [haccepted hawaiting]
        exact hne
      . exact Or.inr ⟨hupdate, hgate.trans hopened⟩
  | lost ticket => exact ⟨hgate.trans h.1, h.2.trans hticket.symm⟩
  | reporting ticket generation => exact ⟨hgate.trans h.1, h.2.trans hticket.symm⟩
  | awaitingPermit => exact hgate.trans h
  | reserved => exact hgate.trans h
  | panicked message => trivial

theorem Keeps.taskOrdered (h : ingress.Keeps next) (htask : ingress.TaskOrdered task) :
    next.TaskOrdered task :=
  htask.transfer h.gate h.nextTicket h.trace (by rw [h.accepted]) fun _ => h.accepted

theorem ValueOrdered.of_trace (htrace : ∀ event ∈ ingress.trace, event ∈ next.trace)
    (h : ingress.ValueOrdered value) :
    next.ValueOrdered value := by
  unfold ValueOrdered at h ⊢
  split
  . next ticket hticket =>
    rw [hticket] at h
    exact ⟨h.1, htrace _ h.2⟩
  . next hticket =>
    rw [hticket] at h
    exact h

theorem Ordered.keep (h : ingress.Ordered) (hkeeps : ingress.Keeps next)
    (htasks : ∀ (q : Nat) (other : ProducerTask), next.producers[q]? = some other →
      ingress.producers[q]? = some other ∨ next.TaskOrdered other)
    (hcatchup : ∀ q : Nat, ingress.producers[q]? = some (.recording ⟨none, .catchup⟩) →
      next.producers[q]? = some (.recording ⟨none, .catchup⟩)) : next.Ordered := by
  constructor
  case tasks =>
    intro q other hget
    obtain hget | hother := htasks q other hget
    . exact hkeeps.taskOrdered (h.tasks q other hget)
    . exact hother
  case first =>
    rw [hkeeps.accepted]
    exact h.first
  case empty =>
    intro hgate
    rw [hkeeps.accepted]
    obtain hempty | ⟨q, hget⟩ := h.empty (hkeeps.gate.symm.trans hgate)
    . exact Or.inl hempty
    . exact Or.inr ⟨q, hcatchup q hget⟩
  case opened =>
    intro hgate hopen
    rw [hkeeps.accepted]
    apply h.opened (hkeeps.gate.symm.trans hgate)
    cases hclosed : ingress.channelState.receiverClosed with
    | false => rfl
    | true =>
      rw [hkeeps.closed hclosed] at hopen
      cases hopen
  case values =>
    rw [hkeeps.accepted]
    intro value hmem
    exact (h.values value hmem).of_trace hkeeps.trace
  case increasing =>
    rw [hkeeps.accepted]
    exact h.increasing
  case issued => rw [hkeeps.issued, hkeeps.nextTicket, h.issued]
  case failed =>
    intro hfailed
    have hbefore : ingress.gate = .awaitingCatchup ∧ ingress.channelState.receiverClosed = true := by
      obtain hfailed | hnow := hkeeps.failed hfailed
      . exact h.failed hfailed
      . exact hnow
    exact ⟨hkeeps.gate.trans hbefore.1, hkeeps.closed hbefore.2⟩

section Producer

theorem Keeps.of_eq (hgate : next.gate = ingress.gate) (hticket : next.nextTicket = ingress.nextTicket)
    (hitems : next.channel.items = ingress.channel.items) (htrace : next.trace = ingress.trace)
    (hclosed : next.channelState.receiverClosed = ingress.channelState.receiverClosed) :
    ingress.Keeps next where
  gate := hgate
  nextTicket := hticket
  accepted := by
    unfold GraphUpdateIngress.accepted receivedValues
    rw [hitems, htrace]
  trace := by
    rw [htrace]
    exact fun _ h => h
  issued := by
    unfold offeredTickets
    rw [htrace]
  failed := by
    rw [htrace]
    exact Or.inl
  closed := by
    rw [hclosed]
    exact fun h => h

theorem Ordered.setTask (h : ingress.Ordered) (producer : Nat) (task : ProducerTask)
    (hkeeps : ingress.Keeps next)
    (hproducers : next.producers = (ingress.setTask producer task).producers)
    (htask : next.TaskOrdered task)
    (hold : ingress.producers[producer]? ≠ some (.recording ⟨none, .catchup⟩)) : next.Ordered := by
  apply h.keep hkeeps
  . intro q other hget
    rw [hproducers, get_setTask] at hget
    split at hget
    . cases hget
      exact Or.inr htask
    . exact Or.inl hget
  . intro q hget
    rw [hproducers, get_setTask, if_neg]
    . exact hget
    . rintro rfl
      exact hold hget

theorem Ordered.finish (h : ingress.Ordered) (producer : Nat) (hkeeps : ingress.Keeps next)
    (hproducers : next.producers = (ingress.finish producer).producers)
    (hold : ingress.producers[producer]? ≠ some (.recording ⟨none, .catchup⟩)) : next.Ordered := by
  apply h.keep hkeeps
  . intro q other hget
    rw [hproducers, get_finish] at hget
    split at hget
    . cases hget
    . exact Or.inl hget
  . intro q hget
    rw [hproducers, get_finish, if_neg]
    . exact hget
    . rintro rfl
      exact hold hget

variable {event : IngressEvent} {channel : Channel graphUpdateChannelCapacity Nat QueuedUpdate}

theorem accepted_of_log (htrace : next.trace = ingress.trace ++ [event])
    (hreceived : event.receivedValue = none) (hitems : next.channel.items = ingress.channel.items) :
    next.accepted = ingress.accepted := by
  unfold accepted receivedValues
  rw [htrace, hitems, List.filterMap_append, List.filterMap_cons, hreceived]
  simp

theorem Ordered.offerOrdinary {update : GraphUpdate} (h : ingress.Ordered) (hlocked : ingress.Locked)
    (hupdate : update.isOrdinary = true)
    (hstep : ingress.offerOrdinary producer update = some next) : next.Ordered := by
  unfold GraphUpdateIngress.offerOrdinary at hstep
  split at hstep
  . next hfree =>
    cases hstep
    rw [idleProducer_iff] at hfree
    have htrace : ∀ event ∈ ingress.trace,
        event ∈ ingress.trace ++ [IngressEvent.offered ingress.nextTicket update] := by
      intro event hmem
      exact List.mem_append_left _ hmem
    have haccepted : GraphUpdateIngress.accepted { (((ingress.lockGate producer).setTask producer
          (.offering ingress.nextTicket update)).log (.offered ingress.nextTicket update)) with
          nextTicket := ingress.nextTicket + 1 } = ingress.accepted :=
      accepted_of_log rfl rfl rfl
    constructor
    case tasks =>
      intro q other hget
      have hget : ((ingress.lockGate producer).setTask producer
          (.offering ingress.nextTicket update)).producers[q]? = some other := hget
      rw [get_setTask] at hget
      split at hget
      . cases hget
        refine ⟨rfl, hupdate, List.mem_append_right _ List.mem_cons_self, ?_⟩
        rw [haccepted]
        exact fun earlier hmem => h.accepted_ticket_lt hmem
      . exact (h.tasks q other hget).of_not_holdsGate (hlocked.holdsGate_eq_false hfree.2 hget)
          fun hopen => hopen
    case first =>
      rw [haccepted]
      exact h.first
    case empty =>
      intro hgate
      rw [haccepted]
      obtain hempty | ⟨q, hget⟩ := h.empty hgate
      . exact Or.inl hempty
      . have := hlocked.holdsGate_eq_false hfree.2 hget
        cases this
    case opened =>
      rw [haccepted]
      exact h.opened
    case values =>
      rw [haccepted]
      intro value hmem
      exact (h.values value hmem).of_trace htrace
    case increasing =>
      rw [haccepted]
      exact h.increasing
    case issued =>
      unfold offeredTickets log
      rw [List.filterMap_append, List.range_succ]
      congr 1
      exact h.issued
    case failed =>
      intro hfailed
      apply h.failed
      have hfailed : IngressEvent.catchupFailed ∈
          ingress.trace ++ [.offered ingress.nextTicket update] := hfailed
      simpa using hfailed
  . cases hstep

theorem Ordered.publishCatchup (h : ingress.Ordered) (hlocked : ingress.Locked)
    (hstep : ingress.publishCatchup producer = some next) : next.Ordered := by
  unfold GraphUpdateIngress.publishCatchup at hstep
  split at hstep
  . next hfree =>
    rw [idleProducer_iff] at hfree
    split at hstep
    . next hgate =>
      cases hstep
      apply h.setTask producer (.sending ⟨none, .catchup⟩)
      . exact Keeps.of_eq rfl rfl rfl rfl rfl
      . rfl
      . refine ⟨rfl, hgate, ?_⟩
        obtain hempty | ⟨q, hget⟩ := h.empty hgate
        . exact hempty
        . have := hlocked.holdsGate_eq_false hfree.2 hget
          cases this
      . rw [hfree.1.2]
        simp
    . cases hstep
      apply h.setTask producer
      . exact Keeps.of_eq rfl rfl rfl rfl rfl
      . rfl
      . trivial
      . rw [hfree.1.2]
        simp
  . cases hstep

theorem Ordered.publishLive (h : ingress.Ordered)
    (hstep : ingress.publishLive producer = some next) : next.Ordered := by
  unfold GraphUpdateIngress.publishLive at hstep
  split at hstep
  . next hfree =>
    rw [idleProducer_iff] at hfree
    split at hstep
    . next hgate =>
      cases hstep
      apply h.setTask producer .awaitingPermit
      . exact Keeps.of_eq rfl rfl rfl rfl rfl
      . rfl
      . exact hgate
      . rw [hfree.1.2]
        simp
    . cases hstep
      apply h.setTask producer
      . exact Keeps.of_eq rfl rfl rfl rfl rfl
      . rfl
      . trivial
      . rw [hfree.1.2]
        simp
  . cases hstep

theorem Keeps.of_log (hreceived : event.receivedValue = none)
    (hoffered : event.offeredTicket = none)
    (hfailed : event = .catchupFailed → ingress.gate = .awaitingCatchup ∧
      ingress.channelState.receiverClosed = true) (hgate : next.gate = ingress.gate)
    (hticket : next.nextTicket = ingress.nextTicket)
    (hitems : next.channel.items = ingress.channel.items)
    (htrace : next.trace = ingress.trace ++ [event])
    (hclosed : next.channelState.receiverClosed = ingress.channelState.receiverClosed) :
    ingress.Keeps next where
  gate := hgate
  nextTicket := hticket
  accepted := accepted_of_log htrace hreceived hitems
  trace := by
    rw [htrace]
    exact fun _ h => List.mem_append_left _ h
  issued := by
    unfold offeredTickets
    rw [htrace, List.filterMap_append, List.filterMap_cons, hoffered]
    simp
  failed := by
    rw [htrace, List.mem_append, List.mem_singleton]
    rintro (h | h)
    . exact Or.inl h
    . exact Or.inr (hfailed h.symm)
  closed := by
    rw [hclosed]
    exact fun h => h

theorem accepted_enqueued (producer : Nat)
    (hitems : channel.items = ingress.channel.items ++ [value]) :
    (ingress.enqueued producer value channel).accepted = ingress.accepted ++ [value] := by
  unfold accepted receivedValues enqueued
  rw [hitems, List.append_assoc]
  rfl

variable (h : ingress.Ordered)
include h

theorem Ordered.push (hitems : channel.items = ingress.channel.items ++ [value])
    (hcatchup : ingress.gate = .awaitingCatchup → value = ⟨none, .catchup⟩)
    (hfirst : ingress.accepted = [] → value.update = .catchup)
    (hvalue : ingress.ValueOrdered value)
    (hlater : ∀ ticket, value.ticket = some ticket →
      ∀ earlier ∈ ingress.accepted.filterMap QueuedUpdate.ticket, earlier < ticket)
    (htask : (ingress.enqueued producer value channel).TaskOrdered (.recording value))
    (hothers : ∀ (q : Nat) (other : ProducerTask), q ≠ producer →
      ingress.producers[q]? = some other →
      (ingress.enqueued producer value channel).TaskOrdered other) :
    (ingress.enqueued producer value channel).Ordered := by
  have haccepted := accepted_enqueued producer hitems
  constructor
  case tasks =>
    intro q other hget
    have hget : (ingress.setTask producer (.recording value)).producers[q]? = some other := hget
    rw [get_setTask] at hget
    split at hget
    . cases hget
      exact htask
    . next hne => exact hothers q other (fun heq => hne heq.symm) hget
  case first =>
    intro first rest hrest
    rw [haccepted] at hrest
    cases hold : ingress.accepted with
    | nil =>
      rw [hold] at hrest
      cases hrest
      exact hfirst hold
    | cons head tail =>
      rw [hold] at hrest
      cases hrest
      exact h.first first tail hold
  case empty =>
    intro hawaiting
    refine Or.inr ⟨producer, ?_⟩
    have hget := get_setTask ingress producer producer (.recording value)
    rw [if_pos rfl] at hget
    rw [← hcatchup hawaiting]
    exact hget
  case opened =>
    intro _ _
    rw [haccepted]
    simp
  case values =>
    intro other hmem
    rw [haccepted, List.mem_append, List.mem_singleton] at hmem
    refine ValueOrdered.of_trace ?_ (?_ : ingress.ValueOrdered other)
    . exact fun _ h => h
    . obtain hmem | rfl := hmem
      . exact h.values other hmem
      . exact hvalue
  case increasing =>
    rw [haccepted, List.filterMap_append, List.pairwise_append]
    refine ⟨h.increasing, ?_, ?_⟩
    . cases hticket : value.ticket with
      | none => simp [hticket]
      | some ticket => simp [hticket]
    . intro earlier hearlier ticket hmem
      rw [List.mem_filterMap] at hmem
      obtain ⟨other, hother, hticket⟩ := hmem
      rw [List.mem_singleton] at hother
      subst hother
      exact hlater ticket hticket earlier hearlier
  case issued => exact h.issued
  case failed => exact h.failed

theorem Ordered.others_of_gate (hlocked : ingress.Locked)
    (hget : ingress.producers[producer]? = some task) (hholds : task.holdsGate = true)
    (hopen : ingress.gate = .opened → next.gate = .opened) (q : Nat) (other : ProducerTask)
    (hne : q ≠ producer) (hother : ingress.producers[q]? = some other) :
    next.TaskOrdered other := by
  apply (h.tasks q other hother).of_not_holdsGate _ hopen
  cases hgate : other.holdsGate with
  | false => rfl
  | true =>
    have hq := hlocked.gate q other hother hgate
    rw [hlocked.gate producer task hget hholds] at hq
    cases hq
    exact absurd rfl hne

theorem Ordered.receiverClosed (hget : ingress.producers[producer]? = some (.sending value))
    (hclosed : ingress.channelState.receiverClosed = true) :
    (ingress.receiverClosed producer value).Ordered := by
  have hold : ingress.producers[producer]? ≠ some (.recording ⟨none, .catchup⟩) := by
    rw [hget]
    simp
  unfold GraphUpdateIngress.receiverClosed
  split
  . next hupdate =>
    have hawaiting : ingress.gate = .awaitingCatchup := by
      have htask := h.tasks producer _ hget
      obtain ⟨ticket, update⟩ := value
      subst hupdate
      cases ticket with
      | some ticket => cases htask.1.ordinary
      | none => exact htask.2.1
    apply h.finish producer
    . exact Keeps.of_log rfl rfl (fun _ => ⟨hawaiting, hclosed⟩) rfl rfl rfl rfl rfl
    . rfl
    . exact hold
  . apply h.finish producer
    . exact Keeps.of_eq rfl rfl rfl rfl rfl
    . rfl
    . exact hold

theorem Ordered.trySend (hlocked : ingress.Locked)
    (hget : ingress.producers[producer]? = some (.sending value)) :
    (ingress.trySend producer value).Ordered := by
  have htask := h.tasks producer _ hget
  have hold : ingress.producers[producer]? ≠ some (.recording ⟨none, .catchup⟩) := by
    rw [hget]
    simp
  unfold GraphUpdateIngress.trySend
  split
  . next hclosed => exact h.receiverClosed hget hclosed
  . next hopen =>
    have hopen : ingress.channelState.receiverClosed = false := by simpa using hopen
    split
    . next channel hsend =>
      obtain ⟨hitems, -, -⟩ := Channel.trySend_eq_ok hsend
      have hothers : ∀ (q : Nat) (other : ProducerTask), q ≠ producer →
          ingress.producers[q]? = some other →
          (ingress.enqueued producer value channel).TaskOrdered other :=
        h.others_of_gate hlocked hget rfl fun hopened => hopened
      obtain ⟨ticket, update⟩ := value
      cases ticket with
      | some ticket =>
        obtain ⟨hflight, hopened⟩ := htask
        apply h.push hitems
        . intro hawaiting
          rw [hopened] at hawaiting
          cases hawaiting
        . intro hempty
          exact absurd hempty (h.opened hopened hopen)
        . exact ⟨hflight.ordinary, hflight.offered⟩
        . intro ticket' hticket
          cases hticket
          exact hflight.fresh
        . exact ⟨hflight.ordinary, hopened⟩
        . exact hothers
      | none =>
        obtain ⟨rfl, hawaiting, hempty⟩ := htask
        apply h.push hitems
        . exact fun _ => rfl
        . exact fun _ => rfl
        . exact Or.inl rfl
        . intro ticket hticket
          cases hticket
        . refine Or.inl ⟨rfl, hawaiting, ?_⟩
          rw [accepted_enqueued producer hitems]
          simp
        . exact hothers
    . next hsend =>
      have hclosed : ingress.channel.closed = true := Channel.trySend_eq_closed hsend
      rw [← hlocked.closed, hopen] at hclosed
      cases hclosed
    . obtain ⟨ticket, update⟩ := value
      cases ticket with
      | some ticket =>
        apply h.setTask producer (.lost ticket)
        . exact Keeps.of_log rfl rfl (by simp) rfl rfl rfl rfl rfl
        . rfl
        . exact ⟨htask.2, htask.1.latest⟩
        . exact hold
      | none =>
        apply h.setTask producer
        . exact Keeps.of_eq rfl rfl rfl rfl rfl
        . rfl
        . trivial
        . exact hold

theorem Ordered.recordSent (hlocked : ingress.Locked)
    (hget : ingress.producers[producer]? = some (.recording value)) :
    (ingress.recordSent producer value).Ordered := by
  obtain ⟨state, hstate, -, hclosed, -⟩ := hlocked.recordEnqueue_eq_ok
  have hopen := (hlocked.recording producer value hget).2
  have htask := h.tasks producer _ hget
  unfold GraphUpdateIngress.recordSent
  rw [hstate]
  by_cases hcatchup : value = ⟨none, .catchup⟩
  . -- Catchup was recorded under the gate, and the gate opens.
    subst hcatchup
    have hne : ingress.accepted ≠ [] := by
      obtain ⟨-, -, hne⟩ | ⟨hlive, -⟩ := htask
      . exact hne
      . cases hlive
    constructor
    case tasks =>
      intro q other hother
      have hother : (ingress.finish producer).producers[q]? = some other := hother
      rw [get_finish] at hother
      split at hother
      . cases hother
      . next hne' =>
        exact h.others_of_gate hlocked hget rfl (fun _ => rfl) q other (fun heq => hne' heq.symm) hother
    case first => exact h.first
    case empty =>
      intro hawaiting
      cases hawaiting
    case opened => exact fun _ _ => hne
    case values => exact h.values
    case increasing => exact h.increasing
    case issued => exact h.issued
    case failed =>
      intro hfailed
      have := (h.failed hfailed).2
      rw [hopen] at this
      cases this
  . have hnot : value.update ≠ .catchup := by
      obtain ⟨ticket, update⟩ := value
      cases ticket with
      | some ticket =>
        rintro rfl
        cases htask.1
      | none =>
        rintro rfl
        exact hcatchup rfl
    rw [if_neg hnot]
    apply h.finish producer
    . exact Keeps.of_eq rfl rfl rfl rfl hclosed
    . rfl
    . rw [hget, Ne, Option.some.injEq, ProducerTask.recording.injEq]
      exact hcatchup

theorem Ordered.advanceTask (hlocked : ingress.Locked)
    (hget : ingress.producers[producer]? = some task)
    (hstep : ingress.advanceTask producer task = some next) : next.Ordered := by
  have htask := h.tasks producer task hget
  cases task with
  | offering ticket update =>
    have hold : ingress.producers[producer]? ≠ some (.recording ⟨none, .catchup⟩) := by
      rw [hget]
      simp
    dsimp only [GraphUpdateIngress.advanceTask] at hstep
    split at hstep
    . cases hstep
      apply h.finish producer
      . exact Keeps.of_eq rfl rfl rfl rfl rfl
      . rfl
      . exact hold
    . next hopen =>
      cases hstep
      apply h.setTask producer (.sending ⟨some ticket, update⟩)
      . exact Keeps.of_eq rfl rfl rfl rfl rfl
      . rfl
      . refine ⟨⟨htask.latest, htask.ordinary, htask.offered, htask.fresh⟩, ?_⟩
        cases hgate : ingress.gate with
        | awaitingCatchup => exact absurd (Or.inr hgate) hopen
        | opened => exact hgate
      . exact hold
  | sending value =>
    dsimp only [GraphUpdateIngress.advanceTask] at hstep
    split at hstep
    . cases hstep
      exact h.trySend hlocked hget
    . cases hstep
  | recording value =>
    cases hstep
    exact h.recordSent hlocked hget
  | lost ticket =>
    have hold : ingress.producers[producer]? ≠ some (.recording ⟨none, .catchup⟩) := by
      rw [hget]
      simp
    dsimp only [GraphUpdateIngress.advanceTask] at hstep
    split at hstep
    . split at hstep
      . cases hstep
        apply h.setTask producer
        . exact Keeps.of_eq rfl rfl rfl rfl rfl
        . rfl
        . trivial
        . exact hold
      . next state generation hadvance =>
        cases hstep
        obtain ⟨-, -, hclosed, -⟩ := GraphUpdateChannelState.advanceGapGeneration_eq_ok hadvance
        apply h.setTask producer (.reporting ticket generation)
        . exact Keeps.of_eq rfl rfl rfl rfl hclosed
        . rfl
        . exact htask
        . exact hold
    . cases hstep
  | reporting ticket generation =>
    cases hstep
    apply h.finish producer
    . exact Keeps.of_eq rfl rfl rfl rfl rfl
    . rfl
    . rw [hget]
      simp
  | awaitingPermit =>
    have hold : ingress.producers[producer]? ≠ some (.recording ⟨none, .catchup⟩) := by
      rw [hget]
      simp
    dsimp only [GraphUpdateIngress.advanceTask] at hstep
    split at hstep
    . cases hstep
      apply h.finish producer
      . exact Keeps.of_eq rfl rfl rfl rfl rfl
      . rfl
      . exact hold
    . rw [Option.map_eq_some_iff] at hstep
      obtain ⟨channel, hreserve, rfl⟩ := hstep
      apply h.setTask producer .reserved
      . exact Keeps.of_eq rfl rfl (Channel.reserve_eq_some hreserve).1 rfl rfl
      . rfl
      . exact htask
      . exact hold
  | reserved =>
    dsimp only [GraphUpdateIngress.advanceTask] at hstep
    split at hstep
    . split at hstep
      . cases hstep
        apply h.finish producer
        . exact Keeps.of_eq rfl rfl rfl rfl rfl
        . rfl
        . rw [hget]
          simp
      . next hopen =>
        rw [Option.map_eq_some_iff] at hstep
        obtain ⟨channel, hsend, rfl⟩ := hstep
        have hitems := (Channel.sendReserved_eq_some hsend).1
        apply h.push hitems
        . intro hawaiting
          rw [htask] at hawaiting
          cases hawaiting
        . intro hempty
          exact absurd hempty (h.opened htask (by simpa using hopen))
        . exact Or.inr rfl
        . intro ticket hticket
          cases hticket
        . exact Or.inr ⟨rfl, htask⟩
        . intro q other _ hother
          refine (h.tasks q other hother).transfer rfl rfl (fun _ hmem => hmem) ?_ ?_
          . rw [accepted_enqueued producer hitems, List.filterMap_append]
            simp
          . intro hawaiting
            rw [htask] at hawaiting
            cases hawaiting
    . cases hstep
  | panicked message => cases hstep

end Producer

section Receiver

variable (h : ingress.Ordered)
include h

theorem Ordered.keepTasks (hkeeps : ingress.Keeps next)
    (hproducers : next.producers = ingress.producers) : next.Ordered := by
  apply h.keep hkeeps
  . intro q other hget
    rw [hproducers] at hget
    exact Or.inl hget
  . intro q hget
    rw [hproducers]
    exact hget

theorem Ordered.takePending (receiver : ReceiverTask) : (ingress.takePending receiver).Ordered := by
  unfold GraphUpdateIngress.takePending
  dsimp only
  split
  . apply h.keepTasks
    . exact Keeps.of_log rfl rfl (by simp) rfl rfl rfl rfl rfl
    . rfl
  . apply h.keepTasks
    . exact Keeps.of_eq rfl rfl rfl rfl rfl
    . rfl

theorem Ordered.pollGap (retry pending : ReceiverTask) :
    (ingress.pollGap retry pending).Ordered := by
  unfold GraphUpdateIngress.pollGap
  split
  . exact h.takePending retry
  . split
    . apply takePending
      apply h.keepTasks
      . exact Keeps.of_eq rfl rfl rfl rfl rfl
      . rfl
    . apply h.keepTasks
      . exact Keeps.of_eq rfl rfl rfl rfl rfl
      . rfl

theorem Ordered.dequeue {observed : Bool} (hstep : ingress.dequeue observed = some next) :
    next.Ordered := by
  unfold GraphUpdateIngress.dequeue at hstep
  rw [Option.map_eq_some_iff] at hstep
  obtain ⟨⟨value, channel⟩, hrecv, rfl⟩ := hstep
  obtain ⟨hitems, -, -⟩ := Channel.recv_eq_some hrecv
  apply h.keepTasks
  . constructor
    case gate => rfl
    case nextTicket => rfl
    case accepted =>
      unfold GraphUpdateIngress.accepted receivedValues log
      rw [List.filterMap_append, hitems, List.append_assoc]
      rfl
    case trace => exact fun _ hmem => List.mem_append_left _ hmem
    case issued =>
      unfold offeredTickets log
      rw [List.filterMap_append]
      simp [IngressEvent.offeredTicket]
    case failed =>
      intro hmem
      have hmem : IngressEvent.catchupFailed ∈ ingress.trace ++ [.received observed value] := hmem
      exact Or.inl (by simpa using hmem)
    case closed => exact fun hclosed => hclosed
  . rfl

theorem Ordered.advanceReceiver (hstep : ingress.advanceReceiver = some next) : next.Ordered := by
  have hset : ∀ receiver : ReceiverTask,
      GraphUpdateIngress.Ordered { ingress with receiver := receiver } := by
    intro receiver
    apply h.keepTasks
    . exact Keeps.of_eq rfl rfl rfl rfl rfl
    . rfl
  unfold GraphUpdateIngress.advanceReceiver at hstep
  split at hstep
  . cases hstep
  . cases hstep
    exact h.takePending _
  . split at hstep
    . cases hstep
      exact hset _
    . cases hstep
      exact h.pollGap _ _
  . split at hstep
    . next hdequeue =>
      cases hstep
      exact h.dequeue hdequeue
    . cases hstep
      exact hset _
  . cases hstep
    exact h.takePending _
  . cases hstep
    exact h.pollGap _ _
  . next hnow =>
    split at hstep
    . next hfree =>
      split at hstep
      . cases hstep
        exact hset _
      . next state hrecord =>
        cases hstep
        have hclosed := GraphUpdateChannelState.recordDequeue_eq_ok hrecord
        apply h.keepTasks
        . exact Keeps.of_eq rfl rfl rfl rfl hclosed.1
        . rfl
    . cases hstep
  . cases hstep
  . cases hstep

theorem Ordered.abandon {channelState : GraphUpdateChannelState} (hlocked : ingress.Locked)
    (hfree : ingress.channelStateOwner = none) (hclosed : channelState.receiverClosed = true) :
    GraphUpdateIngress.Ordered { ingress with
      channel := ingress.channel.abandon
      channelState := channelState
      receiver := .dropped } := by
  have haccepted : GraphUpdateIngress.accepted { ingress with
      channel := ingress.channel.abandon
      channelState := channelState
      receiver := .dropped } = ingress.receivedValues := List.append_nil _
  have hprefix : ∃ rest, ingress.accepted = ingress.receivedValues ++ rest := ⟨_, rfl⟩
  obtain ⟨rest, hrest⟩ := hprefix
  constructor
  case tasks =>
    intro q task hget
    have htask := h.tasks q task hget
    have hflight : ∀ {ticket update}, ingress.InFlight ticket update →
        GraphUpdateIngress.InFlight { ingress with
          channel := ingress.channel.abandon
          channelState := channelState
          receiver := .dropped } ticket update := by
      intro ticket update hflight
      refine ⟨hflight.latest, hflight.ordinary, hflight.offered, ?_⟩
      rw [haccepted]
      intro earlier hmem
      apply hflight.fresh
      rw [hrest, List.filterMap_append]
      exact List.mem_append_left _ hmem
    cases task with
    | offering ticket update => exact hflight htask
    | sending value =>
      obtain ⟨ticket, update⟩ := value
      cases ticket with
      | some ticket => exact ⟨hflight htask.1, htask.2⟩
      | none =>
        refine ⟨htask.1, htask.2.1, ?_⟩
        rw [haccepted]
        have hempty := htask.2.2
        rw [hrest, List.append_eq_nil_iff] at hempty
        exact hempty.1
    | recording value => exact absurd hget (hlocked.not_recording hfree q value)
    | lost ticket => exact htask
    | reporting ticket generation => exact htask
    | awaitingPermit => exact htask
    | reserved => exact htask
    | panicked message => trivial
  case first =>
    intro value tail htail
    rw [haccepted] at htail
    apply h.first value (tail ++ rest)
    rw [hrest, htail]
    rfl
  case empty =>
    intro hgate
    rw [haccepted]
    obtain hempty | ⟨q, hget⟩ := h.empty hgate
    . rw [hrest, List.append_eq_nil_iff] at hempty
      exact Or.inl hempty.1
    . exact absurd hget (hlocked.not_recording hfree q _)
  case opened =>
    intro _ hopen
    rw [hclosed] at hopen
    cases hopen
  case values =>
    intro value hmem
    rw [haccepted] at hmem
    have hvalue := h.values value (by rw [hrest]; exact List.mem_append_left _ hmem)
    exact hvalue.of_trace fun _ h => h
  case increasing =>
    rw [haccepted]
    have := h.increasing
    rw [hrest, List.filterMap_append, List.pairwise_append] at this
    exact this.1
  case issued => exact h.issued
  case failed =>
    intro hfailed
    exact ⟨(h.failed hfailed).1, hclosed⟩

end Receiver

end GraphUpdateIngress

end Kgi
