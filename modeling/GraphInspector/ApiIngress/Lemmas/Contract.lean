import GraphInspector.ApiIngress.Lemmas.Gap

/-!
The contract of the graph-update channel, over every interleaving of its producers and its receiver.
-/

namespace Kgi

open Data

namespace GraphUpdateIngress

variable {ingress next : GraphUpdateIngress} {producer : Nat}

section Step

theorem Locked.cancelLive (h : ingress.Locked)
    (hget : ingress.producers[producer]? = some .awaitingPermit) : (ingress.finish producer).Locked := by
  apply h.finish
  . intro value hvalue
    rw [hget] at hvalue
    cases hvalue
  . rw [hget]
    simp

theorem Locked.dropProducers (h : ingress.Locked) :
    GraphUpdateIngress.Locked { ingress with producersDropped := true } :=
  ⟨h.gate, h.recording, h.owner, h.permits, h.closed, h.occupancy, h.receiver⟩

theorem Locked.close (h : ingress.Locked) (hfree : ingress.channelStateOwner = none) :
    GraphUpdateIngress.Locked { ingress with
      channel := ingress.channel.close
      channelState := ingress.channelState.recordReceiverClosed } := by
  obtain ⟨hclosed, hoccupancy, -⟩ := ingress.channelState.recordReceiverClosed_spec
  constructor
  case gate => exact h.gate
  case recording => exact fun q value hget => absurd hget (h.not_recording hfree q value)
  case owner => exact h.owner
  case permits => exact h.permits
  case closed => exact hclosed
  case occupancy =>
    rw [hoccupancy]
    exact h.occupancy
  case receiver => exact h.receiver

theorem Locked.abandon (h : ingress.Locked) (hfree : ingress.channelStateOwner = none) :
    GraphUpdateIngress.Locked { ingress with
      channel := ingress.channel.abandon
      channelState := { ingress.channelState.recordReceiverClosed with currentOccupancy := 0 }
      receiver := .dropped } := by
  constructor
  case gate => exact h.gate
  case recording => exact fun q value hget => absurd hget (h.not_recording hfree q value)
  case owner => exact h.owner
  case permits => exact h.permits
  case closed => exact ingress.channelState.recordReceiverClosed_spec.1
  case occupancy =>
    unfold unrecordedSend unrecordedTake
    rw [if_pos hfree, if_neg (by simp)]
    rfl
  case receiver => simp

theorem Ordered.close (h : ingress.Ordered) :
    GraphUpdateIngress.Ordered { ingress with
      channel := ingress.channel.close
      channelState := ingress.channelState.recordReceiverClosed } := by
  have hclosed := ingress.channelState.recordReceiverClosed_spec.1
  apply h.keepTasks
  . exact ⟨rfl, rfl, rfl, fun _ hmem => hmem, rfl, Or.inl, fun _ => hclosed⟩
  . rfl

theorem Disclosed.endRead (h : ingress.Disclosed) {receiver : ReceiverTask}
    {channel : Channel graphUpdateChannelCapacity Nat QueuedUpdate}
    {channelState : GraphUpdateChannelState}
    (hreported : channelState.reportedGapCount = ingress.channelState.reportedGapCount)
    (hreceiver : receiver ≠ .polling ∧ receiver ≠ .polled) :
    GraphUpdateIngress.Disclosed { ingress with
      channel := channel, channelState := channelState, receiver := receiver } := by
  apply h.setReceiver
  . refine ⟨rfl, rfl, hreported, ?_⟩
    rintro (hpolling | hpolled)
    . exact absurd hpolling hreceiver.1
    . exact absurd hpolled hreceiver.2
  . rfl
  . rfl
  . rfl
  . rfl

theorem Ordered.sending_ne_live (h : ingress.Ordered) {value : QueuedUpdate}
    (hget : ingress.producers[producer]? = some (.sending value)) : value.update ≠ .live := by
  have htask := h.tasks producer _ hget
  obtain ⟨ticket, update⟩ := value
  rintro rfl
  cases ticket with
  | none => cases htask.1
  | some ticket => cases htask.1.ordinary

structure Coherent (ingress : GraphUpdateIngress) : Prop where
  locked : ingress.Locked
  ordered : ingress.Ordered
  disclosed : ingress.Disclosed

theorem Coherent.new : GraphUpdateIngress.new.Coherent := ⟨Locked.new, Ordered.new, Disclosed.new⟩

variable (h : ingress.Coherent)
include h

theorem Coherent.offerOrdinary {update : GraphUpdate} (hordinary : update.isOrdinary = true)
    (hstep : ingress.offerOrdinary producer update = some next) : next.Coherent where
  locked := h.locked.offerOrdinary hstep
  ordered := h.ordered.offerOrdinary h.locked hordinary hstep
  disclosed := h.disclosed.offerOrdinary hstep

theorem Coherent.advance (hstep : ingress.step (.advance producer) = some next) :
    next.Coherent := by
  dsimp only [GraphUpdateIngress.step] at hstep
  rw [Option.bind_eq_some_iff] at hstep
  obtain ⟨task, hget, hstep⟩ := hstep
  constructor
  case locked =>
    apply h.locked.advanceTask hget _ hstep
    rintro value rfl
    exact h.ordered.sending_ne_live hget
  case ordered => exact h.ordered.advanceTask h.locked hget hstep
  case disclosed => exact h.disclosed.advanceTask h.locked h.ordered hget hstep

theorem Coherent.setReceiver {receiver : ReceiverTask} (hnow : ingress.receiver ≠ .dequeued)
    (hnext : receiver = .idle ∨ receiver = .observing ∨ receiver = .seekingGap) :
    GraphUpdateIngress.Coherent { ingress with receiver := receiver } := by
  constructor
  case locked =>
    apply h.locked.setReceiver hnow _ _ ingress.gap
    . obtain rfl | rfl | rfl := hnext <;> simp
    . obtain rfl | rfl | rfl := hnext <;> simp
  case ordered =>
    apply h.ordered.keepTasks
    . exact Keeps.of_eq rfl rfl rfl rfl rfl
    . rfl
  case disclosed =>
    apply h.disclosed.endRead rfl
    obtain rfl | rfl | rfl := hnext <;> simp

theorem Coherent.takePending (hnow : ingress.receiver = .idle) :
    (ingress.takePending .idle).Coherent where
  locked := h.locked.takePending (by simp [hnow]) (by simp) (by simp)
  ordered := h.ordered.takePending _
  disclosed := h.disclosed.takePending h.ordered _

theorem Coherent.step {action : IngressAction} (hstep : ingress.step action = some next) :
    next.Coherent := by
  cases action with
  | offerBlockCommitted producer update => exact h.offerOrdinary rfl hstep
  | offerVspcCommitted producer update => exact h.offerOrdinary rfl hstep
  | publishCatchup producer =>
    exact ⟨h.locked.publishCatchup hstep, h.ordered.publishCatchup h.locked hstep,
      h.disclosed.publishCatchup hstep⟩
  | publishLive producer =>
    exact ⟨h.locked.publishLive hstep, h.ordered.publishLive hstep,
      h.disclosed.publishLive hstep⟩
  | advance producer => exact h.advance hstep
  | cancelLive producer =>
    dsimp only [GraphUpdateIngress.step] at hstep
    split at hstep
    . next hget =>
      cases hstep
      refine ⟨h.locked.cancelLive hget, ?_, ?_⟩
      . apply h.ordered.finish
        . exact Keeps.of_eq rfl rfl rfl rfl rfl
        . rfl
        . rw [hget]
          simp
      . exact h.disclosed.workBesideGate hget (fun _ => rfl) rfl rfl ⟨rfl, rfl, rfl, id⟩ rfl
          (Retasks.finish rfl)
    . cases hstep
  | dropProducers =>
    dsimp only [GraphUpdateIngress.step] at hstep
    split at hstep
    . cases hstep
      refine ⟨h.locked.dropProducers, ?_, ?_⟩
      . apply h.ordered.keepTasks
        . exact Keeps.of_eq rfl rfl rfl rfl rfl
        . rfl
      . exact h.disclosed.setReceiver ⟨rfl, rfl, rfl, id⟩ rfl rfl rfl rfl
    . cases hstep
  | recvUpdate =>
    dsimp only [GraphUpdateIngress.step] at hstep
    split at hstep
    . next hnow =>
      exact ⟨h.locked.dequeue (by simp [hnow]) hstep, h.ordered.dequeue hstep,
        h.disclosed.dequeue (by simp) hstep⟩
    . cases hstep
  | nextObservation =>
    dsimp only [GraphUpdateIngress.step] at hstep
    split at hstep
    . next hnow =>
      cases hstep
      exact h.setReceiver (by simp [hnow]) (by simp)
    . cases hstep
  | waitForGap =>
    dsimp only [GraphUpdateIngress.step] at hstep
    split at hstep
    . next hnow =>
      cases hstep
      exact h.setReceiver (by simp [hnow]) (by simp)
    . cases hstep
  | takePendingGap =>
    dsimp only [GraphUpdateIngress.step] at hstep
    split at hstep
    . next hnow =>
      cases hstep
      exact h.takePending hnow
    . cases hstep
  | acknowledgeGapGeneration =>
    dsimp only [GraphUpdateIngress.step] at hstep
    split at hstep
    . next hnow =>
      cases hstep
      exact h.takePending hnow
    . cases hstep
  | advanceReceiver =>
    exact ⟨h.locked.advanceReceiver hstep, h.ordered.advanceReceiver hstep,
      h.disclosed.advanceReceiver h.ordered hstep⟩
  | cancelReceiver =>
    dsimp only [GraphUpdateIngress.step] at hstep
    split at hstep
    . next hnow =>
      cases hstep
      apply h.setReceiver _ (Or.inl rfl)
      intro hdequeued
      rw [hdequeued] at hnow
      simp at hnow
    . cases hstep
  | close =>
    dsimp only [GraphUpdateIngress.step] at hstep
    split at hstep
    . next hnow =>
      cases hstep
      obtain ⟨-, -, hreported⟩ := ingress.channelState.recordReceiverClosed_spec
      exact ⟨h.locked.close hnow.2, h.ordered.close,
        h.disclosed.endRead hreported (by simp [hnow.1])⟩
    . cases hstep
  | dropReceiver =>
    dsimp only [GraphUpdateIngress.step] at hstep
    split at hstep
    . next hnow =>
      cases hstep
      obtain ⟨hclosed, -, hreported⟩ := ingress.channelState.recordReceiverClosed_spec
      exact ⟨h.locked.abandon hnow.2, h.ordered.abandon h.locked hnow.2 hclosed,
        h.disclosed.endRead hreported (by simp)⟩
    . cases hstep

end Step

def Quiescent (ingress : GraphUpdateIngress) : Prop :=
  (∀ (producer : Nat) (value : QueuedUpdate),
    ingress.producers[producer]? ≠ some (.recording value)) ∧ ingress.receiver ≠ .dequeued

theorem Locked.occupancy_eq (h : ingress.Locked) (hquiescent : ingress.Quiescent) :
    ingress.channelState.currentOccupancy = ingress.channel.items.length := by
  have hfree : ingress.channelStateOwner = none := by
    rw [Option.eq_none_iff_forall_ne_some]
    intro producer howner
    obtain ⟨value, hget⟩ := h.owner producer howner
    exact hquiescent.1 producer value hget
  have hoccupancy := h.occupancy
  unfold unrecordedSend unrecordedTake at hoccupancy
  rw [if_pos hfree, if_neg hquiescent.2] at hoccupancy
  exact hoccupancy

/--
Over every interleaving the first value received is Catchup, ordinary updates are received in the order of
their offers and at most once, the occupancy is exact whenever no value is being recorded, no read
underflows it, and a failed Catchup leaves the gate closed. After a loss, at most one update that was offered
later is returned by `next_observation` before the gap is read.
-/
theorem channel_contract {actions : List IngressAction}
    (h : run step GraphUpdateIngress.new actions = some ingress) :
    (∀ value rest, ingress.receivedValues = value :: rest → value.update = .catchup) ∧
    (ingress.receivedValues.filterMap QueuedUpdate.ticket).Pairwise (· < ·) ∧
    (∀ value ∈ ingress.receivedValues, ingress.ValueOrdered value) ∧
    ingress.offeredTickets = List.range ingress.nextTicket ∧
    (∀ before ticket after, ingress.trace = before ++ .dropped ticket :: after →
      (∀ event ∈ after, event.isGap = false) → lateCount ticket after ≤ 1) ∧
    (ingress.Quiescent → ingress.channelState.currentOccupancy = ingress.channel.items.length) ∧
    (∀ message, ingress.receiver ≠ .panicked message) ∧
    (.catchupFailed ∈ ingress.trace → ingress.gate = .awaitingCatchup) := by
  have hcoherent : ingress.Coherent :=
    run.invariant (fun _ _ _ hcoherent hstep => hcoherent.step hstep) Coherent.new h
  obtain ⟨hlocked, hordered, hdisclosed⟩ := hcoherent
  refine ⟨?_, ?_, ?_, hordered.issued, ?_, hlocked.occupancy_eq, hlocked.receiver, ?_⟩
  . intro value rest hvalues
    apply hordered.first value (rest ++ ingress.channel.items)
    unfold accepted
    rw [hvalues]
    rfl
  . have hincreasing := hordered.increasing
    unfold accepted at hincreasing
    rw [List.filterMap_append, List.pairwise_append] at hincreasing
    exact hincreasing.1
  . exact fun value hmem => hordered.values value (List.mem_append_left _ hmem)
  . exact fun before ticket after hsplit hgap => (hdisclosed.losses before ticket after hsplit hgap).2.1
  . exact fun hfailed => (hordered.failed hfailed).1

/--
Catchup and one update are published and received.
-/
theorem channel_contract_received :
    ∃ ingress, run step GraphUpdateIngress.new
        [.publishCatchup 0, .advance 0, .advance 0,
          .offerVspcCommitted 0 ⟨0, 0, [], [], []⟩, .advance 0, .advance 0, .advance 0,
          .recvUpdate, .advanceReceiver, .recvUpdate, .advanceReceiver] = some ingress ∧
      ingress.receivedValues = [⟨none, .catchup⟩, ⟨some 0, .vspcCommitted ⟨0, 0, [], [], []⟩⟩] ∧
      (∀ value ∈ ingress.receivedValues, ingress.ValueOrdered value) ∧
      ∀ message, ingress.receiver ≠ .panicked message := by
  refine ⟨_, rfl, rfl, ?_⟩
  obtain ⟨-, -, hvalues, -, -, -, hreceiver, -⟩ := channel_contract <|
    show run step GraphUpdateIngress.new
      [.publishCatchup 0, .advance 0, .advance 0,
        .offerVspcCommitted 0 ⟨0, 0, [], [], []⟩, .advance 0, .advance 0, .advance 0,
        .recvUpdate, .advanceReceiver, .recvUpdate, .advanceReceiver] = some _ from rfl
  exact ⟨hvalues, hreceiver⟩

section Race

variable {update : VspcCommitted} {before : List IngressEvent} {ticket : Nat}

structure Serving (ingress : GraphUpdateIngress) : Prop where
  gate : ingress.gate = .opened
  producersDropped : ingress.producersDropped = false
  stateOwner : ingress.channelStateOwner = none
  receiverClosed : ingress.channelState.receiverClosed = false
  reported : ingress.channelState.reportedGapCount = 0
  occupancy : ingress.channelState.currentOccupancy = ingress.channel.items.length
  closed : ingress.channel.closed = false
  permits : ingress.channel.permits = ∅
  receiver : ingress.receiver = .idle
  generation : ingress.generation = ⟨0, 0⟩
  gap : ingress.gap = .new

structure Steady (ingress : GraphUpdateIngress) : Prop extends Serving ingress where
  gateOwner : ingress.gateOwner = none
  producers : ∀ producer : Nat, ingress.producers[producer]? = none

structure Losing (ingress : GraphUpdateIngress) (before : List IngressEvent) (ticket : Nat) : Prop
    extends Serving ingress where
  gateOwner : ingress.gateOwner = some 0
  loser : ingress.producers[0]? = some (.lost ticket)
  other : ingress.producers[1]? = none
  latest : ingress.nextTicket = ticket + 1
  trace : ∃ after, ingress.trace = before ++ .dropped ticket :: after ∧
    ∀ event ∈ after, event.isGap = false

def offered (ingress : GraphUpdateIngress) (producer : Nat) (update : VspcCommitted) :
    GraphUpdateIngress where
  gate := ingress.gate
  gateOwner := some producer
  channel := ingress.channel
  channelState := ingress.channelState
  channelStateOwner := ingress.channelStateOwner
  generation := ingress.generation
  gap := ingress.gap
  producers := (ingress.producers.insert producer
    (.offering ingress.nextTicket (.vspcCommitted update))).insert producer
      (.sending ⟨some ingress.nextTicket, .vspcCommitted update⟩)
  producersDropped := ingress.producersDropped
  receiver := ingress.receiver
  nextTicket := ingress.nextTicket + 1
  trace := ingress.trace ++ [.offered ingress.nextTicket (.vspcCommitted update)]

theorem run_offered (hgate : ingress.gate = .opened) (howner : ingress.gateOwner = none)
    (hidle : ingress.producers[producer]? = none) (hdropped : ingress.producersDropped = false)
    (hclosed : ingress.channel.closed = false) :
    run step ingress [.offerVspcCommitted producer update, .advance producer]
      = some (ingress.offered producer update) := by
  simp [run, step, offerOrdinary, idleProducer, advanceTask, lockGate, setTask, log, hgate, howner,
    hidle, hdropped, hclosed, offered]

def sent (ingress : GraphUpdateIngress) (producer : Nat) (update : VspcCommitted)
    (channel : Channel graphUpdateChannelCapacity Nat QueuedUpdate) : GraphUpdateIngress :=
  { (ingress.offered producer update) with
    gateOwner := none
    channel := channel
    channelState := { ingress.channelState with
      currentOccupancy := ingress.channelState.currentOccupancy + 1
      highWaterMark :=
        max ingress.channelState.highWaterMark (ingress.channelState.currentOccupancy + 1) }
    channelStateOwner := none
    producers := ((ingress.offered producer update).producers.insert producer
      (.recording ⟨some ingress.nextTicket, .vspcCommitted update⟩)).erase producer }

theorem run_sent {channel : Channel graphUpdateChannelCapacity Nat QueuedUpdate}
    (hstate : ingress.channelStateOwner = none) (hopen : ingress.channelState.receiverClosed = false)
    (hcount : ingress.channelState.currentOccupancy < usizeMax)
    (hsend : ingress.channel.trySend ⟨some ingress.nextTicket, .vspcCommitted update⟩ = .ok channel) :
    run step (ingress.offered producer update) [.advance producer, .advance producer]
      = some (ingress.sent producer update channel) := by
  simp [run, step, offered, sent, advanceTask, hstate, trySend, hopen, hsend, enqueued, setTask,
    recordSent, GraphUpdateChannelState.recordEnqueue, hcount, finish]

theorem Steady.fill (h : ingress.Steady) (update : VspcCommitted)
    (hroom : ingress.channel.items.length < graphUpdateChannelCapacity) :
    ∃ actions next, run step ingress actions = some next ∧ next.Steady ∧
      next.channel.items.length = ingress.channel.items.length + 1 := by
  obtain ⟨channel, hsend⟩ := Channel.trySend_of_lt ⟨some ingress.nextTicket, .vspcCommitted update⟩
    h.closed (by simpa [h.permits] using hroom)
  obtain ⟨hitems, hpermits, hclosed⟩ := Channel.trySend_eq_ok hsend
  have hlength : channel.items.length = ingress.channel.items.length + 1 := by simp [hitems]
  have hcount : ingress.channelState.currentOccupancy < usizeMax := by
    rw [h.occupancy]
    exact hroom.trans (by decide)
  have hoffered : run step ingress [.offerVspcCommitted 0 update, .advance 0]
      = some (ingress.offered 0 update) :=
    run_offered h.gate h.gateOwner (h.producers 0) h.producersDropped h.closed
  have hsent : run step (ingress.offered 0 update) [.advance 0, .advance 0]
      = some (ingress.sent 0 update channel) :=
    run_sent h.stateOwner h.receiverClosed hcount hsend
  refine ⟨_, ingress.sent 0 update channel, run.append hoffered hsent, ?_, hlength⟩
  have hoccupancy : ingress.channelState.currentOccupancy + 1 = channel.items.length := by
    rw [h.occupancy, hlength]
  refine ⟨⟨h.gate, h.producersDropped, rfl, h.receiverClosed, h.reported, hoccupancy,
    hclosed.trans h.closed, hpermits.trans h.permits, h.receiver, h.generation, h.gap⟩, rfl, ?_⟩
  intro q
  dsimp only [sent]
  rw [Map.get_erase]
  split
  . rfl
  . next hq => simp [offered, Map.get_insert, hq, h.producers]

theorem Steady.fillAll (h : ingress.Steady) (update : VspcCommitted) (count : Nat)
    (hroom : ingress.channel.items.length + count ≤ graphUpdateChannelCapacity) :
    ∃ actions next, run step ingress actions = some next ∧ next.Steady ∧
      next.channel.items.length = ingress.channel.items.length + count := by
  induction count with
  | zero => exact ⟨[], ingress, rfl, h, rfl⟩
  | succ count ih =>
    obtain ⟨actions, middle, hactions, hsteady, hlength⟩ := ih (by omega)
    obtain ⟨more, next, hmore, hsteady, hnext⟩ := hsteady.fill update (by omega)
    exact ⟨actions ++ more, next, run.append hactions hmore, hsteady, by omega⟩

theorem Steady.lose (h : ingress.Steady) (update : VspcCommitted)
    (hfull : ingress.channel.items.length = graphUpdateChannelCapacity) :
    ∃ actions next before ticket, run step ingress actions = some next ∧ next.Losing before ticket ∧
      next.channel.items.length = graphUpdateChannelCapacity := by
  have hsend := Channel.trySend_of_le ⟨some ingress.nextTicket, .vspcCommitted update⟩ h.closed
    (by simp [hfull])
  have hlose : run step (ingress.offered 0 update) [.advance 0]
      = some (((ingress.offered 0 update).setTask 0 (.lost ingress.nextTicket)).log
          (.dropped ingress.nextTicket)) := by
    simp [run, step, offered, advanceTask, h.stateOwner, trySend, h.receiverClosed, hsend]
  have hoffered : run step ingress [.offerVspcCommitted 0 update, .advance 0]
      = some (ingress.offered 0 update) :=
    run_offered h.gate h.gateOwner (h.producers 0) h.producersDropped h.closed
  refine ⟨_, _, (ingress.offered 0 update).trace, ingress.nextTicket, run.append hoffered hlose, ?_,
    hfull⟩
  refine ⟨⟨h.gate, h.producersDropped, h.stateOwner, h.receiverClosed, h.reported, h.occupancy,
    h.closed, h.permits, h.receiver, h.generation, h.gap⟩, rfl, ?_, ?_, rfl, [], rfl, by simp⟩
  . simp [log, setTask]
  . simp [log, setTask, offered, Map.get_insert, h.producers]

theorem Losing.read (h : ingress.Losing before ticket) {count : Nat}
    (hcount : ingress.channel.items.length = count + 1) :
    ∃ actions next, run step ingress actions = some next ∧ next.Losing before ticket ∧
      next.channel.items.length = count := by
  obtain ⟨value, items, hitems⟩ := List.exists_cons_of_length_eq_add_one hcount
  obtain ⟨channel, hrecv⟩ := Channel.recv_of_cons hitems
  obtain ⟨hcons, hpermits, hclosed⟩ := Channel.recv_eq_some hrecv
  have hlength : channel.items.length = count := by
    rw [hcons, List.length_cons] at hcount
    omega
  have hread : run step ingress
      [.nextObservation, .advanceReceiver, .advanceReceiver, .advanceReceiver, .advanceReceiver]
      = some { (ingress.log (.received true value)) with
          channel := channel
          channelState := { ingress.channelState with
            currentOccupancy := ingress.channelState.currentOccupancy - 1 } } := by
    simp [run, step, h.receiver, advanceReceiver, takePending, GraphUpdateGap.takePending,
      GraphUpdateGap.acknowledgeCurrent, h.generation, h.gap, GraphUpdateGap.new, pollGap,
      h.producersDropped, dequeue, hrecv, h.stateOwner, GraphUpdateChannelState.recordDequeue,
      h.occupancy, hcount, log]
  obtain ⟨after, hafter, hgap⟩ := h.trace
  have hoccupancy : ingress.channelState.currentOccupancy - 1 = channel.items.length := by
    rw [h.occupancy, hcount, hlength, Nat.add_sub_cancel]
  refine ⟨_, _, hread, ⟨⟨h.gate, h.producersDropped, h.stateOwner, h.receiverClosed, h.reported,
    hoccupancy, hclosed.trans h.closed, hpermits.trans h.permits, h.receiver, h.generation, h.gap⟩,
    h.gateOwner, h.loser, h.other, h.latest, after ++ [.received true value], ?_, ?_⟩, hlength⟩
  . dsimp only [log]
    rw [hafter, List.append_assoc, List.cons_append]
  . intro event hmem
    rw [List.mem_append, List.mem_singleton] at hmem
    obtain hmem | rfl := hmem
    . exact hgap event hmem
    . rfl

theorem Losing.drain (h : ingress.Losing before ticket) {count : Nat}
    (hcount : ingress.channel.items.length = count) :
    ∃ actions next, run step ingress actions = some next ∧ next.Losing before ticket ∧
      next.channel.items = [] := by
  induction count generalizing ingress with
  | zero => exact ⟨[], ingress, rfl, h, List.length_eq_zero_iff.mp hcount⟩
  | succ count ih =>
    obtain ⟨actions, middle, hactions, hlosing, hlength⟩ := h.read hcount
    obtain ⟨more, next, hmore, hlosing, hempty⟩ := ih hlosing hlength
    exact ⟨actions ++ more, next, run.append hactions hmore, hlosing, hempty⟩

theorem Losing.overtake (h : ingress.Losing before ticket) (hempty : ingress.channel.items = [])
    (update : VspcCommitted) :
    ∃ actions next after, run step ingress actions = some next ∧
      next.trace = before ++ .dropped ticket :: after ∧ (∀ event ∈ after, event.isGap = false) ∧
      0 < lateCount ticket after := by
  let polled : GraphUpdateIngress := { ingress with receiver := .polled }
  have hpolled : run step ingress [.nextObservation, .advanceReceiver, .advanceReceiver]
      = some polled := by
    simp [run, step, h.receiver, advanceReceiver, takePending, GraphUpdateGap.takePending,
      GraphUpdateGap.acknowledgeCurrent, h.generation, h.gap, GraphUpdateGap.new, pollGap,
      h.producersDropped, polled]
  let reported : GraphUpdateIngress := { polled with
    gateOwner := none
    channelState := { ingress.channelState with reportedGapCount := 1 }
    generation := ⟨1, 1⟩
    producers := (ingress.producers.insert 0 (.reporting ticket 1)).erase 0 }
  have hreported : run step polled [.advance 0, .advance 0] = some reported := by
    simp [run, step, polled, reported, h.loser, advanceTask, h.stateOwner, h.reported,
      GraphUpdateChannelState.advanceGapGeneration, u64Max, setTask, finish, unlockGate, h.generation,
      Watch.sendReplace]
  obtain ⟨channel, hsend⟩ := Channel.trySend_of_lt
    ⟨some reported.nextTicket, .vspcCommitted update⟩ h.closed
    (by simp [hempty, h.permits, graphUpdateChannelCapacity])
  obtain ⟨hitems, -, -⟩ := Channel.trySend_eq_ok hsend
  rw [hempty, List.nil_append] at hitems
  have hoffered : run step reported [.offerVspcCommitted 1 update, .advance 1]
      = some (reported.offered 1 update) :=
    run_offered h.gate rfl (by simp [reported, Map.get_erase, Map.get_insert, h.other])
      h.producersDropped h.closed
  have hsent : run step (reported.offered 1 update) [.advance 1, .advance 1]
      = some (reported.sent 1 update channel) :=
    run_sent h.stateOwner h.receiverClosed (by simp [reported, h.occupancy, hempty, usizeMax]) hsend
  obtain ⟨rest, hrecv⟩ := Channel.recv_of_cons hitems
  let value : QueuedUpdate := ⟨some reported.nextTicket, .vspcCommitted update⟩
  have hread : run step (reported.sent 1 update channel) [.advanceReceiver]
      = some { ((reported.sent 1 update channel).log (.received true value)) with
            channel := rest, receiver := .dequeued } := by
    have hchannel : (reported.sent 1 update channel).channel = channel := rfl
    have hreceiver : (reported.sent 1 update channel).receiver = .polled := rfl
    simp [run, step, advanceReceiver, hreceiver, dequeue, hchannel, hrecv, value]
  obtain ⟨after, hafter, hgap⟩ := h.trace
  refine ⟨_, _, after ++ [.offered reported.nextTicket (.vspcCommitted update), .received true value],
    run.append hpolled (run.append hreported (run.append hoffered (run.append hsent hread))),
    ?_, ?_, ?_⟩
  . have htrace : ((reported.sent 1 update channel).log (.received true value)).trace
        = ingress.trace ++ [.offered reported.nextTicket (.vspcCommitted update)] ++
          [.received true value] := rfl
    rw [htrace, hafter]
    simp
  . intro event hmem
    simp only [List.mem_append, List.mem_cons, List.not_mem_nil, or_false] at hmem
    obtain hmem | rfl | rfl := hmem
    . exact hgap event hmem
    . rfl
    . rfl
  . have hlate : IngressEvent.isLate ticket (.received true value) = true := by
      simp [IngressEvent.isLate, value, reported, polled, h.latest]
    unfold lateCount
    rw [List.countP_pos_iff]
    exact ⟨.received true value, by simp, hlate⟩

theorem exists_steady : ∃ actions ingress, run step GraphUpdateIngress.new actions = some ingress ∧
    ingress.Steady ∧ ingress.channel.items.length = 1 := by
  refine ⟨[.publishCatchup 0, .advance 0, .advance 0], _, rfl, ?_, rfl⟩
  constructor
  case producers =>
    intro q
    have hempty : (∅ : Map Nat ProducerTask)[q]? = none := Std.ExtTreeMap.getElem?_empty
    exact hempty
  case toServing => constructor <;> rfl
  all_goals rfl

/--
An update offered after a loss can be returned before the gap is read.
-/
theorem later_update_precedes_gap : ∃ actions ingress before ticket after,
    run step GraphUpdateIngress.new actions = some ingress ∧
    ingress.trace = before ++ .dropped ticket :: after ∧ (∀ event ∈ after, event.isGap = false) ∧
    0 < lateCount ticket after := by
  let update : VspcCommitted := ⟨0, 0, [], [], []⟩
  obtain ⟨opening, opened, hopening, hsteady, hlength⟩ := exists_steady
  obtain ⟨filling, full, hfilling, hsteady, hfull⟩ := hsteady.fillAll update 1023
    (by rw [hlength]; decide)
  obtain ⟨losing, lost, before, ticket, hlosing, hlost, -⟩ := hsteady.lose update
    (by rw [hfull, hlength]; decide)
  obtain ⟨draining, drained, hdraining, hlost, hempty⟩ := hlost.drain rfl
  obtain ⟨racing, raced, after, hracing, htrace, hgap, hlate⟩ := hlost.overtake hempty update
  have hrun := run.append hopening (run.append hfilling (run.append hlosing
    (run.append hdraining hracing)))
  exact ⟨_, raced, before, ticket, after, hrun, htrace, hgap, hlate⟩

end Race

end GraphUpdateIngress

end Kgi
