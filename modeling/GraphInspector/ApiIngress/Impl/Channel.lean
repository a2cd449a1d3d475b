import GraphInspector.Data.Channel
import GraphInspector.Data.Run
import GraphInspector.Model.Block

/-!
The graph-update channel of one processing session. Any number of producer clones share a gate and the
channel, and one receiver reads the values and a separate gap generation. A step is one access to the
shared state: each lock is taken and released on its own, and the two polls of `next_observation` are two
steps.
-/

namespace Kgi

open Data

def graphUpdateChannelCapacity : Nat := 1024

def usizeMax : Nat := 2 ^ 64 - 1

inductive GraphUpdateGateState where
  | awaitingCatchup
  | opened
  deriving DecidableEq, Repr

structure GraphUpdateChannelState where
  currentOccupancy : Nat
  highWaterMark : Nat
  reportedGapCount : Nat
  receiverClosed : Bool
  receiverClosureCount : Nat
  deriving DecidableEq, Repr

namespace GraphUpdateChannelState

def new : GraphUpdateChannelState := ⟨0, 0, 0, false, 0⟩

def recordEnqueue (state : GraphUpdateChannelState) : Except String GraphUpdateChannelState :=
  if state.currentOccupancy < usizeMax then
    .ok { state with
      currentOccupancy := state.currentOccupancy + 1
      highWaterMark := max state.highWaterMark (state.currentOccupancy + 1) }
  else
    .error "graph-update occupancy overflow"

def recordDequeue (state : GraphUpdateChannelState) : Except String GraphUpdateChannelState :=
  if 0 < state.currentOccupancy then
    .ok { state with currentOccupancy := state.currentOccupancy - 1 }
  else
    .error "graph-update occupancy underflow"

def recordReceiverClosed (state : GraphUpdateChannelState) : GraphUpdateChannelState :=
  if state.receiverClosed then
    state
  else
    { state with receiverClosed := true, receiverClosureCount := state.receiverClosureCount + 1 }

def advanceGapGeneration (state : GraphUpdateChannelState) :
    Except String (GraphUpdateChannelState × Nat) :=
  if state.reportedGapCount < u64Max then
    .ok ({ state with reportedGapCount := state.reportedGapCount + 1 }, state.reportedGapCount + 1)
  else
    .error "graph-update gap generation fits u64"

end GraphUpdateChannelState

structure GraphUpdateGap where
  observedGeneration : Nat
  seenVersion : Nat
  reporterClosed : Bool
  deriving DecidableEq, Repr

namespace GraphUpdateGap

def new : GraphUpdateGap := ⟨0, 0, false⟩

def acknowledgeCurrent (gap : GraphUpdateGap) (generation : Watch Nat) : GraphUpdateGap :=
  { gap with observedGeneration := generation.value, seenVersion := generation.version }

def takePending (gap : GraphUpdateGap) (generation : Watch Nat) : Option Nat × GraphUpdateGap :=
  (if generation.value = gap.observedGeneration then none else some generation.value,
    gap.acknowledgeCurrent generation)

end GraphUpdateGap

/--
A value in the channel. The ticket of an ordinary update is the number of offers before its own; markers
have none.
-/
structure QueuedUpdate where
  ticket : Option Nat
  update : GraphUpdate
  deriving DecidableEq, Repr

inductive ProducerTask where
  /-- `offer_ordinary` holds the gate. -/
  | offering (ticket : Nat) (update : GraphUpdate)
  /-- The gate is held and the value is about to be sent. -/
  | sending (value : QueuedUpdate)
  /-- The value is in the channel and the channel state is still locked. -/
  | recording (value : QueuedUpdate)
  /-- The gate is held, the value was discarded and the loss is not reported yet. -/
  | lost (ticket : Nat)
  | reporting (ticket : Nat) (generation : Nat)
  /-- `publish_live` awaits a permit. -/
  | awaitingPermit
  | reserved
  | panicked (message : String)
  deriving DecidableEq, Repr

inductive ReceiverTask where
  | idle
  /-- `next_observation` is about to look for a pending gap. -/
  | observing
  /-- It is about to poll the gap. -/
  | polling
  /-- The gap was not ready, and the channel is polled next. -/
  | polled
  /-- `wait_for_gap` is about to look for a pending gap. -/
  | seekingGap
  | awaitingGap
  /-- A value was taken and is not recorded yet. -/
  | dequeued
  | dropped
  | panicked (message : String)
  deriving DecidableEq, Repr

inductive IngressEvent where
  | offered (ticket : Nat) (update : GraphUpdate)
  | dropped (ticket : Nat)
  | catchupFailed
  /-- A value left the channel, through `next_observation` or another read. -/
  | received (observed : Bool) (value : QueuedUpdate)
  | gap (generation : Nat)
  deriving DecidableEq, Repr

structure GraphUpdateIngress where
  gate : GraphUpdateGateState
  gateOwner : Option Nat
  channel : Channel graphUpdateChannelCapacity Nat QueuedUpdate
  channelState : GraphUpdateChannelState
  channelStateOwner : Option Nat
  generation : Watch Nat
  gap : GraphUpdateGap
  producers : Map Nat ProducerTask
  producersDropped : Bool
  receiver : ReceiverTask
  nextTicket : Nat
  trace : List IngressEvent

inductive IngressAction where
  | offerBlockCommitted (producer : Nat) (update : BlockCommitted)
  | offerVspcCommitted (producer : Nat) (update : VspcCommitted)
  | publishCatchup (producer : Nat)
  | publishLive (producer : Nat)
  | advance (producer : Nat)
  | cancelLive (producer : Nat)
  | dropProducers
  | recvUpdate
  | nextObservation
  | waitForGap
  | takePendingGap
  | acknowledgeGapGeneration
  | advanceReceiver
  | cancelReceiver
  | close
  | dropReceiver
  deriving DecidableEq, Repr

namespace GraphUpdateIngress

def new : GraphUpdateIngress where
  gate := .awaitingCatchup
  gateOwner := none
  channel := .new _
  channelState := .new
  channelStateOwner := none
  generation := ⟨0, 0⟩
  gap := .new
  producers := ∅
  producersDropped := false
  receiver := .idle
  nextTicket := 0
  trace := []

def log (ingress : GraphUpdateIngress) (event : IngressEvent) : GraphUpdateIngress :=
  { ingress with trace := ingress.trace ++ [event] }

def setTask (ingress : GraphUpdateIngress) (producer : Nat) (task : ProducerTask) :
    GraphUpdateIngress :=
  { ingress with producers := ingress.producers.insert producer task }

def finish (ingress : GraphUpdateIngress) (producer : Nat) : GraphUpdateIngress :=
  { ingress with producers := ingress.producers.erase producer }

def lockGate (ingress : GraphUpdateIngress) (producer : Nat) : GraphUpdateIngress :=
  { ingress with gateOwner := some producer }

def unlockGate (ingress : GraphUpdateIngress) : GraphUpdateIngress :=
  { ingress with gateOwner := none }

def idleProducer (ingress : GraphUpdateIngress) (producer : Nat) : Bool :=
  !ingress.producersDropped && ingress.producers[producer]?.isNone

def offerOrdinary (ingress : GraphUpdateIngress) (producer : Nat) (update : GraphUpdate) :
    Option GraphUpdateIngress :=
  if ingress.idleProducer producer ∧ ingress.gateOwner = none then
    some <|
      { (((ingress.lockGate producer).setTask producer (.offering ingress.nextTicket update)).log
          (.offered ingress.nextTicket update)) with
        nextTicket := ingress.nextTicket + 1 }
  else
    none

/--
A panic under the gate leaves the gate poisoned.
-/
def publishCatchup (ingress : GraphUpdateIngress) (producer : Nat) : Option GraphUpdateIngress :=
  if ingress.idleProducer producer ∧ ingress.gateOwner = none then
    if ingress.gate = .awaitingCatchup then
      some ((ingress.lockGate producer).setTask producer (.sending ⟨none, .catchup⟩))
    else
      some ((ingress.lockGate producer).setTask producer
        (.panicked "Catchup requires the AwaitingCatchup graph-update gate"))
  else
    none

def publishLive (ingress : GraphUpdateIngress) (producer : Nat) : Option GraphUpdateIngress :=
  if ingress.idleProducer producer ∧ ingress.gateOwner = none then
    if ingress.gate = .opened then
      some (ingress.setTask producer .awaitingPermit)
    else
      some ((ingress.lockGate producer).setTask producer
        (.panicked "Live requires an open graph-update gate"))
  else
    none

def receiverClosed (ingress : GraphUpdateIngress) (producer : Nat) (value : QueuedUpdate) :
    GraphUpdateIngress :=
  let ended := (ingress.finish producer).unlockGate
  if value.update = .catchup then ended.log .catchupFailed else ended

def enqueued (ingress : GraphUpdateIngress) (producer : Nat) (value : QueuedUpdate)
    (channel : Channel graphUpdateChannelCapacity Nat QueuedUpdate) : GraphUpdateIngress :=
  { (ingress.setTask producer (.recording value)) with
    channel := channel
    channelStateOwner := some producer }

def trySend (ingress : GraphUpdateIngress) (producer : Nat) (value : QueuedUpdate) :
    GraphUpdateIngress :=
  if ingress.channelState.receiverClosed then
    ingress.receiverClosed producer value
  else
    match ingress.channel.trySend value with
    | .ok channel => ingress.enqueued producer value channel
    | .error .closed => ingress.receiverClosed producer value
    | .error .full =>
      match value.ticket with
      | some ticket => (ingress.setTask producer (.lost ticket)).log (.dropped ticket)
      | none =>
        ingress.setTask producer
          (.panicked "Catchup must be the first value in a positive-capacity channel")

def recordSent (ingress : GraphUpdateIngress) (producer : Nat) (value : QueuedUpdate) :
    GraphUpdateIngress :=
  match ingress.channelState.recordEnqueue with
  | .error message => ingress.setTask producer (.panicked message)
  | .ok channelState =>
    { (ingress.finish producer) with
      channelState := channelState
      channelStateOwner := none
      gate := if value.update = .catchup then .opened else ingress.gate
      gateOwner := if value.update = .live then ingress.gateOwner else none }

/--
The next step of an operation. It waits while a lock or a permit it needs is not free.
-/
def advanceTask (ingress : GraphUpdateIngress) (producer : Nat) :
    ProducerTask → Option GraphUpdateIngress
  | .offering ticket update =>
    if ingress.channel.closed ∨ ingress.gate = .awaitingCatchup then
      some (ingress.finish producer).unlockGate
    else
      some (ingress.setTask producer (.sending ⟨some ticket, update⟩))
  | .sending value =>
    if ingress.channelStateOwner = none then some (ingress.trySend producer value) else none
  | .recording value => some (ingress.recordSent producer value)
  | .lost ticket =>
    if ingress.channelStateOwner = none then
      match ingress.channelState.advanceGapGeneration with
      | .error message => some (ingress.setTask producer (.panicked message))
      | .ok (channelState, generation) =>
        some { (ingress.setTask producer (.reporting ticket generation)) with
          channelState := channelState }
    else
      none
  | .reporting _ generation =>
    some { (ingress.finish producer).unlockGate with
      generation := ingress.generation.sendReplace generation }
  | .awaitingPermit =>
    if ingress.channel.closed then
      some (ingress.finish producer)
    else
      (ingress.channel.reserve producer).map fun channel =>
        { (ingress.setTask producer .reserved) with channel := channel }
  | .reserved =>
    if ingress.channelStateOwner = none then
      if ingress.channelState.receiverClosed then
        some { (ingress.finish producer) with channel := ingress.channel.release producer }
      else
        (ingress.channel.sendReserved producer ⟨none, .live⟩).map
          (ingress.enqueued producer ⟨none, .live⟩)
    else
      none
  | .panicked _ => none

def takePending (ingress : GraphUpdateIngress) (next : ReceiverTask) : GraphUpdateIngress :=
  let (pending, gap) := ingress.gap.takePending ingress.generation
  match pending with
  | some generation => { (ingress.log (.gap generation)) with gap := gap, receiver := .idle }
  | none => { ingress with gap := gap, receiver := next }

def dequeue (ingress : GraphUpdateIngress) (observed : Bool) : Option GraphUpdateIngress :=
  ingress.channel.recv.map fun (value, channel) =>
    { (ingress.log (.received observed value)) with channel := channel, receiver := .dequeued }

def pollGap (ingress : GraphUpdateIngress) (retry pending : ReceiverTask) : GraphUpdateIngress :=
  if ingress.generation.version ≠ ingress.gap.seenVersion then
    ingress.takePending retry
  else if ingress.producersDropped then
    { ingress with gap := { ingress.gap with reporterClosed := true } }.takePending retry
  else
    { ingress with receiver := pending }

def exhausted (ingress : GraphUpdateIngress) : Bool :=
  ingress.producersDropped || (ingress.channel.closed && ingress.channel.permits = ∅)

def advanceReceiver (ingress : GraphUpdateIngress) : Option GraphUpdateIngress :=
  match ingress.receiver with
  | .idle => none
  | .observing => some (ingress.takePending .polling)
  | .polling =>
    if ingress.gap.reporterClosed then
      some { ingress with receiver := .polled }
    else
      some (ingress.pollGap .observing .polled)
  | .polled =>
    match ingress.dequeue true with
    | some ingress => some ingress
    | none => some { ingress with receiver := if ingress.exhausted then .idle else .polling }
  | .seekingGap =>
    some (ingress.takePending (if ingress.gap.reporterClosed then .idle else .awaitingGap))
  | .awaitingGap => some (ingress.pollGap .seekingGap .awaitingGap)
  | .dequeued =>
    if ingress.channelStateOwner = none then
      match ingress.channelState.recordDequeue with
      | .error message => some { ingress with receiver := .panicked message }
      | .ok channelState => some { ingress with channelState := channelState, receiver := .idle }
    else
      none
  | .dropped => none
  | .panicked _ => none

def step (ingress : GraphUpdateIngress) : IngressAction → Option GraphUpdateIngress
  | .offerBlockCommitted producer update => ingress.offerOrdinary producer (.blockCommitted update)
  | .offerVspcCommitted producer update => ingress.offerOrdinary producer (.vspcCommitted update)
  | .publishCatchup producer => ingress.publishCatchup producer
  | .publishLive producer => ingress.publishLive producer
  | .advance producer => (ingress.producers[producer]?).bind (ingress.advanceTask producer)
  | .cancelLive producer =>
    if ingress.producers[producer]? = some .awaitingPermit then some (ingress.finish producer) else none
  | .dropProducers =>
    if ingress.producers.isEmpty then some { ingress with producersDropped := true } else none
  | .recvUpdate => if ingress.receiver = .idle then ingress.dequeue false else none
  | .nextObservation =>
    if ingress.receiver = .idle then some { ingress with receiver := .observing } else none
  | .waitForGap =>
    if ingress.receiver = .idle then some { ingress with receiver := .seekingGap } else none
  | .takePendingGap => if ingress.receiver = .idle then some (ingress.takePending .idle) else none
  | .acknowledgeGapGeneration =>
    if ingress.receiver = .idle then some (ingress.takePending .idle) else none
  | .advanceReceiver => ingress.advanceReceiver
  | .cancelReceiver =>
    if ingress.receiver = .polling ∨ ingress.receiver = .awaitingGap then
      some { ingress with receiver := .idle }
    else
      none
  | .close =>
    if ingress.receiver = .idle ∧ ingress.channelStateOwner = none then
      some { ingress with
        channel := ingress.channel.close
        channelState := ingress.channelState.recordReceiverClosed }
    else
      none
  | .dropReceiver =>
    if ingress.receiver = .idle ∧ ingress.channelStateOwner = none then
      some { ingress with
        channel := ingress.channel.abandon
        channelState := { ingress.channelState.recordReceiverClosed with currentOccupancy := 0 }
        receiver := .dropped }
    else
      none

end GraphUpdateIngress

end Kgi
