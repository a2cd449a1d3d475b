import GraphInspector.ApiIngress.Impl.Channel

/-!
Who holds which lock of the graph-update channel, and what the recorded occupancy counts.
-/

namespace Kgi

open Data

def ProducerTask.holdsGate : ProducerTask → Bool
  | .offering _ _ => true
  | .sending _ => true
  | .recording value => value.update ≠ .live
  | .lost _ => true
  | .reporting _ _ => true
  | .awaitingPermit => false
  | .reserved => false
  | .panicked _ => false

namespace GraphUpdateChannelState

variable {state state' : GraphUpdateChannelState}

theorem recordDequeue_eq_ok (h : state.recordDequeue = .ok state') :
    state'.receiverClosed = state.receiverClosed ∧
      state'.reportedGapCount = state.reportedGapCount := by
  unfold recordDequeue at h
  split at h
  . cases h
    exact ⟨rfl, rfl⟩
  . cases h

theorem advanceGapGeneration_eq_ok {generation : Nat}
    (h : state.advanceGapGeneration = .ok (state', generation)) :
    generation = state.reportedGapCount + 1 ∧ state'.reportedGapCount = generation ∧
      state'.receiverClosed = state.receiverClosed ∧
      state'.currentOccupancy = state.currentOccupancy := by
  unfold advanceGapGeneration at h
  split at h
  . cases h
    exact ⟨rfl, rfl, rfl, rfl⟩
  . cases h

theorem recordReceiverClosed_spec (state : GraphUpdateChannelState) :
    state.recordReceiverClosed.receiverClosed = true ∧
      state.recordReceiverClosed.currentOccupancy = state.currentOccupancy ∧
      state.recordReceiverClosed.reportedGapCount = state.reportedGapCount := by
  unfold recordReceiverClosed
  split
  . next h => exact ⟨h, rfl, rfl⟩
  . exact ⟨rfl, rfl, rfl⟩

end GraphUpdateChannelState

namespace GraphUpdateIngress

variable {ingress next : GraphUpdateIngress} {producer : Nat} {task : ProducerTask}

theorem get_setTask (ingress : GraphUpdateIngress) (producer q : Nat) (task : ProducerTask) :
    (ingress.setTask producer task).producers[q]?
      = if producer = q then some task else ingress.producers[q]? :=
  Map.get_insert _ _ _ _

theorem get_finish (ingress : GraphUpdateIngress) (producer q : Nat) :
    (ingress.finish producer).producers[q]? = if producer = q then none else ingress.producers[q]? :=
  Map.get_erase _ _ _

def unrecordedSend (ingress : GraphUpdateIngress) : Nat :=
  if ingress.channelStateOwner = none then 0 else 1

def unrecordedTake (ingress : GraphUpdateIngress) : Nat :=
  if ingress.receiver = .dequeued then 1 else 0

structure Locked (ingress : GraphUpdateIngress) : Prop where
  gate : ∀ (producer : Nat) (task : ProducerTask), ingress.producers[producer]? = some task →
    task.holdsGate = true → ingress.gateOwner = some producer
  recording : ∀ (producer : Nat) (value : QueuedUpdate),
    ingress.producers[producer]? = some (.recording value) →
    ingress.channelStateOwner = some producer ∧ ingress.channelState.receiverClosed = false
  owner : ∀ producer, ingress.channelStateOwner = some producer →
    ∃ value, ingress.producers[producer]? = some (.recording value)
  permits : ∀ producer, producer ∈ ingress.channel.permits ↔
    ingress.producers[producer]? = some .reserved
  closed : ingress.channelState.receiverClosed = ingress.channel.closed
  occupancy : ingress.channelState.currentOccupancy + ingress.unrecordedSend
    = ingress.channel.items.length + ingress.unrecordedTake
  receiver : ∀ message, ingress.receiver ≠ .panicked message

theorem Locked.new : GraphUpdateIngress.new.Locked := by
  constructor
  case gate => intro producer task h; simp [GraphUpdateIngress.new] at h
  case recording => intro producer value h; simp [GraphUpdateIngress.new] at h
  case owner => intro producer h; cases h
  case permits => intro producer; simp [GraphUpdateIngress.new, Channel.new]
  case closed => rfl
  case occupancy => rfl
  case receiver => intro message h; cases h

section Task

variable {entry : Option ProducerTask} (h : ingress.Locked)
include h

theorem Locked.holdsGate_eq_false (hfree : ingress.gateOwner = none)
    (hget : ingress.producers[producer]? = some task) : task.holdsGate = false := by
  cases hgate : task.holdsGate with
  | false => rfl
  | true =>
    have := h.gate producer task hget hgate
    rw [hfree] at this
    cases this

theorem Locked.not_recording (hfree : ingress.channelStateOwner = none) (producer : Nat)
    (value : QueuedUpdate) : ingress.producers[producer]? ≠ some (.recording value) := by
  intro hget
  have := (h.recording producer value hget).1
  rw [hfree] at this
  cases this

theorem Locked.retask
    (hsame : next = { ingress with producers := next.producers, channel := next.channel })
    (hproducers : ∀ q, next.producers[q]? = if producer = q then entry else ingress.producers[q]?)
    (hitems : next.channel.items = ingress.channel.items)
    (hclosed : next.channel.closed = ingress.channel.closed)
    (hpermits : ∀ q, q ∈ next.channel.permits ↔
      if producer = q then entry = some .reserved else q ∈ ingress.channel.permits)
    (hgate : ∀ task, entry = some task → task.holdsGate = true → ingress.gateOwner = some producer)
    (hnew : ∀ value, entry ≠ some (.recording value))
    (hold : ∀ value, ingress.producers[producer]? ≠ some (.recording value)) : next.Locked := by
  rw [hsame]
  constructor
  case gate =>
    intro q other hget hholds
    rw [hproducers] at hget
    split at hget
    . next heq =>
      subst heq
      exact hgate other hget hholds
    . exact h.gate q other hget hholds
  case recording =>
    intro q value hget
    rw [hproducers] at hget
    split at hget
    . exact absurd hget (hnew value)
    . exact h.recording q value hget
  case owner =>
    intro q howner
    obtain ⟨value, hget⟩ := h.owner q howner
    refine ⟨value, ?_⟩
    rw [hproducers, if_neg]
    . exact hget
    . rintro rfl
      exact hold value hget
  case permits =>
    intro q
    rw [hpermits, hproducers]
    split
    . rfl
    . exact h.permits q
  case closed => exact h.closed.trans hclosed.symm
  case occupancy =>
    have hoccupancy := h.occupancy
    rw [← hitems] at hoccupancy
    exact hoccupancy
  case receiver => exact h.receiver

theorem Locked.mem_permits_iff (hentry : entry ≠ some .reserved)
    (hpermit : ingress.producers[producer]? ≠ some .reserved) (q : Nat) :
    q ∈ ingress.channel.permits ↔
      if producer = q then entry = some .reserved else q ∈ ingress.channel.permits := by
  split
  . next heq =>
    subst heq
    exact iff_of_false (fun hmem => hpermit ((h.permits producer).mp hmem)) hentry
  . rfl

theorem Locked.setTask (hnew : ∀ value, task ≠ .recording value) (hreserved : task ≠ .reserved)
    (hgate : task.holdsGate = true → ingress.gateOwner = some producer)
    (hold : ∀ value, ingress.producers[producer]? ≠ some (.recording value))
    (hpermit : ingress.producers[producer]? ≠ some .reserved) :
    (ingress.setTask producer task).Locked := by
  apply h.retask rfl (fun q => get_setTask ingress producer q task) rfl rfl
  . exact h.mem_permits_iff (by simpa using hreserved) hpermit
  . rintro _ ⟨⟩ hholds
    exact hgate hholds
  . simpa using hnew
  . exact hold

theorem Locked.finish (hold : ∀ value, ingress.producers[producer]? ≠ some (.recording value))
    (hpermit : ingress.producers[producer]? ≠ some .reserved) :
    (ingress.finish producer).Locked := by
  apply h.retask rfl (get_finish ingress producer) rfl rfl
  . exact h.mem_permits_iff (by simp) hpermit
  . simp
  . simp
  . exact hold

theorem Locked.log (event : IngressEvent) : (ingress.log event).Locked :=
  ⟨h.gate, h.recording, h.owner, h.permits, h.closed, h.occupancy, h.receiver⟩

theorem Locked.lockGate (hfree : ingress.gateOwner = none) (producer : Nat) :
    (ingress.lockGate producer).Locked where
  gate := by
    intro q task hget hholds
    rw [h.holdsGate_eq_false hfree hget] at hholds
    cases hholds
  recording := h.recording
  owner := h.owner
  permits := h.permits
  closed := h.closed
  occupancy := h.occupancy
  receiver := h.receiver

theorem Locked.unlockGate (howner : ingress.gateOwner = some producer)
    (hgone : ∀ task, ingress.producers[producer]? = some task → task.holdsGate = false) :
    ingress.unlockGate.Locked where
  gate := by
    intro q task hget hholds
    have hq := h.gate q task hget hholds
    rw [howner] at hq
    cases hq
    rw [hgone task hget] at hholds
    cases hholds
  recording := h.recording
  owner := h.owner
  permits := h.permits
  closed := h.closed
  occupancy := h.occupancy
  receiver := h.receiver

end Task

section Producer

variable {value : QueuedUpdate}

theorem idleProducer_iff :
    ingress.idleProducer producer = true ↔
      ingress.producersDropped = false ∧ ingress.producers[producer]? = none := by
  unfold idleProducer
  simp

variable {channel : Channel graphUpdateChannelCapacity Nat QueuedUpdate} (h : ingress.Locked)
include h

theorem Locked.start (hidle : ingress.producers[producer]? = none)
    (hnew : ∀ value, task ≠ .recording value) (hreserved : task ≠ .reserved)
    (hgate : task.holdsGate = true → ingress.gateOwner = some producer) :
    (ingress.setTask producer task).Locked := by
  apply h.setTask hnew hreserved hgate
  . intro value hget
    rw [hidle] at hget
    cases hget
  . intro hget
    rw [hidle] at hget
    cases hget

theorem Locked.offerOrdinary {update : GraphUpdate}
    (hstep : ingress.offerOrdinary producer update = some next) : next.Locked := by
  unfold GraphUpdateIngress.offerOrdinary at hstep
  split at hstep
  . next hfree =>
    cases hstep
    rw [idleProducer_iff] at hfree
    have hlocked : ((ingress.lockGate producer).setTask producer
        (.offering ingress.nextTicket update)).Locked :=
      (h.lockGate hfree.2 producer).start hfree.1.2 (by simp) (by simp) fun _ => rfl
    exact ⟨hlocked.gate, hlocked.recording, hlocked.owner, hlocked.permits, hlocked.closed,
      hlocked.occupancy, hlocked.receiver⟩
  . cases hstep

theorem Locked.publishCatchup (hstep : ingress.publishCatchup producer = some next) :
    next.Locked := by
  unfold GraphUpdateIngress.publishCatchup at hstep
  split at hstep
  . next hfree =>
    rw [idleProducer_iff] at hfree
    split at hstep
    . cases hstep
      exact (h.lockGate hfree.2 producer).start hfree.1.2 (by simp) (by simp) fun _ => rfl
    . cases hstep
      exact (h.lockGate hfree.2 producer).start hfree.1.2 (by simp) (by simp) fun _ => rfl
  . cases hstep

theorem Locked.publishLive (hstep : ingress.publishLive producer = some next) : next.Locked := by
  unfold GraphUpdateIngress.publishLive at hstep
  split at hstep
  . next hfree =>
    rw [idleProducer_iff] at hfree
    split at hstep
    . cases hstep
      exact h.start hfree.1.2 (by simp) (by simp) (by simp [ProducerTask.holdsGate])
    . cases hstep
      exact (h.lockGate hfree.2 producer).start hfree.1.2 (by simp) (by simp) fun _ => rfl
  . cases hstep

section Gate

variable (hget : ingress.producers[producer]? = some task)
include hget

theorem Locked.endUnderGate (hgate : task.holdsGate = true)
    (hnew : ∀ value, task ≠ .recording value) (hreserved : task ≠ .reserved) :
    ((ingress.finish producer).unlockGate).Locked := by
  apply (h.finish _ _).unlockGate (h.gate producer task hget hgate)
  . intro other hother
    rw [get_finish, if_pos rfl] at hother
    cases hother
  . intro value hvalue
    rw [hget] at hvalue
    cases hvalue
    exact hnew value rfl
  . intro hvalue
    rw [hget] at hvalue
    cases hvalue
    exact hreserved rfl

theorem Locked.resetUnderGate {task' : ProducerTask} (hgate : task.holdsGate = true)
    (hold : ∀ value, task ≠ .recording value) (hpermit : task ≠ .reserved)
    (hnew : ∀ value, task' ≠ .recording value) (hreserved : task' ≠ .reserved) :
    (ingress.setTask producer task').Locked := by
  apply h.setTask hnew hreserved (fun _ => h.gate producer task hget hgate)
  . rw [hget]
    simpa using hold
  . rw [hget]
    simpa using hpermit

theorem Locked.send (hgate : task.holdsGate = (ProducerTask.recording value).holdsGate)
    (hfree : ingress.channelStateOwner = none)
    (hopen : ingress.channelState.receiverClosed = false)
    (hitems : channel.items = ingress.channel.items ++ [value])
    (hpermits : channel.permits = ingress.channel.permits.erase producer)
    (hclosed : channel.closed = ingress.channel.closed) :
    (ingress.enqueued producer value channel).Locked := by
  constructor
  case gate =>
    intro q other hother hholds
    have hother : (ingress.setTask producer (.recording value)).producers[q]? = some other := hother
    rw [get_setTask] at hother
    split at hother
    . next heq =>
      cases hother
      subst heq
      exact h.gate producer task hget (hgate.trans hholds)
    . exact h.gate q other hother hholds
  case recording =>
    intro q other hother
    have hother : (ingress.setTask producer (.recording value)).producers[q]? = some (.recording other) :=
      hother
    rw [get_setTask] at hother
    split at hother
    . next heq =>
      subst heq
      exact ⟨rfl, hopen⟩
    . exact absurd hother (h.not_recording hfree q other)
  case owner =>
    intro q howner
    cases howner
    refine ⟨value, ?_⟩
    have := get_setTask ingress producer producer (.recording value)
    rw [if_pos rfl] at this
    exact this
  case permits =>
    intro q
    unfold enqueued
    rw [hpermits, Finset.mem_erase, h.permits q, get_setTask]
    split
    . next heq => simp [heq]
    . next heq =>
      constructor
      . exact fun h' => h'.2
      . exact fun h' => ⟨fun heq' => heq heq'.symm, h'⟩
  case closed => exact h.closed.trans hclosed.symm
  case occupancy =>
    have := h.occupancy
    unfold unrecordedSend unrecordedTake at this ⊢
    unfold enqueued
    rw [hfree, if_pos rfl] at this
    rw [hitems, List.length_append, List.length_singleton, if_neg (by simp)]
    have hreceiver : (ingress.setTask producer (.recording value)).receiver = ingress.receiver := rfl
    have hstate : (ingress.setTask producer (.recording value)).channelState = ingress.channelState :=
      rfl
    rw [hreceiver, hstate]
    omega
  case receiver => exact h.receiver

theorem Locked.not_mem_permits (hne : task ≠ .reserved) :
    ingress.channel.permits.erase producer = ingress.channel.permits := by
  rw [Finset.erase_eq_self, h.permits producer, hget, Option.some.injEq]
  exact hne

end Gate

theorem Locked.receiverClosed (hget : ingress.producers[producer]? = some (.sending value)) :
    (ingress.receiverClosed producer value).Locked := by
  have hended := h.endUnderGate hget rfl (by simp) (by simp)
  unfold GraphUpdateIngress.receiverClosed
  split
  . exact hended.log _
  . exact hended

theorem Locked.trySend (hget : ingress.producers[producer]? = some (.sending value))
    (hvalue : value.update ≠ .live) (hfree : ingress.channelStateOwner = none) :
    (ingress.trySend producer value).Locked := by
  unfold GraphUpdateIngress.trySend
  split
  . exact h.receiverClosed hget
  . next hopen =>
    split
    . next channel hsend =>
      obtain ⟨hitems, hpermits, hclosed⟩ := Channel.trySend_eq_ok hsend
      apply h.send hget _ hfree (by simpa using hopen) hitems _ hclosed
      . simp [ProducerTask.holdsGate, hvalue]
      . rw [hpermits, h.not_mem_permits hget (by simp)]
    . exact h.receiverClosed hget
    . split
      . exact (h.resetUnderGate hget rfl (by simp) (by simp) (by simp) (by simp)).log _
      . exact h.resetUnderGate hget rfl (by simp) (by simp) (by simp) (by simp)

theorem Locked.reserve (hget : ingress.producers[producer]? = some .awaitingPermit)
    (hreserve : ingress.channel.reserve producer = some channel) :
    GraphUpdateIngress.Locked { (ingress.setTask producer .reserved) with channel := channel } := by
  obtain ⟨hitems, hpermits, hclosed⟩ := Channel.reserve_eq_some hreserve
  refine h.retask rfl (fun q => get_setTask ingress producer q .reserved) hitems hclosed ?_ ?_ ?_ ?_
  . intro q
    rw [hpermits, Finset.mem_insert]
    split
    . next heq => simp [heq]
    . next hne => exact or_iff_right fun heq => hne heq.symm
  . rintro _ ⟨⟩ hholds
    cases hholds
  . simp
  . rw [hget]
    simp

theorem Locked.releasePermit (hget : ingress.producers[producer]? = some .reserved) :
    GraphUpdateIngress.Locked { (ingress.finish producer) with
      channel := ingress.channel.release producer } := by
  refine h.retask rfl (get_finish ingress producer) rfl rfl ?_ ?_ ?_ ?_
  . intro q
    unfold Channel.release
    rw [Finset.mem_erase]
    split
    . next heq => simp [heq]
    . next hne => exact and_iff_right fun heq => hne heq.symm
  . simp
  . simp
  . rw [hget]
    simp

theorem Locked.recordEnqueue_eq_ok :
    ∃ state, ingress.channelState.recordEnqueue = .ok state ∧
      state.currentOccupancy = ingress.channelState.currentOccupancy + 1 ∧
      state.receiverClosed = ingress.channelState.receiverClosed ∧
      state.reportedGapCount = ingress.channelState.reportedGapCount := by
  have hbound := ingress.channel.bounded
  have hoccupancy := h.occupancy
  unfold unrecordedTake unrecordedSend at hoccupancy
  have hlt : ingress.channelState.currentOccupancy < usizeMax := by
    have htake : (if ingress.receiver = .dequeued then 1 else 0) ≤ 1 := by
      split
      . exact Nat.le_refl 1
      . exact Nat.zero_le 1
    unfold usizeMax
    unfold graphUpdateChannelCapacity at hbound
    omega
  unfold GraphUpdateChannelState.recordEnqueue
  rw [if_pos hlt]
  exact ⟨_, rfl, rfl, rfl, rfl⟩

theorem Locked.recordSent (hget : ingress.producers[producer]? = some (.recording value)) :
    (ingress.recordSent producer value).Locked := by
  obtain ⟨state, hstate, hcount, hclosed, -⟩ := h.recordEnqueue_eq_ok
  obtain ⟨howner, hopen⟩ := h.recording producer value hget
  -- The task was the only one to record a value.
  have hothers : ∀ (q : Nat) (other : ProducerTask),
      (ingress.finish producer).producers[q]? = some other →
      ingress.producers[q]? = some other ∧ q ≠ producer := by
    intro q other hother
    rw [get_finish] at hother
    split at hother
    . cases hother
    . next hne => exact ⟨hother, fun heq => hne heq.symm⟩
  unfold GraphUpdateIngress.recordSent
  rw [hstate]
  constructor
  case gate =>
    intro q other hother hholds
    obtain ⟨hother, hne⟩ := hothers q other hother
    have hq := h.gate q other hother hholds
    dsimp only
    split
    . exact hq
    . next hlive =>
      have hp := h.gate producer _ hget (by simp [ProducerTask.holdsGate, hlive])
      rw [hp] at hq
      cases hq
      exact absurd rfl hne
  case recording =>
    intro q other hother
    obtain ⟨hother, hne⟩ := hothers q _ hother
    have hq := (h.recording q other hother).1
    rw [howner] at hq
    cases hq
    exact absurd rfl hne
  case owner =>
    intro q hq
    cases hq
  case permits =>
    intro q
    dsimp only
    rw [get_finish]
    have hpermits := h.permits q
    split
    . next heq =>
      subst heq
      rw [hget] at hpermits
      exact hpermits.trans (by simp)
    . exact hpermits
  case closed => exact hclosed.trans h.closed
  case occupancy =>
    have hoccupancy := h.occupancy
    unfold unrecordedSend unrecordedTake at hoccupancy ⊢
    rw [if_neg (by rw [howner]; simp)] at hoccupancy
    have hreceiver : (ingress.finish producer).receiver = ingress.receiver := rfl
    have hitems : (ingress.finish producer).channel.items = ingress.channel.items := rfl
    rw [hcount, if_pos rfl, hreceiver, hitems]
    omega
  case receiver => exact h.receiver

theorem Locked.advanceTask (hget : ingress.producers[producer]? = some task)
    (hvalue : ∀ value, task = .sending value → value.update ≠ .live)
    (hstep : ingress.advanceTask producer task = some next) : next.Locked := by
  cases task with
  | offering ticket update =>
    dsimp only [GraphUpdateIngress.advanceTask] at hstep
    split at hstep
    . cases hstep
      exact h.endUnderGate hget rfl (by simp) (by simp)
    . cases hstep
      exact h.resetUnderGate hget rfl (by simp) (by simp) (by simp) (by simp)
  | sending value =>
    dsimp only [GraphUpdateIngress.advanceTask] at hstep
    split at hstep
    . next hfree =>
      cases hstep
      exact h.trySend hget (hvalue value rfl) hfree
    . cases hstep
  | recording value =>
    cases hstep
    exact h.recordSent hget
  | lost ticket =>
    dsimp only [GraphUpdateIngress.advanceTask] at hstep
    split at hstep
    . split at hstep
      . cases hstep
        exact h.resetUnderGate hget rfl (by simp) (by simp) (by simp) (by simp)
      . next state generation hadvance =>
        cases hstep
        obtain ⟨-, -, hclosed, hcount⟩ := GraphUpdateChannelState.advanceGapGeneration_eq_ok hadvance
        have hreporting : (ingress.setTask producer (.reporting ticket generation)).Locked :=
          h.resetUnderGate hget rfl (by simp) (by simp) (by simp) (by simp)
        refine ⟨hreporting.gate, ?_, hreporting.owner, hreporting.permits,
          hclosed.trans hreporting.closed, ?_, hreporting.receiver⟩
        . intro q value hvalue
          obtain ⟨howner, hopen⟩ := hreporting.recording q value hvalue
          exact ⟨howner, hclosed.trans hopen⟩
        . have hoccupancy := hreporting.occupancy
          rw [hcount]
          exact hoccupancy
    . cases hstep
  | reporting ticket generation =>
    cases hstep
    have hended := h.endUnderGate hget rfl (by simp) (by simp)
    exact ⟨hended.gate, hended.recording, hended.owner, hended.permits, hended.closed,
      hended.occupancy, hended.receiver⟩
  | awaitingPermit =>
    dsimp only [GraphUpdateIngress.advanceTask] at hstep
    split at hstep
    . cases hstep
      apply h.finish
      . rw [hget]
        simp
      . rw [hget]
        simp
    . rw [Option.map_eq_some_iff] at hstep
      obtain ⟨channel, hreserve, rfl⟩ := hstep
      exact h.reserve hget hreserve
  | reserved =>
    dsimp only [GraphUpdateIngress.advanceTask] at hstep
    split at hstep
    . next hfree =>
      split at hstep
      . cases hstep
        exact h.releasePermit hget
      . next hopen =>
        rw [Option.map_eq_some_iff] at hstep
        obtain ⟨channel, hsend, rfl⟩ := hstep
        obtain ⟨hitems, hpermits, hclosed⟩ := Channel.sendReserved_eq_some hsend
        exact h.send hget rfl hfree (by simpa using hopen) hitems hpermits hclosed
    . cases hstep
  | panicked message => cases hstep

end Producer

section Receiver

section Take

variable {receiver : ReceiverTask} (h : ingress.Locked) (hnow : ingress.receiver ≠ .dequeued)
variable (hnext : receiver ≠ .dequeued) (hpanicked : ∀ message, receiver ≠ .panicked message)
include h hnow hnext hpanicked

theorem Locked.setReceiver (gap : GraphUpdateGap) :
    GraphUpdateIngress.Locked { ingress with gap := gap, receiver := receiver } where
  gate := h.gate
  recording := h.recording
  owner := h.owner
  permits := h.permits
  closed := h.closed
  occupancy := by
    have hoccupancy := h.occupancy
    unfold unrecordedSend unrecordedTake at hoccupancy ⊢
    rw [if_neg hnow] at hoccupancy
    rw [if_neg hnext]
    exact hoccupancy
  receiver := hpanicked

theorem Locked.takePending : (ingress.takePending receiver).Locked := by
  unfold GraphUpdateIngress.takePending
  dsimp only
  split
  . exact (h.log _).setReceiver hnow (by simp) (by simp) _
  . exact h.setReceiver hnow hnext hpanicked _

end Take

theorem Locked.pollGap (h : ingress.Locked) {retry pending : ReceiverTask}
    (hnow : ingress.receiver ≠ .dequeued) (hretry : retry ≠ .dequeued) (hpending : pending ≠ .dequeued)
    (hretry' : ∀ message, retry ≠ .panicked message)
    (hpending' : ∀ message, pending ≠ .panicked message) :
    (ingress.pollGap retry pending).Locked := by
  unfold GraphUpdateIngress.pollGap
  split
  . exact h.takePending hnow hretry hretry'
  . split
    . exact (h.setReceiver hnow hnow h.receiver { ingress.gap with reporterClosed := true }).takePending
        hnow hretry hretry'
    . exact h.setReceiver hnow hpending hpending' ingress.gap

theorem Locked.dequeue (h : ingress.Locked) {observed : Bool} (hnow : ingress.receiver ≠ .dequeued)
    (hstep : ingress.dequeue observed = some next) : next.Locked := by
  unfold GraphUpdateIngress.dequeue at hstep
  rw [Option.map_eq_some_iff] at hstep
  obtain ⟨⟨value, channel⟩, hrecv, rfl⟩ := hstep
  obtain ⟨hitems, hpermits, hclosed⟩ := Channel.recv_eq_some hrecv
  constructor
  case gate => exact h.gate
  case recording => exact h.recording
  case owner => exact h.owner
  case permits =>
    intro q
    rw [hpermits]
    exact h.permits q
  case closed => exact h.closed.trans hclosed.symm
  case occupancy =>
    have hoccupancy := h.occupancy
    unfold unrecordedSend unrecordedTake at hoccupancy ⊢
    rw [if_neg hnow, hitems, List.length_cons] at hoccupancy
    rw [if_pos rfl]
    exact hoccupancy
  case receiver => simp

theorem Locked.recordDequeue (h : ingress.Locked) (hnow : ingress.receiver = .dequeued)
    (hfree : ingress.channelStateOwner = none) :
    ∃ state, ingress.channelState.recordDequeue = .ok state ∧
      GraphUpdateIngress.Locked { ingress with channelState := state, receiver := .idle } := by
  have hoccupancy := h.occupancy
  unfold unrecordedSend unrecordedTake at hoccupancy
  rw [if_pos hfree, if_pos hnow] at hoccupancy
  unfold GraphUpdateChannelState.recordDequeue
  rw [if_pos (by omega)]
  refine ⟨_, rfl, ⟨h.gate, h.recording, h.owner, h.permits, h.closed, ?_, by simp⟩⟩
  unfold unrecordedSend unrecordedTake
  dsimp only
  rw [if_pos hfree, if_neg (by simp)]
  omega

theorem Locked.advanceReceiver (h : ingress.Locked) (hstep : ingress.advanceReceiver = some next) :
    next.Locked := by
  unfold GraphUpdateIngress.advanceReceiver at hstep
  split at hstep
  . cases hstep
  . next hnow =>
    cases hstep
    exact h.takePending (by simp [hnow]) (by simp) (by simp)
  . next hnow =>
    split at hstep
    . cases hstep
      exact h.setReceiver (by simp [hnow]) (by simp) (by simp) ingress.gap
    . cases hstep
      exact h.pollGap (by simp [hnow]) (by simp) (by simp) (by simp) (by simp)
  . next hnow =>
    split at hstep
    . next hdequeue =>
      cases hstep
      exact h.dequeue (by simp [hnow]) hdequeue
    . cases hstep
      apply h.setReceiver (by simp [hnow]) _ _ ingress.gap
      . split
        . simp
        . simp
      . split
        . simp
        . simp
  . next hnow =>
    cases hstep
    apply h.takePending (by simp [hnow])
    . split
      . simp
      . simp
    . split
      . simp
      . simp
  . next hnow =>
    cases hstep
    exact h.pollGap (by simp [hnow]) (by simp) (by simp) (by simp) (by simp)
  . next hnow =>
    split at hstep
    . next hfree =>
      obtain ⟨state, hrecord, hlocked⟩ := h.recordDequeue hnow hfree
      rw [hrecord] at hstep
      cases hstep
      exact hlocked
    . cases hstep
  . cases hstep
  . cases hstep

end Receiver

end GraphUpdateIngress

end Kgi
