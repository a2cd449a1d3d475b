import GraphInspector.ApiIngress.Lemmas.Order

/-!
How the loss of an update reaches the receiver.
-/

namespace Kgi

open Data

def IngressEvent.isLate (ticket : Nat) : IngressEvent → Bool
  | .received true value => value.ticket.any fun later => ticket < later
  | _ => false

def IngressEvent.isGap : IngressEvent → Bool
  | .gap _ => true
  | _ => false

namespace ProducerTask

def withholds (ticket : Nat) : ProducerTask → Bool
  | .lost latest => latest = ticket
  | .reporting latest _ => latest = ticket
  | .panicked _ => true
  | _ => false

end ProducerTask

namespace GraphUpdateIngress

variable {ticket : Nat}

def Withheld (ingress : GraphUpdateIngress) (ticket : Nat) : Prop :=
  ticket + 1 = ingress.nextTicket ∧ ∃ (producer : Nat) (task : ProducerTask),
    ingress.gateOwner = some producer ∧ ingress.producers[producer]? = some task ∧
    task.withholds ticket = true

def Pending (ingress : GraphUpdateIngress) : Prop :=
  ingress.gap.observedGeneration < ingress.generation.value

def Committed (ingress : GraphUpdateIngress) : Prop :=
  ingress.receiver = .polling ∨ ingress.receiver = .polled

def lateCount (ticket : Nat) (events : List IngressEvent) : Nat :=
  events.countP (IngressEvent.isLate ticket)

structure Disclosed (ingress : GraphUpdateIngress) : Prop where
  observed_le : ingress.gap.observedGeneration ≤ ingress.generation.value
  generation_le : ingress.generation.value ≤ ingress.channelState.reportedGapCount
  reporting : ∀ (producer ticket generation : Nat),
    ingress.producers[producer]? = some (.reporting ticket generation) →
    ingress.generation.value < generation ∧ generation = ingress.channelState.reportedGapCount
  losses : ∀ before ticket after, ingress.trace = before ++ .dropped ticket :: after →
    (∀ event ∈ after, event.isGap = false) →
    (ingress.Withheld ticket ∨ ingress.Pending) ∧ lateCount ticket after ≤ 1 ∧
      (ingress.Committed → lateCount ticket after = 0)

variable {ingress next : GraphUpdateIngress} {producer : Nat} {task : ProducerTask}

theorem Disclosed.new : GraphUpdateIngress.new.Disclosed := by
  constructor
  case observed_le => exact Nat.le_refl 0
  case generation_le => exact Nat.le_refl 0
  case reporting => intro producer ticket generation h; simp [GraphUpdateIngress.new] at h
  case losses => intro before ticket after h; simp [GraphUpdateIngress.new] at h

theorem split_append_singleton {α : Type} {trace before after : List α} {event loss : α}
    (h : trace ++ [event] = before ++ loss :: after) :
    (before = trace ∧ loss = event ∧ after = []) ∨
      ∃ rest, after = rest ++ [event] ∧ trace = before ++ loss :: rest := by
  obtain rfl | ⟨rest, last, rfl⟩ := List.eq_nil_or_concat' after
  . obtain ⟨htrace, hevent⟩ := List.append_inj' h rfl
    cases hevent
    exact Or.inl ⟨htrace.symm, rfl, rfl⟩
  . rw [← List.cons_append, ← List.append_assoc] at h
    obtain ⟨htrace, hevent⟩ := List.append_inj' h rfl
    cases hevent
    exact Or.inr ⟨rest, rfl, htrace⟩

theorem Withheld.of_eq (h : ingress.Withheld ticket) (hticket : next.nextTicket = ingress.nextTicket)
    (howner : ∀ q, ingress.gateOwner = some q → next.gateOwner = some q)
    (htasks : ∀ (q : Nat) (other : ProducerTask), ingress.gateOwner = some q →
      ingress.producers[q]? = some other → other.withholds ticket = true →
      ∃ other' : ProducerTask, next.producers[q]? = some other' ∧ other'.withholds ticket = true) :
    next.Withheld ticket := by
  obtain ⟨hlatest, q, other, hq, hget, hwithholds⟩ := h
  obtain ⟨other', hget', hwithholds'⟩ := htasks q other hq hget hwithholds
  exact ⟨hlatest.trans hticket.symm, q, other', howner q hq, hget', hwithholds'⟩

structure Quiet (ingress next : GraphUpdateIngress) : Prop where
  observed : next.gap.observedGeneration = ingress.gap.observedGeneration
  generation : next.generation.value = ingress.generation.value
  reported : ingress.channelState.reportedGapCount ≤ next.channelState.reportedGapCount
  reporting : ∀ (q ticket generation : Nat),
    next.producers[q]? = some (.reporting ticket generation) →
    next.generation.value < generation ∧ generation = next.channelState.reportedGapCount
  withheld : ∀ ticket, ingress.Withheld ticket → next.Withheld ticket ∨ next.Pending
  committed : next.Committed → ingress.Committed

theorem Quiet.outstanding (hquiet : ingress.Quiet next) (h : ingress.Withheld ticket ∨ ingress.Pending) :
    next.Withheld ticket ∨ next.Pending := by
  obtain hwithheld | hpending := h
  . exact hquiet.withheld ticket hwithheld
  . refine Or.inr ?_
    unfold Pending
    rw [hquiet.observed, hquiet.generation]
    exact hpending

theorem Quiet.disclosed (hquiet : ingress.Quiet next) (h : ingress.Disclosed)
    (hlosses : ∀ before ticket after, next.trace = before ++ .dropped ticket :: after →
      (∀ event ∈ after, event.isGap = false) →
      (next.Withheld ticket ∨ next.Pending) ∧ lateCount ticket after ≤ 1 ∧
        (next.Committed → lateCount ticket after = 0)) : next.Disclosed where
  observed_le := by
    rw [hquiet.observed, hquiet.generation]
    exact h.observed_le
  generation_le := by
    rw [hquiet.generation]
    exact h.generation_le.trans hquiet.reported
  reporting := hquiet.reporting
  losses := hlosses

theorem Disclosed.quiet (h : ingress.Disclosed) (htrace : next.trace = ingress.trace)
    (hquiet : ingress.Quiet next) : next.Disclosed := by
  apply hquiet.disclosed h
  intro before ticket after hsplit hgap
  rw [htrace] at hsplit
  obtain ⟨hpending, hone, hzero⟩ := h.losses before ticket after hsplit hgap
  exact ⟨hquiet.outstanding hpending, hone, fun hcommitted => hzero (hquiet.committed hcommitted)⟩

theorem lateCount_append_singleton (ticket : Nat) (events : List IngressEvent) (event : IngressEvent) :
    lateCount ticket (events ++ [event])
      = lateCount ticket events + if event.isLate ticket then 1 else 0 := by
  unfold lateCount
  rw [List.countP_append, List.countP_singleton]

theorem Disclosed.quietLog {event : IngressEvent} (h : ingress.Disclosed)
    (hquiet : ingress.Quiet next) (htrace : next.trace = ingress.trace ++ [event])
    (hloss : ∀ ticket, event ≠ .dropped ticket)
    (hlate : ∀ ticket, event.isLate ticket = true → ingress.Committed ∧ ¬ next.Committed) :
    next.Disclosed := by
  apply hquiet.disclosed h
  intro before ticket after hsplit hgap
  rw [htrace] at hsplit
  obtain ⟨-, hevent, -⟩ | ⟨rest, rfl, hrest⟩ := split_append_singleton hsplit
  . exact absurd hevent.symm (hloss ticket)
  . obtain ⟨hpending, hone, hzero⟩ := h.losses before ticket rest hrest
      fun e he => hgap e (List.mem_append_left _ he)
    rw [lateCount_append_singleton]
    refine ⟨hquiet.outstanding hpending, ?_, ?_⟩
    . split
      . next hevent => rw [hzero (hlate ticket hevent).1]
      . exact hone
    . intro hcommitted
      split
      . next hevent => exact absurd hcommitted (hlate ticket hevent).2
      . exact hzero (hquiet.committed hcommitted)

structure SameReports (ingress next : GraphUpdateIngress) : Prop where
  gap : next.gap.observedGeneration = ingress.gap.observedGeneration
  generation : next.generation = ingress.generation
  reported : next.channelState.reportedGapCount = ingress.channelState.reportedGapCount
  receiver : next.Committed → ingress.Committed

structure Retasks (ingress next : GraphUpdateIngress) (producer : Nat) : Prop where
  others : ∀ q : Nat, q ≠ producer → next.producers[q]? = ingress.producers[q]?
  new : ∀ ticket generation : Nat,
    next.producers[producer]? ≠ some (.reporting ticket generation)

theorem Retasks.setTask (hproducers : next.producers = (ingress.setTask producer task).producers)
    (hnew : ∀ ticket generation, task ≠ .reporting ticket generation) :
    ingress.Retasks next producer where
  others := by
    intro q hq
    rw [hproducers, get_setTask, if_neg fun heq => hq heq.symm]
  new := by
    intro ticket generation
    rw [hproducers, get_setTask, if_pos rfl, Ne, Option.some.injEq]
    exact hnew ticket generation

theorem Retasks.finish (hproducers : next.producers = (ingress.finish producer).producers) :
    ingress.Retasks next producer where
  others := by
    intro q hq
    rw [hproducers, get_finish, if_neg fun heq => hq heq.symm]
  new := by
    intro ticket generation
    rw [hproducers, get_finish, if_pos rfl]
    simp

theorem Disclosed.quiet_of_task (h : ingress.Disclosed) (hsame : ingress.SameReports next)
    (hretasks : ingress.Retasks next producer)
    (hwithheld : ∀ ticket, ingress.Withheld ticket →
      next.nextTicket = ingress.nextTicket ∧ next.gateOwner = ingress.gateOwner ∧
      ∀ task, ingress.producers[producer]? = some task → task.withholds ticket = false) :
    ingress.Quiet next where
  observed := hsame.gap
  generation := by rw [hsame.generation]
  reported := hsame.reported.ge
  reporting := by
    intro q ticket generation hget
    by_cases hq : q = producer
    . subst hq
      exact absurd hget (hretasks.new ticket generation)
    . rw [hretasks.others q hq] at hget
      rw [hsame.generation, hsame.reported]
      exact h.reporting q ticket generation hget
  withheld := by
    intro ticket hheld
    obtain ⟨hticket, howner, hold⟩ := hwithheld ticket hheld
    refine Or.inl (hheld.of_eq hticket ?_ ?_)
    . rw [howner]
      exact fun _ hq => hq
    . intro q other _ hget hholds
      refine ⟨other, ?_, hholds⟩
      rw [hretasks.others q]
      . exact hget
      . rintro rfl
        rw [hold other hget] at hholds
        cases hholds
  committed := hsame.receiver

theorem not_withheld_of_free (hfree : ingress.gateOwner = none) (ticket : Nat) :
    ¬ ingress.Withheld ticket := by
  rintro ⟨-, q, task, hq, -⟩
  rw [hfree] at hq
  cases hq

theorem Locked.not_withheld (hlocked : ingress.Locked) (hget : ingress.producers[producer]? = some task)
    (hgate : task.holdsGate = true) (hnot : task.withholds ticket = false) : ¬ ingress.Withheld ticket := by
  rintro ⟨-, q, other, hq, hother, hholds⟩
  rw [hlocked.gate producer task hget hgate] at hq
  cases hq
  rw [hget] at hother
  cases hother
  rw [hnot] at hholds
  cases hholds

theorem get_setTask_self (ingress : GraphUpdateIngress) (producer : Nat) (task : ProducerTask) :
    (ingress.setTask producer task).producers[producer]? = some task := by
  rw [get_setTask, if_pos rfl]

section Producer

variable {value : QueuedUpdate}

section Offer

variable (h : ingress.Disclosed)
include h

theorem Disclosed.offerOrdinary {update : GraphUpdate}
    (hstep : ingress.offerOrdinary producer update = some next) : next.Disclosed := by
  unfold GraphUpdateIngress.offerOrdinary at hstep
  split at hstep
  . next hfree =>
    cases hstep
    apply h.quietLog _ rfl
    . intro ticket hevent
      cases hevent
    . intro ticket hlate
      cases hlate
    . refine h.quiet_of_task ⟨rfl, rfl, rfl, id⟩ (Retasks.setTask rfl (by simp)) ?_
      intro ticket hheld
      exact absurd hheld (not_withheld_of_free hfree.2 ticket)
  . cases hstep

theorem Disclosed.start (hfree : ingress.gateOwner = none) (hsame : ingress.SameReports next)
    (htrace : next.trace = ingress.trace) (hretasks : ingress.Retasks next producer) :
    next.Disclosed := by
  apply h.quiet htrace
  apply h.quiet_of_task hsame hretasks
  intro ticket hheld
  exact absurd hheld (not_withheld_of_free hfree ticket)

theorem Disclosed.publishCatchup (hstep : ingress.publishCatchup producer = some next) :
    next.Disclosed := by
  unfold GraphUpdateIngress.publishCatchup at hstep
  split at hstep
  . next hfree =>
    split at hstep
    . cases hstep
      exact h.start hfree.2 ⟨rfl, rfl, rfl, id⟩ rfl (Retasks.setTask rfl (by simp))
    . cases hstep
      exact h.start hfree.2 ⟨rfl, rfl, rfl, id⟩ rfl (Retasks.setTask rfl (by simp))
  . cases hstep

theorem Disclosed.publishLive (hstep : ingress.publishLive producer = some next) :
    next.Disclosed := by
  unfold GraphUpdateIngress.publishLive at hstep
  split at hstep
  . next hfree =>
    split at hstep
    . cases hstep
      exact h.start hfree.2 ⟨rfl, rfl, rfl, id⟩ rfl (Retasks.setTask rfl (by simp))
    . cases hstep
      exact h.start hfree.2 ⟨rfl, rfl, rfl, id⟩ rfl (Retasks.setTask rfl (by simp))
  . cases hstep

theorem Disclosed.quiet_under_gate (hlocked : ingress.Locked)
    (hget : ingress.producers[producer]? = some task) (hgate : task.holdsGate = true)
    (hnot : ∀ ticket, task.withholds ticket = false) (hsame : ingress.SameReports next)
    (hretasks : ingress.Retasks next producer) : ingress.Quiet next := by
  apply h.quiet_of_task hsame hretasks
  intro ticket hheld
  exact absurd hheld (hlocked.not_withheld hget hgate (hnot ticket))

theorem Disclosed.quiet_beside_gate (hget : ingress.producers[producer]? = some task)
    (hnot : ∀ ticket, task.withholds ticket = false)
    (hticket : next.nextTicket = ingress.nextTicket) (howner : next.gateOwner = ingress.gateOwner)
    (hsame : ingress.SameReports next) (hretasks : ingress.Retasks next producer) :
    ingress.Quiet next := by
  apply h.quiet_of_task hsame hretasks
  intro ticket _
  refine ⟨hticket, howner, ?_⟩
  intro other hother
  rw [hget] at hother
  cases hother
  exact hnot ticket

end Offer

section Send

variable {generation : Nat} (h : ingress.Disclosed) (hlocked : ingress.Locked)
include h hlocked

theorem Disclosed.receiverClosed (hget : ingress.producers[producer]? = some (.sending value)) :
    (ingress.receiverClosed producer value).Disclosed := by
  have hquiet : ∀ {next : GraphUpdateIngress}, ingress.SameReports next →
      ingress.Retasks next producer → ingress.Quiet next :=
    fun hsame hretasks => h.quiet_under_gate hlocked hget rfl (fun _ => rfl) hsame hretasks
  unfold GraphUpdateIngress.receiverClosed
  split
  . apply h.quietLog _ rfl
    . intro ticket hevent
      cases hevent
    . intro ticket hlate
      cases hlate
    . exact hquiet ⟨rfl, rfl, rfl, id⟩ (Retasks.finish rfl)
  . apply h.quiet
    . rfl
    . exact hquiet ⟨rfl, rfl, rfl, id⟩ (Retasks.finish rfl)

theorem Disclosed.lose {update : GraphUpdate} (hlatest : ticket + 1 = ingress.nextTicket)
    (hget : ingress.producers[producer]? = some (.sending ⟨some ticket, update⟩)) :
    ((ingress.setTask producer (.lost ticket)).log (.dropped ticket)).Disclosed := by
  have hquiet : ingress.Quiet ((ingress.setTask producer (.lost ticket)).log (.dropped ticket)) := by
    refine h.quiet_under_gate hlocked hget rfl (fun _ => rfl) ⟨rfl, rfl, rfl, id⟩ ?_
    exact Retasks.setTask rfl (by simp)
  apply hquiet.disclosed h
  intro before lost after hsplit hgap
  obtain ⟨-, hevent, rfl⟩ | ⟨rest, rfl, hrest⟩ := split_append_singleton hsplit
  . cases hevent
    refine ⟨Or.inl ⟨hlatest, producer, .lost ticket, ?_, ?_, ?_⟩, Nat.zero_le 1, fun _ => rfl⟩
    . exact hlocked.gate producer _ hget rfl
    . exact get_setTask_self ingress producer _
    . simp [ProducerTask.withholds]
  . obtain ⟨hpending, hone, hzero⟩ := h.losses before lost rest hrest
      fun event hmem => hgap event (List.mem_append_left _ hmem)
    rw [lateCount_append_singleton]
    exact ⟨hquiet.outstanding hpending, hone, hzero⟩

theorem Disclosed.trySend (hordered : ingress.Ordered)
    (hget : ingress.producers[producer]? = some (.sending value)) :
    (ingress.trySend producer value).Disclosed := by
  have hquiet : ∀ {next : GraphUpdateIngress}, ingress.SameReports next →
      ingress.Retasks next producer → ingress.Quiet next :=
    fun hsame hretasks => h.quiet_under_gate hlocked hget rfl (fun _ => rfl) hsame hretasks
  unfold GraphUpdateIngress.trySend
  split
  . exact h.receiverClosed hlocked hget
  . split
    . apply h.quiet
      . rfl
      . exact hquiet ⟨rfl, rfl, rfl, id⟩ (Retasks.setTask rfl (by simp))
    . exact h.receiverClosed hlocked hget
    . obtain ⟨ticket, update⟩ := value
      cases ticket with
      | some ticket => exact h.lose hlocked (hordered.tasks producer _ hget).1.latest hget
      | none =>
        apply h.quiet
        . rfl
        . exact hquiet ⟨rfl, rfl, rfl, id⟩ (Retasks.setTask rfl (by simp))

theorem Disclosed.recordSent (hget : ingress.producers[producer]? = some (.recording value)) :
    (ingress.recordSent producer value).Disclosed := by
  obtain ⟨state, hstate, -, -, hreported⟩ := hlocked.recordEnqueue_eq_ok
  unfold GraphUpdateIngress.recordSent
  rw [hstate]
  apply h.quiet
  . rfl
  by_cases hlive : value.update = .live
  . apply h.quiet_beside_gate hget (fun _ => rfl)
    . rfl
    . exact if_pos hlive
    . exact ⟨rfl, rfl, hreported, id⟩
    . exact Retasks.finish rfl
  . apply h.quiet_under_gate hlocked hget _ (fun _ => rfl)
    . exact ⟨rfl, rfl, hreported, id⟩
    . exact Retasks.finish rfl
    . simp [ProducerTask.holdsGate, hlive]

theorem Disclosed.count {channelState : GraphUpdateChannelState}
    (hget : ingress.producers[producer]? = some (.lost ticket))
    (hadvance : ingress.channelState.advanceGapGeneration = .ok (channelState, generation)) :
    GraphUpdateIngress.Disclosed { (ingress.setTask producer (.reporting ticket generation)) with
      channelState := channelState } := by
  obtain ⟨hgeneration, hreported, -, -⟩ :=
    GraphUpdateChannelState.advanceGapGeneration_eq_ok hadvance
  apply h.quiet
  . rfl
  constructor
  case observed => rfl
  case generation => rfl
  case reported =>
    dsimp only
    omega
  case reporting =>
    intro q lost other hother
    have hother : (ingress.setTask producer (.reporting ticket generation)).producers[q]?
        = some (.reporting lost other) := hother
    rw [get_setTask] at hother
    split at hother
    . cases hother
      have hle := h.generation_le
      refine ⟨?_, hreported.symm⟩
      exact Nat.lt_of_le_of_lt hle (by omega)
    . next hne =>
      have hq := hlocked.gate q _ hother rfl
      rw [hlocked.gate producer _ hget rfl] at hq
      cases hq
      exact absurd rfl hne
  case withheld =>
    intro lost hheld
    refine Or.inl (hheld.of_eq rfl (fun _ hq => hq) ?_)
    intro q other hq hother hholds
    rw [hlocked.gate producer _ hget rfl] at hq
    cases hq
    rw [hget] at hother
    cases hother
    exact ⟨.reporting ticket generation, get_setTask_self ingress producer _, hholds⟩
  case committed => exact fun hcommitted => hcommitted

theorem Disclosed.publish
    (hget : ingress.producers[producer]? = some (.reporting ticket generation)) :
    GraphUpdateIngress.Disclosed { (ingress.finish producer).unlockGate with
      generation := ingress.generation.sendReplace generation } := by
  obtain ⟨hlt, hreported⟩ := h.reporting producer ticket generation hget
  have hobserved := h.observed_le
  constructor
  case observed_le => exact Nat.le_of_lt (Nat.lt_of_le_of_lt hobserved hlt)
  case generation_le => exact hreported.le
  case reporting =>
    intro q lost other hother
    have hother : (ingress.finish producer).producers[q]? = some (.reporting lost other) := hother
    rw [get_finish] at hother
    split at hother
    . cases hother
    . next hne =>
      have hq := hlocked.gate q _ hother rfl
      rw [hlocked.gate producer _ hget rfl] at hq
      cases hq
      exact absurd rfl hne
  case losses =>
    intro before lost after hsplit hgap
    obtain ⟨-, hone, hzero⟩ := h.losses before lost after hsplit hgap
    exact ⟨Or.inr (Nat.lt_of_le_of_lt hobserved hlt), hone, hzero⟩

theorem Disclosed.workUnderGate (hget : ingress.producers[producer]? = some task)
    (hgate : task.holdsGate = true) (hnot : ∀ ticket, task.withholds ticket = false)
    (hsame : ingress.SameReports next) (htrace : next.trace = ingress.trace)
    (hretasks : ingress.Retasks next producer) : next.Disclosed :=
  h.quiet htrace (h.quiet_under_gate hlocked hget hgate hnot hsame hretasks)

end Send

theorem Disclosed.workBesideGate (h : ingress.Disclosed)
    (hget : ingress.producers[producer]? = some task)
    (hnot : ∀ ticket, task.withholds ticket = false) (hticket : next.nextTicket = ingress.nextTicket)
    (howner : next.gateOwner = ingress.gateOwner) (hsame : ingress.SameReports next)
    (htrace : next.trace = ingress.trace) (hretasks : ingress.Retasks next producer) :
    next.Disclosed :=
  h.quiet htrace (h.quiet_beside_gate hget hnot hticket howner hsame hretasks)

theorem Disclosed.advanceTask (h : ingress.Disclosed) (hlocked : ingress.Locked)
    (hordered : ingress.Ordered) (hget : ingress.producers[producer]? = some task)
    (hstep : ingress.advanceTask producer task = some next) : next.Disclosed := by
  cases task with
  | offering ticket update =>
    dsimp only [GraphUpdateIngress.advanceTask] at hstep
    split at hstep
    . cases hstep
      refine h.workUnderGate hlocked hget rfl (fun _ => rfl) ⟨rfl, rfl, rfl, id⟩ rfl ?_
      exact Retasks.finish rfl
    . cases hstep
      refine h.workUnderGate hlocked hget rfl (fun _ => rfl) ⟨rfl, rfl, rfl, id⟩ rfl ?_
      exact Retasks.setTask rfl (by simp)
  | sending value =>
    dsimp only [GraphUpdateIngress.advanceTask] at hstep
    split at hstep
    . cases hstep
      exact h.trySend hlocked hordered hget
    . cases hstep
  | recording value =>
    cases hstep
    exact h.recordSent hlocked hget
  | lost ticket =>
    dsimp only [GraphUpdateIngress.advanceTask] at hstep
    split at hstep
    . split at hstep
      . next message _ =>
        cases hstep
        apply h.quiet
        . rfl
        constructor
        case observed => rfl
        case generation => rfl
        case reported => exact Nat.le_refl _
        case reporting =>
          intro q lost other hother
          rw [get_setTask] at hother
          split at hother
          . cases hother
          . exact h.reporting q lost other hother
        case withheld =>
          intro lost hheld
          refine Or.inl (hheld.of_eq rfl (fun _ hq => hq) ?_)
          intro q other hq hother hholds
          rw [hlocked.gate producer _ hget rfl] at hq
          cases hq
          exact ⟨.panicked message, get_setTask_self ingress producer _, rfl⟩
        case committed => exact fun hcommitted => hcommitted
      . next hadvance =>
        cases hstep
        exact h.count hlocked hget hadvance
    . cases hstep
  | reporting ticket generation =>
    cases hstep
    exact h.publish hlocked hget
  | awaitingPermit =>
    dsimp only [GraphUpdateIngress.advanceTask] at hstep
    split at hstep
    . cases hstep
      refine h.workBesideGate hget (fun _ => rfl) rfl rfl ⟨rfl, rfl, rfl, id⟩ rfl ?_
      exact Retasks.finish rfl
    . rw [Option.map_eq_some_iff] at hstep
      obtain ⟨channel, -, rfl⟩ := hstep
      refine h.workBesideGate hget (fun _ => rfl) rfl rfl ⟨rfl, rfl, rfl, id⟩ rfl ?_
      exact Retasks.setTask rfl (by simp)
  | reserved =>
    dsimp only [GraphUpdateIngress.advanceTask] at hstep
    split at hstep
    . split at hstep
      . cases hstep
        refine h.workBesideGate hget (fun _ => rfl) rfl rfl ⟨rfl, rfl, rfl, id⟩ rfl ?_
        exact Retasks.finish rfl
      . rw [Option.map_eq_some_iff] at hstep
        obtain ⟨channel, -, rfl⟩ := hstep
        refine h.workBesideGate hget (fun _ => rfl) rfl rfl ⟨rfl, rfl, rfl, id⟩ rfl ?_
        exact Retasks.setTask rfl (by simp)
    . cases hstep
  | panicked message => cases hstep

end Producer

section Receiver

theorem Disclosed.quiet_of_receiver (h : ingress.Disclosed)
    (hproducers : next.producers = ingress.producers) (hticket : next.nextTicket = ingress.nextTicket)
    (howner : next.gateOwner = ingress.gateOwner) (hsame : ingress.SameReports next) :
    ingress.Quiet next where
  observed := hsame.gap
  generation := by rw [hsame.generation]
  reported := hsame.reported.ge
  reporting := by
    rw [hproducers, hsame.generation, hsame.reported]
    exact h.reporting
  withheld := by
    intro ticket hheld
    refine Or.inl (hheld.of_eq hticket ?_ ?_)
    . rw [howner]
      exact fun _ hq => hq
    . intro q other _ hget hholds
      rw [hproducers]
      exact ⟨other, hget, hholds⟩
  committed := hsame.receiver

theorem Disclosed.setReceiver (h : ingress.Disclosed) (hsame : ingress.SameReports next)
    (htrace : next.trace = ingress.trace) (hproducers : next.producers = ingress.producers)
    (hticket : next.nextTicket = ingress.nextTicket) (howner : next.gateOwner = ingress.gateOwner) :
    next.Disclosed := by
  apply h.quiet htrace
  exact h.quiet_of_receiver hproducers hticket howner hsame

theorem Withheld.lateCount_eq_zero {before after : List IngressEvent} (hheld : ingress.Withheld ticket)
    (hordered : ingress.Ordered) (hsplit : ingress.trace = before ++ .dropped ticket :: after) :
    lateCount ticket after = 0 := by
  unfold lateCount
  rw [List.countP_eq_zero]
  intro event hmem hlate
  cases event with
  | received observed value =>
    cases observed with
    | false => cases hlate
    | true =>
      unfold IngressEvent.isLate at hlate
      rw [Option.any_eq_true] at hlate
      obtain ⟨later, hticket, hlt⟩ := hlate
      have hreceived : value ∈ ingress.receivedValues := by
        unfold receivedValues
        rw [List.mem_filterMap]
        refine ⟨.received true value, ?_, rfl⟩
        rw [hsplit]
        exact List.mem_append_right _ (List.mem_cons_of_mem _ hmem)
      have hlater := hordered.accepted_ticket_lt
        (List.mem_filterMap.mpr ⟨value, List.mem_append_left _ hreceived, hticket⟩)
      rw [← hheld.1] at hlater
      have hlt : ticket < later := by simpa using hlt
      omega
  | offered _ _ => cases hlate
  | dropped _ => cases hlate
  | catchupFailed => cases hlate
  | gap _ => cases hlate

theorem Disclosed.takePending (h : ingress.Disclosed) (hordered : ingress.Ordered)
    (receiver : ReceiverTask) : (ingress.takePending receiver).Disclosed := by
  unfold GraphUpdateIngress.takePending
  dsimp only [GraphUpdateGap.takePending]
  by_cases hsame : ingress.generation.value = ingress.gap.observedGeneration
  . rw [if_pos hsame]
    constructor
    case observed_le => exact Nat.le_refl _
    case generation_le => exact h.generation_le
    case reporting => exact h.reporting
    case losses =>
      intro before ticket after hsplit hgap
      obtain ⟨hpending, hone, -⟩ := h.losses before ticket after hsplit hgap
      -- Nothing is published, so the loss is withheld.
      have hheld : ingress.Withheld ticket := by
        obtain hheld | hpending := hpending
        . exact hheld
        . unfold Pending at hpending
          omega
      exact ⟨Or.inl hheld, hone, fun _ => hheld.lateCount_eq_zero hordered hsplit⟩
  . rw [if_neg hsame]
    constructor
    case observed_le => exact Nat.le_refl _
    case generation_le => exact h.generation_le
    case reporting => exact h.reporting
    case losses =>
      intro before ticket after hsplit hgap
      obtain ⟨-, hevent, -⟩ | ⟨rest, rfl, -⟩ := split_append_singleton hsplit
      . cases hevent
      . have := hgap _ (List.mem_append_right _ List.mem_cons_self)
        cases this

theorem Disclosed.pollGap (h : ingress.Disclosed) (hordered : ingress.Ordered)
    {retry pending : ReceiverTask}
    (hpending : pending = .polled → ingress.Committed) (hpolling : pending ≠ .polling) :
    (ingress.pollGap retry pending).Disclosed := by
  unfold GraphUpdateIngress.pollGap
  split
  . exact h.takePending hordered retry
  . split
    . apply takePending
      . exact h.setReceiver ⟨rfl, rfl, rfl, id⟩ rfl rfl rfl rfl
      . apply hordered.keepTasks
        . exact Keeps.of_eq rfl rfl rfl rfl rfl
        . rfl
    . apply h.setReceiver
      . refine ⟨rfl, rfl, rfl, ?_⟩
        rintro (hnext | hnext)
        . exact absurd hnext hpolling
        . exact hpending hnext
      . rfl
      . rfl
      . rfl
      . rfl

theorem Disclosed.dequeue (h : ingress.Disclosed) {observed : Bool}
    (hcommitted : observed = true → ingress.Committed)
    (hstep : ingress.dequeue observed = some next) : next.Disclosed := by
  unfold GraphUpdateIngress.dequeue at hstep
  rw [Option.map_eq_some_iff] at hstep
  obtain ⟨⟨value, channel⟩, -, rfl⟩ := hstep
  have hfree : ¬ { (ingress.log (.received observed value)) with
      channel := channel, receiver := .dequeued }.Committed := by
    rintro (hnext | hnext)
    . cases hnext
    . cases hnext
  have hlate : ∀ ticket, (IngressEvent.received observed value).isLate ticket = true →
      ingress.Committed := by
    intro ticket hlate
    cases observed with
    | false => cases hlate
    | true => exact hcommitted rfl
  apply h.quietLog
  . apply h.quiet_of_receiver
    . rfl
    . rfl
    . rfl
    . exact ⟨rfl, rfl, rfl, fun hnext => absurd hnext hfree⟩
  . rfl
  . simp
  . exact fun ticket hticket => ⟨hlate ticket hticket, hfree⟩

theorem Disclosed.advanceReceiver (h : ingress.Disclosed) (hordered : ingress.Ordered)
    (hstep : ingress.advanceReceiver = some next) : next.Disclosed := by
  have hset : ∀ (receiver : ReceiverTask) (channelState : GraphUpdateChannelState),
      channelState.reportedGapCount = ingress.channelState.reportedGapCount →
      (receiver = .polling ∨ receiver = .polled → ingress.Committed) →
      { ingress with channelState := channelState, receiver := receiver }.Disclosed := by
    intro receiver channelState hreported hcommitted
    exact h.setReceiver ⟨rfl, rfl, hreported, hcommitted⟩ rfl rfl rfl rfl
  unfold GraphUpdateIngress.advanceReceiver at hstep
  split at hstep
  . cases hstep
  . cases hstep
    exact h.takePending hordered _
  . next hpolling =>
    split at hstep
    . cases hstep
      exact hset _ _ rfl fun _ => Or.inl hpolling
    . cases hstep
      exact h.pollGap hordered (fun _ => Or.inl hpolling) (by simp)
  . next hpolled =>
    split at hstep
    . next hdequeue =>
      cases hstep
      exact h.dequeue (fun _ => Or.inr hpolled) hdequeue
    . cases hstep
      exact hset _ _ rfl fun _ => Or.inr hpolled
  . cases hstep
    exact h.takePending hordered _
  . cases hstep
    exact h.pollGap hordered (by simp) (by simp)
  . split at hstep
    . split at hstep
      . cases hstep
        exact hset _ _ rfl (by simp)
      . next hrecord =>
        cases hstep
        obtain ⟨-, hreported⟩ := GraphUpdateChannelState.recordDequeue_eq_ok hrecord
        exact hset _ _ hreported (by simp)
    . cases hstep
  . cases hstep
  . cases hstep

end Receiver

end GraphUpdateIngress

end Kgi
