import Mathlib.Data.Finset.Card

/-!
Bounded queues with nonblocking sends, channels whose places can be reserved before a value is sent, and
cells that are watched for new values.
-/

namespace Data

universe u v

inductive TrySendError where
  | full
  | closed
  deriving DecidableEq, Repr

/--
A bounded queue. A closed queue accepts nothing, and keeps what it holds.
-/
structure Queue (α : Type u) where
  items : List α
  capacity : Nat
  closed : Bool
  deriving DecidableEq, Repr

namespace Queue

variable {α : Type u}

def new (capacity : Nat) : Queue α := ⟨[], capacity, false⟩

def trySend (queue : Queue α) (item : α) : Except TrySendError (Queue α) :=
  if queue.closed then
    .error .closed
  else if queue.items.length < queue.capacity then
    .ok { queue with items := queue.items ++ [item] }
  else
    .error .full

def tryRecv (queue : Queue α) : Option (α × Queue α) :=
  match queue.items with
  | [] => none
  | item :: items => some (item, { queue with items := items })

variable {queue queue' : Queue α} {item : α}

theorem trySend_items (h : queue.trySend item = .ok queue') :
    queue'.items = queue.items ++ [item] := by
  unfold trySend at h
  split at h
  . cases h
  . split at h
    . cases h
      rfl
    . cases h

theorem tryRecv_items (h : queue.tryRecv = some (item, queue')) :
    queue.items = item :: queue'.items := by
  unfold tryRecv at h
  split at h
  . cases h
  . next items =>
    cases h
    assumption

end Queue

/--
A bounded channel of `n` places. A permit keeps a place for a value its holder sends later.
-/
structure Channel (n : Nat) (P : Type u) (α : Type v) where
  items : List α
  permits : Finset P
  closed : Bool
  bounded : items.length + permits.card ≤ n

namespace Channel

variable {n : Nat} {P : Type u} {α : Type v} {item : α}

def new (n : Nat) : Channel n P α where
  items := []
  permits := ∅
  closed := false
  bounded := Nat.zero_le n

def trySend (channel : Channel n P α) (item : α) : Except TrySendError (Channel n P α) :=
  if channel.closed then
    .error .closed
  else if h : channel.items.length + channel.permits.card < n then
    .ok { channel with
      items := channel.items ++ [item]
      bounded := by
        rw [List.length_append, List.length_singleton]
        omega }
  else
    .error .full

def reserve [DecidableEq P] (channel : Channel n P α) (holder : P) : Option (Channel n P α) :=
  if h : channel.items.length + channel.permits.card < n then
    some { channel with
      permits := insert holder channel.permits
      bounded := by
        have := Finset.card_insert_le holder channel.permits
        omega }
  else
    none

def release [DecidableEq P] (channel : Channel n P α) (holder : P) : Channel n P α :=
  { channel with
    permits := channel.permits.erase holder
    bounded := by
      have := Finset.card_erase_le (s := channel.permits) (a := holder)
      have := channel.bounded
      omega }

def sendReserved [DecidableEq P] (channel : Channel n P α) (holder : P) (item : α) : Option (Channel n P α) :=
  if h : holder ∈ channel.permits then
    some { channel with
      items := channel.items ++ [item]
      permits := channel.permits.erase holder
      bounded := by
        have := Finset.card_erase_lt_of_mem h
        have := channel.bounded
        rw [List.length_append, List.length_singleton]
        omega }
  else
    none

def recv (channel : Channel n P α) : Option (α × Channel n P α) :=
  match h : channel.items with
  | [] => none
  | item :: items =>
    some (item, { channel with
      items := items
      bounded := by
        have := channel.bounded
        rw [h, List.length_cons] at this
        omega })

def close (channel : Channel n P α) : Channel n P α :=
  { channel with closed := true }

def abandon (channel : Channel n P α) : Channel n P α where
  items := []
  permits := channel.permits
  closed := true
  bounded := by
    have := channel.bounded
    rw [List.length_nil]
    omega

variable {channel channel' : Channel n P α}

theorem trySend_eq_ok (h : channel.trySend item = .ok channel') :
    channel'.items = channel.items ++ [item] ∧ channel'.permits = channel.permits ∧
      channel'.closed = channel.closed := by
  unfold trySend at h
  split at h
  . cases h
  . split at h
    . cases h
      exact ⟨rfl, rfl, rfl⟩
    . cases h

theorem trySend_of_lt (item : α) (hopen : channel.closed = false)
    (hroom : channel.items.length + channel.permits.card < n) :
    ∃ channel', channel.trySend item = .ok channel' := by
  unfold trySend
  rw [if_neg (by simp [hopen]), dif_pos hroom]
  exact ⟨_, rfl⟩

theorem trySend_of_le (item : α) (hopen : channel.closed = false)
    (hfull : n ≤ channel.items.length + channel.permits.card) :
    channel.trySend item = .error .full := by
  unfold trySend
  rw [if_neg (by simp [hopen]), dif_neg (by omega)]

theorem trySend_eq_closed (h : channel.trySend item = .error .closed) :
    channel.closed = true := by
  unfold trySend at h
  split at h
  . assumption
  . split at h
    . cases h
    . cases h

theorem reserve_eq_some [DecidableEq P] {holder : P} (h : channel.reserve holder = some channel') :
    channel'.items = channel.items ∧ channel'.permits = insert holder channel.permits ∧
      channel'.closed = channel.closed := by
  unfold reserve at h
  split at h
  . cases h
    exact ⟨rfl, rfl, rfl⟩
  . cases h

theorem sendReserved_eq_some [DecidableEq P] {holder : P}
    (h : channel.sendReserved holder item = some channel') :
    channel'.items = channel.items ++ [item] ∧ channel'.permits = channel.permits.erase holder ∧
      channel'.closed = channel.closed := by
  unfold sendReserved at h
  split at h
  . cases h
    exact ⟨rfl, rfl, rfl⟩
  . cases h

theorem recv_eq_some (h : channel.recv = some (item, channel')) :
    channel.items = item :: channel'.items ∧ channel'.permits = channel.permits ∧
      channel'.closed = channel.closed := by
  unfold recv at h
  split at h
  . cases h
  . next items hitems =>
    cases h
    exact ⟨hitems, rfl, rfl⟩

theorem recv_of_cons {items : List α} (h : channel.items = item :: items) :
    ∃ channel', channel.recv = some (item, channel') := by
  unfold recv
  split
  . next hnil =>
    rw [h] at hnil
    cases hnil
  . next hcons =>
    rw [h] at hcons
    cases hcons
    exact ⟨_, rfl⟩

end Channel

/--
A cell with a number that changes whenever a value is stored.
-/
structure Watch (α : Type u) where
  value : α
  version : Nat
  deriving DecidableEq, Repr

def Watch.sendReplace {α : Type u} (watch : Watch α) (value : α) : Watch α :=
  ⟨value, watch.version + 1⟩

end Data
