import GraphInspector.Data.Outcome
import GraphInspector.Data.Run
import GraphInspector.Model.Block

/-!
The gate between API read leases and the replacement of the database. Every function is one locked
section of the gate.
-/

namespace Kgi

open Data

inductive GateState.Admission where
  | opened
  | closed (epoch : Nat)
  deriving DecidableEq, Repr

inductive GateFailure where
  | replacementControl (diagnostic : String)
  | panic (message : String)
  deriving DecidableEq, Repr

structure GateState where
  admission : GateState.Admission
  controlAvailable : Bool
  nextEpoch : Nat
  nextLeaseId : Nat
  activeLeases : Map Nat Bool
  deriving DecidableEq

namespace GateState

def new : GateState where
  admission := .opened
  controlAvailable := true
  nextEpoch := 1
  nextLeaseId := 1
  activeLeases := ∅

def ensureControlAvailable (state : GateState) : Except GateFailure Unit :=
  ensure (state.controlAvailable = true) (.replacementControl "API replacement gate is unavailable")

def ensureCurrentAttempt (state : GateState) (epoch : Nat) : Except GateFailure Unit := do
  state.ensureControlAvailable
  ensure (state.admission = .closed epoch) (.replacementControl "stale API replacement attempt")

def tryAcquireLease (state : GateState) : Except GateFailure (GateState × Option Nat) := do
  state.ensureControlAvailable
  match state.admission with
  | .closed _ => pure (state, none)
  | .opened => do
    let leaseId := state.nextLeaseId
    ensure (leaseId < u64Max) (.panic "API database read-lease identifiers fit u64")
    pure ({ state with
      nextLeaseId := leaseId + 1
      activeLeases := state.activeLeases.insert leaseId false }, some leaseId)

def beginReplacement (state : GateState) : Except GateFailure (GateState × Nat) := do
  state.ensureControlAvailable
  let epoch := state.nextEpoch
  ensure (epoch < u64Max) (.panic "API replacement epochs fit u64")
  pure ({ state with
    nextEpoch := epoch + 1
    admission := .closed epoch
    activeLeases := Map.mapEntries state.activeLeases fun _ _ => some true }, epoch)

def release (state : GateState) (leaseId : Nat) : GateState :=
  { state with activeLeases := state.activeLeases.erase leaseId }

def activeIsEmpty (state : GateState) (epoch : Nat) : Except GateFailure Bool := do
  state.ensureCurrentAttempt epoch
  pure state.activeLeases.isEmpty

def openAdmission (state : GateState) (epoch : Nat) : Except GateFailure GateState := do
  state.ensureControlAvailable
  ensure (state.admission = .closed epoch ∧ state.activeLeases.isEmpty = true)
    (.replacementControl "API replacement attempt cannot open admission")
  pure { state with admission := .opened }

end GateState

structure ReplacementSystem where
  gate : GateState
  attempts : List Nat
  exclusives : List Nat
  deriving DecidableEq

inductive ReplacementEvent where
  | acquireLease
  | releaseLease (leaseId : Nat)
  | beginReplacement
  /-- One turn of the loop that waits for the leases to drain. -/
  | acquireExclusive (epoch : Nat)
  | dropAttempt (epoch : Nat)
  | openGate (epoch : Nat)
  | dropExclusive (epoch : Nat)
  deriving DecidableEq, Repr

namespace ReplacementSystem

def new : ReplacementSystem := ⟨.new, [], []⟩

/--
One locked section. An event needs the handle it uses, and opening consumes the capability even if the
gate refuses. A failed section changes nothing.
-/
def step (state : ReplacementSystem) (event : ReplacementEvent) : Option ReplacementSystem :=
  match event with
  | .acquireLease =>
    match state.gate.tryAcquireLease with
    | .ok (gate, _) => some { state with gate := gate }
    | .error _ => some state
  | .releaseLease leaseId => some { state with gate := state.gate.release leaseId }
  | .beginReplacement =>
    match state.gate.beginReplacement with
    | .ok (gate, epoch) => some { state with gate := gate, attempts := epoch :: state.attempts }
    | .error _ => some state
  | .acquireExclusive epoch =>
    if epoch ∈ state.attempts then
      match state.gate.activeIsEmpty epoch with
      | .ok true => some { state with exclusives := epoch :: state.exclusives }
      | .ok false => some state
      | .error _ => some state
    else
      none
  | .dropAttempt epoch =>
    if epoch ∈ state.attempts then some { state with attempts := state.attempts.erase epoch }
    else none
  | .openGate epoch =>
    if epoch ∈ state.exclusives then
      match state.gate.openAdmission epoch with
      | .ok gate => some { state with gate := gate, exclusives := state.exclusives.erase epoch }
      | .error _ => some { state with exclusives := state.exclusives.erase epoch }
    else
      none
  | .dropExclusive epoch =>
    if epoch ∈ state.exclusives then some { state with exclusives := state.exclusives.erase epoch }
    else none

end ReplacementSystem

end Kgi
