import GraphInspector.ApiModel.Impl.Graph

/-!
Composition of deltas over adjacent revision intervals.
-/

namespace Kgi

open Data

inductive GraphDeltaCompositionError where
  | revisionMismatch (leftToRevisionId rightFromRevisionId : Nat)
  deriving DecidableEq, Repr

def followLevelChange (change : LevelChange) (current : Option (Option Level × Option Level)) :
    Option (Option Level × Option Level) :=
  match current with
  | some (before, _) => some (before, change.after)
  | none => some (change.before, change.after)

def composeLevelChanges (left right : List LevelChange) : List LevelChange :=
  let changes := left.foldl
    (fun (changes : Map Nat (Option Level × Option Level)) change =>
      changes.insert change.level (change.before, change.after)) ∅
  let changes := right.foldl
    (fun (changes : Map Nat (Option Level × Option Level)) change =>
      changes.alter change.level (followLevelChange change)) changes
  changes.toList.filterMap fun entry =>
    if entry.2.1 ≠ entry.2.2 then some ⟨entry.1, entry.2.1, entry.2.2⟩ else none

def followFieldChange {α : Type} (change : FieldChange α) (current : Option (FieldChange α)) :
    Option (FieldChange α) :=
  match current with
  | some current => some { current with after := change.after }
  | none => some change

def composeFieldChanges {α : Type} [DecidableEq α] (left right : Map BlockHash (FieldChange α)) :
    Map BlockHash (FieldChange α) :=
  let composed := right.toList.foldl
    (fun (composed : Map BlockHash (FieldChange α)) entry =>
      composed.alter entry.1 (followFieldChange entry.2)) left
  Map.mapEntries composed fun _ change => if change.before ≠ change.after then some change else none

def GraphDelta.compose (delta next : GraphDelta) :
    Panics (Except GraphDeltaCompositionError GraphDelta) :=
  if delta.toRevisionId ≠ next.fromRevisionId then
    .ok (.error (.revisionMismatch delta.toRevisionId next.fromRevisionId))
  else
    match GraphDelta.new delta.fromRevisionId next.toRevisionId next.revisionTimestampMs next.headLevel
      (Map.extend delta.blockChanges next.blockChanges)
      (Map.extend delta.edgeChanges next.edgeChanges)
      (composeLevelChanges delta.levelChanges next.levelChanges)
      (composeFieldChanges delta.isInVspcChanges next.isInVspcChanges)
      (composeFieldChanges delta.colorChanges next.colorChanges) with
    | .ok composed => .ok (.ok composed)
    | .error _ => .error "gapless valid deltas compose into a valid forward interval"

inductive DeltaGrouping where
  | single (delta : GraphDelta)
  | pair (left right : DeltaGrouping)

namespace DeltaGrouping

def deltas : DeltaGrouping → List GraphDelta
  | .single delta => [delta]
  | .pair left right => left.deltas ++ right.deltas

def compose : DeltaGrouping → Panics (Except GraphDeltaCompositionError GraphDelta)
  | .single delta => .ok (.ok delta)
  | .pair left right => do
    let left ← left.compose
    let right ← right.compose
    match left, right with
    | .ok left, .ok right => left.compose right
    | .error error, _ => return .error error
    | .ok _, .error error => return .error error

end DeltaGrouping

end Kgi
