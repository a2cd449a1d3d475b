import GraphInspector.ApiModel.Impl.Graph
import GraphInspector.Storage.Impl.Database

/-!
The levels that an anchored window of a graph projection covers.
-/

namespace Kgi

open Data

structure GraphWindowResolution where
  resolvedLevel : Nat
  effectiveStartLevel : Nat
  effectiveEndLevel : Nat
  deriving DecidableEq, Repr

inductive ProjectionFailure where
  | inconsistentProjection
  | panic (message : String)
  deriving DecidableEq, Repr

abbrev ProjectionRead (α : Type) := Except ProjectionFailure α

def subtractLevels (a b : Nat) : ProjectionRead Nat := do
  ensure (b ≤ a) (.panic "attempt to subtract with overflow")
  pure (a - b)

def saturatingAddLevels (a b : Nat) : Nat :=
  min (a + b) (2 ^ 32 - 1)

def anchoredResolution (resolvedLevel databaseHead maxDepth : Nat) :
    ProjectionRead GraphWindowResolution := do
  let others ← subtractLevels maxDepth 1
  let levelsAbove := others / 2
  let levelsBelow ← subtractLevels others levelsAbove
  let lowLevel := max (resolvedLevel - levelsBelow) 1
  let highLevel := min (saturatingAddLevels resolvedLevel levelsAbove) databaseHead
  let initialSpan ← subtractLevels highLevel lowLevel
  let unusedDepth ← subtractLevels maxDepth (initialSpan + 1)
  let highLevel := min (saturatingAddLevels highLevel unusedDepth) databaseHead
  let shiftedSpan ← subtractLevels highLevel lowLevel
  let remainingDepth ← subtractLevels maxDepth (shiftedSpan + 1)
  let lowLevel := max (lowLevel - remainingDepth) 1
  pure ⟨resolvedLevel, lowLevel, highLevel⟩

end Kgi
