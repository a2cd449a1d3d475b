import GraphInspector.Storage.Impl.Projection

/-!
The window around a resolved level.
-/

namespace Kgi

open Data

theorem subtractLevels_of_le {a b : Nat} (h : b ≤ a) : subtractLevels a b = .ok (a - b) := by
  unfold subtractLevels
  rw [ensure_pos h, ok_bind]
  rfl

theorem min_saturatingAddLevels {a b head : Nat} (hhead : head < 2 ^ 32) :
    min (saturatingAddLevels a b) head = min (a + b) head := by
  unfold saturatingAddLevels
  omega

theorem levelsBelow_eq {maxDepth : Nat} :
    maxDepth - 1 - (maxDepth - 1) / 2 = maxDepth / 2 := by
  omega

theorem anchoredResolution_eq {resolvedLevel databaseHead maxDepth : Nat} (hdepth : 1 ≤ maxDepth)
    (hresolved : 1 ≤ resolvedLevel) (hle : resolvedLevel ≤ databaseHead) (hhead : databaseHead < 2 ^ 32) :
    anchoredResolution resolvedLevel databaseHead maxDepth = .ok
      ⟨resolvedLevel, min (max (resolvedLevel - maxDepth / 2) 1) (max 1 (databaseHead + 1 - maxDepth)),
        min (max (resolvedLevel - maxDepth / 2) 1 + (maxDepth - 1)) databaseHead⟩ := by
  unfold anchoredResolution
  have hhalf : (maxDepth - 1) / 2 ≤ maxDepth - 1 := Nat.div_le_self _ _
  have hlow : max (resolvedLevel - maxDepth / 2) 1 ≤
      min (resolvedLevel + (maxDepth - 1) / 2) databaseHead := by omega
  have hinitial : min (resolvedLevel + (maxDepth - 1) / 2) databaseHead
      - max (resolvedLevel - maxDepth / 2) 1 + 1 ≤ maxDepth := by omega
  -- The depth that the lower side cannot use goes above.
  have hshifted : min (min (resolvedLevel + (maxDepth - 1) / 2) databaseHead
      + (maxDepth - (min (resolvedLevel + (maxDepth - 1) / 2) databaseHead
        - max (resolvedLevel - maxDepth / 2) 1 + 1))) databaseHead
      = min (max (resolvedLevel - maxDepth / 2) 1 + (maxDepth - 1)) databaseHead := by omega
  have hlow' : max (resolvedLevel - maxDepth / 2) 1 ≤
      min (max (resolvedLevel - maxDepth / 2) 1 + (maxDepth - 1)) databaseHead := by omega
  have hremaining : min (max (resolvedLevel - maxDepth / 2) 1 + (maxDepth - 1)) databaseHead
      - max (resolvedLevel - maxDepth / 2) 1 + 1 ≤ maxDepth := by omega
  rw [subtractLevels_of_le hdepth, ok_bind]
  dsimp only
  rw [subtractLevels_of_le hhalf, ok_bind, levelsBelow_eq, min_saturatingAddLevels hhead,
    subtractLevels_of_le hlow, ok_bind, subtractLevels_of_le hinitial, ok_bind,
    min_saturatingAddLevels hhead, hshifted, subtractLevels_of_le hlow', ok_bind,
    subtractLevels_of_le hremaining, ok_bind]
  -- What the upper side cannot use goes below.
  have hstart : max (max (resolvedLevel - maxDepth / 2) 1
      - (maxDepth - (min (max (resolvedLevel - maxDepth / 2) 1 + (maxDepth - 1)) databaseHead
        - max (resolvedLevel - maxDepth / 2) 1 + 1))) 1
      = min (max (resolvedLevel - maxDepth / 2) 1) (max 1 (databaseHead + 1 - maxDepth)) := by omega
  rw [hstart]
  rfl

/--
The window of a resolved level: `min maxDepth databaseHead` levels inside the retained range that contain
it. The balanced window starts `maxDepth / 2` levels below it, and no window of that size inside the range
starts closer to there.
-/
theorem anchoredResolution_balanced (resolvedLevel databaseHead maxDepth : Nat) (hdepth : 1 ≤ maxDepth)
    (hresolved : 1 ≤ resolvedLevel) (hle : resolvedLevel ≤ databaseHead) (hhead : databaseHead < 2 ^ 32) :
    ∃ resolution, anchoredResolution resolvedLevel databaseHead maxDepth = .ok resolution ∧
      resolution.resolvedLevel = resolvedLevel ∧
      1 ≤ resolution.effectiveStartLevel ∧ resolution.effectiveEndLevel ≤ databaseHead ∧
      resolution.effectiveStartLevel ≤ resolvedLevel ∧ resolvedLevel ≤ resolution.effectiveEndLevel ∧
      resolution.effectiveEndLevel + 1 - resolution.effectiveStartLevel = min maxDepth databaseHead ∧
      resolution.effectiveStartLevel
        = min (max (resolvedLevel - (maxDepth - 1 + 1) / 2) 1) (max 1 (databaseHead + 1 - maxDepth)) ∧
      ∀ start : Nat, 1 ≤ start → start + min maxDepth databaseHead ≤ databaseHead + 1 →
        ((resolution.effectiveStartLevel : Int) - (resolvedLevel - (maxDepth - 1 + 1) / 2 : Int)).natAbs ≤
          ((start : Int) - (resolvedLevel - (maxDepth - 1 + 1) / 2 : Int)).natAbs := by
  refine ⟨_, anchoredResolution_eq hdepth hresolved hle hhead, rfl, ?_⟩
  dsimp only
  refine ⟨by omega, by omega, by omega, by omega, by omega, ?_, ?_⟩
  . rw [Nat.sub_add_cancel hdepth]
  . intro start hstart hend
    omega

/--
Near the head the window moves down, and near the first level up.
-/
theorem anchoredResolution_balanced_shifted :
    anchoredResolution 9 10 4 = .ok ⟨9, 7, 10⟩ ∧ anchoredResolution 1 10 4 = .ok ⟨1, 1, 4⟩ ∧
      (∃ resolution, anchoredResolution 9 10 4 = .ok resolution ∧
        resolution.effectiveStartLevel ≤ 9 ∧ 9 ≤ resolution.effectiveEndLevel) := by
  obtain ⟨resolution, hok, _, _, _, hlow, hhigh, _⟩ :=
    anchoredResolution_balanced 9 10 4 (by decide) (by decide) (by decide) (by decide)
  exact ⟨by decide, by decide, resolution, hok, hlow, hhigh⟩

end Kgi
