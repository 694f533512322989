import Fcore.Mesh.Registry
import Fcore.Mesh.Store

/-!
# The window of timestamps

A signed request is accepted when its timestamp is at most five minutes away from the clock.
The relay and the mesh module of the api make the same check, in arithmetic that wraps: at the
distance of half the range of the integers the absolute value is negative, and from almost the
whole range on the difference is small again.
-/

namespace Fcore

namespace MeshRegistry

inductive MeshError where
  | badInput (msg : String)
  | unknownUin
  | badSignature
  | badTimestamp
  | inboxFull
  deriving DecidableEq, Repr

def tsSkewSecs : Int64 := 300

def checkTs (ts now : Int64) : Except MeshError Unit :=
  if tsSkewSecs < (now - ts).abs then .error .badTimestamp else .ok ()

end MeshRegistry

/-- The absolute value of the least integer is the least integer. -/
theorem toInt_abs (x : Int64) :
    x.abs.toInt = if x.toInt = -2 ^ 63 then -2 ^ 63 else (x.toInt.natAbs : ℤ) := by
  have hmin : x.toBitVec = BitVec.intMin 64 ↔ x.toInt = -2 ^ 63 := by
    rw [← BitVec.toInt_inj]
    exact Iff.rfl
  have habs : x.abs.toInt = x.toBitVec.abs.toInt := rfl
  rw [habs, BitVec.toInt_abs_eq_natAbs, if_congr hmin rfl rfl]
  rfl

/-- The comparison that both checks make. -/
theorem skew_le_iff (ts now : Int64) :
    ¬ 300 < (now - ts).abs ↔ (now.toInt - ts.toInt).natAbs ≤ 300 ∨
      (now.toInt - ts.toInt).natAbs = 2 ^ 63 ∨ 2 ^ 64 - 300 ≤ (now.toInt - ts.toInt).natAbs := by
  have hts := And.intro (Int64.le_toInt ts) (Int64.toInt_lt ts)
  have hnow := And.intro (Int64.le_toInt now) (Int64.toInt_lt now)
  have hsub := Int64.toInt_sub now ts
  rw [Int64.lt_iff_toInt_lt, toInt_abs, hsub, Int.bmod_def]
  change ¬ 300 < _ ↔ _
  split <;> split <;> omega

/-- The window is exact as long as the distance is neither half the range nor almost the whole
range of the integers. -/
theorem checkTs_exact_iff (ts now : Int64) :
    (Mesh.checkTs ts now = .ok () ↔ (now.toInt - ts.toInt).natAbs ≤ 300) ∧
        (MeshRegistry.checkTs ts now = .ok () ↔ (now.toInt - ts.toInt).natAbs ≤ 300) ↔
      (now.toInt - ts.toInt).natAbs ≠ 2 ^ 63 ∧ (now.toInt - ts.toInt).natAbs < 2 ^ 64 - 300 := by
  have hcheck : ∀ {ε : Type} (e : ε), (if (300 : Int64) < (now - ts).abs then
      (.error e : Except ε Unit) else .ok ()) = .ok () ↔ ¬ 300 < (now - ts).abs := by
    split <;> simp [*]
  have hstore : Mesh.checkTs ts now = .ok () ↔ ¬ 300 < (now - ts).abs := hcheck _
  have hapi : MeshRegistry.checkTs ts now = .ok () ↔ ¬ 300 < (now - ts).abs := hcheck _
  rw [hstore, hapi, and_self_iff, skew_le_iff]
  omega

/-- A timestamp of half the range in the past is accepted. -/
theorem checkTs_half_range :
    ¬ ((Mesh.checkTs (1700000000 - 2 ^ 63) 1700000000 = .ok () ↔
        ((1700000000 : Int64).toInt - (1700000000 - 2 ^ 63 : Int64).toInt).natAbs ≤ 300) ∧
      (MeshRegistry.checkTs (1700000000 - 2 ^ 63) 1700000000 = .ok () ↔
        ((1700000000 : Int64).toInt - (1700000000 - 2 ^ 63 : Int64).toInt).natAbs ≤ 300)) := by
  decide +kernel

end Fcore
