import Mathlib.Algebra.Order.Ring.Abs
import Mathlib.Data.List.Nodup
import Mathlib.Data.Rat.Cast.Order
import Mathlib.Tactic.Linarith
import Mathlib.Tactic.NormNum

/-!
# Machinery/Compass — the sixteen points of the compass

The points stand `22.5` degrees apart, clockwise from the north, and a direction belongs to the one
it is nearest to (`point_eq_iff`): no whole number of degrees is as near to two of them.
-/

namespace Compass

variable {d : ℤ} {p : ℕ}

/-- The points, clockwise. -/
def names : List String :=
  ["North", "North-Northeast", "Northeast", "East-Northeast", "East", "East-Southeast", "Southeast",
    "South-Southeast", "South", "South-Southwest", "Southwest", "West-Southwest", "West",
    "West-Northwest", "Northwest", "North-Northwest"]

/-- The number of the point a direction is nearest to, in degrees. -/
def point (d : ℤ) : ℕ := ((4 * d + 45) / 90 % 16).toNat

/-- The name of the point a direction is nearest to. -/
def name (d : ℤ) : String := names.getD (point d) ""

theorem point_lt (d : ℤ) : point d < 16 := by
  rw [point]
  omega

theorem sector_iff {k : ℤ} : |(d : ℚ) - (22.5 * p + 360 * k)| < 11.25 ↔
    90 * p + 1440 * k - 45 < 4 * d ∧ 4 * d < 90 * p + 1440 * k + 45 := by
  rw [abs_lt]
  constructor
  · rintro ⟨hleft, hright⟩
    have hleft' : ((90 * p + 1440 * k - 45 : ℤ) : ℚ) < (4 * d : ℤ) := by
      push_cast
      linarith
    have hright' : ((4 * d : ℤ) : ℚ) < (90 * p + 1440 * k + 45 : ℤ) := by
      push_cast
      linarith
    exact ⟨Int.cast_lt.mp hleft', Int.cast_lt.mp hright'⟩
  · rintro ⟨hleft, hright⟩
    have hleft' : ((90 * p + 1440 * k - 45 : ℤ) : ℚ) < (4 * d : ℤ) := Int.cast_lt.mpr hleft
    have hright' : ((4 * d : ℤ) : ℚ) < (90 * p + 1440 * k + 45 : ℤ) := Int.cast_lt.mpr hright
    push_cast at hleft' hright'
    constructor <;> linarith

/-- **A direction is in the sector of `22.5` degrees around its point**, and in no other. -/
theorem point_eq_iff (hp : p < 16) :
    point d = p ↔ ∃ k : ℤ, |(d : ℚ) - (22.5 * p + 360 * k)| < 11.25 := by
  constructor
  · intro h
    rw [point] at h
    refine ⟨(4 * d + 45) / 90 / 16, sector_iff.mpr ?_⟩
    omega
  · rintro ⟨k, hk⟩
    obtain ⟨hleft, hright⟩ := sector_iff.mp hk
    have hsector : (4 * d + 45) / 90 = p + 16 * k := by omega
    rw [point, hsector]
    omega

/-- Full turns come back to the point. -/
theorem point_add_turns (d k : ℤ) : point (d + 360 * k) = point d := by
  have hsector : (4 * (d + 360 * k) + 45) / 90 = (4 * d + 45) / 90 + 16 * k := by omega
  rw [point, hsector, Int.add_mul_emod_self_left, point]

/-- **Half a turn leads to the opposite point.** -/
theorem point_add_half (d : ℤ) : point (d + 180) = (point d + 8) % 16 := by
  have hsector : (4 * (d + 180) + 45) / 90 = (4 * d + 45) / 90 + 8 := by omega
  rw [point, hsector, point]
  omega

/-- **Different points have different names.** -/
theorem names_nodup : names.Nodup := by decide

theorem name_eq_iff {d' : ℤ} : name d = name d' ↔ point d = point d' := by
  refine ⟨fun h => ?_, fun h => by rw [name, name, h]⟩
  have hd : point d < names.length := point_lt d
  have hd' : point d' < names.length := point_lt d'
  rw [name, name, List.getD_eq_getElem?_getD, List.getD_eq_getElem?_getD,
    List.getElem?_eq_getElem hd, List.getElem?_eq_getElem hd'] at h
  exact names_nodup.getElem_inj_iff.mp h

end Compass
