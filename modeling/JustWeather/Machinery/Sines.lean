import Mathlib.Analysis.Complex.Exponential
import Mathlib.Analysis.Complex.Trigonometric
import Mathlib.Analysis.SpecialFunctions.Complex.Circle

/-!
# Machinery/Sines — the sines of the natural numbers, in whole numbers

A point is turned about the origin by one radian at a time, in whole units (`turns`), and each turn
costs little (`near_turns`), so a sine is read off the second coordinate
(`floor_mul_abs_sin`).
-/

namespace Sines

open Complex

variable {scale d e n : ℕ} {u p : ℤ × ℤ} {w z : ℂ}

/-- The product of two points, cut off to whole units, of which 1 has `scale`. -/
def turn (scale : ℕ) (u p : ℤ × ℤ) : ℤ × ℤ :=
  ((u.1 * p.1 - u.2 * p.2) / scale, (u.1 * p.2 + u.2 * p.1) / scale)

/-- That many turns by `u`. -/
def turns (scale : ℕ) (u : ℤ × ℤ) : ℕ → ℤ × ℤ
  | 0 => (scale, 0)
  | n + 1 => turn scale u (turns scale u n)

/-- A point of the plane. -/
def point (p : ℤ × ℤ) : ℂ := p.1 + p.2 * I

/-- `p` is `z` but for `e` units. -/
def Near (scale e : ℕ) (z : ℂ) (p : ℤ × ℤ) : Prop := ‖scale * z - point p‖ ≤ e

theorem norm_sub_point_turn (hscale : 0 < scale) (u p : ℤ × ℤ) :
    ‖point u * point p / scale - point (turn scale u p)‖ ≤ 2 := by
  have hcut : ∀ a : ℤ, |(a / scale - (a / (scale : ℤ) : ℤ) : ℝ)| ≤ 1 := by
    intro a
    have hpos : (0 : ℝ) < scale := by exact_mod_cast hscale
    have hmod : (a / scale - (a / (scale : ℤ) : ℤ) : ℝ) = (a % (scale : ℤ) : ℤ) / scale := by
      rw [Int.emod_def]
      push_cast
      field_simp
    have h0 : (0 : ℝ) ≤ (a % (scale : ℤ) : ℤ) := by
      exact_mod_cast Int.emod_nonneg a (by omega)
    have h1 : ((a % (scale : ℤ) : ℤ) : ℝ) ≤ scale := by
      exact_mod_cast (Int.emod_lt_of_pos a (by omega)).le
    rw [hmod, abs_of_nonneg (by positivity)]
    exact (div_le_one hpos).mpr h1
  have heq : point u * point p / scale - point (turn scale u p)
      = (((u.1 * p.1 - u.2 * p.2 : ℤ) / scale
          - ((u.1 * p.1 - u.2 * p.2) / (scale : ℤ) : ℤ) : ℝ) : ℂ)
        + (((u.1 * p.2 + u.2 * p.1 : ℤ) / scale
          - ((u.1 * p.2 + u.2 * p.1) / (scale : ℤ) : ℤ) : ℝ) : ℂ) * I := by
    simp only [point, turn]
    push_cast
    linear_combination (u.2 * p.2 / scale : ℂ) * I_sq
  rw [heq]
  refine (norm_add_le _ _).trans ?_
  rw [norm_mul, norm_I, mul_one, norm_real, norm_real, Real.norm_eq_abs, Real.norm_eq_abs]
  linarith [hcut (u.1 * p.1 - u.2 * p.2), hcut (u.1 * p.2 + u.2 * p.1)]

/-- **What a turn costs.** -/
theorem Near.turn (hscale : 0 < scale) (hw : ‖w‖ = 1) (hz : ‖z‖ = 1) (hu : Near scale d w u)
    (hp : Near scale e z p) (he : e ≤ scale) :
    Near scale (e + (2 * d + 2)) (w * z) (turn scale u p) := by
  have hpos : (0 : ℝ) < scale := by exact_mod_cast hscale
  have hne : (scale : ℂ) ≠ 0 := by exact_mod_cast hscale.ne'
  have hsmall : ‖point p / scale‖ ≤ 2 := by
    have hnorm : ‖point p‖ ≤ ‖(scale : ℂ) * z‖ + ‖(scale : ℂ) * z - point p‖ :=
      norm_le_norm_add_norm_sub _ _
    rw [norm_mul, hz, norm_natCast, mul_one] at hnorm
    have hele : (e : ℝ) ≤ scale := by exact_mod_cast he
    rw [norm_div, norm_natCast, div_le_iff₀ hpos]
    have := hp
    unfold Near at this
    linarith
  have heq : (scale : ℂ) * (w * z) - point (Sines.turn scale u p)
      = w * (scale * z - point p) + point p / scale * (scale * w - point u)
        + (point u * point p / scale - point (Sines.turn scale u p)) := by
    field_simp
    ring
  rw [Near, heq]
  calc ‖w * (scale * z - point p) + point p / scale * (scale * w - point u)
        + (point u * point p / scale - point (Sines.turn scale u p))‖
      ≤ ‖w * (scale * z - point p)‖ + ‖point p / scale * (scale * w - point u)‖
        + ‖point u * point p / scale - point (Sines.turn scale u p)‖ := norm_add₃_le
    _ ≤ e + 2 * d + 2 := by
        refine add_le_add (add_le_add ?_ ?_) (norm_sub_point_turn hscale u p)
        · rw [norm_mul, hw, one_mul]
          exact hp
        · rw [norm_mul]
          exact mul_le_mul hsmall hu (norm_nonneg _) zero_le_two
    _ = ((e + (2 * d + 2) : ℕ) : ℝ) := by push_cast; ring

/-- **What that many turns cost.** -/
theorem near_turns (hscale : 0 < scale) (hu : Near scale d (exp I) u)
    (hn : n * (2 * d + 2) ≤ scale) :
    Near scale (n * (2 * d + 2)) (exp (n * I)) (turns scale u n) := by
  have hunit : ∀ x : ℕ, ‖exp (x * I)‖ = 1 := fun x => by
    rw [← ofReal_natCast, norm_exp_ofReal_mul_I]
  induction n with
  | zero => simp [Near, turns, point]
  | succ n ih =>
    have hexp : exp ((n + 1 : ℕ) * I) = exp I * exp (n * I) := by
      rw [← exp_add]
      push_cast
      ring_nf
    have hone : ‖exp I‖ = 1 := by simpa using hunit 1
    have hle : n * (2 * d + 2) ≤ scale := by linarith
    rw [hexp, turns, show (n + 1) * (2 * d + 2) = n * (2 * d + 2) + (2 * d + 2) by ring]
    exact Near.turn hscale hone (hunit n) hu (ih hle) hle

/-- One radian, but for two units. -/
theorem near_exp_I : Near (2 ^ 60) 2 (exp I) (622926147424044489, 970149993887725314) := by
  have hbound := exp_bound (x := I) (by simp) (n := 20) (by decide)
  have hsum : ∑ m ∈ Finset.range 20, I ^ m / (m.factorial : ℂ)
      = ((691843455246877/1280474741145600 : ℝ) : ℂ)
        + ((102360822438075317/121645100408832000 : ℝ) : ℂ) * I := by
    simp [Finset.sum_range_succ, Nat.factorial, pow_succ]
    ring_nf
  have heq : ((2 ^ 60 : ℕ) : ℂ) * exp I - point (622926147424044489, 970149993887725314)
      = (2 ^ 60 : ℝ) * (exp I - ∑ m ∈ Finset.range 20, I ^ m / (m.factorial : ℂ))
        + (((2 ^ 60 * (691843455246877/1280474741145600)
              - 622926147424044489 : ℝ) : ℂ)
          + ((2 ^ 60 * (102360822438075317/121645100408832000)
              - 970149993887725314 : ℝ) : ℂ) * I) := by
    rw [hsum, point]
    push_cast
    ring
  rw [Near, heq]
  refine (norm_add_le _ _).trans ((add_le_add_right (norm_add_le _ _) _).trans ?_)
  rw [norm_mul, norm_mul, norm_I, mul_one, norm_real, norm_real, norm_real]
  norm_num [abs_of_nonneg, abs_of_neg, Nat.factorial] at hbound ⊢
  linarith

/-- The whole number below `unit` times as much as `p` has units of. -/
def Below (scale unit e : ℕ) (p : ℤ) (t : ℕ) : Prop :=
  t * scale + unit * e ≤ unit * p.natAbs ∧ unit * (p.natAbs + e) < (t + 1) * scale

instance (scale unit e : ℕ) (p : ℤ) (t : ℕ) : Decidable (Below scale unit e p t) :=
  inferInstanceAs (Decidable (_ ∧ _))

/-- **A sine is read off the second coordinate.** -/
theorem floor_mul_abs_sin {unit t : ℕ} (hscale : 0 < scale) (hu : Near scale d (exp I) u)
    (hn : n * (2 * d + 2) ≤ scale)
    (ht : Below scale unit (n * (2 * d + 2)) (turns scale u n).2 t) :
    ⌊(unit : ℝ) * |Real.sin n|⌋₊ = t := by
  have hpos : (0 : ℝ) < scale := by exact_mod_cast hscale
  obtain ⟨hlow, hhigh⟩ := ht
  set e := n * (2 * d + 2)
  set y := (turns scale u n).2
  have him : |scale * Real.sin n - y| ≤ e := by
    have him' := (abs_im_le_norm _).trans (near_turns hscale hu hn)
    have hexp : (exp (n * I)).im = Real.sin n := by
      rw [← ofReal_natCast, exp_ofReal_mul_I_im]
    simpa [point, hexp, y, e] using him'
  have habs : |scale * |Real.sin n| - (y.natAbs : ℝ)| ≤ e := by
    have hy : (y.natAbs : ℝ) = |(y : ℝ)| := by simp [Nat.cast_natAbs]
    have hs : scale * |Real.sin n| = |scale * Real.sin n| := by
      rw [abs_mul, abs_of_pos hpos]
    rw [hy, hs]
    exact (abs_abs_sub_abs_le_abs_sub _ _).trans him
  obtain ⟨h1, h2⟩ := abs_le.mp habs
  have hlow' : (t * scale + unit * e : ℝ) ≤ unit * y.natAbs := by exact_mod_cast hlow
  have hhigh' : (unit * (y.natAbs + e) : ℝ) < (t + 1) * scale := by exact_mod_cast hhigh
  have hunit : (0 : ℝ) ≤ unit := Nat.cast_nonneg _
  rw [Nat.floor_eq_iff (by positivity)]
  constructor
  · refine le_of_mul_le_mul_right ?_ hpos
    nlinarith
  · refine lt_of_mul_lt_mul_right ?_ hpos.le
    nlinarith

end Sines
