import Mathlib
import Formula.Proofs.Scalar.Exact

namespace Formula

/-! The real numbers as exact arithmetic. Over them `slope` is the derivative of calculus. -/

noncomputable instance ExactField.real : ExactField ℝ where
  elementary
    | .acos => Real.arccos
    | .asin => Real.arcsin
    | .atan => Real.arctan
    | .log => Real.log
    | .cos => Real.cos
    | .sin => Real.sin
    | .sqrt => Real.sqrt
    | .tan => Real.tan
    | .exp => Real.exp
  power := Real.rpow
  power_zero := Real.rpow_zero
  power_one := Real.rpow_one
  power_two base := by
    rw [one_add_one_eq_two]
    exact (Real.rpow_two base).trans (sq base)

def Elementary.IsSmoothAt : Elementary → ℝ → Prop
  | .tan, u => Real.cos u ≠ 0
  | .asin, u | .acos, u => u ≠ -1 ∧ u ≠ 1
  | .log, u | .sqrt, u => u ≠ 0
  | .cos, _ | .sin, _ | .exp, _ | .atan, _ => True

theorem ExactField.hasDerivAt_slope {function : Elementary} {u : ℝ}
    (smooth : function.IsSmoothAt u) :
    HasDerivAt (ExactField.elementary function) (ExactField.slope function u) u := by
  cases function with
  | sin => exact Real.hasDerivAt_sin u
  | cos => exact Real.hasDerivAt_cos u
  | exp => exact Real.hasDerivAt_exp u
  | tan => exact (Real.hasDerivAt_tan smooth).congr_deriv (by rw [sq]; rfl)
  | asin => exact (Real.hasDerivAt_arcsin smooth.1 smooth.2).congr_deriv (by rw [sq]; rfl)
  | acos => exact (Real.hasDerivAt_arccos smooth.1 smooth.2).congr_deriv (by rw [sq]; rfl)
  | atan => exact (Real.hasDerivAt_arctan u).congr_deriv (by rw [sq]; rfl)
  | log => exact (Real.hasDerivAt_log smooth).congr_deriv (one_div u).symm
  | sqrt =>
      exact (Real.hasDerivAt_sqrt smooth).congr_deriv (by rw [← one_add_one_eq_two]; rfl)

end Formula
