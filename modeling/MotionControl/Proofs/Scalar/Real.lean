import Mathlib.Analysis.SpecialFunctions.Complex.Arg
import Mathlib.Analysis.SpecialFunctions.Trigonometric.Arctan
import MotionControl.Proofs.Scalar.Ordered

/-! Exact numbers as coordinates. Nothing is rounded, and every value is finite. -/
namespace MotionControl

noncomputable instance : Scalar ℝ where
  decLt := Classical.decRel _
  decLe := Classical.decRel _
  ofNat n := n
  pi := Real.pi
  sqrt := Real.sqrt
  sin := Real.sin
  cos := Real.cos
  slopeAngle rise run :=
    if run = 0 then (if rise < 0 then -(Real.pi / 2) else Real.pi / 2) else Real.arctan (rise / run)
  atan2 rise run := Complex.arg ⟨run, rise⟩
  hypot x y := Real.sqrt (x * x + y * y)
  ceilNat x := ⌈x⌉₊
  isFinite _ := true
  text _ := ""
  fixed _ _ := ""

instance : OrderedScalar ℝ where
  comparable_of_le _ := ⟨le_rfl, le_rfl⟩
  le_of_not_lt _ _ h := not_lt.mp h
  comparable_of_isFinite _ := le_rfl

instance : StrictlyOrderedScalar ℝ where
  le_of_lt h := le_of_lt h

namespace Scalar
variable (x y : ℝ)

@[simp] theorem sqrt_real : Scalar.sqrt x = √x := rfl

@[simp] theorem sin_real : Scalar.sin x = Real.sin x := rfl

@[simp] theorem cos_real : Scalar.cos x = Real.cos x := rfl

@[simp] theorem pi_real : (Scalar.pi : ℝ) = Real.pi := rfl

@[simp] theorem isFinite_real : Scalar.isFinite x = true := rfl

theorem slopeAngle_real : Scalar.slopeAngle y x =
    if x = 0 then (if y < 0 then -(Real.pi / 2) else Real.pi / 2) else Real.arctan (y / x) := rfl

@[simp] theorem zero_real : (0.0 : ℝ) = 0 := by norm_num

theorem two_real : (2.0 : ℝ) = 2 := by norm_num

@[simp] theorem abs_real : Scalar.abs x = |x| := by
  rw [Scalar.abs]
  split
  · rename_i h
    rw [abs_of_neg (by simpa using h)]
  · rename_i h
    rw [abs_of_nonneg (by simpa using h)]

@[simp] theorem larger_real : Scalar.larger x y = max x y := by
  rw [Scalar.larger]
  split
  · rename_i h
    rw [max_eq_right h.le]
  · rename_i h
    rw [if_pos le_rfl, max_eq_left (not_lt.mp h)]

@[simp] theorem smaller_real : Scalar.smaller x y = min x y := by
  rw [Scalar.smaller]
  split
  · rename_i h
    rw [min_eq_right h.le]
  · rename_i h
    rw [if_pos le_rfl, min_eq_left (not_lt.mp h)]

theorem sqrt_max_zero : √(max x 0) = √x := by
  rcases le_total x 0 with h | h
  · rw [max_eq_right h, Real.sqrt_zero, Real.sqrt_eq_zero_of_nonpos h]
  · rw [max_eq_left h]

theorem isPositive_real : Scalar.isPositive x = true ↔ 0 < x := by
  simp [isPositive]

theorem epsilon_pos : (0 : ℝ) < Scalar.epsilon := by
  norm_num [Scalar.epsilon, Scalar.ofNat]

theorem epsilon_le_one : (Scalar.epsilon : ℝ) ≤ 1 := by
  norm_num [Scalar.epsilon, Scalar.ofNat]

theorem abs_slopeAngle_le : |Scalar.slopeAngle y x| ≤ Real.pi / 2 := by
  have hp := Real.pi_pos
  rw [slopeAngle_real, abs_le]
  split
  · split <;> constructor <;> linarith
  · exact ⟨(Real.neg_pi_div_two_lt_arctan _).le, (Real.arctan_lt_pi_div_two _).le⟩

private theorem sqrt_one_add_slope {c s r : ℝ} (hr : 0 < r) (h : c * c + s * s = r * r) (hc : c ≠ 0) :
    √(1 + (s / c) ^ 2) = r / |c| := by
  have he : 1 + (s / c) ^ 2 = (r / |c|) ^ 2 := by
    rw [div_pow, div_pow, sq_abs]
    field_simp
    linarith
  rw [he, Real.sqrt_sq (by positivity)]

/-- The slope of a direction gives its angle, half a turn off when it runs backward. -/
theorem turn_of_slope {c s r : ℝ} (hr : 0 < r) (h : c * c + s * s = r * r) {θ : ℝ}
    (hθ : θ = Scalar.slopeAngle s c + if c < 0 then Real.pi else 0) :
    r * Real.cos θ = c ∧ r * Real.sin θ = s := by
  rw [slopeAngle_real] at hθ
  by_cases hc : c = 0
  · rw [hc, zero_mul, zero_add] at h
    rw [if_pos hc, hc, if_neg (lt_irrefl 0), add_zero] at hθ
    by_cases hs : s < 0
    · rw [if_pos hs] at hθ
      rw [hθ, hc, Real.cos_neg, Real.sin_neg, Real.cos_pi_div_two, Real.sin_pi_div_two]
      exact ⟨mul_zero r, by nlinarith⟩
    · rw [if_neg hs] at hθ
      rw [hθ, hc, Real.cos_pi_div_two, Real.sin_pi_div_two]
      exact ⟨mul_zero r, by nlinarith⟩
  · have hq := sqrt_one_add_slope hr h hc
    rw [if_neg hc] at hθ
    rcases lt_or_gt_of_ne hc with hn | hp
    · rw [if_pos hn] at hθ
      rw [hθ, Real.cos_add_pi, Real.sin_add_pi, Real.cos_arctan, Real.sin_arctan, hq, abs_of_neg hn]
      constructor <;> field_simp
    · rw [if_neg hp.not_gt, add_zero] at hθ
      rw [hθ, Real.cos_arctan, Real.sin_arctan, hq, abs_of_pos hp]
      constructor <;> field_simp

theorem turn_of_direction {x y r : ℝ} (hr : 0 < r) (h : x * x + y * y = r * r) :
    r * Real.cos (Scalar.atan2 y x) = x ∧ r * Real.sin (Scalar.atan2 y x) = y := by
  have hn : ‖(⟨x, y⟩ : ℂ)‖ = r := by
    rw [Complex.norm_eq_sqrt_sq_add_sq, sq, sq, h, Real.sqrt_mul_self hr.le]
  have h0 : (⟨x, y⟩ : ℂ) ≠ 0 := norm_pos_iff.mp (hn ▸ hr)
  constructor
  · have hc : Real.cos (Scalar.atan2 y x) = x / r := hn ▸ Complex.cos_arg h0
    rw [hc, mul_div_cancel₀ _ hr.ne']
  · have hs : Real.sin (Scalar.atan2 y x) = y / r := hn ▸ Complex.sin_arg _
    rw [hs, mul_div_cancel₀ _ hr.ne']

/-- A direction from a right angle down to three right angles up is found again from its slope. -/
theorem slope_of_turn {r θ : ℝ} (hr : 0 < r) (hl : -(Real.pi / 2) ≤ θ) (hu : θ < 3 * Real.pi / 2) :
    Scalar.slopeAngle (r * Real.sin θ) (r * Real.cos θ) + (if r * Real.cos θ < 0 then Real.pi else 0) = θ := by
  have hp := Real.pi_pos
  have hslope : r * Real.sin θ / (r * Real.cos θ) = Real.tan θ := by
    rw [mul_div_mul_left _ _ hr.ne', Real.tan_eq_sin_div_cos]
  rw [slopeAngle_real]
  rcases hl.eq_or_lt with rfl | hl
  · rw [Real.cos_neg, Real.cos_pi_div_two, mul_zero, if_pos rfl, Real.sin_neg, Real.sin_pi_div_two,
      if_pos (by linarith), if_neg (lt_irrefl 0), add_zero]
  rcases lt_trichotomy θ (Real.pi / 2) with hq | rfl | hq
  · have hc : 0 < r * Real.cos θ := mul_pos hr (Real.cos_pos_of_mem_Ioo ⟨hl, hq⟩)
    rw [if_neg hc.ne', if_neg hc.not_gt, hslope, Real.arctan_tan hl hq, add_zero]
  · rw [Real.cos_pi_div_two, mul_zero, if_pos rfl, Real.sin_pi_div_two, if_neg (by linarith),
      if_neg (lt_irrefl 0), add_zero]
  · have hc : r * Real.cos θ < 0 :=
      mul_neg_of_pos_of_neg hr (Real.cos_neg_of_pi_div_two_lt_of_lt hq (by linarith))
    rw [if_neg hc.ne, if_pos hc, hslope, ← Real.tan_sub_pi, Real.arctan_tan (by linarith) (by linarith),
      sub_add_cancel]

theorem turn_mem (c s : ℝ) : -(Real.pi / 2) ≤ Scalar.slopeAngle s c + (if c < 0 then Real.pi else 0) ∧
    Scalar.slopeAngle s c + (if c < 0 then Real.pi else 0) < 3 * Real.pi / 2 := by
  have hp := Real.pi_pos
  by_cases hc : c < 0
  · have hl := Real.neg_pi_div_two_lt_arctan (s / c)
    have hu := Real.arctan_lt_pi_div_two (s / c)
    rw [if_pos hc, slopeAngle_real, if_neg hc.ne]
    constructor <;> linarith
  · obtain ⟨hl, hu⟩ := abs_le.mp (abs_slopeAngle_le c s)
    rw [if_neg hc, add_zero]
    constructor <;> linarith

end Scalar

section
variable {low high x : ℝ} (hl : low ≤ x) (hh : x ≤ high)
include hl hh

theorem Scalar.confine_of_mem : confine low high x = x := by
  rw [confine, if_neg (not_lt.mpr hl), if_neg (not_lt.mpr hh)]

theorem Coordinates.clamp_of_mem : clamp low high x = .ok x := by
  rw [clamp, if_pos (hl.trans hh), Scalar.confine_of_mem hl hh]

end

theorem AxisPosition.new_real (values : List ℝ) : AxisPosition.new values = .ok ⟨values⟩ := if_pos (by simp)

end MotionControl
