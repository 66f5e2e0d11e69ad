import Mathlib.Algebra.BigOperators.Group.List.Basic
import MotionControl.Proofs.Position.Lines

/-! Distances along lines, over exact numbers. The points of a line are as far apart as their parameters, as a
part of its length. -/
namespace MotionControl
open Scalar

theorem Scalar.sum_real (terms : List ℝ) : sum terms = terms.sum := by
  rw [sum, zero_real, List.sum_eq_foldl]

namespace Coordinates

/-- The sum of the squared differences. -/
noncomputable def distanceSq (a b : List ℝ) : ℝ := (List.zipWith (fun x y => (x - y) * (x - y)) a b).sum

@[simp] theorem distanceSq_nil_left (b : List ℝ) : distanceSq [] b = 0 := rfl

@[simp] theorem distanceSq_nil_right (a : List ℝ) : distanceSq a [] = 0 := by
  simp [distanceSq]

@[simp] theorem distanceSq_cons (x y : ℝ) (a b : List ℝ) :
    distanceSq (x :: a) (y :: b) = (x - y) * (x - y) + distanceSq a b := by
  simp [distanceSq]

theorem distanceSq_self (a : List ℝ) : distanceSq a a = 0 := by
  induction a with
  | nil => rfl
  | cons x a ih => rw [distanceSq_cons, ih, sub_self, mul_zero, add_zero]

theorem distanceSq_nonneg (a b : List ℝ) : 0 ≤ distanceSq a b := by
  induction a generalizing b with
  | nil => simp
  | cons x a ih =>
    cases b with
    | nil => simp
    | cons y b =>
      rw [distanceSq_cons]
      exact add_nonneg (mul_self_nonneg _) (ih b)

theorem distance_sq (a b : List ℝ) : distance a b ^ 2 = distanceSq a b := by
  rw [distance, sqrt_real, sum_real]
  exact Real.sq_sqrt (distanceSq_nonneg a b)

theorem distance_nonneg (a b : List ℝ) : 0 ≤ distance a b := Real.sqrt_nonneg _

theorem distance_le_distance_iff {a b c d : List ℝ} :
    distance a b ≤ distance c d ↔ distanceSq a b ≤ distanceSq c d := by
  rw [← distance_sq, ← distance_sq, sq_le_sq₀ (distance_nonneg a b) (distance_nonneg c d)]

theorem distance_self (a : List ℝ) : distance a a = 0 := by
  rw [← pow_eq_zero_iff two_ne_zero, distance_sq, distanceSq_self]

theorem eq_of_distanceSq_eq_zero {a b : List ℝ} (hl : a.length = b.length) (h : distanceSq a b = 0) : a = b := by
  induction a generalizing b with
  | nil => exact (List.length_eq_zero_iff.mp hl.symm).symm
  | cons x a ih =>
    cases b with
    | nil => cases hl
    | cons y b =>
      rw [distanceSq_cons, add_eq_zero_iff_of_nonneg (mul_self_nonneg _) (distanceSq_nonneg a b)] at h
      rw [sub_eq_zero.mp (mul_self_eq_zero.mp h.1), ih (Nat.succ.inj hl) h.2]

theorem distanceSq_lerp_lerp (a b : List ℝ) (s t : ℝ) :
    distanceSq (lerp a b s) (lerp a b t) = (t - s) ^ 2 * distanceSq a b := by
  simp only [lerp]
  induction a generalizing b with
  | nil => simp
  | cons x a ih =>
    cases b with
    | nil => simp
    | cons y b =>
      simp only [List.zipWith_cons_cons, distanceSq_cons, ih]
      ring

end Coordinates

namespace AxisPosition
variable {a b : AxisPosition ℝ}

theorem eq_of_distance_eq_zero (hl : a.length = b.length) (h : a.distance b = 0) : a = b := by
  have hsq : Coordinates.distanceSq a.values b.values = 0 := by
    rw [← Coordinates.distance_sq]
    exact pow_eq_zero_iff two_ne_zero |>.mpr h
  exact congrArg AxisPosition.mk (Coordinates.eq_of_distanceSq_eq_zero hl hsq)

theorem distance_lerp_lerp (a b : AxisPosition ℝ) (s t : ℝ) :
    (a.lerp b s).distance (a.lerp b t) = |t - s| * a.distance b := by
  have hsq : (a.lerp b s).distance (a.lerp b t) ^ 2 = (|t - s| * a.distance b) ^ 2 := by
    rw [mul_pow, sq_abs]
    simp only [distance, Coordinates.distance_sq]
    exact Coordinates.distanceSq_lerp_lerp a.values b.values s t
  have hn : 0 ≤ |t - s| * a.distance b := mul_nonneg (abs_nonneg _) (Coordinates.distance_nonneg _ _)
  exact (pow_left_inj₀ (Coordinates.distance_nonneg _ _) hn two_ne_zero).mp hsq

end AxisPosition

end MotionControl
