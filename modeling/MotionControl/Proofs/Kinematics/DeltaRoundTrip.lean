import MotionControl.Proofs.Guards
import MotionControl.Proofs.Kinematics.DeltaTips
import MotionControl.Proofs.Kinematics.Workspaces

/-! The round trip of the rotary delta over exact numbers, from a position to crank angles and back. -/
namespace MotionControl.RotaryDelta
open Scalar
variable {α : Type} [Scalar α]

/-- The angles for a position before they are brought into the crank range. -/
def rawAngles (g : DeltaSettings α) (p : AxisPosition α) : List (Option α) :=
  match p.values with
  | x :: y :: z :: _ =>
    [crankAngle g x y z,
      crankAngle g (x * cos120 + y * sin120) (y * cos120 - x * sin120) z,
      crankAngle g (x * cos120 - y * sin120) (y * cos120 + x * sin120) z]
  | _ => []

/-- The effector of a machine at a position. -/
def effector (p : AxisPosition α) : Point α := ⟨p.axis 0, p.axis 1, p.axis 2⟩

/-- The crank tips of motors at some angles. -/
def tips (g : DeltaSettings α) (m : MotorPosition α) : Point α × Point α × Point α :=
  crankTips g (m.values.getD 0 0.0) (m.values.getD 1 0.0) (m.values.getD 2 0.0)

variable {g : DeltaSettings ℝ} {layout : AxisLayout} {p : AxisPosition ℝ} {m : MotorPosition ℝ}

theorem validate_eq_ok : validate g layout = .ok () ↔ armCount ≤ layout.axisCount ∧
    (0 < g.crank ∧ 0 < g.baseTriangle ∧ 0 < g.arm ∧ 0 < g.effectorTriangle) ∧ g.crank < g.arm ∧
    (-Real.pi < g.minAngle ∧ g.maxAngle < Real.pi ∧ g.minAngle < g.maxAngle) ∧
    (g.minAngle ≤ g.homingAngle ∧ g.homingAngle ≤ g.maxAngle) ∧
    epsilon ≤ tipsArea (crankTips g 0 0 0) ∧ tipReach g 0 ^ 2 ≤ g.arm ^ 2 := by
  rw [← effectorPosition_level, validate]
  simp only [Guards.refuse_first_eq_ok, Guards.bind_eq_ok, Guards.forM_eq_ok, Guards.require_eq_ok,
    Guards.refuse_eq_ok, isPositive_real, List.forall_mem_cons, Scalar.pi_real, Scalar.zero_real,
    not_not, not_lt, not_le, Bool.not_eq_true', Bool.not_eq_false]
  simp

theorem of_inverse_eq_ok (h : inverse g p = .ok m) : ∃ x y z θ1 θ2 θ3 rest,
    p = ⟨x :: y :: z :: rest⟩ ∧ m = ⟨θ1 :: θ2 :: θ3 :: rest⟩ ∧ z < 0 ∧
      ∀ θ ∈ [θ1, θ2, θ3], g.minAngle ≤ θ ∧ θ ≤ g.maxAngle := by
  obtain ⟨x, y, z, θ1, θ2, θ3, rest, hp, hm, hs, ha, hr⟩ := angles_of_inverse h
  rw [abs_real, not_lt] at hs
  rw [zero_real, not_lt] at ha
  have hz : z ≠ 0 := abs_pos.mp (lt_of_lt_of_le (by norm_num) hs)
  exact ⟨x, y, z, θ1, θ2, θ3, rest, hp, hm, lt_of_le_of_ne ha hz, hr⟩

theorem inverse_of_rawAngles {x y z θ1 θ2 θ3 : ℝ} {rest : List ℝ} (hz : z ≤ -1e-9)
    (hr : rawAngles g ⟨x :: y :: z :: rest⟩ = [some θ1, some θ2, some θ3])
    (hm : ∀ θ ∈ [θ1, θ2, θ3], g.minAngle ≤ θ ∧ θ ≤ g.maxAngle) :
    inverse g ⟨x :: y :: z :: rest⟩ = .ok ⟨θ1 :: θ2 :: θ3 :: rest⟩ := by
  have hangle (arm : Nat) {x y : ℝ} {θ : ℝ} (hθ : θ ∈ [θ1, θ2, θ3]) (h : crankAngle g x y z = some θ)
      (target : AxisPosition ℝ) : armAngle g target arm x y z = .ok θ := by
    obtain ⟨hl, hu⟩ := hm θ hθ
    have ht : (0 : ℝ) < angleTolerance := by norm_num [angleTolerance]
    have hn : ¬ (θ < g.minAngle - angleTolerance ∨ g.maxAngle + angleTolerance < θ) := by
      rintro (hn | hn) <;> linarith
    simp only [armAngle, h, if_neg hn]
    rw [Coordinates.clamp_of_mem hl hu]
    rfl
  simp only [rawAngles, List.cons.injEq] at hr
  obtain ⟨h1, h2, h3, -⟩ := hr
  have hs : ¬ Scalar.abs z < 1e-9 := by
    rw [abs_real, not_lt]
    exact le_trans (by linarith) (neg_le_abs z)
  have ha : ¬ (0.0 : ℝ) < z := by
    rw [zero_real, not_lt]
    exact hz.trans (by norm_num)
  simp only [inverse, if_neg hs, if_neg ha]
  rw [hangle 1 (by simp) h1, hangle 2 (by simp) h2, hangle 3 (by simp) h3]
  rfl

/-- Angles of as many channels as there are axes give a position that keeps the other channels. -/
theorem forward_eq (g : DeltaSettings ℝ) (θ1 θ2 θ3 : ℝ) (rest : List ℝ) :
    forward g ⟨θ1 :: θ2 :: θ3 :: rest⟩ (rest.length + 3) =
      .ok ⟨(effectorPosition g θ1 θ2 θ3).1.x :: (effectorPosition g θ1 θ2 θ3).1.y ::
        (effectorPosition g θ1 θ2 θ3).1.z :: rest⟩ := by
  have hr : Coordinates.resize (θ1 :: θ2 :: θ3 :: rest) (max (rest.length + 3) armCount) =
      θ1 :: θ2 :: θ3 :: rest := by
    rw [armCount, Nat.max_eq_left (by omega), Coordinates.resize]
    simp
  rw [forward, hr]
  simp [AxisPosition.new]

theorem cos120_real : (cos120 : ℝ) = -(1 / 2) := by norm_num [cos120]

theorem sin120_real : (sin120 : ℝ) = √3 / 2 := by norm_num [sin120, sqrt3]

theorem poseFits_of_rawAngles (hc : 0 < g.crank) {x y z θ1 θ2 θ3 : ℝ} {rest : List ℝ} (hz : z < 0)
    (hr : rawAngles g ⟨x :: y :: z :: rest⟩ = [some θ1, some θ2, some θ3]) :
    PoseFits g ⟨x, y, z⟩ θ1 θ2 θ3 := by
  have hsq := sqrt_three_mul_self
  simp only [rawAngles, cos120_real, sin120_real, List.cons.injEq] at hr
  obtain ⟨h1, h2, h3, -⟩ := hr
  have hw2 : (x * -(1 / 2) + y * (√3 / 2)) ^ 2 + (y * -(1 / 2) - x * (√3 / 2)) ^ 2 = x ^ 2 + y ^ 2 := by
    linear_combination (x ^ 2 + y ^ 2) / 4 * hsq
  have hw3 : (x * -(1 / 2) - y * (√3 / 2)) ^ 2 + (y * -(1 / 2) + x * (√3 / 2)) ^ 2 = x ^ 2 + y ^ 2 := by
    linear_combination (x ^ 2 + y ^ 2) / 4 * hsq
  have hs2 : -(y * -(1 / 2) - x * (√3 / 2)) = (y + √3 * x) / 2 := by ring
  have hs3 : -(y * -(1 / 2) + x * (√3 / 2)) = (y - √3 * x) / 2 := by ring
  have f1 := crankAngle_fits hc hz h1
  have f2 := crankAngle_fits hc hz h2
  have f3 := crankAngle_fits hc hz h3
  rw [hw2, hs2] at f2
  rw [hw3, hs3] at f3
  exact ⟨f1, f2, f3⟩

/-- Tips that coincide do not hold the effector of an accepted geometry at their own height. -/
private theorem point_ne_of_coincident (hv : validate g layout = .ok ()) {x y z θ1 θ2 θ3 : ℝ}
    {rest : List ℝ} (hp : PoseFits g ⟨x, y, z⟩ θ1 θ2 θ3)
    (hr : rawAngles g ⟨x :: y :: z :: rest⟩ = [some θ1, some θ2, some θ3])
    (ha : tipsArea (crankTips g θ1 θ2 θ3) < epsilon) :
    (⟨0, 0, tipHeight g θ1⟩ : Point ℝ) ≠ ⟨x, y, z⟩ := by
  obtain ⟨-, -, -, -, -, hspread, hreach⟩ := validate_eq_ok.mp hv
  intro he
  obtain ⟨rfl, rfl, rfl⟩ := Point.mk.inj he
  simp only [rawAngles, zero_mul, add_zero, sub_zero, List.cons.injEq, and_true] at hr
  obtain ⟨h1, h2, h3⟩ := hr
  obtain rfl : θ1 = θ2 := Option.some.inj (h1.symm.trans h2)
  obtain rfl : θ1 = θ3 := Option.some.inj (h1.symm.trans h3)
  have hm := hp.first.meets
  have hrho : tipReach g θ1 ^ 2 = g.arm ^ 2 := by linear_combination hm
  rw [tipsArea_level] at ha hspread
  have hle : 3 * √3 / 2 * tipReach g 0 ^ 2 ≤ 3 * √3 / 2 * tipReach g θ1 ^ 2 := by
    rw [hrho]
    gcongr
  linarith

/-- Angles that are not brought into the crank range lead back to the position exactly when the tips
span a triangle, seen from above, and the effector is not over its plane. -/
theorem forward_eq_iff (hv : validate g layout = .ok ()) (hi : inverse g p = .ok m)
    (hr : rawAngles g p = (m.values.take armCount).map some) :
    forward g m p.length = .ok p ↔
      epsilon ≤ tipsArea (tips g m) ∧ HangsBelow (tips g m) (effector p) := by
  obtain ⟨x, y, z, θ1, θ2, θ3, rest, rfl, rfl, hz, -⟩ := of_inverse_eq_ok hi
  have hp := poseFits_of_rawAngles (validate_eq_ok.mp hv).2.1.1 hz hr
  have hf : forward g ⟨θ1 :: θ2 :: θ3 :: rest⟩ (AxisPosition.length ⟨x :: y :: z :: rest⟩) =
      .ok ⟨x :: y :: z :: rest⟩ ↔ (effectorPosition g θ1 θ2 θ3).1 = ⟨x, y, z⟩ := by
    rw [AxisPosition.length, List.length_cons, List.length_cons, List.length_cons, forward_eq]
    cases (effectorPosition g θ1 θ2 θ3).1
    simp
  have ht : tips g ⟨θ1 :: θ2 :: θ3 :: rest⟩ = crankTips g θ1 θ2 θ3 := rfl
  have he : effector (⟨x :: y :: z :: rest⟩ : AxisPosition ℝ) = ⟨x, y, z⟩ := rfl
  rw [hf, ht, he]
  by_cases ha : Scalar.epsilon ≤ tipsArea (crankTips g θ1 θ2 θ3)
  · rw [hp.effectorPosition_eq_iff ha, and_iff_right ha]
  · have hn := point_ne_of_coincident hv hp hr (not_le.mp ha)
    rw [effectorPosition_of_coincident (not_le.mp ha)]
    exact iff_of_false hn fun h => ha h.1

end MotionControl.RotaryDelta
