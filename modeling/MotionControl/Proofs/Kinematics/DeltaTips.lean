import Mathlib.Tactic.FieldSimp
import MotionControl.Proofs.Kinematics.DeltaElbows

/-! Three arms of the rotary delta over exact numbers. Crank angles that fit a position lead back to it unless their
tips are under it, and cranks at equal angles hold the effector on the axis. -/
namespace MotionControl.RotaryDelta
variable {g : DeltaSettings ℝ} {tips : Point ℝ × Point ℝ × Point ℝ} {e : Point ℝ} {θ1 θ2 θ3 : ℝ}

/-- A point straight above or at `p` lies in the plane through the tips. -/
def HangsBelow (tips : Point ℝ × Point ℝ × Point ℝ) (p : Point ℝ) : Prop :=
  ∃ a b c : ℝ, a + b + c = 1 ∧ a * tips.1.x + b * tips.2.1.x + c * tips.2.2.x = p.x ∧
    a * tips.1.y + b * tips.2.1.y + c * tips.2.2.y = p.y ∧
    p.z ≤ a * tips.1.z + b * tips.2.1.z + c * tips.2.2.z

/-- The angles fit their arms when the effector is at `p`. -/
structure PoseFits (g : DeltaSettings ℝ) (p : Point ℝ) (θ1 θ2 θ3 : ℝ) : Prop where
  first : ArmFits g (p.x ^ 2 + p.y ^ 2) (-p.y) p.z θ1
  second : ArmFits g (p.x ^ 2 + p.y ^ 2) ((p.y + √3 * p.x) / 2) p.z θ2
  third : ArmFits g (p.x ^ 2 + p.y ^ 2) ((p.y - √3 * p.x) / 2) p.z θ3

theorem crankTips_eq (g : DeltaSettings ℝ) (θ1 θ2 θ3 : ℝ) : crankTips g θ1 θ2 θ3 =
    (⟨0, -tipReach g θ1, tipHeight g θ1⟩,
      ⟨tipReach g θ2 * (√3 / 2), tipReach g θ2 / 2, tipHeight g θ2⟩,
      ⟨-(tipReach g θ3 * (√3 / 2)), tipReach g θ3 / 2, tipHeight g θ3⟩) := by
  have hs : (sin30 : ℝ) = 1 / 2 := by norm_num [sin30]
  have h60 : (tan60 : ℝ) = √3 := by norm_num [tan60, sqrt3]
  simp only [crankTips, hs, h60, Scalar.zero_real, tipReach, tipHeight, sideGap]
  simp only [neg_mul, one_div, ← div_eq_mul_inv, div_mul_eq_mul_div, mul_div_assoc]

private theorem hangsBelow_iff (hx : tips.1.x = 0) (hn : (tipsLine tips).n ≠ 0) : HangsBelow tips e ↔
    (tipsLine tips).n * ((tipsLine tips).m * e.x + (tipsLine tips).k * (e.y - tips.1.y) +
      (tipsLine tips).n * (e.z - tips.1.z)) ≤ 0 := by
  obtain ⟨⟨x1, y1, z1⟩, ⟨x2, y2, z2⟩, ⟨x3, y3, z3⟩⟩ := tips
  obtain ⟨x, y, z⟩ := e
  obtain rfl : x1 = 0 := hx
  have hN : (tipsLine (⟨0, y1, z1⟩, ⟨x2, y2, z2⟩, ⟨x3, y3, z3⟩)).n = (y2 - y1) * x3 - (y3 - y1) * x2 := rfl
  have hM : (tipsLine (⟨0, y1, z1⟩, ⟨x2, y2, z2⟩, ⟨x3, y3, z3⟩)).m =
    (z2 - z1) * (y3 - y1) - (z3 - z1) * (y2 - y1) := rfl
  have hK : (tipsLine (⟨0, y1, z1⟩, ⟨x2, y2, z2⟩, ⟨x3, y3, z3⟩)).k = -(z2 - z1) * x3 + (z3 - z1) * x2 := rfl
  generalize tipsLine (⟨0, y1, z1⟩, ⟨x2, y2, z2⟩, ⟨x3, y3, z3⟩) = l at hn hN hM hK ⊢
  constructor
  · rintro ⟨a, b, c, hs, hx, hy, hz⟩
    dsimp only at hx hy hz
    have ha : a = 1 - b - c := by linarith
    have he : l.n * (l.m * x + l.k * (y - y1) + l.n * (z - z1)) =
        l.n ^ 2 * (z - (a * z1 + b * z2 + c * z3)) := by
      rw [ha] at hx hy ⊢
      rw [← hx, ← hy, hN, hM, hK]
      ring
    exact he.trans_le (mul_nonpos_of_nonneg_of_nonpos (sq_nonneg l.n) (sub_nonpos.mpr hz))
  · intro h
    have hb : l.n * ((x3 * (y - y1) - x * (y3 - y1)) / l.n) = x3 * (y - y1) - x * (y3 - y1) :=
      mul_div_cancel₀ _ hn
    have hc : l.n * ((x * (y2 - y1) - x2 * (y - y1)) / l.n) = x * (y2 - y1) - x2 * (y - y1) :=
      mul_div_cancel₀ _ hn
    generalize (x3 * (y - y1) - x * (y3 - y1)) / l.n = b at hb
    generalize (x * (y2 - y1) - x2 * (y - y1)) / l.n = c at hc
    refine ⟨1 - b - c, b, c, by ring, ?_, ?_, ?_⟩
    · apply mul_left_cancel₀ hn
      linear_combination x2 * hb + x3 * hc - x * hN
    · apply mul_left_cancel₀ hn
      linear_combination (y2 - y1) * hb + (y3 - y1) * hc - (y - y1) * hN
    · have he : l.n ^ 2 * (z - ((1 - b - c) * z1 + b * z2 + c * z3)) =
          l.n * (l.m * x + l.k * (y - y1) + l.n * (z - z1)) := by
        rw [hM, hK]
        linear_combination -l.n * (z2 - z1) * hb - l.n * (z3 - z1) * hc
      exact sub_nonpos.mp (nonpos_of_mul_nonpos_right (he.trans_le h) (sq_pos_of_ne_zero hn))

/-- The lowest of the points at arm length from three tips is the given one unless the tips are under it. -/
theorem effectorPosition_eq_iff_hangsBelow (hs : Scalar.epsilon ≤ tipsArea (crankTips g θ1 θ2 θ3))
    (he : e ∈ meetingPoints g (crankTips g θ1 θ2 θ3)) :
    (effectorPosition g θ1 θ2 θ3).1 = e ↔ HangsBelow (crankTips g θ1 θ2 θ3) e := by
  have hx : (crankTips g θ1 θ2 θ3).1.x = 0 := Scalar.zero_real
  have hn := tipsLine_n_ne_zero hx hs
  obtain ⟨hl, hz⟩ := (mem_meetingPoints_iff hx hn).mp he
  have hpoint := (Line.holds_iff hn).mp hl
  rw [effectorPosition_eq hs, hangsBelow_iff hx hn]
  generalize crankTips g θ1 θ2 θ3 = tips at hn hl hz hpoint ⊢
  have hroot : (tipsLine tips).point (lowerRoot (tipsLine tips).a ((tipsLine tips).b tips.1)
      ((tipsLine tips).c g tips.1)) = e ↔
      lowerRoot (tipsLine tips).a ((tipsLine tips).b tips.1) ((tipsLine tips).c g tips.1) = e.z := by
    constructor
    · intro h
      exact congrArg Point.z h
    · intro h
      rw [h, hpoint]
  have hslope : 2 * (tipsLine tips).a * e.z + (tipsLine tips).b tips.1 = 2 * ((tipsLine tips).n *
      ((tipsLine tips).m * e.x + (tipsLine tips).k * (e.y - tips.1.y) + (tipsLine tips).n * (e.z - tips.1.z))) := by
    rw [Line.a, Line.b, Scalar.two_real]
    linear_combination -2 * (tipsLine tips).m * hl.1 - 2 * (tipsLine tips).k * hl.2
  rw [hroot, lowerRoot_eq_iff (Line.a_pos hn) hz, hslope]
  constructor <;> intro h <;> linarith

/-- Angles that fit a position lead back to it unless the tips are all under the effector. -/
theorem PoseFits.effectorPosition_eq_iff {p : Point ℝ} {θ1 θ2 θ3 : ℝ} (hp : PoseFits g p θ1 θ2 θ3)
    (ha : Scalar.epsilon ≤ tipsArea (crankTips g θ1 θ2 θ3)) :
    (effectorPosition g θ1 θ2 θ3).1 = p ↔ HangsBelow (crankTips g θ1 θ2 θ3) p := by
  have hsq := sqrt_three_mul_self
  have h1 := hp.first.meets
  have h2 := hp.second.meets
  have h3 := hp.third.meets
  refine effectorPosition_eq_iff_hangsBelow ha ?_
  rw [crankTips_eq]
  refine ⟨?_, ?_, ?_⟩ <;> rw [AtArmLength, distanceSq]
  · linear_combination h1
  · linear_combination h2 + tipReach g θ2 ^ 2 / 4 * hsq
  · linear_combination h3 + tipReach g θ3 ^ 2 / 4 * hsq

theorem effectorPosition_of_coincident {θ1 θ2 θ3 : ℝ}
    (ha : tipsArea (crankTips g θ1 θ2 θ3) < Scalar.epsilon) :
    (effectorPosition g θ1 θ2 θ3).1 = ⟨0, 0, tipHeight g θ1⟩ := by
  rw [effectorPosition_of_vertical ha, crankTips_eq]

theorem tipsArea_crankTips (g : DeltaSettings ℝ) (θ1 θ2 θ3 : ℝ) :
    tipsArea (crankTips g θ1 θ2 θ3) = √3 / 2 *
      |tipReach g θ1 * tipReach g θ2 + tipReach g θ2 * tipReach g θ3 + tipReach g θ3 * tipReach g θ1| := by
  have h3 : |√3 / 2| = √3 / 2 := abs_of_nonneg (by positivity)
  rw [crankTips_eq, tipsArea, ← h3, ← abs_mul, h3]
  congr 1
  ring

theorem tipsArea_level (g : DeltaSettings ℝ) (θ : ℝ) :
    tipsArea (crankTips g θ θ θ) = 3 * √3 / 2 * tipReach g θ ^ 2 := by
  have hn : 0 ≤ 3 * tipReach g θ ^ 2 := by positivity
  have he : tipReach g θ * tipReach g θ + tipReach g θ * tipReach g θ + tipReach g θ * tipReach g θ =
      3 * tipReach g θ ^ 2 := by ring
  rw [tipsArea_crankTips, he, abs_of_nonneg hn]
  ring

/-- Three units of reach squared span enough of a triangle. -/
theorem epsilon_le_tipsArea {θ1 θ2 θ3 : ℝ} (h : 3 ≤ tipReach g θ1 * tipReach g θ2 +
    tipReach g θ2 * tipReach g θ3 + tipReach g θ3 * tipReach g θ1) :
    Scalar.epsilon ≤ tipsArea (crankTips g θ1 θ2 θ3) := by
  have h3 : (1 : ℝ) ≤ √3 := Real.one_le_sqrt.mpr (by norm_num)
  have hs := Scalar.epsilon_le_one
  rw [tipsArea_crankTips]
  have ha := le_abs_self (tipReach g θ1 * tipReach g θ2 + tipReach g θ2 * tipReach g θ3 +
    tipReach g θ3 * tipReach g θ1)
  nlinarith only [h, h3, hs, ha]

/-- Where cranks at equal angles hold the effector. Arms that do not reach the axis are taken to be level, and
tips that coincide stand in for the effector. -/
noncomputable def levelHeight (g : DeltaSettings ℝ) (θ : ℝ) : ℝ :=
  if Scalar.epsilon ≤ tipsArea (crankTips g θ θ θ) then tipHeight g θ - √(g.arm ^ 2 - tipReach g θ ^ 2)
  else tipHeight g θ

/-- The points as far from one level tip as from the others are on the axis. -/
private theorem tipsLine_level (g : DeltaSettings ℝ) (θ : ℝ) :
    tipsLine (crankTips g θ θ θ) = ⟨-(3 * √3 / 2 * tipReach g θ ^ 2), 0, 0, 0, 0⟩ := by
  have hsq := sqrt_three_mul_self
  rw [crankTips_eq, tipsLine, Scalar.two_real, Line.mk.injEq]
  refine ⟨?_, ?_, ?_, ?_, ?_⟩
  · ring
  · ring
  · ring
  · ring
  · linear_combination (-tipReach g θ ^ 3 * √3 / 8) * hsq

theorem effectorPosition_eq_level (g : DeltaSettings ℝ) (θ : ℝ) : effectorPosition g θ θ θ =
    (⟨0, 0, levelHeight g θ⟩, decide (Scalar.epsilon ≤ tipsArea (crankTips g θ θ θ)) &&
      decide (tipReach g θ ^ 2 ≤ g.arm ^ 2)) := by
  rw [levelHeight]
  by_cases hs : Scalar.epsilon ≤ tipsArea (crankTips g θ θ θ)
  · have htip : (crankTips g θ θ θ).1 = ⟨0, -tipReach g θ, tipHeight g θ⟩ := by rw [crankTips_eq]
    have hn := tipsLine_n_ne_zero Scalar.zero_real hs
    rw [effectorPosition_eq hs, if_pos hs, decide_eq_true hs, Bool.true_and, htip]
    rw [tipsLine_level] at hn ⊢
    generalize -(3 * √3 / 2 * tipReach g θ ^ 2) = n at hn ⊢
    generalize tipReach g θ = r
    generalize tipHeight g θ = z
    have ha : Line.a ⟨n, 0, 0, 0, 0⟩ = n ^ 2 := by
      rw [Line.a]
      ring
    have hb : Line.b ⟨n, 0, 0, 0, 0⟩ ⟨0, -r, z⟩ = -(2 * n ^ 2 * z) := by
      rw [Line.b, Scalar.two_real]
      ring
    have hd : discrim (n ^ 2) (-(2 * n ^ 2 * z)) (Line.c ⟨n, 0, 0, 0, 0⟩ g ⟨0, -r, z⟩) =
        (2 * n ^ 2) ^ 2 * (g.arm ^ 2 - r ^ 2) := by
      rw [discrim, Line.c]
      ring
    have hz : lowerRoot (n ^ 2) (-(2 * n ^ 2 * z)) (Line.c ⟨n, 0, 0, 0, 0⟩ g ⟨0, -r, z⟩) =
        z - √(g.arm ^ 2 - r ^ 2) := by
      rw [lowerRoot, hd, Real.sqrt_mul (sq_nonneg _), Real.sqrt_sq (by positivity)]
      field_simp
      ring
    have hm : 0 ≤ (2 * n ^ 2) ^ 2 * (g.arm ^ 2 - r ^ 2) ↔ r ^ 2 ≤ g.arm ^ 2 := by
      rw [mul_nonneg_iff_of_pos_left (by positivity), sub_nonneg]
    simp only [ha, hb, hd, hz, hm, Line.point, zero_mul, add_zero, zero_div]
  · rw [effectorPosition_of_vertical (not_le.mp hs), if_neg hs, decide_eq_false hs, Bool.false_and, crankTips_eq]

/-- Cranks at equal angles hold the effector if their tips do not coincide or reach beyond the arms. -/
theorem effectorPosition_level (g : DeltaSettings ℝ) (θ : ℝ) : (effectorPosition g θ θ θ).2 = true ↔
    Scalar.epsilon ≤ tipsArea (crankTips g θ θ θ) ∧ tipReach g θ ^ 2 ≤ g.arm ^ 2 := by
  rw [effectorPosition_eq_level, Bool.and_eq_true, decide_eq_true_eq, decide_eq_true_eq]

end MotionControl.RotaryDelta
