import Mathlib.Algebra.QuadraticDiscriminant
import Mathlib.Tactic.LinearCombination
import MotionControl.Kinematics.RotaryDelta
import MotionControl.Proofs.Scalar.Real

/-! Where the arms of the rotary delta meet, over exact numbers. The points at arm length from all three tips lie on
a line that leads from height to height, where a quadratic in the height vanishes. The effector hangs at the lower
root. -/
namespace MotionControl.RotaryDelta
variable {g : DeltaSettings ℝ} {tips : Point ℝ × Point ℝ × Point ℝ} {e p q r : Point ℝ} {θ1 θ2 θ3 : ℝ}

def distanceSq (p q : Point ℝ) : ℝ := (p.x - q.x) ^ 2 + (p.y - q.y) ^ 2 + (p.z - q.z) ^ 2

/-- An arm joins the two points. -/
def AtArmLength (g : DeltaSettings ℝ) (p q : Point ℝ) : Prop := distanceSq p q = g.arm ^ 2

/-- The points at arm length from three tips. -/
def meetingPoints (g : DeltaSettings ℝ) (tips : Point ℝ × Point ℝ × Point ℝ) : Set (Point ℝ) :=
  {p | AtArmLength g p tips.1 ∧ AtArmLength g p tips.2.1 ∧ AtArmLength g p tips.2.2}

/-- Twice the area of the triangle of the tips, seen from above. -/
noncomputable def tipsArea (tips : Point ℝ × Point ℝ × Point ℝ) : ℝ :=
  |(tips.2.1.x - tips.1.x) * (tips.2.2.y - tips.1.y) - (tips.2.2.x - tips.1.x) * (tips.2.1.y - tips.1.y)|

/-- A line through every height: at height `z` it is where `n * x = m * z + u` and `n * y = k * z + v`. -/
structure Line where
  (n m k u v : ℝ)

namespace Line

def Holds (l : Line) (p : Point ℝ) : Prop := l.n * p.x = l.m * p.z + l.u ∧ l.n * p.y = l.k * p.z + l.v

noncomputable def point (l : Line) (z : ℝ) : Point ℝ := ⟨(l.m * z + l.u) / l.n, (l.k * z + l.v) / l.n, z⟩

theorem holds_iff {l : Line} (hn : l.n ≠ 0) : l.Holds p ↔ l.point p.z = p := by
  obtain ⟨x, y, z⟩ := p
  simp only [Holds, point, Point.mk.injEq, and_true]
  rw [div_eq_iff hn, div_eq_iff hn, mul_comm x, mul_comm y]
  exact and_congr eq_comm eq_comm

/-! The quadratic in the height of a point of the line that says that it is at arm length from `p`. -/

def a (l : Line) : ℝ := l.m * l.m + l.k * l.k + l.n * l.n

noncomputable def b (l : Line) (p : Point ℝ) : ℝ := 2.0 * (l.m * l.u + l.k * (l.v - p.y * l.n) - p.z * l.n * l.n)

def c (l : Line) (g : DeltaSettings ℝ) (p : Point ℝ) : ℝ :=
  (l.v - p.y * l.n) * (l.v - p.y * l.n) + l.u * l.u + l.n * l.n * (p.z * p.z - g.arm * g.arm)

theorem a_pos {l : Line} (hn : l.n ≠ 0) : 0 < l.a :=
  add_pos_of_nonneg_of_pos (add_nonneg (mul_self_nonneg l.m) (mul_self_nonneg l.k)) (mul_self_pos.mpr hn)

theorem Holds.quadratic {l : Line} (h : l.Holds e) (hx : p.x = 0) :
    l.a * (e.z * e.z) + l.b p * e.z + l.c g p = l.n ^ 2 * (distanceSq e p - g.arm ^ 2) := by
  obtain ⟨hex, hey⟩ := h
  rw [a, b, c, distanceSq, hx, Scalar.two_real]
  linear_combination -(l.n * e.x + l.m * e.z + l.u) * hex - (l.n * e.y + l.k * e.z + l.v - 2 * p.y * l.n) * hey

end Line

/-- The line of the points that are as far from one tip as from the others, by elimination. -/
noncomputable def tipsLine : Point ℝ × Point ℝ × Point ℝ → Line
  | (p, q, r) =>
    let w1 := p.y * p.y + p.z * p.z
    let w2 := q.x * q.x + q.y * q.y + q.z * q.z
    let w3 := r.x * r.x + r.y * r.y + r.z * r.z
    { n := (q.y - p.y) * r.x - (r.y - p.y) * q.x
      m := (q.z - p.z) * (r.y - p.y) - (r.z - p.z) * (q.y - p.y)
      k := -(q.z - p.z) * r.x + (r.z - p.z) * q.x
      u := -((w2 - w1) * (r.y - p.y) - (w3 - w1) * (q.y - p.y)) / 2.0
      v := ((w2 - w1) * r.x - (w3 - w1) * q.x) / 2.0 }

theorem tipsArea_eq_abs (hx : tips.1.x = 0) : tipsArea tips = |(tipsLine tips).n| := by
  obtain ⟨p, q, r⟩ := tips
  dsimp only at hx
  rw [tipsArea, ← abs_neg]
  congr 1
  simp only [tipsLine, hx]
  ring

theorem tipsLine_n_ne_zero (hx : tips.1.x = 0) (hs : Scalar.epsilon ≤ tipsArea tips) : (tipsLine tips).n ≠ 0 := by
  rw [tipsArea_eq_abs hx] at hs
  exact abs_pos.mp (Scalar.epsilon_pos.trans_le hs)

theorem tipsLine_holds_iff (hx : tips.1.x = 0) (hn : (tipsLine tips).n ≠ 0) : (tipsLine tips).Holds e ↔
    distanceSq e tips.2.1 = distanceSq e tips.1 ∧ distanceSq e tips.2.2 = distanceSq e tips.1 := by
  obtain ⟨p, q, r⟩ := tips
  dsimp only at hx
  simp only [Line.Holds, tipsLine, distanceSq, hx, Scalar.two_real] at hn ⊢
  constructor
  · rintro ⟨hex, hey⟩
    constructor
    · apply mul_left_cancel₀ hn
      linear_combination -2 * q.x * hex - 2 * (q.y - p.y) * hey
    · apply mul_left_cancel₀ hn
      linear_combination -2 * r.x * hex - 2 * (r.y - p.y) * hey
  · rintro ⟨hq, hr⟩
    constructor
    · linear_combination ((r.y - p.y) * hq - (q.y - p.y) * hr) / 2
    · linear_combination (q.x * hr - r.x * hq) / 2

/-- Where the arms meet when their tips are not in a vertical plane. -/
theorem mem_meetingPoints_iff (hx : tips.1.x = 0) (hn : (tipsLine tips).n ≠ 0) : e ∈ meetingPoints g tips ↔
    (tipsLine tips).Holds e ∧ (tipsLine tips).a * (e.z * e.z) + (tipsLine tips).b tips.1 * e.z +
      (tipsLine tips).c g tips.1 = 0 := by
  have hm : e ∈ meetingPoints g tips ↔ (tipsLine tips).Holds e ∧ distanceSq e tips.1 = g.arm ^ 2 := by
    rw [tipsLine_holds_iff hx hn]
    constructor
    · rintro ⟨h1, h2, h3⟩
      exact ⟨⟨h2.trans h1.symm, h3.trans h1.symm⟩, h1⟩
    · rintro ⟨⟨h2, h3⟩, h1⟩
      exact ⟨h1, h2.trans h1, h3.trans h1⟩
  rw [hm]
  refine and_congr_right fun h => ?_
  rw [h.quadratic hx, mul_eq_zero, sub_eq_zero, or_iff_right (pow_ne_zero 2 hn)]

/-- The lower root of a quadratic that rises in the end. One without roots is taken at its lowest. -/
noncomputable def lowerRoot (a b c : ℝ) : ℝ := -0.5 * (b + √(discrim a b c)) / a

section
variable {a b c z : ℝ}

theorem lowerRoot_eq_div : lowerRoot a b c = (-b - √(discrim a b c)) / (2 * a) := by
  have h : -0.5 = -(1 / 2 : ℝ) := by norm_num
  rw [lowerRoot, h]
  ring

theorem lowerRoot_of_root (hz : a * (z * z) + b * z + c = 0) :
    lowerRoot a b c = (-b - |2 * a * z + b|) / (2 * a) := by
  rw [lowerRoot_eq_div, discrim_eq_sq_of_quadratic_eq_zero hz, Real.sqrt_sq_eq_abs]

theorem lowerRoot_le (ha : 0 < a) (hz : a * (z * z) + b * z + c = 0) : lowerRoot a b c ≤ z := by
  have h := neg_abs_le (2 * a * z + b)
  rw [lowerRoot_of_root hz, div_le_iff₀ (mul_pos two_pos ha)]
  linarith

/-- The lower root is a given root unless the graph rises there. -/
theorem lowerRoot_eq_iff (ha : 0 < a) (hz : a * (z * z) + b * z + c = 0) :
    lowerRoot a b c = z ↔ 2 * a * z + b ≤ 0 := by
  rw [lowerRoot_of_root hz, div_eq_iff (mul_pos two_pos ha).ne', ← abs_eq_neg_self]
  constructor <;> intro h <;> linarith

theorem root_lowerRoot (ha : 0 < a) (hd : 0 ≤ discrim a b c) :
    a * (lowerRoot a b c * lowerRoot a b c) + b * lowerRoot a b c + c = 0 := by
  have hs : discrim a b c = √(discrim a b c) * √(discrim a b c) := (Real.mul_self_sqrt hd).symm
  exact (quadratic_eq_zero_iff ha.ne' hs _).mpr (.inr lowerRoot_eq_div)

theorem exists_root_iff (ha : 0 < a) : (∃ z, a * (z * z) + b * z + c = 0) ↔ 0 ≤ discrim a b c := by
  constructor
  · rintro ⟨z, hz⟩
    rw [discrim_eq_sq_of_quadratic_eq_zero hz]
    exact sq_nonneg _
  · intro hd
    exact ⟨_, root_lowerRoot ha hd⟩

end

/-- Three tips that are not in a vertical plane hold the effector at the lower root. -/
theorem effectorPosition_eq (hs : Scalar.epsilon ≤ tipsArea (crankTips g θ1 θ2 θ3)) :
    effectorPosition g θ1 θ2 θ3 =
      ((tipsLine (crankTips g θ1 θ2 θ3)).point (lowerRoot (tipsLine (crankTips g θ1 θ2 θ3)).a
        ((tipsLine (crankTips g θ1 θ2 θ3)).b (crankTips g θ1 θ2 θ3).1)
        ((tipsLine (crankTips g θ1 θ2 θ3)).c g (crankTips g θ1 θ2 θ3).1)),
      decide (0 ≤ discrim (tipsLine (crankTips g θ1 θ2 θ3)).a
        ((tipsLine (crankTips g θ1 θ2 θ3)).b (crankTips g θ1 θ2 θ3).1)
        ((tipsLine (crankTips g θ1 θ2 θ3)).c g (crankTips g θ1 θ2 θ3).1))) := by
  have hx : (crankTips g θ1 θ2 θ3).1.x = 0 := Scalar.zero_real
  rw [tipsArea_eq_abs hx] at hs
  rw [effectorPosition]
  generalize crankTips g θ1 θ2 θ3 = tips at hs ⊢
  obtain ⟨⟨x1, y1, z1⟩, ⟨x2, y2, z2⟩, ⟨x3, y3, z3⟩⟩ := tips
  dsimp -zeta only
  extract_lets dnm w1 w2 w3 a1 b1 a2 b2 a b c d z0
  rw [Scalar.abs_real, if_neg (show ¬ |dnm| < Scalar.epsilon from not_lt.mpr hs)]
  have hd : d = discrim a b c := by
    have h4 : (4.0 : ℝ) = 4 := by norm_num
    simp only [d, h4, discrim, sq]
  have hz0 : z0 = lowerRoot a b c := by
    simp only [z0, hd, Scalar.zero_real, Scalar.larger_real, Scalar.sqrt_real, Scalar.sqrt_max_zero, lowerRoot]
  rw [hz0, hd, Scalar.zero_real]
  rfl

theorem effectorPosition_of_vertical (hs : tipsArea (crankTips g θ1 θ2 θ3) < Scalar.epsilon) :
    effectorPosition g θ1 θ2 θ3 = (⟨0, 0, (crankTips g θ1 θ2 θ3).1.z⟩, false) := by
  have hx : (crankTips g θ1 θ2 θ3).1.x = 0 := Scalar.zero_real
  rw [tipsArea_eq_abs hx] at hs
  rw [effectorPosition]
  generalize crankTips g θ1 θ2 θ3 = tips at hs ⊢
  dsimp only
  rw [Scalar.abs_real, if_pos (show |(tips.2.1.y - tips.1.y) * tips.2.2.x - (tips.2.2.y - tips.1.y) * tips.2.1.x| <
    Scalar.epsilon from hs), Scalar.zero_real]

/-- The effector is found exactly when some point is at arm length from all three tips, and it then is the lowest
of these points. -/
theorem effectorPosition_lowest (hs : Scalar.epsilon ≤ tipsArea (crankTips g θ1 θ2 θ3)) :
    ((effectorPosition g θ1 θ2 θ3).2 = true ↔ (meetingPoints g (crankTips g θ1 θ2 θ3)).Nonempty) ∧
    ((effectorPosition g θ1 θ2 θ3).2 = true →
      (effectorPosition g θ1 θ2 θ3).1 ∈ meetingPoints g (crankTips g θ1 θ2 θ3) ∧
      ∀ p ∈ meetingPoints g (crankTips g θ1 θ2 θ3), p ≠ (effectorPosition g θ1 θ2 θ3).1 →
        (effectorPosition g θ1 θ2 θ3).1.z < p.z) := by
  have hx : (crankTips g θ1 θ2 θ3).1.x = 0 := Scalar.zero_real
  have hn := tipsLine_n_ne_zero hx hs
  have ha := Line.a_pos hn
  have hmem (p : Point ℝ) := mem_meetingPoints_iff (g := g) (e := p) hx hn
  rw [effectorPosition_eq hs]
  generalize tipsLine (crankTips g θ1 θ2 θ3) = l at hn ha hmem ⊢
  rw [decide_eq_true_eq]
  have hroot (z : ℝ) : l.point z ∈ meetingPoints g (crankTips g θ1 θ2 θ3) ↔
      l.a * (z * z) + l.b (crankTips g θ1 θ2 θ3).1 * z + l.c g (crankTips g θ1 θ2 θ3).1 = 0 :=
    (hmem _).trans (and_iff_right ((Line.holds_iff hn).mpr rfl))
  refine ⟨?_, fun hd => ⟨?_, ?_⟩⟩
  · rw [← exists_root_iff ha]
    constructor
    · rintro ⟨z, hz⟩
      exact ⟨l.point z, (hroot z).mpr hz⟩
    · rintro ⟨p, hp⟩
      exact ⟨p.z, ((hmem p).mp hp).2⟩
  · exact (hroot _).mpr (root_lowerRoot ha hd)
  · intro p hp hne
    obtain ⟨hl, hz⟩ := (hmem p).mp hp
    refine lt_of_le_of_ne (lowerRoot_le ha hz) fun he => hne ?_
    rw [← (Line.holds_iff hn).mp hl]
    exact congrArg l.point he.symm

/-- An effector as large as the base, with the first crank straight down and the others level. -/
noncomputable def leaningDelta : DeltaSettings ℝ :=
  { (default : DeltaSettings ℝ) with crank := 3.0, baseTriangle := 2.0, arm := 6.0, effectorTriangle := 2.0 }

theorem crankTips_leaningDelta : crankTips leaningDelta (Real.pi / 2) 0 0 =
    (⟨0, 0, -3⟩, ⟨3 / 2 * √3, 3 / 2, 0⟩, ⟨-(3 / 2 * √3), 3 / 2, 0⟩) := by
  have hc : leaningDelta.crank = 3 := by norm_num [leaningDelta]
  have hg : leaningDelta.baseTriangle - leaningDelta.effectorTriangle = 0 := sub_self _
  have h30 : (sin30 : ℝ) = 1 / 2 := by norm_num [sin30]
  have h60 : (tan60 : ℝ) = √3 := by norm_num [tan60, sqrt3]
  rw [crankTips, hc, hg, h30, h60, zero_mul, zero_div]
  norm_num

/-- The arms meet at two heights, and the effector is on the lower one, far out to the side. -/
theorem leaning_effector_lowest :
    Scalar.epsilon ≤ tipsArea (crankTips leaningDelta (Real.pi / 2) 0 0) ∧
    effectorPosition leaningDelta (Real.pi / 2) 0 0 = (⟨0, 6, -3⟩, true) := by
  have h3 : √3 * √3 = (3 : ℝ) := Real.mul_self_sqrt (by norm_num)
  have harm : leaningDelta.arm = 6 := by norm_num [leaningDelta]
  have hs : Scalar.epsilon ≤ tipsArea (crankTips leaningDelta (Real.pi / 2) 0 0) := by
    have hroot : (1 : ℝ) ≤ √3 := Real.one_le_sqrt.mpr (by norm_num)
    rw [crankTips_leaningDelta, tipsArea_eq_abs rfl]
    have hn : |(tipsLine (⟨0, 0, -3⟩, ⟨3 / 2 * √3, 3 / 2, 0⟩, ⟨-(3 / 2 * √3), 3 / 2, 0⟩)).n| = 9 / 2 * √3 := by
      rw [abs_eq (by positivity)]
      right
      simp only [tipsLine]
      ring
    rw [hn]
    linarith [Scalar.epsilon_le_one]
  obtain ⟨hfound, hlowest⟩ := effectorPosition_lowest hs
  rw [crankTips_leaningDelta] at hfound hlowest
  have hp : (⟨0, 6, -3⟩ : Point ℝ) ∈
      meetingPoints leaningDelta (⟨0, 0, -3⟩, ⟨3 / 2 * √3, 3 / 2, 0⟩, ⟨-(3 / 2 * √3), 3 / 2, 0⟩) := by
    refine ⟨?_, ?_, ?_⟩ <;> norm_num [AtArmLength, distanceSq, harm]
    all_goals linear_combination 9 / 4 * h3
  have ht := hfound.mpr ⟨_, hp⟩
  obtain ⟨⟨h1, h2, h3'⟩, hl⟩ := hlowest ht
  refine ⟨hs, Prod.ext ?_ ht⟩
  by_contra hne
  have hz := hl _ hp (Ne.symm hne)
  generalize (effectorPosition leaningDelta (Real.pi / 2) 0 0).1 = e at h1 h2 h3' hz
  simp only [AtArmLength, distanceSq, harm] at h1 h2 h3' hz
  have hy : e.y = -2 * e.z := by
    linear_combination (2 * h1 - h2 - h3') / 6 + 3 / 4 * h3
  have hx : e.x = 0 := by
    have hroot : 0 < √3 := Real.sqrt_pos.mpr (by norm_num)
    apply mul_left_cancel₀ hroot.ne'
    linear_combination (h3' - h2) / 6
  rw [hx, hy] at h1
  nlinarith only [h1, hz]

end MotionControl.RotaryDelta
