import Mathlib.Analysis.Real.Pi.Bounds
import MotionControl.Proofs.Kinematics.DeltaRoundTrip

/-! Cranks whose tips stay on their own side of the axis. The elbows that the angles stand for then
hold the effector below the plane through the tips. -/
namespace MotionControl.RotaryDelta

/-- How far the effector hangs below the tips, up to a positive factor. -/
private def margin (c t s1 s2 s3 r1 r2 r3 : ℝ) : ℝ :=
  (c + t * (s1 + s1)) * (r2 * r3) + (c + t * (s2 + s2)) * (r3 * r1) + (c + t * (s3 + s3)) * (r1 * r2) -
    (t + t + t) * (r1 * r2 * r3)

private theorem margin_eq (c t s1 s2 s3 r1 r2 r3 : ℝ) : margin c t s1 s2 s3 r1 r2 r3 =
    (c + 2 * t * s1) * (r2 * r3) + (c + 2 * t * s2) * (r3 * r1) + (c + 2 * t * s3) * (r1 * r2) -
      3 * t * (r1 * r2 * r3) := by
  rw [margin]
  ring

private theorem margin_rotate (c t s1 s2 s3 r1 r2 r3 : ℝ) :
    margin c t s2 s3 s1 r2 r3 r1 = margin c t s1 s2 s3 r1 r2 r3 := by
  rw [margin_eq, margin_eq]
  ring

section
variable {c t s1 s2 s3 r1 r2 r3 k : ℝ} (hs : s1 + s2 + s3 = 0) (h1 : 0 ≤ r1) (h2 : 0 ≤ r2) (h3 : 0 ≤ r3)
include hs h1 h2 h3

private theorem margin_nonneg_of_level (ht : 0 ≤ t) (hk : 0 < k) (hc : t * (t + k) ≤ c)
    (hr1 : r1 ≤ t + k) (hr2 : r2 ≤ t + k) (hr3 : r3 ≤ t + k) (hy1 : 0 ≤ c + 2 * t * s1)
    (hy2 : 0 ≤ c + 2 * t * s2) (hy3 : 0 ≤ c + 2 * t * s3) : 0 ≤ margin c t s1 s2 s3 r1 r2 r3 := by
  have hm : 0 < t + k := by linarith
  have b1 := mul_le_mul_of_nonneg_left hr1 (mul_nonneg hy1 (mul_nonneg h2 h3))
  have b2 := mul_le_mul_of_nonneg_left hr2 (mul_nonneg hy2 (mul_nonneg h3 h1))
  have b3 := mul_le_mul_of_nonneg_left hr3 (mul_nonneg hy3 (mul_nonneg h1 h2))
  have hp : 0 ≤ 3 * (r1 * r2 * r3) * (c - t * (t + k)) :=
    mul_nonneg (by positivity) (sub_nonneg.mpr hc)
  have he : 3 * (r1 * r2 * r3) * (c - t * (t + k)) =
      (c + 2 * t * s1) * (r2 * r3) * r1 + (c + 2 * t * s2) * (r3 * r1) * r2 +
        (c + 2 * t * s3) * (r1 * r2) * r3 - 3 * t * (t + k) * (r1 * r2 * r3) := by
    linear_combination -2 * t * (r1 * r2 * r3) * hs
  have hf : (t + k) * margin c t s1 s2 s3 r1 r2 r3 =
      (c + 2 * t * s1) * (r2 * r3) * (t + k) + (c + 2 * t * s2) * (r3 * r1) * (t + k) +
        (c + 2 * t * s3) * (r1 * r2) * (t + k) - 3 * t * (t + k) * (r1 * r2 * r3) := by
    rw [margin_eq]
    ring
  have hn : 0 ≤ (t + k) * margin c t s1 s2 s3 r1 r2 r3 := by linarith
  exact nonneg_of_mul_nonneg_right hn hm

omit hs h1 h2 h3 in
private theorem far_balance (hk : 0 < k) (hkt : k < t) (hc : t * (t + k) + s1 ^ 2 / 2 ≤ c) :
    0 ≤ c * (3 * t - k) + 4 * k * t * s1 - 3 * t * ((t - k) * (t + k)) := by
  have ha : 0 < 3 * t - k := by linarith
  have hb := mul_le_mul_of_nonneg_right hc ha.le
  have hsq := sq_nonneg ((3 * t - k) * s1 + 4 * k * t)
  have hp : 0 ≤ 4 * t * k * ((t - k) * (3 * t + k)) :=
    mul_nonneg (by nlinarith) (mul_nonneg (by linarith) (by linarith))
  have he : 2 * (3 * t - k) *
      ((t * (t + k) + s1 ^ 2 / 2) * (3 * t - k) + 4 * k * t * s1 - 3 * t * ((t - k) * (t + k))) =
      ((3 * t - k) * s1 + 4 * k * t) ^ 2 + 4 * t * k * ((t - k) * (3 * t + k)) := by ring
  have hn := nonneg_of_mul_nonneg_right (he.symm ▸ add_nonneg hsq hp) (mul_pos two_pos ha)
  linarith

private theorem margin_nonneg_of_far (hk : 0 < k) (hkt : k < t) (hc : t * (t + k) + s1 ^ 2 / 2 ≤ c)
    (hl1 : t - k ≤ r1) (hr2 : r2 ≤ t + k) (hr3 : r3 ≤ t + k) (hy1 : c + 2 * t * s1 < 0)
    (hy2 : 0 ≤ c + 2 * t * s2) (hy3 : 0 ≤ c + 2 * t * s3) : 0 ≤ margin c t s1 s2 s3 r1 r2 r3 := by
  have hm : 0 < t - k := by linarith
  have hM : 0 < t + k := by linarith
  have b1 := mul_le_mul_of_nonneg_left hl1 (mul_nonneg (neg_nonneg.mpr hy1.le) (mul_nonneg h2 h3))
  have b2 := mul_le_mul_of_nonneg_left hr2 (mul_nonneg hy2 (mul_nonneg h3 h1))
  have b3 := mul_le_mul_of_nonneg_left hr3 (mul_nonneg hy3 (mul_nonneg h1 h2))
  have hp : 0 ≤ r1 * r2 * r3 := by positivity
  have hb := mul_nonneg hp (far_balance hk hkt hc)
  have he : (t - k) * (t + k) * margin c t s1 s2 s3 r1 r2 r3 =
      r1 * r2 * r3 * (c * (3 * t - k) + 4 * k * t * s1 - 3 * t * ((t - k) * (t + k))) +
        (t + k) * (-(c + 2 * t * s1) * (r2 * r3) * r1 - -(c + 2 * t * s1) * (r2 * r3) * (t - k)) +
        (t - k) * ((c + 2 * t * s2) * (r3 * r1) * (t + k) - (c + 2 * t * s2) * (r3 * r1) * r2) +
        (t - k) * ((c + 2 * t * s3) * (r1 * r2) * (t + k) - (c + 2 * t * s3) * (r1 * r2) * r3) := by
    rw [margin_eq]
    linear_combination 2 * t * (t - k) * (r1 * r2 * r3) * hs
  have hn : 0 ≤ (t - k) * (t + k) * margin c t s1 s2 s3 r1 r2 r3 := by
    rw [he]
    have n1 := mul_nonneg hM.le (sub_nonneg.mpr b1)
    have n2 := mul_nonneg hm.le (sub_nonneg.mpr b2)
    have n3 := mul_nonneg hm.le (sub_nonneg.mpr b3)
    linarith
  exact nonneg_of_mul_nonneg_right hn (mul_pos hm hM)

end
variable {g : DeltaSettings ℝ} {w z s1 s2 s3 θ1 θ2 θ3 : ℝ}

/-- The part of the height of a tip that is common to all arms. -/
private noncomputable def level (g : DeltaSettings ℝ) (w z : ℝ) : ℝ :=
  0.5 * (g.arm ^ 2 - g.crank ^ 2 + sideGap g ^ 2 - w - z ^ 2)

private theorem two_mul_level (g : DeltaSettings ℝ) (w z : ℝ) :
    2 * level g w z = g.arm ^ 2 - g.crank ^ 2 + sideGap g ^ 2 - w - z ^ 2 := by
  rw [level]
  norm_num only
  ring

private theorem ArmFits.height_eq (f : ArmFits g w s1 z θ1) :
    -z * tipHeight g θ1 = level g w z + tipReach g θ1 * (s1 - sideGap g) := by
  have hc := tipReach_sq_add_tipHeight_sq g θ1
  have hm := f.meets
  have hl := two_mul_level g w z
  linear_combination (hm - hc - hl) / 2

/-- A tip that is nearer to the axis, of an arm that is further over, is the higher one. -/
private theorem ArmFits.higher (f1 : ArmFits g w s1 z θ1) (f2 : ArmFits g w s2 z θ2) (hz : z < 0)
    (ht : sideGap g ≤ 0) (h1 : 0 ≤ tipReach g θ1) (hr : tipReach g θ1 < tipReach g θ2) (hs : s2 < s1) :
    0 ≤ tipHeight g θ1 ∧
      tipReach g θ2 * (s2 - sideGap g) ≤ tipReach g θ1 * (s1 - sideGap g) := by
  have c1 := tipReach_sq_add_tipHeight_sq g θ1
  have c2 := tipReach_sq_add_tipHeight_sq g θ2
  have e1 := f1.height_eq
  have e2 := f2.height_eq
  have o1 := f1.outward
  have o2 := f2.outward
  generalize tipHeight g θ1 = p1 at *
  generalize tipHeight g θ2 = p2 at *
  generalize tipReach g θ1 = r1 at *
  generalize tipReach g θ2 = r2 at *
  generalize sideGap g = t at *
  have hsum : (r2 - r1) * ((-z * (r1 - t) + p1 * (s1 - t)) + (-z * (r2 - t) + p2 * (s2 - t))) =
      (s1 - s2) * (r2 * p1 + r1 * p2) := by
    linear_combination (p1 + p2) * (e1 - e2) - z * (c2 - c1)
  have hw : 0 ≤ r2 * p1 + r1 * p2 := by
    apply nonneg_of_mul_nonneg_right _ (sub_pos.mpr hs)
    rw [← hsum]
    exact mul_nonneg (sub_nonneg.mpr hr.le) (add_nonneg o1 o2)
  have hsq : p2 ^ 2 < p1 ^ 2 := by nlinarith
  have habs : |p2| < |p1| := sq_lt_sq.mp hsq
  have hp : 0 ≤ p1 := by
    by_contra hn
    rw [abs_of_neg (not_le.mp hn)] at habs
    have h2 := mul_le_mul_of_nonneg_left ((le_abs_self p2).trans habs.le) h1
    nlinarith
  refine ⟨hp, ?_⟩
  rw [abs_of_nonneg hp] at habs
  have hl := mul_le_mul_of_nonneg_left ((le_abs_self p2).trans habs.le) (neg_nonneg.mpr hz.le)
  linarith

section
variable {c : ℝ} (f1 : ArmFits g w s1 z θ1) (f2 : ArmFits g w s2 z θ2) (f3 : ArmFits g w s3 z θ3)
  (hs : s1 + s2 + s3 = 0) (hw : w = 2 / 3 * (s1 ^ 2 + s2 ^ 2 + s3 ^ 2)) (hz : z < 0)
  (h1 : 0 ≤ tipReach g θ1) (h2 : 0 ≤ tipReach g θ2) (h3 : 0 ≤ tipReach g θ3)
  (hc : c = level g w z + w + z ^ 2)
include f1 f2 f3 hs hw hz h1 h2 h3 hc

private theorem margin_nonneg_of_small_base (ht : sideGap g < 0) (hp : 0 < c)
    (hy1 : c + 2 * sideGap g * s1 < 0) (hy2 : 0 ≤ c + 2 * sideGap g * s2)
    (hy3 : 0 ≤ c + 2 * sideGap g * s3)
    (h12 : 0 ≤ (c + 2 * sideGap g * s1) + (c + 2 * sideGap g * s2))
    (h13 : 0 ≤ (c + 2 * sideGap g * s1) + (c + 2 * sideGap g * s3)) :
    0 ≤ margin c (sideGap g) s1 s2 s3 (tipReach g θ1) (tipReach g θ2) (tipReach g θ3) := by
  have hs1 : 0 < s1 - sideGap g := by nlinarith only [hp, hy1, ht]
  have hs2 : s2 < s1 := by nlinarith only [hy1, hy2, ht]
  have hs3 : s3 < s1 := by nlinarith only [hy1, hy3, ht]
  have hprod : 0 ≤ -(3 * sideGap g) * (tipReach g θ1 * tipReach g θ2 * tipReach g θ3) :=
    mul_nonneg (by linarith) (by positivity)
  -- the first summand alone is negative; a tip that is no further out than the first makes up for it
  rcases le_or_gt (tipReach g θ2) (tipReach g θ1) with hr2 | hr2
  · have b := mul_le_mul_of_nonneg_left hr2 (mul_nonneg hy2 h3)
    have n := mul_nonneg h12 (mul_nonneg h2 h3)
    have m := mul_nonneg hy3 (mul_nonneg h1 h2)
    rw [margin_eq]
    linarith
  rcases le_or_gt (tipReach g θ3) (tipReach g θ1) with hr3 | hr3
  · have b := mul_le_mul_of_nonneg_left hr3 (mul_nonneg hy3 h2)
    have n := mul_nonneg h13 (mul_nonneg h2 h3)
    have m := mul_nonneg hy2 (mul_nonneg h3 h1)
    rw [margin_eq]
    linarith
  -- both other tips are further out than the first, which is then the highest
  obtain ⟨hp1, ha2⟩ := f1.higher f2 hz ht.le h1 hr2 hs2
  obtain ⟨-, ha3⟩ := f1.higher f3 hz ht.le h1 hr3 hs3
  have e1 := f1.height_eq
  have b2 := mul_le_mul_of_nonneg_left ha2 (mul_nonneg hy2 h3)
  have b3 := mul_le_mul_of_nonneg_left ha3 (mul_nonneg hy3 h2)
  have hsum : (c + 2 * sideGap g * s1) * (s1 - sideGap g) + (c + 2 * sideGap g * s2) * (s2 - sideGap g) +
      (c + 2 * sideGap g * s3) * (s3 - sideGap g) - 3 * sideGap g * (tipReach g θ1 * (s1 - sideGap g)) =
      -(3 * sideGap g) * (z ^ 2 + -z * tipHeight g θ1) := by
    linear_combination 3 * sideGap g * e1 + (c - 2 * sideGap g ^ 2) * hs - 3 * sideGap g * hc -
      3 * sideGap g * hw
  have hn : 0 ≤ -(3 * sideGap g) * (z ^ 2 + -z * tipHeight g θ1) :=
    mul_nonneg (by linarith) (add_nonneg (sq_nonneg z) (mul_nonneg (by linarith) hp1))
  have hm := mul_nonneg (mul_nonneg h2 h3) (hsum ▸ hn)
  have hfinal : 0 ≤ (s1 - sideGap g) *
      margin c (sideGap g) s1 s2 s3 (tipReach g θ1) (tipReach g θ2) (tipReach g θ3) := by
    rw [margin_eq]
    linarith
  exact nonneg_of_mul_nonneg_right hfinal hs1

end

private theorem sq_le_of_sum (hs : s1 + s2 + s3 = 0) : s1 ^ 2 ≤ 2 / 3 * (s1 ^ 2 + s2 ^ 2 + s3 ^ 2) := by
  obtain rfl : s1 = -(s2 + s3) := by linarith
  nlinarith only [sq_nonneg (s2 - s3)]

private theorem add_nonneg_of_sum {c t : ℝ} (hs : s1 + s2 + s3 = 0) (hq : s3 ^ 2 ≤ w)
    (hb : t ^ 2 + w ≤ 2 * c) : 0 ≤ (c + 2 * t * s1) + (c + 2 * t * s2) := by
  have he : (c + 2 * t * s1) + (c + 2 * t * s2) = 2 * c - 2 * t * s3 := by
    linear_combination 2 * t * hs
  nlinarith only [he, hq, hb, sq_nonneg (t - s3)]

theorem tipReach_le (hc : 0 < g.crank) (θ : ℝ) : tipReach g θ ≤ sideGap g + g.crank := by
  have h := mul_le_mul_of_nonneg_left (Real.cos_le_one θ) hc.le
  rw [tipReach_real]
  linarith

theorem le_tipReach (hc : 0 < g.crank) (θ : ℝ) : sideGap g - g.crank ≤ tipReach g θ := by
  have h := mul_le_mul_of_nonneg_left (Real.neg_one_le_cos θ) hc.le
  rw [tipReach_real]
  linarith

section
variable (hk : 0 < g.crank) (hka : g.crank < g.arm) (hrest : tipReach g 0 ^ 2 ≤ g.arm ^ 2)
include hk hka hrest

private theorem level_bounds (w z : ℝ) :
    sideGap g ^ 2 + w ≤ 2 * (level g w z + w + z ^ 2) ∧
      sideGap g * (sideGap g + g.crank) + w / 2 ≤ level g w z + w + z ^ 2 := by
  have hl := two_mul_level g w z
  have hsq : g.crank ^ 2 ≤ g.arm ^ 2 := by nlinarith only [hk, hka]
  rw [tipReach_zero] at hrest
  constructor <;> nlinarith only [hl, hsq, hrest, sq_nonneg z]

variable (f1 : ArmFits g w s1 z θ1) (f2 : ArmFits g w s2 z θ2) (f3 : ArmFits g w s3 z θ3)
  (hs : s1 + s2 + s3 = 0) (hw : w = 2 / 3 * (s1 ^ 2 + s2 ^ 2 + s3 ^ 2)) (hz : z < 0)
  (h1 : 0 ≤ tipReach g θ1) (h2 : 0 ≤ tipReach g θ2) (h3 : 0 ≤ tipReach g θ3)
include f1 f2 f3 hs hw hz h1 h2 h3

private theorem margin_nonneg_of_neg (hy : level g w z + w + z ^ 2 + 2 * sideGap g * s1 < 0) :
    0 ≤ margin (level g w z + w + z ^ 2) (sideGap g) s1 s2 s3
      (tipReach g θ1) (tipReach g θ2) (tipReach g θ3) := by
  obtain ⟨hb, hb'⟩ := level_bounds hk hka hrest w z
  have q1 : s1 ^ 2 ≤ w := hw ▸ sq_le_of_sum hs
  have q2 : s2 ^ 2 ≤ w := by
    rw [hw]
    nlinarith only [sq_le_of_sum (by linarith : s2 + s3 + s1 = 0)]
  have q3 : s3 ^ 2 ≤ w := by
    rw [hw]
    nlinarith only [sq_le_of_sum (by linarith : s3 + s1 + s2 = 0)]
  generalize hc : level g w z + w + z ^ 2 = c at *
  have h12 := add_nonneg_of_sum hs q3 hb
  have h13 := add_nonneg_of_sum (by linarith : s1 + s3 + s2 = 0) q2 hb
  rcases lt_or_ge (sideGap g) 0 with ht | ht
  · apply margin_nonneg_of_small_base f1 f2 f3 hs hw hz h1 h2 h3 hc.symm ht _ hy (by linarith)
      (by linarith) h12 h13
    nlinarith only [hb, q1, ht, sq_nonneg s1]
  · have hkt : g.crank < sideGap g := by
      nlinarith only [hb', q1, hy, ht, hk, sq_nonneg (s1 + 2 * sideGap g)]
    exact margin_nonneg_of_far hs h1 h2 h3 hk hkt (by linarith) (le_tipReach hk θ1)
      (tipReach_le hk θ2) (tipReach_le hk θ3) hy (by linarith) (by linarith)

/-- The effector of an accepted geometry hangs below tips that stay on their sides of the axis. -/
private theorem margin_nonneg : 0 ≤ margin (level g w z + w + z ^ 2) (sideGap g) s1 s2 s3
    (tipReach g θ1) (tipReach g θ2) (tipReach g θ3) := by
  -- an arm that is far over to the side of the others can be taken for the first one
  rcases lt_or_ge (level g w z + w + z ^ 2 + 2 * sideGap g * s1) 0 with y1 | y1
  · exact margin_nonneg_of_neg hk hka hrest f1 f2 f3 hs hw hz h1 h2 h3 y1
  rcases lt_or_ge (level g w z + w + z ^ 2 + 2 * sideGap g * s2) 0 with y2 | y2
  · rw [← margin_rotate]
    exact margin_nonneg_of_neg hk hka hrest f2 f3 f1 (by linarith) (by linarith) hz h2 h3 h1 y2
  rcases lt_or_ge (level g w z + w + z ^ 2 + 2 * sideGap g * s3) 0 with y3 | y3
  · rw [← margin_rotate, ← margin_rotate]
    exact margin_nonneg_of_neg hk hka hrest f3 f1 f2 (by linarith) (by linarith) hz h3 h1 h2 y3
  rcases lt_or_ge (sideGap g) 0 with ht | ht
  · have n1 := mul_nonneg y1 (mul_nonneg h2 h3)
    have n2 := mul_nonneg y2 (mul_nonneg h3 h1)
    have n3 := mul_nonneg y3 (mul_nonneg h1 h2)
    have n := mul_nonneg (by linarith : 0 ≤ -(3 * sideGap g)) (mul_nonneg (mul_nonneg h1 h2) h3)
    rw [margin_eq]
    linarith
  · obtain ⟨-, hb⟩ := level_bounds hk hka hrest w z
    have hn : 0 ≤ w := hw ▸ by positivity
    exact margin_nonneg_of_level hs h1 h2 h3 ht hk (by linarith) (tipReach_le hk θ1)
      (tipReach_le hk θ2) (tipReach_le hk θ3) y1 y2 y3

end

/-- The point of the plane through the tips over the effector, by its weights. -/
private theorem PoseFits.hangsBelow_of_margin {x y z θ1 θ2 θ3 : ℝ} (hp : PoseFits g ⟨x, y, z⟩ θ1 θ2 θ3)
    (hz : z < 0) (hr : 0 < tipReach g θ1 * tipReach g θ2 + tipReach g θ2 * tipReach g θ3 +
      tipReach g θ3 * tipReach g θ1)
    (hm : 0 ≤ margin (level g (x ^ 2 + y ^ 2) z + (x ^ 2 + y ^ 2) + z ^ 2) (sideGap g)
      (-y) ((y + √3 * x) / 2) ((y - √3 * x) / 2) (tipReach g θ1) (tipReach g θ2) (tipReach g θ3)) :
    HangsBelow (crankTips g θ1 θ2 θ3) ⟨x, y, z⟩ := by
  have hsq := sqrt_three_mul_self
  have e1 := hp.first.height_eq
  have e2 := hp.second.height_eq
  have e3 := hp.third.height_eq
  rw [crankTips_eq]
  dsimp only at e1 e2 e3
  generalize tipReach g θ1 = r1 at *
  generalize tipReach g θ2 = r2 at *
  generalize tipReach g θ3 = r3 at *
  generalize tipHeight g θ1 = p1 at *
  generalize tipHeight g θ2 = p2 at *
  generalize tipHeight g θ3 = p3 at *
  generalize hk : r1 * r2 + r2 * r3 + r3 * r1 = k at *
  have hz' : 0 < -z := by linarith
  -- the weights of the tips, up to their sum `k`
  let l1 := r2 * r3 + 2 / 3 * ((-y - (y - √3 * x) / 2) * r2 + (-y - (y + √3 * x) / 2) * r3)
  let l2 := r3 * r1 + 2 / 3 * (((y + √3 * x) / 2 + y) * r3 + √3 * x * r1)
  let l3 := r1 * r2 + 2 / 3 * (-(√3 * x) * r1 + ((y - √3 * x) / 2 + y) * r2)
  have he : -z * (l1 * p1 + l2 * p2 + l3 * p3 - z * k) =
      margin (level g (x ^ 2 + y ^ 2) z + (x ^ 2 + y ^ 2) + z ^ 2) (sideGap g)
        (-y) ((y + √3 * x) / 2) ((y - √3 * x) / 2) r1 r2 r3 := by
    rw [margin_eq, ← hk]
    simp only [l1, l2, l3]
    linear_combination l1 * e1 + l2 * e2 + l3 * e3 + x ^ 2 / 3 * (r1 * r2 + r2 * r3 + r3 * r1) * hsq
  have hh := nonneg_of_mul_nonneg_right (he.symm ▸ hm) hz'
  refine ⟨l1 / k, l2 / k, l3 / k, ?_, ?_, ?_, ?_⟩
  · field_simp
    rw [← hk]
    simp only [l1, l2, l3]
    ring
  · field_simp
    rw [← hk]
    simp only [l1, l2, l3]
    linear_combination 2 / 3 * x * (r1 * r2 + r2 * r3 + r3 * r1) * hsq
  · field_simp
    rw [← hk]
    simp only [l1, l2, l3]
    ring
  · have hq : l1 / k * p1 + l2 / k * p2 + l3 / k * p3 = (l1 * p1 + l2 * p2 + l3 * p3) / k := by ring
    rw [hq, le_div_iff₀ hr]
    linarith

section
variable {layout : AxisLayout} {p : AxisPosition ℝ} {m : MotorPosition ℝ}

/-- The effector hangs below tips that span a triangle and stay on their own sides of the axis. -/
theorem hangsBelow_of_uncrossed (hv : validate g layout = .ok ()) (hi : inverse g p = .ok m)
    (hr : rawAngles g p = (m.values.take armCount).map some) (ha : Scalar.epsilon ≤ tipsArea (tips g m))
    (hρ : ∀ θ ∈ m.values.take armCount, 0 ≤ tipReach g θ) : HangsBelow (tips g m) (effector p) := by
  obtain ⟨x, y, z, θ1, θ2, θ3, rest, rfl, rfl, hz, -⟩ := of_inverse_eq_ok hi
  obtain ⟨-, ⟨hk, -⟩, hka, -, -, -, hrest⟩ := validate_eq_ok.mp hv
  have hp := poseFits_of_rawAngles hk hz hr
  simp only [armCount, List.take_succ_cons, List.take_zero, List.forall_mem_cons] at hρ
  obtain ⟨h1, h2, h3, -⟩ := hρ
  have hsq := sqrt_three_mul_self
  apply hp.hangsBelow_of_margin hz
  · have ht : tips g ⟨θ1 :: θ2 :: θ3 :: rest⟩ = crankTips g θ1 θ2 θ3 := rfl
    have hn : 0 ≤ tipReach g θ1 * tipReach g θ2 + tipReach g θ2 * tipReach g θ3 +
        tipReach g θ3 * tipReach g θ1 := by positivity
    apply lt_of_le_of_ne hn
    intro h0
    rw [ht, tipsArea_crankTips, ← h0, abs_zero, mul_zero] at ha
    exact absurd ha (not_le.mpr Scalar.epsilon_pos)
  · apply margin_nonneg hk hka hrest hp.first hp.second hp.third (by ring) _ hz h1 h2 h3
    linear_combination -(x ^ 2) / 3 * hsq

/-- Cranks that turn by right angles at most stay on their sides of a base larger than the effector. -/
theorem forward_inverse_of_wide_base (hv : validate g layout = .ok ()) (ht : 1 ≤ sideGap g)
    (hl : -(Real.pi / 2) ≤ g.minAngle) (hu : g.maxAngle ≤ Real.pi / 2) (hi : inverse g p = .ok m)
    (hr : rawAngles g p = (m.values.take armCount).map some) : forward g m p.length = .ok p := by
  obtain ⟨x, y, z, θ1, θ2, θ3, rest, rfl, rfl, -, hm⟩ := of_inverse_eq_ok hi
  have hk := (validate_eq_ok.mp hv).2.1.1
  have hρ : ∀ θ ∈ [θ1, θ2, θ3], 1 ≤ tipReach g θ := by
    intro θ hθ
    obtain ⟨h1, h2⟩ := hm θ hθ
    have hc := Real.cos_nonneg_of_neg_pi_div_two_le_of_le (hl.trans h1) (h2.trans hu)
    have hn := mul_nonneg hk.le hc
    rw [tipReach_real]
    linarith
  have ha : Scalar.epsilon ≤ tipsArea (tips g ⟨θ1 :: θ2 :: θ3 :: rest⟩) := by
    have ht : tips g ⟨θ1 :: θ2 :: θ3 :: rest⟩ = crankTips g θ1 θ2 θ3 := rfl
    have n1 := hρ θ1 (by simp)
    have n2 := hρ θ2 (by simp)
    have n3 := hρ θ3 (by simp)
    rw [ht]
    apply epsilon_le_tipsArea
    nlinarith only [n1, n2, n3]
  exact (forward_eq_iff hv hi hr).mpr ⟨ha, hangsBelow_of_uncrossed hv hi hr ha
    fun θ hθ => zero_le_one.trans (hρ θ hθ)⟩

theorem sideGap_default :
    26 ≤ sideGap (default : DeltaSettings ℝ) ∧ sideGap (default : DeltaSettings ℝ) ≤ 28 := by
  have hsq := sqrt_three_mul_self
  have hp : 0 < √3 := by positivity
  have hs : sideGap (default : DeltaSettings ℝ) = 92.834 / (2 * √3) := by
    rw [sideGap_real]
    norm_num [default]
  rw [hs, le_div_iff₀ (by positivity), div_le_iff₀ (by positivity)]
  constructor <;> nlinarith only [hsq, hp]

theorem validate_default_lengths {layout : AxisLayout} (ha : armCount ≤ layout.axisCount) {low high home : ℝ}
    (hl : -Real.pi < low) (hu : high < Real.pi) (hlh : low < high) (hh : low ≤ home ∧ home ≤ high) :
    validate { (default : DeltaSettings ℝ) with minAngle := low, maxAngle := high, homingAngle := home }
      layout = .ok () := by
  obtain ⟨hl', hu'⟩ := sideGap_default
  have hrest : tipReach { (default : DeltaSettings ℝ) with
      minAngle := low, maxAngle := high, homingAngle := home } 0 = sideGap (default : DeltaSettings ℝ) + 70 := by
    rw [tipReach_zero, sideGap_real, sideGap_real]
    norm_num [default]
  rw [validate_eq_ok, hrest]
  refine ⟨ha, ?_, ?_, ⟨hl, hu, hlh⟩, hh, ?_, ?_⟩
  · norm_num [default]
  · norm_num [default]
  · apply epsilon_le_tipsArea
    rw [hrest]
    nlinarith only [hl']
  · have ha : (default : DeltaSettings ℝ).arm = 133.5 := rfl
    dsimp only
    rw [ha]
    nlinarith only [hl', hu']

theorem validate_default {layout : AxisLayout} (ha : armCount ≤ layout.axisCount) :
    validate (default : DeltaSettings ℝ) layout = .ok () := by
  have hpi := Real.pi_gt_d2
  have hl : -Real.pi < (-0.75 : ℝ) := by linarith
  have hu : (1.57 : ℝ) < Real.pi := by linarith
  exact validate_default_lengths ha hl hu (by norm_num) ⟨le_rfl, by norm_num⟩

/-- The machine that is built by default comes back to every position. -/
theorem forward_inverse_default (hi : inverse (default : DeltaSettings ℝ) p = .ok m)
    (hr : rawAngles default p = (m.values.take armCount).map some) :
    forward default m p.length = .ok p := by
  have hpi := Real.pi_gt_d2
  have hv : validate (default : DeltaSettings ℝ) ⟨3, .none, by decide⟩ = .ok () := validate_default le_rfl
  apply forward_inverse_of_wide_base hv _ _ _ hi hr
  · linarith [sideGap_default.1]
  · norm_num [default]
    linarith
  · norm_num [default]
    linarith

/-- For every accepted geometry and every position whose angles are not brought into the crank range,
the angles lead back to the position exactly when the tips span a triangle, seen from above, and the
effector is not over its plane. Tips that stay on their own sides of the axis are never below it. -/
theorem forward_inverse_eq_self_iff (hv : validate g layout = .ok ()) (hi : inverse g p = .ok m)
    (hr : rawAngles g p = (m.values.take armCount).map some) :
    (forward g m p.length = .ok p ↔
      Scalar.epsilon ≤ tipsArea (tips g m) ∧ HangsBelow (tips g m) (effector p)) ∧
    (Scalar.epsilon ≤ tipsArea (tips g m) → (∀ θ ∈ m.values.take armCount, 0 ≤ tipReach g θ) →
      HangsBelow (tips g m) (effector p)) :=
  ⟨forward_eq_iff hv hi hr, hangsBelow_of_uncrossed hv hi hr⟩

end

/-- An effector that is much larger than the base, on short arms. -/
noncomputable def wideEffector : DeltaSettings ℝ := ⟨3.0, 1.0, 4.0, 5.0, -1.6, 1.6, 0.0⟩

theorem crank_wideEffector : wideEffector.crank = 3 := by norm_num [wideEffector]

theorem arm_wideEffector : wideEffector.arm = 4 := by norm_num [wideEffector]

theorem sideGap_wideEffector : sideGap wideEffector ^ 2 = 4 / 3 ∧
    -1.155 < sideGap wideEffector ∧ sideGap wideEffector < -1.154 := by
  have ht : sideGap wideEffector ^ 2 = 4 / 3 := by
    rw [sideGap_sq]
    norm_num [wideEffector]
  have hn : sideGap wideEffector < 0 := sideGap_neg (by norm_num [wideEffector])
  refine ⟨ht, ?_, ?_⟩ <;> nlinarith only [ht, hn]

theorem validate_wideEffector : validate wideEffector ⟨3, .none, by decide⟩ = .ok () := by
  obtain ⟨-, hl, hu⟩ := sideGap_wideEffector
  have hpi := Real.pi_gt_three
  have hr : tipReach wideEffector 0 = sideGap wideEffector + 3 := by
    rw [tipReach_zero, crank_wideEffector]
  have he : Scalar.epsilon ≤ tipsArea (crankTips wideEffector 0 0 0) := by
    apply epsilon_le_tipsArea
    rw [hr]
    nlinarith only [hl]
  rw [validate_eq_ok, hr]
  refine ⟨le_refl _, ?_, ?_, ?_, ?_, he, ?_⟩
  · norm_num [wideEffector]
  · norm_num [wideEffector]
  · refine ⟨?_, ?_, ?_⟩ <;> norm_num [wideEffector] <;> linarith
  · norm_num [wideEffector]
  · rw [arm_wideEffector]
    nlinarith only [hl, hu]

private theorem mem_range_wideEffector {θ : ℝ} (h : |θ| ≤ Real.pi / 2) :
    wideEffector.minAngle ≤ θ ∧ θ ≤ wideEffector.maxAngle := by
  have hpi := Real.pi_lt_d2
  obtain ⟨hl, hu⟩ := abs_le.mp h
  constructor <;> norm_num [wideEffector] <;> linarith

private theorem exists_crank_wideEffector {x y z : ℝ} (hz : z < 0)
    (h : (x ^ 2 + (y + sideGap wideEffector) ^ 2 + z ^ 2 + 3 ^ 2 - 4 ^ 2) ^ 2 ≤
      4 * 3 ^ 2 * ((y + sideGap wideEffector) ^ 2 + z ^ 2)) :
    ∃ θ, crankAngle wideEffector x y z = some θ ∧
      (sideGap wideEffector ≤ tipReach wideEffector θ →
        wideEffector.minAngle ≤ θ ∧ θ ≤ wideEffector.maxAngle) ∧
      (tipReach wideEffector θ - sideGap wideEffector) ^ 2 + tipHeight wideEffector θ ^ 2 = 3 ^ 2 ∧
      x ^ 2 + y ^ 2 - 2 * tipReach wideEffector θ * -y + tipReach wideEffector θ ^ 2 +
        (z - tipHeight wideEffector θ) ^ 2 = 4 ^ 2 ∧
      0 ≤ -z * (tipReach wideEffector θ - sideGap wideEffector) +
        tipHeight wideEffector θ * (-y - sideGap wideEffector) := by
  have hc : 0 < wideEffector.crank := crank_wideEffector ▸ three_pos
  obtain ⟨θ, hθ⟩ : ∃ θ, crankAngle wideEffector x y z = some θ := by
    apply exists_crankAngle hz
    rwa [crank_wideEffector, arm_wideEffector]
  obtain ⟨hmeets, hout⟩ := crankAngle_fits hc hz hθ
  have hcircle := tipReach_sq_add_tipHeight_sq wideEffector θ
  rw [arm_wideEffector] at hmeets
  rw [crank_wideEffector] at hcircle
  exact ⟨θ, hθ, fun ho => mem_range_wideEffector (abs_le_of_crankAngle hc hz hθ ho), hcircle, hmeets, hout⟩

private theorem centered_arm {t r h : ℝ} (ht : t ^ 2 = 4 / 3) (hl : -1.155 < t) (hu : t < -1.154)
    (hc : (r - t) ^ 2 + h ^ 2 = 9) (hm : r ^ 2 + (-4 - h) ^ 2 = 16) (ho : 0 ≤ 4 * (r - t) - h * t) :
    t ≤ r ∧ -3 ≤ h ∧ 1 ≤ r ^ 2 := by
  have he : 8 * h = -(2 * t * r) - 23 / 3 := by linear_combination hm - hc + ht
  have hh : -3 ≤ h := by nlinarith only [hc, sq_nonneg (r - t)]
  refine ⟨?_, hh, ?_⟩
  · by_contra hn
    have hp : 0 < t * r := by nlinarith only [hn, hu]
    nlinarith only [hn, hp, he, ho, hu]
  · by_contra hn
    obtain ⟨h1, h2⟩ := abs_lt.mp (sq_lt_one_iff_abs_lt_one r |>.mp (not_le.mp hn))
    have h3 : h < -1 / 2 := by nlinarith only [h1, h2, hl, hu, he]
    nlinarith only [hn, hm, hh, h3]

private theorem exists_centered_crank : ∃ θ, crankAngle wideEffector 0 0 (-4) = some θ ∧
    (wideEffector.minAngle ≤ θ ∧ θ ≤ wideEffector.maxAngle) ∧
    1 ≤ tipReach wideEffector θ ^ 2 ∧ -3 ≤ tipHeight wideEffector θ := by
  obtain ⟨ht, hl, hu⟩ := sideGap_wideEffector
  obtain ⟨θ, hθ, hrange, hcircle, hmeets, hout⟩ := exists_crank_wideEffector (x := 0) (y := 0) (z := -4)
    (by norm_num) (by rw [zero_add, ht]; norm_num)
  obtain ⟨hreach, hheight, hspread⟩ := centered_arm (r := tipReach wideEffector θ)
    (h := tipHeight wideEffector θ) ht hl hu (by linarith) (by linarith) (by linarith)
  exact ⟨θ, hθ, hrange hreach, hspread, hheight⟩

/-- The effector hangs in the middle, below three tips at one height. -/
theorem lowered_effector_comes_back : ∃ m,
    validate wideEffector ⟨3, .none, by decide⟩ = .ok () ∧
      inverse wideEffector ⟨[0, 0, -4]⟩ = .ok m ∧
      rawAngles wideEffector ⟨[0, 0, -4]⟩ = (m.values.take armCount).map some ∧
      forward wideEffector m 3 = .ok ⟨[0, 0, -4]⟩ := by
  obtain ⟨θ, hθ, hrange, hspread, hheight⟩ := exists_centered_crank
  have hr : rawAngles wideEffector ⟨[0, 0, -4]⟩ = [some θ, some θ, some θ] := by
    simp only [rawAngles, zero_mul, add_zero, sub_zero, hθ]
  have hi : inverse wideEffector ⟨[0, 0, -4]⟩ = .ok ⟨[θ, θ, θ]⟩ :=
    inverse_of_rawAngles (by norm_num) hr (by simpa using hrange)
  refine ⟨_, validate_wideEffector, hi, hr, ?_⟩
  refine (forward_inverse_eq_self_iff validate_wideEffector hi hr).1.mpr ⟨?_, 1 / 3, 1 / 3, 1 / 3, ?_⟩
  · have he : tips wideEffector ⟨[θ, θ, θ]⟩ = crankTips wideEffector θ θ θ := rfl
    rw [he]
    apply epsilon_le_tipsArea
    linarith
  · have he : tips wideEffector ⟨[θ, θ, θ]⟩ = _ := crankTips_eq wideEffector θ θ θ
    have hp : effector (⟨[0, 0, -4]⟩ : AxisPosition ℝ) = ⟨0, 0, -4⟩ := rfl
    rw [he, hp]
    refine ⟨by norm_num, by ring, by ring, ?_⟩
    dsimp only
    linarith

private theorem near_arm {t r h : ℝ} (ht : t ^ 2 = 4 / 3) (hl : -1.155 < t) (hu : t < -1.154)
    (hc : (r - t) ^ 2 + h ^ 2 = 9) (hm : (r + 4) ^ 2 + (-1 / 2 - h) ^ 2 = 16)
    (ho : 0 ≤ 1 / 2 * (r - t) - h * (4 + t)) : t ≤ r ∧ r < -0.86 ∧ h < -2.5 := by
  have he : (8 + 2 * t) * r + h = -95 / 12 := by linear_combination hm - hc + ht
  have hr : t ≤ r := by
    by_contra hn
    have hh : h < 0 := by nlinarith only [hn, ho, hl]
    have hg : -1.4 < r := by nlinarith only [he, hh, hl, hu]
    have hf : -1.4 < h := by nlinarith only [he, hn, hl, hu]
    nlinarith only [hn, hg, hh, hf, hc, hl, hu]
  have h1 : h < -1 / 2 := by nlinarith only [he, hr, hl, hu]
  have h2 : h < -2.5 := by
    by_contra hn
    have hg : r < -0.95 := by nlinarith only [he, hn, hl, hu]
    nlinarith only [hg, hr, hl, h1, hn, hm]
  have h3 : -3 ≤ h := by nlinarith only [hc, sq_nonneg (r - t)]
  exact ⟨hr, by nlinarith only [he, h3, hl, hu], h2⟩

private theorem far_arm {t r h : ℝ} (ht : t ^ 2 = 4 / 3) (hl : -1.155 < t) (hu : t < -1.154)
    (hc : (r - t) ^ 2 + h ^ 2 = 9) (hm : (r - 2) ^ 2 + 12 + (-1 / 2 - h) ^ 2 = 16) :
    0 < r ∧ r < 1.5 ∧ -2.5 ≤ h := by
  have he : h = (4 - 2 * t) * r - 95 / 12 := by linear_combination hm - hc + ht
  have h1 : -2.5 ≤ h ∧ h ≤ 1.5 := by constructor <;> nlinarith only [hm, sq_nonneg (r - 2)]
  refine ⟨?_, ?_, h1.1⟩ <;> nlinarith only [he, h1, hl, hu]

private theorem exists_near_crank : ∃ θ, crankAngle wideEffector 0 4 (-1 / 2) = some θ ∧
    (wideEffector.minAngle ≤ θ ∧ θ ≤ wideEffector.maxAngle) ∧
    sideGap wideEffector ≤ tipReach wideEffector θ ∧ tipReach wideEffector θ < -0.86 ∧
    tipHeight wideEffector θ < -2.5 := by
  obtain ⟨ht, hl, hu⟩ := sideGap_wideEffector
  have hq : (4 + sideGap wideEffector) ^ 2 = 52 / 3 + 8 * sideGap wideEffector := by
    linear_combination ht
  obtain ⟨θ, hθ, hrange, hcircle, hmeets, hout⟩ := exists_crank_wideEffector (x := 0) (y := 4) (z := -1 / 2)
    (by norm_num) (by rw [hq]; nlinarith only [hl, hu])
  obtain ⟨hreach, hbeyond, hlow⟩ := near_arm (r := tipReach wideEffector θ)
    (h := tipHeight wideEffector θ) ht hl hu (by linarith) (by linarith) (by linarith)
  exact ⟨θ, hθ, hrange hreach, hreach, hbeyond, hlow⟩

private theorem exists_far_crank :
    ∃ θ, crankAngle wideEffector (4 * (√3 / 2)) (4 * -(1 / 2)) (-1 / 2) = some θ ∧
      (wideEffector.minAngle ≤ θ ∧ θ ≤ wideEffector.maxAngle) ∧ tipReach wideEffector θ < 1.5 ∧
      -2.5 ≤ tipHeight wideEffector θ := by
  obtain ⟨ht, hl, hu⟩ := sideGap_wideEffector
  have hsq := sqrt_three_mul_self
  have hq : (4 * -(1 / 2) + sideGap wideEffector) ^ 2 = 16 / 3 - 4 * sideGap wideEffector := by
    linear_combination ht
  have hx : (4 * (√3 / 2)) ^ 2 = 12 := by linear_combination 4 * hsq
  obtain ⟨θ, hθ, hrange, hcircle, hmeets, hout⟩ := exists_crank_wideEffector (x := 4 * (√3 / 2)) (y := 4 * -(1 / 2))
    (z := -1 / 2) (by norm_num) (by rw [hq, hx]; nlinarith only [hl, hu])
  obtain ⟨hreach, hnear, hhigh⟩ := far_arm (r := tipReach wideEffector θ)
    (h := tipHeight wideEffector θ) ht hl hu (by linarith) (by linear_combination hmeets - 4 * hsq)
  exact ⟨θ, hθ, hrange (by linarith), hnear, hhigh⟩

/-- An effector over the first tip lies above the plane through the tips when that tip is the lowest. -/
private theorem not_hangsBelow_of_first_low {θ1 θ2 : ℝ} (hgap : -1.155 < tipReach g θ1)
    (h1 : tipReach g θ1 < -0.86) (h2 : tipReach g θ2 < 1.5) (hlow : tipHeight g θ1 < -2.5)
    (hhigh : -2.5 ≤ tipHeight g θ2) :
    ¬ HangsBelow (crankTips g θ1 θ2 θ2) ⟨0, 4, -1 / 2⟩ := by
  rw [crankTips_eq]
  rintro ⟨a, b, c, hs, -, hy, hp⟩
  dsimp only at hy hp
  have hb : (b + c) * (tipReach g θ1 + tipReach g θ2 / 2) = 4 + tipReach g θ1 := by
    linear_combination hy + tipReach g θ1 * hs
  have hn : b + c < 0 := by nlinarith only [hb, hgap, h1, h2]
  have hh : a * tipHeight g θ1 + b * tipHeight g θ2 + c * tipHeight g θ2 =
      tipHeight g θ1 + (b + c) * (tipHeight g θ2 - tipHeight g θ1) := by
    linear_combination tipHeight g θ1 * hs
  nlinarith only [hp, hh, hn, hlow, hhigh]

/-- The first tip is below the others and beyond the axis, and the effector is over their plane. The
angles lead to a point under it. -/
theorem raised_effector_lost : ∃ m,
    validate wideEffector ⟨3, .none, by decide⟩ = .ok () ∧
      inverse wideEffector ⟨[0, 4, -1 / 2]⟩ = .ok m ∧
      rawAngles wideEffector ⟨[0, 4, -1 / 2]⟩ = (m.values.take armCount).map some ∧
      forward wideEffector m 3 ≠ .ok ⟨[0, 4, -1 / 2]⟩ := by
  obtain ⟨θ1, h1, n1, hreach, hbeyond, hlow⟩ := exists_near_crank
  obtain ⟨θ2, h2, n2, hnear, hhigh⟩ := exists_far_crank
  have hr : rawAngles wideEffector ⟨[0, 4, -1 / 2]⟩ = [some θ1, some θ2, some θ2] := by
    simp only [rawAngles, cos120_real, sin120_real, zero_mul, zero_add, zero_sub, sub_zero, add_zero,
      crankAngle_neg, h1, h2]
  have hi : inverse wideEffector ⟨[0, 4, -1 / 2]⟩ = .ok ⟨[θ1, θ2, θ2]⟩ :=
    inverse_of_rawAngles (by norm_num) hr (by simpa using ⟨n1, n2⟩)
  refine ⟨_, validate_wideEffector, hi, hr, fun hf => ?_⟩
  have hgap := sideGap_wideEffector.2.1.trans_le hreach
  exact not_hangsBelow_of_first_low hgap hbeyond hnear hlow hhigh
    ((forward_eq_iff validate_wideEffector hi hr).mp hf).2

end MotionControl.RotaryDelta
