import MotionControl.Proofs.Kinematics.DeltaUncrossedTips
import MotionControl.Proofs.Kinematics.JogCuts

/-! How far the effector of a rotary delta gets from the axis, over exact numbers. The check of lines allows an arm beyond
a level tip. That is as far as the effector gets unless level tips are beyond the axis, which takes an effector that is
larger than the base by more than the cranks make up for. -/
namespace MotionControl.RotaryDelta
open Scalar
variable {g : DeltaSettings ℝ} {layout : AxisLayout} {p : AxisPosition ℝ} {m : MotorPosition ℝ}
  {w s x y z θ θ1 θ2 θ3 : ℝ} {rest : List ℝ}

theorem maxReach_eq (g : DeltaSettings ℝ) : maxReach g = tipReach g 0 + g.arm := by
  rw [tipReach_zero]
  rfl

theorem invalidLine_eq_false_iff : invalidLine g ⟨x :: y :: z :: rest⟩ = false ↔
    z < 0 ∧ hypot x y ≤ tipReach g 0 + g.arm := by
  simp only [invalidLine, zero_real, maxReach_eq, Bool.or_eq_false_iff, decide_eq_false_iff_not, not_le, not_lt]

theorem hypot_zero_left (hy : 0 ≤ y) : hypot 0 y = y := by
  have h : hypot 0 y = √(0 * 0 + y * y) := rfl
  rw [h, zero_mul, zero_add, Real.sqrt_mul_self hy]

/-- A position has crank angles when each arm has, in or next to the crank range. -/
theorem exists_rawAngles (h : inverse g p = .ok m) : ∃ x y z rest θ1 θ2 θ3, p = ⟨x :: y :: z :: rest⟩ ∧ z < 0 ∧
    rawAngles g p = [some θ1, some θ2, some θ3] := by
  obtain ⟨x, y, z, -, -, -, rest, rfl, -, hz, -⟩ := of_inverse_eq_ok h
  rw [inverse] at h
  dsimp only at h
  split at h
  · cases h
  split at h
  · cases h
  obtain ⟨_, h1, h⟩ := Outcome.bind_eq_ok.mp h
  obtain ⟨_, h2, h⟩ := Outcome.bind_eq_ok.mp h
  obtain ⟨_, h3, -⟩ := Outcome.bind_eq_ok.mp h
  obtain ⟨θ1, h1, -⟩ := armAngle_eq_ok.mp h1
  obtain ⟨θ2, h2, -⟩ := armAngle_eq_ok.mp h2
  obtain ⟨θ3, h3, -⟩ := armAngle_eq_ok.mp h3
  exact ⟨x, y, z, rest, θ1, θ2, θ3, rfl, hz, by simp only [rawAngles, h1, h2, h3]⟩

/-- A crank on the side of the effector holds it within an arm of its tip, or of the axis if the tip is beyond that. -/
theorem ArmFits.sqrt_le (hf : ArmFits g w s z θ) (hc : 0 < g.crank) (ha : 0 ≤ g.arm) (hs : 0 ≤ s) (hw : s ^ 2 ≤ w) :
    √w ≤ max (tipReach g 0) 0 + g.arm := by
  have hlevel : w - 2 * tipReach g θ * s + tipReach g θ ^ 2 ≤ g.arm ^ 2 := by
    linarith only [hf.meets, sq_nonneg (z - tipHeight g θ)]
  have hroot : s ≤ √w := Real.le_sqrt_of_sq_le hw
  have hsq : √w ^ 2 = w := Real.sq_sqrt ((sq_nonneg s).trans hw)
  have hle : tipReach g θ ≤ tipReach g 0 := by
    rw [tipReach_zero]
    exact tipReach_le hc θ
  rcases le_total (tipReach g θ) 0 with hn | hp
  · have harm : √w ≤ g.arm := by
      apply Real.sqrt_le_iff.mpr
      refine ⟨ha, ?_⟩
      have hside : 0 ≤ -tipReach g θ * s := mul_nonneg (neg_nonneg.mpr hn) hs
      linarith only [hlevel, hside, sq_nonneg (tipReach g θ)]
    exact harm.trans (le_add_of_nonneg_left (le_max_right ..))
  · have harm : (√w - tipReach g θ) ^ 2 ≤ g.arm ^ 2 := by
      have hside : tipReach g θ * s ≤ tipReach g θ * √w := mul_le_mul_of_nonneg_left hroot hp
      linarith only [hlevel, hside, hsq]
    have hgap := (abs_le_of_sq_le_sq' harm ha).2
    linarith only [hgap, hle, le_max_left (tipReach g 0) 0]

/-- One of three cranks is on the side of the effector. -/
theorem PoseFits.sqrt_le {e : Point ℝ} (hp : PoseFits g e θ1 θ2 θ3) (hc : 0 < g.crank) (ha : 0 ≤ g.arm) :
    √(e.x ^ 2 + e.y ^ 2) ≤ max (tipReach g 0) 0 + g.arm := by
  have hsq := sqrt_three_mul_self
  by_cases h1 : 0 ≤ -e.y
  · exact hp.first.sqrt_le hc ha h1 (by linarith only [sq_nonneg e.x])
  by_cases h2 : 0 ≤ (e.y + √3 * e.x) / 2
  · refine hp.second.sqrt_le hc ha h2 ?_
    nlinarith only [hsq, sq_nonneg (√3 * e.y - e.x)]
  · have h3 : 0 ≤ (e.y - √3 * e.x) / 2 := by linarith only [h1, h2]
    refine hp.third.sqrt_le hc ha h3 ?_
    nlinarith only [hsq, sq_nonneg (√3 * e.y + e.x)]

/-- A position with crank angles is within an arm of a level tip, or of the axis if level tips are beyond it. -/
theorem hypot_le_of_inverse (hv : validate g layout = .ok ()) (hi : inverse g p = .ok m) :
    hypot (p.axis 0) (p.axis 1) ≤ max (tipReach g 0) 0 + g.arm := by
  obtain ⟨-, ⟨hc, -, ha, -⟩, -⟩ := validate_eq_ok.mp hv
  obtain ⟨x, y, z, rest, θ1, θ2, θ3, rfl, hz, hr⟩ := exists_rawAngles hi
  have h := (poseFits_of_rawAngles hc hz hr).sqrt_le hc ha.le
  rw [sq, sq] at h
  exact h

theorem invalidLine_of_inverse (hv : validate g layout = .ok ()) (hi : inverse g p = .ok m)
    (ht : 0 ≤ tipReach g 0) : invalidLine g p = false := by
  have hle := hypot_le_of_inverse hv hi
  obtain ⟨x, y, z, rest, θ1, θ2, θ3, rfl, hz, -⟩ := exists_rawAngles hi
  rw [max_eq_left ht] at hle
  exact invalidLine_eq_false_iff.mpr ⟨hz, hle⟩

/-- Twice the crank times the part of the way from its pivot to the joint that lies along it. -/
noncomputable def alongCrank (g : DeltaSettings ℝ) (x y z : ℝ) : ℝ :=
  x ^ 2 + (y + sideGap g) ^ 2 + z ^ 2 + g.crank ^ 2 - g.arm ^ 2

/-- A crank does not point inward when it leans outward toward the joint, or when the arm is neither shorter than the
way to the lowest elbow nor longer than the way to the highest. -/
theorem exists_outward_crankAngle (hc : 0 < g.crank) (hz : z < 0)
    (hd : alongCrank g x y z ^ 2 ≤ 4 * g.crank ^ 2 * ((y + sideGap g) ^ 2 + z ^ 2))
    (ho : alongCrank g x y z * (y + sideGap g) ≤ 0 ∨ alongCrank g x y z ^ 2 ≤ 4 * g.crank ^ 2 * z ^ 2) :
    ∃ θ, crankAngle g x y z = some θ ∧ |θ| ≤ Real.pi / 2 := by
  obtain ⟨θ, hθ⟩ := exists_crankAngle hz hd
  refine ⟨θ, hθ, abs_le_of_crankAngle hc hz hθ ?_⟩
  obtain ⟨a, b, hl⟩ := exists_elbowLine g x y hz.ne
  obtain ⟨hn, -, hu, -⟩ := (hl.crankAngle_eq_some_iff hc hz.ne).mp hθ
  have hoffset : alongCrank g x y z = 2 * z * a := hl.offset.symm
  have hslope : y + sideGap g = -(z * b) := by rw [hl.slope, neg_neg]
  have hz2 : 0 < z ^ 2 := sq_pos_of_neg hz
  have hside : 0 ≤ a * b + √(circleDiscrim g a b) := by
    rw [hoffset, hslope] at ho
    rcases ho with ho | ho
    · have hab : 0 ≤ a * b := by nlinarith only [ho, hz2]
      positivity
    · have ha : a ^ 2 ≤ g.crank ^ 2 := by nlinarith only [ho, hz2]
      have hab : (a * b) ^ 2 ≤ circleDiscrim g a b := by
        rw [circleDiscrim]
        nlinarith only [ha, sq_nonneg b]
      linarith only [(abs_le.mp (Real.abs_le_sqrt hab)).1]
  rw [← hu] at hside
  exact sub_nonneg.mp (nonneg_of_mul_nonneg_right hside (by positivity))

theorem alongCrank_across (g : DeltaSettings ℝ) (y z : ℝ) : alongCrank g (y * (√3 / 2)) (y * -(1 / 2)) z =
    y ^ 2 - y * sideGap g + sideGap g ^ 2 + z ^ 2 + g.crank ^ 2 - g.arm ^ 2 := by
  rw [alongCrank]
  linear_combination y ^ 2 / 4 * sqrt_three_mul_self

theorem exists_inverse_sideways (hc : 0 < g.crank) (hl : g.minAngle ≤ -1.6) (hu : 1.6 ≤ g.maxAngle)
    (hz : z ≤ -1e-9) (hnear : alongCrank g 0 y z ^ 2 ≤ 4 * g.crank ^ 2 * z ^ 2)
    (hfar : alongCrank g (y * (√3 / 2)) (y * -(1 / 2)) z ^ 2 ≤
      4 * g.crank ^ 2 * ((y * -(1 / 2) + sideGap g) ^ 2 + z ^ 2))
    (hout : alongCrank g (y * (√3 / 2)) (y * -(1 / 2)) z * (y * -(1 / 2) + sideGap g) ≤ 0) :
    ∃ m, inverse g ⟨[0, y, z]⟩ = .ok m := by
  have hpi := Real.pi_lt_d2
  have hneg : z < 0 := hz.trans_lt (by norm_num)
  have hwide : 4 * g.crank ^ 2 * z ^ 2 ≤ 4 * g.crank ^ 2 * ((y + sideGap g) ^ 2 + z ^ 2) :=
    mul_le_mul_of_nonneg_left (le_add_of_nonneg_left (sq_nonneg _)) (by positivity)
  obtain ⟨θ1, h1, ht1⟩ := exists_outward_crankAngle hc hneg (hnear.trans hwide) (.inr hnear)
  obtain ⟨θ2, h2, ht2⟩ := exists_outward_crankAngle hc hneg hfar (.inl hout)
  have hrange {θ : ℝ} (ht : |θ| ≤ Real.pi / 2) : g.minAngle ≤ θ ∧ θ ≤ g.maxAngle := by
    obtain ⟨htl, htu⟩ := abs_le.mp ht
    constructor <;> linarith
  have hr : rawAngles g ⟨[0, y, z]⟩ = [some θ1, some θ2, some θ2] := by
    simp only [rawAngles, cos120_real, sin120_real, zero_mul, zero_add, zero_sub, sub_zero, add_zero,
      crankAngle_neg, h1, h2]
  exact ⟨_, inverse_of_rawAngles hz hr (by simpa using ⟨hrange ht1, hrange ht2⟩)⟩

/-- Lengths with which an effector is held further out than the check of lines allows, straight away from a crank, when
level tips are `c` beyond the axis. The tip of that crank, at a right angle to the way from its pivot to the joint, is as
far from the effector as the level tips of the other two. -/
structure FarPose (f c r z arm : ℝ) : Prop where
  below : z ≤ -1e-9
  away : r * (3 * c + 2 * f) = 2 * f * (c + f)
  length : arm ^ 2 = r ^ 2 + c * r + c ^ 2 + z ^ 2
  out : 0 < r
  long : f < arm
  short : arm < r + c

theorem exists_farPose {f c : ℝ} (hf : 1e-9 ≤ f) (hc : 8e-9 < c) : ∃ r z arm, FarPose f c r z arm := by
  have hf0 : 0 < f := lt_of_lt_of_le (by norm_num) hf
  have hc0 : 0 < c := lt_trans (by norm_num) hc
  have hq : 0 < 3 * c + 2 * f := by positivity
  obtain ⟨r, hr⟩ : ∃ r, r * (3 * c + 2 * f) = 2 * f * (c + f) := ⟨_, div_mul_cancel₀ _ hq.ne'⟩
  have hlow : 2 / 3 * f ≤ r := by
    refine le_of_mul_le_mul_right ?_ hq
    nlinarith only [hr, hf0, hc0]
  have hnear : f ≤ r + c / 2 := by
    refine le_of_mul_le_mul_right ?_ hq
    nlinarith only [hr, hf0, hc0]
  have hr0 : 0 < r := by linarith
  have hroot := Real.sq_sqrt (by positivity : 0 ≤ r ^ 2 + c * r + c ^ 2 + (-1e-9 : ℝ) ^ 2)
  have hpos := Real.sqrt_nonneg (r ^ 2 + c * r + c ^ 2 + (-1e-9 : ℝ) ^ 2)
  refine ⟨r, -1e-9, _, le_rfl, hr, hroot, hr0, ?_, ?_⟩
  · apply lt_of_pow_lt_pow_left₀ 2 hpos
    rw [hroot]
    nlinarith only [hnear, hf0, hc0]
  · apply lt_of_pow_lt_pow_left₀ 2 (by positivity)
    rw [hroot]
    norm_num
    nlinarith only [hlow, hf, hc]

/-- Such an effector is reached, but the check of lines turns it away. -/
theorem FarPose.turned_away {c r : ℝ} (h : FarPose g.crank c r z g.arm) (hf : 0 < g.crank) (hc : 0 < c)
    (hlevel : tipReach g 0 = -c) (hl : g.minAngle ≤ -1.6) (hu : 1.6 ≤ g.maxAngle) :
    ∃ p m, inverse g p = .ok m ∧ invalidLine g p = true := by
  have hgap : sideGap g = -(c + g.crank) := by linarith only [hlevel, tipReach_zero g]
  have hr := h.out
  have hnear : alongCrank g 0 r z = 0 := by
    rw [alongCrank, hgap]
    linear_combination -h.away - h.length
  have hacross : alongCrank g (r * (√3 / 2)) (r * -(1 / 2)) z = g.crank * (r + 2 * (c + g.crank)) := by
    rw [alongCrank_across, hgap]
    linear_combination -h.length
  obtain ⟨m, hm⟩ : ∃ m, inverse g ⟨[0, r, z]⟩ = .ok m := by
    apply exists_inverse_sideways hf hl hu h.below
    · rw [hnear, zero_pow two_ne_zero]
      positivity
    · rw [hacross, hgap]
      nlinarith only [mul_nonneg (sq_nonneg g.crank) (sq_nonneg z)]
    · rw [hacross, hgap]
      exact mul_nonpos_of_nonneg_of_nonpos (by positivity) (by linarith)
  refine ⟨_, m, hm, ?_⟩
  rw [← Bool.not_eq_false, invalidLine_eq_false_iff, hypot_zero_left hr.le, hlevel]
  rintro ⟨-, hle⟩
  linarith only [hle, h.short]

/-- The same triangles and cranks with other arms, and cranks that turn by a right angle either way. -/
noncomputable def withArm (g : DeltaSettings ℝ) (arm : ℝ) : DeltaSettings ℝ :=
  { g with arm, minAngle := -1.6, maxAngle := 1.6, homingAngle := 0 }

theorem validate_withArm (hv : validate g layout = .ok ()) {arm : ℝ} (hc : g.crank < arm)
    (ht : tipReach g 0 ^ 2 ≤ arm ^ 2) : validate (withArm g arm) layout = .ok () := by
  obtain ⟨hl, ⟨hc0, hb, -, he⟩, -, -, -, hs, -⟩ := validate_eq_ok.mp hv
  have hpi := Real.pi_gt_three
  refine validate_eq_ok.mpr ⟨hl, ⟨hc0, hb, hc0.trans hc, he⟩, hc, ?_, ?_, hs, ht⟩
  · refine ⟨?_, ?_, ?_⟩ <;> norm_num [withArm] <;> linarith
  · norm_num [withArm]

theorem tipReach_apart (hs : epsilon ≤ tipsArea (crankTips g 0 0 0)) (ht : tipReach g 0 < 0) :
    tipReach g 0 < -8e-9 := by
  have h3 : √3 ≤ 2 := Real.sqrt_le_iff.mpr ⟨by norm_num, by norm_num⟩
  have he : (epsilon : ℝ) = 1 / 4503599627370496 := by norm_num [epsilon, Scalar.ofNat]
  rw [tipsArea_level, he] at hs
  have hsq : 1 / 4503599627370496 ≤ 3 * tipReach g 0 ^ 2 := by
    nlinarith only [hs, h3, sq_nonneg (tipReach g 0)]
  by_contra hn
  nlinarith only [hsq, hn, ht]

/-- When level tips are beyond the axis, arms of some length reach an effector that the check of lines turns away. Only
cranks as short as the height that counts as level with the base are left aside. -/
theorem exists_turned_away (hv : validate g layout = .ok ()) (hc : 1e-9 ≤ g.crank) (ht : tipReach g 0 < 0) :
    ∃ arm, validate (withArm g arm) layout = .ok () ∧
      ∃ p m, inverse (withArm g arm) p = .ok m ∧ invalidLine (withArm g arm) p = true := by
  obtain ⟨-, ⟨hf, -⟩, -, -, -, hs, -⟩ := validate_eq_ok.mp hv
  obtain ⟨c, hlevel⟩ : ∃ c, tipReach g 0 = -c := ⟨-tipReach g 0, (neg_neg _).symm⟩
  have hc0 : 8e-9 < c := by linarith [tipReach_apart hs ht]
  obtain ⟨r, z, arm, hfar⟩ := exists_farPose hc hc0
  have hmeet : tipReach g 0 ^ 2 ≤ arm ^ 2 := by
    have hcr : 0 ≤ c * r := mul_nonneg (by linarith) hfar.out.le
    rw [hlevel, hfar.length, neg_sq]
    linarith only [hcr, sq_nonneg r, sq_nonneg z]
  exact ⟨arm, validate_withArm hv hfar.long hmeet,
    FarPose.turned_away hfar hf (by linarith) hlevel le_rfl le_rfl⟩

/-- A position with crank angles is within an arm of a level tip, or of the axis if level tips are beyond it. So the
check of lines lets every such position through unless level tips are beyond the axis, and then, whatever the triangles
and the cranks, not with arms of every length. -/
theorem lineCheck_admits_reached (hv : validate g layout = .ok ()) :
    (∀ p m, inverse g p = .ok m → hypot (p.axis 0) (p.axis 1) ≤ max (tipReach g 0) 0 + g.arm ∧
      (0 ≤ tipReach g 0 → invalidLine g p = false)) ∧
    (tipReach g 0 < 0 → 1e-9 ≤ g.crank → ∃ arm, validate (withArm g arm) layout = .ok () ∧
      ∃ p m, inverse (withArm g arm) p = .ok m ∧ invalidLine (withArm g arm) p = true) := by
  constructor
  · intro p m hi
    exact ⟨hypot_le_of_inverse hv hi, invalidLine_of_inverse hv hi⟩
  · intro ht hc
    exact exists_turned_away hv hc ht

/-- The effector is larger than the base and far away from the first crank, but level tips are not beyond the axis. -/
theorem sideways_pose_let_through : ∃ m, validate wideEffector ⟨3, .none, by decide⟩ = .ok () ∧
    inverse wideEffector ⟨[0, 4, -1 / 2]⟩ = .ok m ∧ 0 ≤ tipReach wideEffector 0 ∧
    invalidLine wideEffector ⟨[0, 4, -1 / 2]⟩ = false := by
  obtain ⟨ht, hl, hu⟩ := sideGap_wideEffector
  have hlevel : 0 ≤ tipReach wideEffector 0 := by
    rw [tipReach_zero, crank_wideEffector]
    linarith
  obtain ⟨m, hm⟩ : ∃ m, inverse wideEffector ⟨[0, 4, -1 / 2]⟩ = .ok m := by
    apply exists_inverse_sideways (by linarith [crank_wideEffector]) le_rfl le_rfl (by norm_num)
    · rw [alongCrank, crank_wideEffector, arm_wideEffector]
      nlinarith only [ht, hl, hu]
    · rw [alongCrank_across, crank_wideEffector, arm_wideEffector, ht]
      nlinarith only [ht, hl, hu]
    · rw [alongCrank_across, crank_wideEffector, arm_wideEffector, ht]
      nlinarith only [ht, hl, hu]
  exact ⟨m, validate_wideEffector, hm, hlevel, ((lineCheck_admits_reached validate_wideEffector).1 _ _ hm).2 hlevel⟩

/-- An effector so much larger than the base that level tips are beyond the axis. -/
noncomputable def overhungDelta : DeltaSettings ℝ := ⟨2.0, 1.0, 3.0, 13.0, -1.6, 1.6, 0.0⟩

theorem crank_overhungDelta : overhungDelta.crank = 2 := by norm_num [overhungDelta]

theorem arm_overhungDelta : overhungDelta.arm = 3 := by norm_num [overhungDelta]

theorem sideGap_overhungDelta : sideGap overhungDelta ^ 2 = 12 ∧
    -3.465 < sideGap overhungDelta ∧ sideGap overhungDelta < -3.464 := by
  have ht : sideGap overhungDelta ^ 2 = 12 := by
    rw [sideGap_sq]
    norm_num [overhungDelta]
  have hn : sideGap overhungDelta < 0 := sideGap_neg (by norm_num [overhungDelta])
  refine ⟨ht, ?_, ?_⟩ <;> nlinarith only [ht, hn]

theorem tipReach_overhungDelta : tipReach overhungDelta 0 = sideGap overhungDelta + 2 := by
  rw [tipReach_zero, crank_overhungDelta]

theorem validate_overhungDelta : validate overhungDelta ⟨3, .none, by decide⟩ = .ok () := by
  obtain ⟨-, hl, hu⟩ := sideGap_overhungDelta
  have hpi := Real.pi_gt_three
  have he : Scalar.epsilon ≤ tipsArea (crankTips overhungDelta 0 0 0) := by
    apply epsilon_le_tipsArea
    rw [tipReach_overhungDelta]
    nlinarith only [hu]
  rw [validate_eq_ok, tipReach_overhungDelta]
  refine ⟨le_refl _, ?_, ?_, ?_, ?_, he, ?_⟩
  · norm_num [overhungDelta]
  · norm_num [overhungDelta]
  · refine ⟨?_, ?_, ?_⟩ <;> norm_num [overhungDelta] <;> linarith
  · norm_num [overhungDelta]
  · rw [arm_overhungDelta]
    nlinarith only [hl, hu]

/-- The cranks reach an effector further away from the first of them than the check of lines allows. -/
theorem far_pose_turned_away : ∃ m, validate overhungDelta ⟨3, .none, by decide⟩ = .ok () ∧
    inverse overhungDelta ⟨[0, 7 / 4, -1]⟩ = .ok m ∧ invalidLine overhungDelta ⟨[0, 7 / 4, -1]⟩ = true := by
  obtain ⟨ht, hl, hu⟩ := sideGap_overhungDelta
  obtain ⟨m, hm⟩ : ∃ m, inverse overhungDelta ⟨[0, 7 / 4, -1]⟩ = .ok m := by
    apply exists_inverse_sideways (by linarith [crank_overhungDelta]) le_rfl le_rfl (by norm_num)
    · rw [alongCrank, crank_overhungDelta, arm_overhungDelta]
      nlinarith only [ht, hl, hu]
    · rw [alongCrank_across, crank_overhungDelta, arm_overhungDelta, ht]
      nlinarith only [ht, hl, hu]
    · rw [alongCrank_across, crank_overhungDelta, arm_overhungDelta, ht]
      nlinarith only [ht, hl, hu]
  refine ⟨m, validate_overhungDelta, hm, ?_⟩
  rw [← Bool.not_eq_false, invalidLine_eq_false_iff, hypot_zero_left (by norm_num), tipReach_overhungDelta,
    arm_overhungDelta]
  intro h
  linarith only [h.2, hu]

end MotionControl.RotaryDelta
