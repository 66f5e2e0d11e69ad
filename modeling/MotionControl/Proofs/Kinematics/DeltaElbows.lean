import Mathlib.Data.Set.Card
import Mathlib.Tactic.LinearCombination
import MotionControl.Proofs.Kinematics.DeltaSpheres

/-! One crank of the rotary delta over exact numbers, seen in the direction in which it points: how far its tip
reaches and how high it stands. The tip is at arm length from the joint of the effector at two points at most. Of
these the crank is turned to the outward one. -/
namespace MotionControl.RotaryDelta

variable {α : Type} [Scalar α]

/-- How far the sides of the base lie outside those of the effector. -/
def sideGap (g : DeltaSettings α) : α := (g.baseTriangle - g.effectorTriangle) * tan30 / 2.0

/-- Distance of a crank tip from the axis, in the direction of the crank. -/
def tipReach (g : DeltaSettings α) (θ : α) : α := sideGap g + g.crank * Scalar.cos θ

def tipHeight (g : DeltaSettings α) (θ : α) : α := -g.crank * Scalar.sin θ

/-- What ties the angle of a crank to an effector at height `z`, with squared distance `w` from the
axis, of which `s` lies in the direction of the crank. -/
structure ArmFits (g : DeltaSettings ℝ) (w s z θ : ℝ) : Prop where
  /-- The arm joins the tip and the effector. -/
  meets : w - 2 * tipReach g θ * s + tipReach g θ ^ 2 + (z - tipHeight g θ) ^ 2 = g.arm ^ 2
  /-- The elbow is on the outward side of the line from the pivot of the crank to the joint. -/
  outward : 0 ≤ -z * (tipReach g θ - sideGap g) + tipHeight g θ * (s - sideGap g)

theorem sqrt_three_mul_self : √3 * √3 = (3 : ℝ) := Real.mul_self_sqrt (by norm_num)

theorem tan30_real : (tan30 : ℝ) = 1 / √3 := by norm_num [tan30, sqrt3]

theorem sideGap_real (g : DeltaSettings ℝ) :
    sideGap g = (g.baseTriangle - g.effectorTriangle) / (2 * √3) := by
  norm_num only [sideGap, tan30_real]
  ring

theorem sideGap_sq (g : DeltaSettings ℝ) : sideGap g ^ 2 = (g.baseTriangle - g.effectorTriangle) ^ 2 / 12 := by
  rw [sideGap_real, div_pow, mul_pow, Real.sq_sqrt zero_le_three]
  norm_num

theorem sideGap_neg {g : DeltaSettings ℝ} (h : g.baseTriangle < g.effectorTriangle) : sideGap g < 0 := by
  rw [sideGap_real]
  exact div_neg_of_neg_of_pos (sub_neg.mpr h) (by positivity)

theorem tipReach_real (g : DeltaSettings ℝ) (θ : ℝ) : tipReach g θ = sideGap g + g.crank * Real.cos θ :=
  rfl

theorem tipReach_zero (g : DeltaSettings ℝ) : tipReach g 0 = sideGap g + g.crank := by
  rw [tipReach_real, Real.cos_zero, mul_one]

theorem tipHeight_real (g : DeltaSettings ℝ) (θ : ℝ) : tipHeight g θ = -(g.crank * Real.sin θ) :=
  neg_mul ..

variable {g : DeltaSettings ℝ} {x y z a b θ : ℝ} {p : Point ℝ}

theorem tipReach_sq_add_tipHeight_sq (g : DeltaSettings ℝ) (θ : ℝ) :
    (tipReach g θ - sideGap g) ^ 2 + tipHeight g θ ^ 2 = g.crank ^ 2 := by
  have h := Real.sin_sq_add_cos_sq θ
  rw [tipReach_real, tipHeight_real]
  linear_combination g.crank ^ 2 * h

/-- The elbow of a crank in coordinates from its pivot. At distance `u` outward it is at height `a - b * u`, on the
line through both points where the crank circle meets the circle of the points at arm length from the joint. -/
structure ElbowLine (g : DeltaSettings ℝ) (x y z a b : ℝ) : Prop where
  offset : 2 * z * a = x ^ 2 + (y + sideGap g) ^ 2 + z ^ 2 + g.crank ^ 2 - g.arm ^ 2
  slope : z * b = -(y + sideGap g)

theorem exists_elbowLine (g : DeltaSettings ℝ) (x y : ℝ) (hz : z ≠ 0) : ∃ a b, ElbowLine g x y z a b :=
  ⟨_, _, mul_div_cancel₀ _ (mul_ne_zero two_ne_zero hz), mul_div_cancel₀ _ hz⟩

/-- Negative when the line misses the crank circle. -/
def circleDiscrim (g : DeltaSettings ℝ) (a b : ℝ) : ℝ := g.crank ^ 2 * (b ^ 2 + 1) - a ^ 2

private theorem on_circle_iff {u : ℝ} : u * u + (b * u - a) * (b * u - a) = g.crank * g.crank ↔
    ((b ^ 2 + 1) * u - a * b) ^ 2 = circleDiscrim g a b := by
  rw [circleDiscrim, ← mul_right_inj' (by positivity : b ^ 2 + 1 ≠ 0)]
  constructor <;> intro h <;> linear_combination h

/-- How far outward the line crosses the crank circle, or comes closest to it. -/
private theorem exists_crossing (g : DeltaSettings ℝ) (a b : ℝ) :
    ∃ u, (b ^ 2 + 1) * u = a * b + √(circleDiscrim g a b) :=
  ⟨_, mul_div_cancel₀ _ (by positivity)⟩

private theorem on_circle_of_tip (h : tipHeight g θ = a - b * (tipReach g θ - sideGap g)) :
    (tipReach g θ - sideGap g) * (tipReach g θ - sideGap g) +
      (b * (tipReach g θ - sideGap g) - a) * (b * (tipReach g θ - sideGap g) - a) = g.crank * g.crank := by
  have hcircle := tipReach_sq_add_tipHeight_sq g θ
  rw [h] at hcircle
  linear_combination hcircle

namespace ElbowLine

theorem meets_iff (hl : ElbowLine g x y z a b) (hz : z ≠ 0) :
    x ^ 2 + (y + tipReach g θ) ^ 2 + (z - tipHeight g θ) ^ 2 = g.arm ^ 2 ↔
      tipHeight g θ = a - b * (tipReach g θ - sideGap g) := by
  have hcircle := tipReach_sq_add_tipHeight_sq g θ
  constructor
  · intro h
    apply mul_left_cancel₀ (mul_ne_zero two_ne_zero hz)
    linear_combination hcircle - h - hl.offset + 2 * (tipReach g θ - sideGap g) * hl.slope
  · intro h
    linear_combination hcircle - 2 * z * h - hl.offset + 2 * (tipReach g θ - sideGap g) * hl.slope

theorem crankAngle_eq {u : ℝ} (hl : ElbowLine g x y z a b) (hz : z ≠ 0)
    (hu : (b ^ 2 + 1) * u = a * b + √(circleDiscrim g a b)) :
    crankAngle g x y z = if circleDiscrim g a b < 0 then none
      else some (Scalar.slopeAngle (b * u - a) u + if u < 0 then Real.pi else 0) := by
  have h2z := mul_ne_zero two_ne_zero hz
  unfold crankAngle
  extract_lets rf re y1 y0 a0 b0 d yj zj theta
  have hgap : y1 - y0 = -(y + sideGap g) := by
    norm_num only [y1, y0, sideGap_real, tan30_real]
    ring
  have ha0 : 2 * z * a0 = x * x + y0 * y0 + z * z + g.crank * g.crank - g.arm * g.arm - y1 * y1 := by
    rw [← Scalar.two_real] at h2z ⊢
    exact mul_div_cancel₀ _ h2z
  have hb0 : z * b0 = y1 - y0 := mul_div_cancel₀ _ hz
  have hd : d = -(a0 + b0 * y1) * (a0 + b0 * y1) + g.crank * (b0 * b0 * g.crank + g.crank) := rfl
  have hp : b0 * b0 + 1 ≠ 0 := (add_pos_of_nonneg_of_pos (mul_self_nonneg b0) one_pos).ne'
  have hyj : (b0 * b0 + 1) * yj = y1 - a0 * b0 - √d := by
    have h1 : (1.0 : ℝ) = 1 := by norm_num
    rw [← h1] at hp ⊢
    exact mul_div_cancel₀ _ hp
  have hzj : zj = a0 + b0 * yj := rfl
  have ht : theta = Scalar.slopeAngle (-zj) (y1 - yj) + if y1 - yj < 0 then Real.pi else 0 := by
    simp only [theta, sub_neg, Scalar.zero_real, Scalar.pi_real]
  -- with their values, `ring` would look into the intermediate results
  clear_value rf re y1 y0 a0 b0 d yj zj theta
  obtain rfl : b = b0 := by
    apply mul_left_cancel₀ hz
    rw [hl.slope, hb0, hgap]
  obtain rfl : a = a0 + b * y1 := by
    apply mul_left_cancel₀ h2z
    linear_combination hl.offset - ha0 - 2 * y1 * hl.slope + (y + sideGap g + y1 + y0) * hgap
  obtain rfl : d = circleDiscrim g (a0 + b * y1) b := by
    rw [hd, circleDiscrim]
    ring
  obtain rfl : u = y1 - yj := by
    apply mul_left_cancel₀ hp
    linear_combination hu + hyj
  have hrise : -zj = b * (y1 - yj) - (a0 + b * y1) := by
    rw [hzj]
    ring
  rw [Scalar.isFinite_real, if_pos rfl, ht, hrise, Scalar.zero_real]

theorem crankAngle_eq_none_iff (hl : ElbowLine g x y z a b) (hz : z ≠ 0) :
    crankAngle g x y z = none ↔ circleDiscrim g a b < 0 := by
  obtain ⟨u, hu⟩ := exists_crossing g a b
  rw [hl.crankAngle_eq hz hu]
  split
  · rename_i hd
    exact iff_of_true rfl hd
  · rename_i hd
    exact iff_of_false nofun hd

/-- Of the two points on the line the crank is turned to the outward one, from a right angle up to a right angle up
on the inward side. -/
theorem crankAngle_eq_some_iff (hl : ElbowLine g x y z a b) (hc : 0 < g.crank) (hz : z ≠ 0) :
    crankAngle g x y z = some θ ↔ 0 ≤ circleDiscrim g a b ∧
      tipHeight g θ = a - b * (tipReach g θ - sideGap g) ∧
      (b ^ 2 + 1) * (tipReach g θ - sideGap g) = a * b + √(circleDiscrim g a b) ∧
      -(Real.pi / 2) ≤ θ ∧ θ < 3 * Real.pi / 2 := by
  rw [tipReach_real, tipHeight_real, add_sub_cancel_left]
  constructor
  · intro h
    obtain ⟨u, hu⟩ := exists_crossing g a b
    rw [hl.crankAngle_eq hz hu] at h
    split at h
    · cases h
    · rename_i hd
      have hn := not_lt.mp hd
      have hcircle : u * u + (b * u - a) * (b * u - a) = g.crank * g.crank := by
        rw [on_circle_iff, hu, add_sub_cancel_left, Real.sq_sqrt hn]
      obtain rfl := Option.some.inj h
      obtain ⟨hcos, hsin⟩ := Scalar.turn_of_slope hc hcircle rfl
      rw [hcos, hsin]
      exact ⟨hn, neg_sub _ _, hu, Scalar.turn_mem u _⟩
  · rintro ⟨hn, hheight, hu, hlow, hup⟩
    have hsin : b * (g.crank * Real.cos θ) - a = g.crank * Real.sin θ := by linarith
    rw [hl.crankAngle_eq hz hu, if_neg (not_lt.mpr hn), hsin, Scalar.slope_of_turn hc hlow hup]

end ElbowLine

theorem crankAngle_neg (g : DeltaSettings ℝ) (x y z : ℝ) : crankAngle g (-x) y z = crankAngle g x y z := by
  simp only [crankAngle, neg_mul_neg]

/-- An angle fits an arm and is no more than a right angle up exactly when it is the one that is chosen. -/
theorem crankAngle_eq_some_iff (hc : 0 < g.crank) (hz : z < 0) : crankAngle g x y z = some θ ↔
    ArmFits g (x ^ 2 + y ^ 2) (-y) z θ ∧ -(Real.pi / 2) ≤ θ ∧ θ < 3 * Real.pi / 2 := by
  obtain ⟨a, b, hl⟩ := exists_elbowLine g x y hz.ne
  have hmeets : x ^ 2 + y ^ 2 - 2 * tipReach g θ * -y + tipReach g θ ^ 2 + (z - tipHeight g θ) ^ 2 = g.arm ^ 2 ↔
      tipHeight g θ = a - b * (tipReach g θ - sideGap g) := by
    rw [← hl.meets_iff hz.ne]
    ring_nf
  have hout (h : tipHeight g θ = a - b * (tipReach g θ - sideGap g)) :
      -z * (tipReach g θ - sideGap g) + tipHeight g θ * (-y - sideGap g) =
        -z * ((b ^ 2 + 1) * (tipReach g θ - sideGap g) - a * b) := by
    linear_combination (-y - sideGap g) * h - (a - b * (tipReach g θ - sideGap g)) * hl.slope
  rw [hl.crankAngle_eq_some_iff hc hz.ne]
  constructor
  · rintro ⟨-, hheight, hu, hturn⟩
    refine ⟨⟨hmeets.mpr hheight, ?_⟩, hturn⟩
    rw [hout hheight, hu, add_sub_cancel_left]
    exact mul_nonneg (neg_nonneg.mpr hz.le) (Real.sqrt_nonneg _)
  · rintro ⟨⟨h, ho⟩, hturn⟩
    have hheight := hmeets.mp h
    rw [hout hheight] at ho
    have hsq := on_circle_iff.mp (on_circle_of_tip hheight)
    -- of the two roots of a square, the outward elbow takes the positive one
    have hn := nonneg_of_mul_nonneg_right ho (neg_pos.mpr hz)
    rw [← hsq, Real.sqrt_sq hn]
    exact ⟨sq_nonneg _, hheight, (add_sub_cancel _ _).symm, hturn⟩

theorem crankAngle_fits (hc : 0 < g.crank) (hz : z < 0) (h : crankAngle g x y z = some θ) :
    ArmFits g (x ^ 2 + y ^ 2) (-y) z θ :=
  ((crankAngle_eq_some_iff hc hz).mp h).1

/-- An arm reaches the effector when the crank circle meets the circle of the points at arm length. -/
theorem exists_crankAngle (hz : z < 0)
    (h : (x ^ 2 + (y + sideGap g) ^ 2 + z ^ 2 + g.crank ^ 2 - g.arm ^ 2) ^ 2 ≤
      4 * g.crank ^ 2 * ((y + sideGap g) ^ 2 + z ^ 2)) : ∃ θ, crankAngle g x y z = some θ := by
  obtain ⟨a, b, hl⟩ := exists_elbowLine g x y hz.ne
  apply Option.ne_none_iff_exists'.mp
  rw [ne_eq, hl.crankAngle_eq_none_iff hz.ne, not_lt]
  have hd : 4 * z ^ 2 * circleDiscrim g a b = 4 * g.crank ^ 2 * ((y + sideGap g) ^ 2 + z ^ 2) -
      (x ^ 2 + (y + sideGap g) ^ 2 + z ^ 2 + g.crank ^ 2 - g.arm ^ 2) ^ 2 := by
    rw [← hl.offset, circleDiscrim]
    linear_combination 4 * g.crank ^ 2 * (z * b - (y + sideGap g)) * hl.slope
  exact nonneg_of_mul_nonneg_right (hd.symm ▸ sub_nonneg.mpr h) (mul_pos four_pos (sq_pos_of_neg hz))

theorem abs_le_of_crankAngle (hc : 0 < g.crank) (hz : z < 0) (h : crankAngle g x y z = some θ)
    (ho : sideGap g ≤ tipReach g θ) : |θ| ≤ Real.pi / 2 := by
  obtain ⟨-, hlow, hup⟩ := (crankAngle_eq_some_iff hc hz).mp h
  refine abs_le.mpr ⟨hlow, ?_⟩
  by_contra hθ
  have hn : Real.cos θ < 0 := Real.cos_neg_of_pi_div_two_lt_of_lt (not_le.mp hθ) (by linarith)
  rw [tipReach_real] at ho
  nlinarith only [ho, hn, hc]

/-- How far the sides of a triangle with equal sides are from its center. -/
noncomputable def inradius (side : ℝ) : ℝ := side * tan30 / 2.0

theorem sideGap_eq_sub (g : DeltaSettings ℝ) : sideGap g = inradius g.baseTriangle - inradius g.effectorTriangle := by
  rw [sideGap_real, inradius, inradius, tan30_real, Scalar.two_real]
  ring

/-- Where the crank and its arm are joined. -/
noncomputable def elbow (g : DeltaSettings ℝ) (θ : ℝ) : Point ℝ :=
  ⟨0, -inradius g.baseTriangle - g.crank * Real.cos θ, -(g.crank * Real.sin θ)⟩

/-- Where the arm is joined to the effector when that is at the given position. -/
noncomputable def joint (g : DeltaSettings ℝ) (x y z : ℝ) : Point ℝ := ⟨x, y - inradius g.effectorTriangle, z⟩

/-- The elbows at arm length from the joint, whatever the angle of the crank. -/
def reachingElbows (g : DeltaSettings ℝ) (x y z : ℝ) : Set (Point ℝ) :=
  {p | p ∈ Set.range (elbow g) ∧ AtArmLength g p (joint g x y z)}

theorem elbow_eq (g : DeltaSettings ℝ) (θ : ℝ) :
    elbow g θ = ⟨0, -inradius g.baseTriangle - (tipReach g θ - sideGap g), tipHeight g θ⟩ := by
  rw [tipReach_real, tipHeight_real, add_sub_cancel_left, elbow]

theorem atArmLength_elbow_iff : AtArmLength g (elbow g θ) (joint g x y z) ↔
    x ^ 2 + (y + tipReach g θ) ^ 2 + (z - tipHeight g θ) ^ 2 = g.arm ^ 2 := by
  have h : distanceSq (elbow g θ) (joint g x y z) =
      x ^ 2 + (y + tipReach g θ) ^ 2 + (z - tipHeight g θ) ^ 2 := by
    rw [elbow_eq, joint, distanceSq, sideGap_eq_sub]
    ring
  rw [AtArmLength, h]

/-- The elbows are where the line meets the crank circle. -/
theorem ElbowLine.mem_reachingElbows_iff (hl : ElbowLine g x y z a b) (hc : 0 < g.crank) (hz : z ≠ 0) :
    p ∈ reachingElbows g x y z ↔ ∃ u, ((b ^ 2 + 1) * u - a * b) ^ 2 = circleDiscrim g a b ∧
      ⟨0, -inradius g.baseTriangle - u, a - b * u⟩ = p := by
  constructor
  · rintro ⟨⟨θ, rfl⟩, h⟩
    have hheight := (hl.meets_iff hz).mp (atArmLength_elbow_iff.mp h)
    refine ⟨tipReach g θ - sideGap g, on_circle_iff.mp (on_circle_of_tip hheight), ?_⟩
    rw [elbow_eq, hheight]
  · rintro ⟨u, hu, rfl⟩
    obtain ⟨hcos, hsin⟩ := Scalar.turn_of_slope hc (on_circle_iff.mpr hu) rfl
    generalize (Scalar.slopeAngle (b * u - a) u + if u < 0 then Real.pi else 0) = θ at hcos hsin
    have he : elbow g θ = ⟨0, -inradius g.baseTriangle - u, a - b * u⟩ := by
      rw [elbow, hcos, hsin, neg_sub]
    have hmeets := (hl.meets_iff (θ := θ) hz).mpr (by
      rw [tipReach_real, tipHeight_real, add_sub_cancel_left, hcos, hsin, neg_sub])
    rw [← he]
    exact ⟨⟨θ, rfl⟩, atArmLength_elbow_iff.mpr hmeets⟩

theorem encard_reachingElbows_le (hc : 0 < g.crank) (hz : z ≠ 0) : (reachingElbows g x y z).encard ≤ 2 := by
  obtain ⟨a, b, hl⟩ := exists_elbowLine g x y hz
  have hsub : reachingElbows g x y z ⊆ (fun u => ⟨0, -inradius g.baseTriangle - u, a - b * u⟩) ''
      {(a * b + √(circleDiscrim g a b)) / (b ^ 2 + 1),
        (a * b - √(circleDiscrim g a b)) / (b ^ 2 + 1)} := by
    intro p hp
    obtain ⟨u, hu, rfl⟩ := (hl.mem_reachingElbows_iff hc hz).mp hp
    refine ⟨u, ?_, rfl⟩
    have hb : b ^ 2 + 1 ≠ 0 := by positivity
    rw [← hu, Real.sqrt_sq_eq_abs]
    rcases abs_choice ((b ^ 2 + 1) * u - a * b) with h | h
    · left
      rw [h, add_sub_cancel, mul_div_cancel_left₀ _ hb]
    · right
      rw [h, sub_neg_eq_add, add_sub_cancel]
      exact (mul_div_cancel_left₀ _ hb).symm
  calc (reachingElbows g x y z).encard
    _ ≤ _ := Set.encard_le_encard hsub
    _ ≤ _ := Set.encard_image_le _ _
    _ ≤ _ := Set.encard_insert_le _ _
    _ = 2 := by rw [Set.encard_singleton, one_add_one_eq_two]

theorem crankAngle_eq_none_iff (hc : 0 < g.crank) (hz : z ≠ 0) :
    crankAngle g x y z = none ↔ reachingElbows g x y z = ∅ := by
  obtain ⟨a, b, hl⟩ := exists_elbowLine g x y hz
  rw [hl.crankAngle_eq_none_iff hz, Set.eq_empty_iff_forall_notMem]
  constructor
  · intro hd p hp
    obtain ⟨u, hu, -⟩ := (hl.mem_reachingElbows_iff hc hz).mp hp
    exact (hd.trans_le (sq_nonneg _)).ne' hu
  · intro hempty
    by_contra hd
    obtain ⟨u, hu⟩ := exists_crossing g a b
    refine hempty ⟨0, -inradius g.baseTriangle - u, a - b * u⟩ ((hl.mem_reachingElbows_iff hc hz).mpr ⟨u, ?_, rfl⟩)
    rw [hu, add_sub_cancel_left, Real.sq_sqrt (not_lt.mp hd)]

/-- The elbow of the crank angle is an elbow at arm length, and any other is further inward. -/
theorem elbow_of_crankAngle (hc : 0 < g.crank) (hz : z ≠ 0) (h : crankAngle g x y z = some θ) :
    elbow g θ ∈ reachingElbows g x y z ∧
      ∀ p ∈ reachingElbows g x y z, p ≠ elbow g θ → (elbow g θ).y < p.y := by
  obtain ⟨a, b, hl⟩ := exists_elbowLine g x y hz
  obtain ⟨hn, hheight, hu, -⟩ := (hl.crankAngle_eq_some_iff hc hz).mp h
  refine ⟨⟨⟨θ, rfl⟩, atArmLength_elbow_iff.mpr ((hl.meets_iff hz).mpr hheight)⟩, fun p hp hne => ?_⟩
  obtain ⟨v, hv, rfl⟩ := (hl.mem_reachingElbows_iff hc hz).mp hp
  rw [elbow_eq, hheight] at hne ⊢
  generalize tipReach g θ - sideGap g = u at hu hne ⊢
  have hle : v ≤ u := by
    apply le_of_mul_le_mul_left _ (by positivity : 0 < b ^ 2 + 1)
    have hroot := (abs_le.mp (Real.abs_le_sqrt hv.le)).2
    linarith
  have hlt : v < u := hle.lt_of_ne fun hvu => hne (by rw [hvu])
  exact sub_lt_sub_left hlt _

/-- A crank angle is found unless no elbow is at arm length from the joint. Of the at most two elbows that are, it is
that of the outward one. -/
theorem crankAngle_outermost (hc : 0 < g.crank) (hz : z ≠ 0) :
    (crankAngle g x y z = none ↔ reachingElbows g x y z = ∅) ∧ (reachingElbows g x y z).encard ≤ 2 ∧
    ∀ θ, crankAngle g x y z = some θ → elbow g θ ∈ reachingElbows g x y z ∧
      ∀ p ∈ reachingElbows g x y z, p ≠ elbow g θ → (elbow g θ).y < p.y :=
  ⟨crankAngle_eq_none_iff hc hz, encard_reachingElbows_le hc hz, fun _ => elbow_of_crankAngle hc hz⟩

/-- A base twice as large as the effector, with short arms. -/
noncomputable def shortArmDelta : DeltaSettings ℝ :=
  { (default : DeltaSettings ℝ) with crank := 3.0, baseTriangle := 4.0 * √3, arm := 4.0, effectorTriangle := 2.0 * √3 }

theorem elbow_shortArmDelta (θ : ℝ) :
    elbow shortArmDelta θ = ⟨0, -2 - 3 * Real.cos θ, -(3 * Real.sin θ)⟩ := by
  have hcrank : shortArmDelta.crank = 3 := by norm_num [shortArmDelta]
  have hbase : shortArmDelta.baseTriangle = 4 * √3 := by norm_num [shortArmDelta]
  have hside : inradius (4 * √3) = 2 := by
    rw [inradius, tan30_real, Scalar.two_real, mul_assoc, mul_one_div_cancel (by positivity)]
    norm_num
  rw [elbow, hcrank, hbase, hside]

theorem mem_reachingElbows_shortArmDelta {p : Point ℝ} : p ∈ reachingElbows shortArmDelta 0 2 4 ↔
    p ∈ Set.range (elbow shortArmDelta) ∧ p.x ^ 2 + (p.y - 1) ^ 2 + (p.z - 4) ^ 2 = 4 ^ 2 := by
  have harm : shortArmDelta.arm = 4 := by norm_num [shortArmDelta]
  have heffector : shortArmDelta.effectorTriangle = 2 * √3 := by norm_num [shortArmDelta]
  have hside : inradius (2 * √3) = 1 := by
    rw [inradius, tan30_real, Scalar.two_real, mul_assoc, mul_one_div_cancel (by positivity)]
    norm_num
  have hjoint : joint shortArmDelta 0 2 4 = ⟨0, 1, 4⟩ := by
    rw [joint, heffector, hside]
    norm_num
  rw [reachingElbows, Set.mem_ofPred_eq, hjoint, AtArmLength, distanceSq, harm, sub_zero]

/-- A joint above the base that the crank reaches level on the inward side and, as is chosen, steeply on the outward
one. -/
theorem raised_joint_outermost : 0 < shortArmDelta.crank ∧ (4 : ℝ) ≠ 0 ∧
    (⟨0, 1, 0⟩ : Point ℝ) ∈ reachingElbows shortArmDelta 0 2 4 ∧
    ∃ θ, crankAngle shortArmDelta 0 2 4 = some θ ∧ elbow shortArmDelta θ = ⟨0, -71 / 25, 72 / 25⟩ := by
  have hc : 0 < shortArmDelta.crank := by norm_num [shortArmDelta]
  have hin : (⟨0, 1, 0⟩ : Point ℝ) ∈ reachingElbows shortArmDelta 0 2 4 := by
    refine mem_reachingElbows_shortArmDelta.mpr ⟨⟨Real.pi, ?_⟩, by norm_num⟩
    rw [elbow_shortArmDelta, Real.cos_pi, Real.sin_pi]
    norm_num
  have hout : (⟨0, -71 / 25, 72 / 25⟩ : Point ℝ) ∈ reachingElbows shortArmDelta 0 2 4 := by
    obtain ⟨hcos, hsin⟩ := Scalar.turn_of_direction (x := 21 / 25) (y := -72 / 25) three_pos (by norm_num)
    refine mem_reachingElbows_shortArmDelta.mpr ⟨⟨Scalar.atan2 (-72 / 25) (21 / 25), ?_⟩, by norm_num⟩
    rw [elbow_shortArmDelta, hcos, hsin]
    norm_num
  obtain ⟨hnone, -, hsome⟩ := crankAngle_outermost (g := shortArmDelta) (x := 0) (y := 2) hc four_ne_zero
  obtain ⟨θ, hθ⟩ := Option.ne_none_iff_exists'.mp fun h => Set.notMem_empty _ (hnone.mp h ▸ hin)
  obtain ⟨hmem, houtermost⟩ := hsome θ hθ
  refine ⟨hc, four_ne_zero, hin, θ, hθ, ?_⟩
  by_contra hne
  have hy := houtermost _ hout (Ne.symm hne)
  have hlength := (mem_reachingElbows_shortArmDelta.mp hmem).2
  have hcircle := Real.sin_sq_add_cos_sq θ
  rw [elbow_shortArmDelta] at hlength hy
  dsimp only at hlength hy
  generalize Real.cos θ = c at hcircle hlength hy
  have hs : Real.sin θ = -3 / 4 * (c + 1) := by linear_combination (hlength - 9 * hcircle) / 24
  have hroot : (25 * c - 7) * (c + 1) = 0 := by
    rw [hs] at hcircle
    linear_combination 16 * hcircle
  have hn : 0 < (25 * c - 7) * (c + 1) := mul_pos (by linarith) (by linarith)
  exact hn.ne' hroot

end MotionControl.RotaryDelta
