import MotionControl.Proofs.Kinematics.DeltaUncrossedTips
import MotionControl.Proofs.Kinematics.JogCuts

/-! Cranks at equal angles, as they are at power-up and after homing. The effector then hangs on the axis of
the machine, and the angles found for it are equal as well, but need not be those that hold it. -/
namespace MotionControl.RotaryDelta
open Scalar
variable {g : DeltaSettings ℝ} {layout : AxisLayout} {z θ : ℝ}

/-- An angle that is found for an effector on the axis, before it is brought into the crank range. -/
structure FoundAt (g : DeltaSettings ℝ) (z raw : ℝ) : Prop where
  fits : ArmFits g 0 0 z raw
  turn : -(Real.pi / 2) ≤ raw ∧ raw < 3 * Real.pi / 2

/-- The angle that is found is in the crank range, or beyond an end of it by round-off and moved there. -/
def SettlesAt (g : DeltaSettings ℝ) (z θ : ℝ) : Prop :=
  ∃ raw, FoundAt g z raw ∧ (g.minAngle - angleTolerance ≤ raw ∧ raw ≤ g.maxAngle + angleTolerance) ∧
    confine g.minAngle g.maxAngle raw = θ

/-- Cranks at an angle hold the effector where the same angle is found for it. -/
structure RestsLevel (g : DeltaSettings ℝ) (θ : ℝ) : Prop where
  below : levelHeight g θ ≤ -1e-9
  settles : SettlesAt g (levelHeight g θ) θ

theorem crankAngle_level (hc : 0 < g.crank) (hz : z < 0) : crankAngle g 0 0 z = some θ ↔ FoundAt g z θ := by
  rw [crankAngle_eq_some_iff hc hz, zero_pow two_ne_zero, add_zero, neg_zero]
  exact ⟨fun h => ⟨h.1, h.2⟩, fun h => ⟨h.fits, h.turn⟩⟩

theorem FoundAt.unique {raw : ℝ} (hc : 0 < g.crank) (hz : z < 0) (h : FoundAt g z θ) (hr : FoundAt g z raw) :
    raw = θ := by
  have ht := (crankAngle_level hc hz).mpr h
  rw [(crankAngle_level hc hz).mpr hr] at ht
  exact Option.some.inj ht

theorem inverse_level (hc : 0 < g.crank) (hr : g.minAngle ≤ g.maxAngle) (z θ : ℝ) (rest : List ℝ) :
    inverse g ⟨0 :: 0 :: z :: rest⟩ = .ok ⟨θ :: θ :: θ :: rest⟩ ↔ z ≤ -1e-9 ∧ SettlesAt g z θ := by
  rw [inverse]
  dsimp only
  rw [abs_real, zero_real]
  split
  · rename_i hs
    refine iff_of_false Outcome.refuse_ne_ok fun h => ?_
    linarith only [h.1, hs, neg_le_abs z]
  split
  · rename_i ha
    refine iff_of_false Outcome.refuse_ne_ok fun h => ?_
    linarith only [h.1, ha]
  rename_i hs ha
  have hb : z ≤ -1e-9 := by
    rw [not_lt] at hs ha
    rw [abs_of_nonpos ha] at hs
    linarith only [hs]
  have hz : z < 0 := hb.trans_lt (by norm_num)
  have harm (arm : Nat) : armAngle g ⟨0 :: 0 :: z :: rest⟩ arm 0 0 z = .ok θ ↔ SettlesAt g z θ := by
    simp only [SettlesAt, ← crankAngle_level hc hz, armAngle_eq_ok, Coordinates.clamp, if_pos hr,
      Except.ok.injEq, not_or, not_lt]
  rw [and_iff_right hb, ← harm 1, zero_mul, zero_mul, add_zero, sub_zero]
  constructor
  · intro h
    obtain ⟨θ1, h1, h⟩ := Outcome.bind_eq_ok.mp h
    obtain ⟨θ2, -, h⟩ := Outcome.bind_eq_ok.mp h
    obtain ⟨θ3, -, h⟩ := Outcome.bind_eq_ok.mp h
    cases h
    exact h1
  · intro h
    have hok (arm : Nat) := (harm arm).mpr ((harm 1).mp h)
    rw [hok 1, hok 2, hok 3]
    rfl

theorem forward_level (g : DeltaSettings ℝ) (θ : ℝ) (rest : List ℝ) :
    forward g ⟨θ :: θ :: θ :: rest⟩ (rest.length + 3) = .ok ⟨0 :: 0 :: levelHeight g θ :: rest⟩ := by
  rw [forward_eq, effectorPosition_eq_level]

/-- Level cranks are found again from where they hold the effector exactly when they rest. -/
theorem exists_inverse_forward_level (hv : validate g layout = .ok ()) (θ : ℝ) (rest : List ℝ) :
    (∃ p, forward g ⟨θ :: θ :: θ :: rest⟩ (rest.length + 3) = .ok p ∧
      inverse g p = .ok ⟨θ :: θ :: θ :: rest⟩) ↔ RestsLevel g θ := by
  obtain ⟨-, ⟨hc, -⟩, -, ⟨-, -, hr⟩, -⟩ := validate_eq_ok.mp hv
  have hi := inverse_level hc hr.le (levelHeight g θ) θ rest
  rw [forward_level]
  constructor
  · rintro ⟨_, ⟨⟩, h⟩
    obtain ⟨hb, hf⟩ := hi.mp h
    exact ⟨hb, hf⟩
  · intro h
    exact ⟨_, rfl, hi.mpr ⟨h.below, h.settles⟩⟩

/-- Tips that do not coincide hold the effector below their own height. -/
theorem levelHeight_of_reach (hs : epsilon ≤ tipsArea (crankTips g θ θ θ)) :
    levelHeight g θ = tipHeight g θ - √(g.arm ^ 2 - tipReach g θ ^ 2) := if_pos hs

theorem armFits_level (hs : epsilon ≤ tipsArea (crankTips g θ θ θ)) (hr : tipReach g θ ^ 2 ≤ g.arm ^ 2)
    (ho : 0 ≤ g.crank * (sideGap g * Real.sin θ - levelHeight g θ * Real.cos θ)) :
    ArmFits g 0 0 (levelHeight g θ) θ := by
  have hroot := Real.mul_self_sqrt (sub_nonneg.mpr hr)
  have hz := levelHeight_of_reach hs
  have hreach := tipReach_real g θ
  have hheight := tipHeight_real g θ
  constructor
  · rw [hz]
    linear_combination hroot
  · rw [hreach, hheight]
    linear_combination ho

theorem restsLevel_of_foundAt (hb : levelHeight g θ ≤ -1e-9) (hf : FoundAt g (levelHeight g θ) θ)
    (hl : g.minAngle ≤ θ) (hu : θ ≤ g.maxAngle) : RestsLevel g θ := by
  have ht : (0 : ℝ) < angleTolerance := by norm_num [angleTolerance]
  exact ⟨hb, θ, hf, ⟨by linarith, by linarith⟩, confine_of_mem hl hu⟩

/-- Horizontal cranks rest when their range holds the horizontal and the arms leave the base. -/
theorem restsLevel_zero_iff (hv : validate g layout = .ok ()) : RestsLevel g 0 ↔
    (g.minAngle ≤ 0 ∧ 0 ≤ g.maxAngle) ∧ 1e-9 ≤ √(g.arm ^ 2 - (sideGap g + g.crank) ^ 2) := by
  obtain ⟨-, ⟨hc, -⟩, -, ⟨-, -, hr⟩, -, hs, hreach⟩ := validate_eq_ok.mp hv
  have hp := Real.pi_pos
  have hz : levelHeight g 0 = -√(g.arm ^ 2 - (sideGap g + g.crank) ^ 2) := by
    rw [levelHeight_of_reach hs, tipReach_zero, tipHeight_real, Real.sin_zero, mul_zero, neg_zero, zero_sub]
  have hf : FoundAt g (levelHeight g 0) 0 := by
    refine ⟨armFits_level hs hreach ?_, by linarith, by linarith⟩
    rw [hz, Real.sin_zero, Real.cos_zero, mul_zero, mul_one, sub_neg_eq_add, zero_add]
    positivity
  constructor
  · rintro ⟨hb, raw, hraw, -, hm⟩
    obtain rfl := hf.unique hc (hb.trans_lt (by norm_num)) hraw
    refine ⟨?_, by linarith⟩
    rw [confine] at hm
    grind
  · rintro ⟨⟨hl, hu⟩, hb⟩
    exact restsLevel_of_foundAt (by linarith) hf hl hu

/-- Cranks at an angle in their range rest when the elbows are outward of the joints, well below the base. -/
theorem restsLevel_of_outward (hc : 0 < g.crank) (hs : epsilon ≤ tipsArea (crankTips g θ θ θ))
    (hr : tipReach g θ ^ 2 ≤ g.arm ^ 2) (hq : |θ| ≤ Real.pi / 2) (hl : g.minAngle ≤ θ) (hu : θ ≤ g.maxAngle)
    (hb : levelHeight g θ ≤ -1e-9) (ho : levelHeight g θ * Real.cos θ ≤ sideGap g * Real.sin θ) :
    RestsLevel g θ := by
  have hp := Real.pi_pos
  obtain ⟨hql, hqu⟩ := abs_le.mp hq
  have hf := armFits_level hs hr (mul_nonneg hc.le (sub_nonneg.mpr ho))
  exact restsLevel_of_foundAt hb ⟨hf, hql, by linarith⟩ hl hu

/-- Cranks that stand so steep that their elbows are inward do not rest at the end of their range. -/
theorem not_restsLevel_of_inward (hc : 0 < g.crank) (hr : g.minAngle < g.maxAngle)
    (ho : ∀ raw, -(Real.pi / 2) ≤ raw → raw ≤ g.minAngle →
      sideGap g * Real.sin raw < levelHeight g g.minAngle * Real.cos raw) : ¬ RestsLevel g g.minAngle := by
  rintro ⟨-, raw, ⟨hf, hq, -⟩, -, hm⟩
  have hle : raw ≤ g.minAngle := by
    rw [confine] at hm
    grind
  have h := hf.outward
  rw [tipReach_real, tipHeight_real] at h
  nlinarith only [h, hc, ho raw hq hle]

theorem restsLevel_default : RestsLevel (default : DeltaSettings ℝ) (default : DeltaSettings ℝ).homingAngle := by
  have hθ : (default : DeltaSettings ℝ).homingAngle = -0.75 := rfl
  have hmin : (default : DeltaSettings ℝ).minAngle = -0.75 := rfl
  have hmax : (default : DeltaSettings ℝ).maxAngle = 1.57 := rfl
  have hcrank : (default : DeltaSettings ℝ).crank = 70 := by norm_num [default]
  have harm : (default : DeltaSettings ℝ).arm = 133.5 := rfl
  obtain ⟨hgl, hgu⟩ := sideGap_default
  have hpi := Real.pi_gt_three
  have hcl : 0.7 ≤ Real.cos (-0.75) := le_trans (by norm_num) (Real.one_sub_sq_div_two_le_cos (x := -0.75))
  have hcu := Real.cos_le_one (-0.75)
  have hsl : -0.75 ≤ Real.sin (-0.75) := by
    rw [Real.sin_neg, neg_le_neg_iff]
    exact Real.sin_le (by norm_num)
  rw [hθ]
  have hreach := tipReach_real (default : DeltaSettings ℝ) (-0.75)
  rw [hcrank] at hreach
  have hs : epsilon ≤ tipsArea (crankTips (default : DeltaSettings ℝ) (-0.75) (-0.75) (-0.75)) := by
    apply epsilon_le_tipsArea
    nlinarith only [hreach, hgl, hcl]
  have hroot : 90 ≤ √((default : DeltaSettings ℝ).arm ^ 2 - tipReach (default : DeltaSettings ℝ) (-0.75) ^ 2) := by
    apply Real.le_sqrt_of_sq_le
    rw [harm]
    nlinarith only [hreach, hgl, hgu, hcl, hcu]
  have hz : levelHeight (default : DeltaSettings ℝ) (-0.75) ≤ -37 := by
    rw [levelHeight_of_reach hs, tipHeight_real, hcrank]
    linarith
  apply restsLevel_of_outward (by linarith) hs
  · rw [harm]
    nlinarith only [hreach, hgl, hgu, hcl, hcu]
  · rw [abs_le]
    constructor <;> linarith
  · exact hmin.le
  · rw [hmax]
    norm_num
  · exact hz.trans (by norm_num)
  · nlinarith only [hz, hgl, hgu, hcl, hsl]

/-- The default lengths with a crank range below the horizontal. -/
noncomputable def loweredDelta : DeltaSettings ℝ :=
  { (default : DeltaSettings ℝ) with minAngle := 0.1, maxAngle := 1.57, homingAngle := 0.1 }

theorem validate_loweredDelta : validate loweredDelta ⟨3, .none, by decide⟩ = .ok () := by
  have hpi := Real.pi_gt_three
  have hl : -Real.pi < (0.1 : ℝ) := by linarith
  have hu : (1.57 : ℝ) < Real.pi := by linarith
  exact validate_default_lengths le_rfl hl hu (by norm_num) ⟨le_rfl, by norm_num⟩

/-- The default lengths with a crank range that begins almost upright, where the cranks are homed. -/
noncomputable def uprightDelta : DeltaSettings ℝ :=
  { (default : DeltaSettings ℝ) with minAngle := -1.5, maxAngle := 1.57, homingAngle := -1.5 }

theorem validate_uprightDelta : validate uprightDelta ⟨3, .none, by decide⟩ = .ok () := by
  have hpi := Real.pi_gt_three
  have hl : -Real.pi < (-1.5 : ℝ) := by linarith
  have hu : (1.57 : ℝ) < Real.pi := by linarith
  exact validate_default_lengths le_rfl hl hu (by norm_num) ⟨le_rfl, by norm_num⟩

theorem not_restsLevel_uprightDelta : ¬ RestsLevel uprightDelta uprightDelta.homingAngle := by
  have hcrank : uprightDelta.crank = 70 := by norm_num [uprightDelta, default]
  have harm : uprightDelta.arm = 133.5 := rfl
  have hmin : uprightDelta.minAngle = -1.5 := rfl
  have hgap : sideGap uprightDelta = sideGap (default : DeltaSettings ℝ) := rfl
  obtain ⟨hgl, -⟩ := sideGap_default
  have hpi := Real.pi_lt_d2
  -- all angles below the range that can be found are as near to upright
  have hupright (θ : ℝ) (hl : -(Real.pi / 2) ≤ θ) (hu : θ ≤ -1.5) :
      Real.sin θ ≤ -0.99 ∧ 0 ≤ Real.cos θ ∧ Real.cos θ ≤ 0.075 := by
    have hc := Real.cos_nonneg_of_neg_pi_div_two_le_of_le hl (by linarith)
    have hs := Real.one_sub_sq_div_two_le_cos (x := θ + Real.pi / 2)
    have hlt := Real.sin_le (x := θ + Real.pi / 2) (by linarith)
    rw [Real.cos_add_pi_div_two] at hs
    rw [Real.sin_add_pi_div_two] at hlt
    refine ⟨?_, hc, by linarith⟩
    nlinarith only [hs, hl, hu, hpi]
  have hsin := (hupright (-1.5) (by linarith [Real.pi_gt_three]) le_rfl).1
  have hz : -65 ≤ levelHeight uprightDelta uprightDelta.minAngle := by
    have hroot : √(uprightDelta.arm ^ 2 - tipReach uprightDelta (-1.5) ^ 2) ≤ 133.5 := by
      apply Real.sqrt_le_iff.mpr
      rw [harm]
      exact ⟨by norm_num, sub_le_self _ (sq_nonneg _)⟩
    rw [hmin, levelHeight]
    split
    · rw [tipHeight_real, hcrank]
      linarith
    · rw [tipHeight_real, hcrank]
      linarith
  apply not_restsLevel_of_inward (by linarith) (by norm_num [uprightDelta])
  intro raw hl hu
  obtain ⟨hs, hcl, hcu⟩ := hupright raw hl hu
  rw [hgap]
  nlinarith only [hs, hcl, hcu, hz, hgl]

end MotionControl.RotaryDelta
