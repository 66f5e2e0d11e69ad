import MotionControl.Kinematics.Cartesian
import MotionControl.Kinematics.CoreXY
import MotionControl.Kinematics.RotaryDelta
import MotionControl.Proofs.Axes.Masks

/-! Switch reports are cumulative. What a rule leaves after several reports, each fed with the axes
and motors of the one before, depends on the union of the reports only. -/
namespace MotionControl

/-- A rule for switch reports with cumulative outcomes, which stops as soon as no axis waits. -/
structure CumulativeReports (rule : AxisMask → MotorMask → MotorMask → LimitOutcome) : Prop where
  axes_report : ∀ axes motors first second,
    (rule (rule axes motors first).axes (rule axes motors first).motors second).axes =
      (rule axes motors (first ||| second)).axes
  motors_report : ∀ axes motors first second,
    (rule (rule axes motors first).axes (rule axes motors first).motors second).motors =
      (rule axes motors (first ||| second)).motors
  stop_eq : ∀ axes motors limited, (rule axes motors limited).stop = (rule axes motors limited).axes.isEmpty

namespace LimitOutcome
variable (axes : AxisMask) (motors limited : MotorMask)

@[simp] theorem requireAll_motors : (requireAll axes motors limited).motors = motors - limited := by
  apply MotorMask.ext_has
  intro axis _ motor _
  simp [requireAll]
  grind

theorem requireAll_axes : (requireAll axes motors limited).axes = axes &&& (motors - limited).axes :=
  congrArg (axes &&& MotorMask.axes ·) (requireAll_motors axes motors limited)

theorem requireAll_axes_subset : (requireAll axes motors limited).axes ⊆ axes := by
  intro axis h
  rw [requireAll_axes, AxisMask.contains_and, Bool.and_eq_true] at h
  exact h.1

/-- A motor leaves with its first report, an axis with its last motor. -/
theorem requireAll_cumulative : CumulativeReports requireAll where
  axes_report axes motors first second := by
    apply AxisMask.ext_contains
    intro axis
    have hm := MotorMask.contains_axes_of_sub (motors - first) second axis
    simp only [requireAll_axes, requireAll_motors, MotorMask.sub_sub, AxisMask.contains_and] at hm ⊢
    grind
  motors_report axes motors first second := by
    simp only [requireAll_motors, MotorMask.sub_sub]
  stop_eq _ _ _ := rfl

end LimitOutcome

namespace RotaryDelta
variable (axes : AxisMask) (motors limited : MotorMask)

theorem contains_armAxes (axis : Nat) : armAxes.contains axis = decide (axis < armCount) := by
  rw [armAxes, AxisMask.contains_all, armCount, maxAxes, decide_eq_decide]
  omega

@[simp] theorem limitReached_motors : (limitReached axes motors limited).motors = motors - limited := by
  rw [← LimitOutcome.requireAll_motors axes motors limited, limitReached]
  split <;> rfl

theorem contains_limitReached (axis : Nat) :
    (limitReached axes motors limited).axes.contains axis = true ↔ axes.contains axis = true ∧
      ((motors - limited).axes.contains axis = true ∨ axis < armCount ∧ ∃ arm < armCount,
        axes.contains arm = true ∧ (motors - limited).axes.contains arm = true) := by
  have hi := AxisMask.intersects_iff (LimitOutcome.requireAll axes motors limited).axes armAxes
  simp only [contains_armAxes, decide_eq_true_eq, LimitOutcome.requireAll_axes, AxisMask.contains_and,
    Bool.and_eq_true] at hi
  rw [limitReached]
  simp only [LimitOutcome.requireAll_axes]
  split
  · rename_i h
    obtain ⟨arm, ha, hl⟩ := hi.mp h
    simp only [AxisMask.contains_or, AxisMask.contains_and, contains_armAxes]
    grind
  · rename_i h
    simp only [LimitOutcome.requireAll_axes, AxisMask.contains_and]
    grind

theorem limitReached_axes_subset : (limitReached axes motors limited).axes ⊆ axes :=
  fun _ h => ((contains_limitReached ..).mp h).1

theorem limitReached_cumulative : CumulativeReports limitReached where
  axes_report axes motors first second := by
    apply AxisMask.ext_contains
    intro axis
    have hm (axis : Nat) := MotorMask.contains_axes_of_sub (motors - first) second axis
    rw [Bool.eq_iff_iff]
    simp only [contains_limitReached, limitReached_motors, MotorMask.sub_sub] at hm ⊢
    constructor
    · rintro ⟨⟨ha, -⟩, hs | ⟨hl, arm, hal, ⟨haa, -⟩, hs⟩⟩
      · exact ⟨ha, .inl hs⟩
      · exact ⟨ha, .inr ⟨hl, arm, hal, haa, hs⟩⟩
    · rintro ⟨ha, hs | ⟨hl, arm, hal, haa, hs⟩⟩
      · exact ⟨⟨ha, .inl (hm axis hs)⟩, .inl hs⟩
      · exact ⟨⟨ha, .inr ⟨hl, arm, hal, haa, hm arm hs⟩⟩,
          .inr ⟨hl, arm, hal, ⟨haa, .inl (hm arm hs)⟩, hs⟩⟩
  motors_report axes motors first second := by
    simp only [limitReached_motors, MotorMask.sub_sub]
  stop_eq axes motors limited := by
    rw [limitReached]
    split
    · rename_i h
      obtain ⟨arm, ha, -⟩ := (AxisMask.intersects_iff _ _).mp h
      symm
      rw [AxisMask.isEmpty_eq_false_iff]
      exact ⟨arm, by simp [ha]⟩
    · rfl

end RotaryDelta

namespace CoreXY
variable (axes : AxisMask) (motors limited : MotorMask)

theorem contains_beltAxes (axis : Nat) : beltAxes.contains axis = decide (axis < 2) :=
  (AxisMask.contains_all 2 axis).trans (decide_eq_decide.mpr (by rw [maxAxes]; omega))

/-- Whether a belt axis has not been reported by any motor that runs. -/
def beltWaits : Bool :=
  (List.range 2).any fun axis => axes.contains axis && !(limited &&& motors).axes.contains axis

private theorem has_onAxes_beltAxes {axis motor : Nat} (ha : axis < 16) (hm : motor < 2) :
    (motors.onAxes beltAxes).has axis motor = (decide (axis < 2) && motors.has axis motor) := by
  rw [MotorMask.has_onAxes _ _ ha hm, contains_beltAxes, maxAxes]
  grind

private theorem contains_pendingBelts (axis : Nat) :
    ((axes &&& beltAxes) - (limited &&& motors.onAxes beltAxes).axes).contains axis =
      (decide (axis < 2) && axes.contains axis && !(limited &&& motors).axes.contains axis) := by
  by_cases ha : axis < 16
  · simp [contains_beltAxes, has_onAxes_beltAxes motors ha]
    grind
  · simp [contains_beltAxes, ha]
    grind

private theorem pendingBelts_isEmpty :
    ((axes &&& beltAxes) - (limited &&& motors.onAxes beltAxes).axes).isEmpty =
      !beltWaits axes motors limited := by
  rw [Bool.eq_iff_iff, AxisMask.isEmpty_iff, Bool.not_eq_true', beltWaits, List.any_eq_false]
  simp only [contains_pendingBelts, List.mem_range]
  grind

theorem has_limitReached {axis motor : Nat} (ha : axis < 16) (hm : motor < 2) :
    (limitReached axes motors limited).motors.has axis motor =
      (motors.has axis motor && if axis < 2 then beltWaits axes motors limited
        else !limited.has axis motor) := by
  simp only [limitReached, pendingBelts_isEmpty, LimitOutcome.requireAll_motors]
  cases beltWaits axes motors limited <;> simp [has_onAxes_beltAxes motors ha hm] <;> grind

theorem contains_limitReached (axis : Nat) :
    (limitReached axes motors limited).axes.contains axis =
      (axes.contains axis && if axis < 2 then !(limited &&& motors).axes.contains axis
        else (motors - limited).axes.contains axis) := by
  simp only [limitReached, AxisMask.contains_or, contains_pendingBelts, LimitOutcome.requireAll_axes]
  by_cases ha : axis < 16
  · simp [contains_beltAxes, has_onAxes_beltAxes motors ha]
    grind
  · simp [contains_beltAxes, ha]
    grind

theorem limitReached_axes_subset : (limitReached axes motors limited).axes ⊆ axes := by
  intro axis h
  rw [contains_limitReached, Bool.and_eq_true] at h
  exact h.1

theorem contains_axes_limitReached (axis : Nat) :
    (limitReached axes motors limited).motors.axes.contains axis =
      if axis < 2 then beltWaits axes motors limited && motors.axes.contains axis
      else (motors - limited).axes.contains axis := by
  by_cases ha : axis < 16
  · simp [has_limitReached, ha]
    grind
  · simp [ha]

theorem beltWaits_eq_true : beltWaits axes motors limited = true ↔
    ∃ axis < 2, axes.contains axis = true ∧ (limited &&& motors).axes.contains axis = false := by
  simp only [beltWaits, List.any_eq_true, List.mem_range, Bool.and_eq_true, Bool.not_eq_true']

private theorem contains_axes_union (first second : MotorMask) (axis : Nat) :
    ((first ||| second) &&& motors).axes.contains axis =
      ((first &&& motors).axes.contains axis || (second &&& motors).axes.contains axis) := by
  simp
  grind

/-- As long as a belt axis waits, both belts run, and their switches go on counting. -/
private theorem contains_axes_belts (first second : MotorMask) {axis : Nat} (ha : axis < 2) :
    (second &&& (limitReached axes motors first).motors).axes.contains axis =
      (beltWaits axes motors first && (second &&& motors).axes.contains axis) := by
  have hs : axis < 16 := by omega
  simp [has_limitReached, hs, ha]
  grind

private theorem beltWaits_report (first second : MotorMask) :
    beltWaits (limitReached axes motors first).axes (limitReached axes motors first).motors second =
      beltWaits axes motors (first ||| second) := by
  rw [Bool.eq_iff_iff]
  simp only [beltWaits_eq_true, contains_limitReached, contains_axes_union]
  constructor
  · rintro ⟨axis, ha, hc, hs⟩
    simp only [ha, if_true, Bool.and_eq_true, Bool.not_eq_true'] at hc
    have hw : beltWaits axes motors first = true := (beltWaits_eq_true ..).mpr ⟨axis, ha, hc⟩
    rw [contains_axes_belts _ _ _ _ ha, hw, Bool.true_and] at hs
    exact ⟨axis, ha, hc.1, by simp only [hc.2, hs, Bool.or_self]⟩
  · rintro ⟨axis, ha, hc, hs⟩
    rw [Bool.or_eq_false_iff] at hs
    refine ⟨axis, ha, ?_, ?_⟩
    · simp only [ha, if_true, hc, hs.1, Bool.not_false, Bool.and_self]
    · rw [contains_axes_belts _ _ _ _ ha, hs.2, Bool.and_false]

/-- A belt axis leaves with its own report, and the belts with the last belt axis. -/
theorem limitReached_cumulative : CumulativeReports limitReached where
  axes_report axes motors first second := by
    apply AxisMask.ext_contains
    intro axis
    rw [contains_limitReached, contains_limitReached, contains_limitReached]
    by_cases ha : axis < 2
    · have hw := beltWaits_eq_true axes motors first
      simp only [ha, if_true, contains_axes_belts, contains_axes_union]
      grind
    · have hm : ((limitReached axes motors first).motors - second).axes.contains axis =
          (motors - (first ||| second)).axes.contains axis := by
        by_cases hl : axis < 16
        · simp [has_limitReached, hl, ha, Bool.and_assoc]
        · simp [hl]
      have ho := MotorMask.contains_axes_of_sub (motors - first) second axis
      rw [MotorMask.sub_sub] at ho
      simp only [ha, if_false, hm]
      grind
  motors_report axes motors first second := by
    apply MotorMask.ext_has
    intro axis ha motor hm
    rw [has_limitReached _ _ _ ha hm, has_limitReached _ _ _ ha hm, has_limitReached _ _ _ ha hm,
      beltWaits_report]
    have hw : beltWaits axes motors (first ||| second) = true → beltWaits axes motors first = true := by
      simp only [beltWaits_eq_true, contains_axes_union]
      grind
    split
    · grind
    · simp [Bool.and_assoc]
  stop_eq _ _ _ := rfl

end CoreXY

end MotionControl
