import MotionControl.Homing.Sequence
import MotionControl.Proofs.Kinematics.LimitReports
import MotionControl.Proofs.Machine.Models

/-! Cycles of the built-in kinematics end at switches. The three rules for switch reports come to
one law: a cycle is over when every motor of its axes has been reported. -/
namespace MotionControl
open HomingSequence
variable {α : Type}

namespace CoreXY

/-- The two motors of the belts. -/
def belts : MotorMask := .single 0 0 ||| .single 1 0

/-- Whether a belt axis of a cycle has not reported its own motor. -/
def beltsNeeded (axes : AxisMask) (seen : MotorMask) : Bool :=
  (List.range 2).any fun axis => axes.contains axis && !seen.has axis 0

end CoreXY

/-- The motors of a plan that a cycle still moves after the given reports. -/
def KinematicsSettings.moving (settings : KinematicsSettings α) (axes : AxisMask)
    (motors seen : MotorMask) : MotorMask :=
  match settings with
  | coreXY _ =>
    (motors - CoreXY.belts - seen) ||| if CoreXY.beltsNeeded axes seen then CoreXY.belts else .none
  | _ => motors - seen

variable [Scalar α]

/-- What the built-in kinematics have in common. The cycles are those of axes that the machine has
and the kinematics can home. -/
structure SwitchHoming (settings : KinematicsSettings α) (model : MachineModel α) : Prop where
  cumulative : CumulativeReports model.kinematics.limitReached
  axes_subset : ∀ axes motors limited, (model.kinematics.limitReached axes motors limited).axes ⊆ axes
  motors_subset : ∀ axes motors limited,
    (model.kinematics.limitReached axes motors limited).motors ⊆ motors
  needs_motion : ∀ axes, model.kinematics.homesItself axes = false
  approach : ∀ axes directions, ∃ approach, model.kinematics.homingApproach axes directions = .ok approach
  unreported : ∀ axes, axes ⊆ model.layout.allAxes →
    (model.kinematics.limitReached axes (model.homingMotors axes) .none).axes = axes ∧
      (model.kinematics.limitReached axes (model.homingMotors axes) .none).motors = model.homingMotors axes
  stops : ∀ axes seen, axes ⊆ model.layout.allAxes →
    (model.kinematics.limitReached axes (model.homingMotors axes) seen).axes.isEmpty =
      (model.layout.motorsFor axes - seen).isEmpty
  moves : ∀ axes seen, axes ⊆ model.layout.allAxes →
    (model.kinematics.limitReached axes (model.homingMotors axes) seen).motors =
      settings.moving axes (model.homingMotors axes) seen
  keeps_moving : ∀ axes seen, axes ⊆ model.layout.allAxes →
    (model.kinematics.limitReached axes (model.homingMotors axes) seen).axes.isEmpty = false →
      (model.kinematics.limitReached axes (model.homingMotors axes) seen).motors.isEmpty = false
  releases : ∀ axes, axes ⊆ model.layout.allAxes →
    model.kinematics.releaseMotors axes (model.homingMotors axes) = model.homingMotors axes

section
variable {layout : AxisLayout} {axes : AxisMask}

private theorem lt_axisCount (ha : axes ⊆ layout.allAxes) {axis : Nat} (h : axes.contains axis = true) :
    axis < layout.axisCount := by
  simpa [AxisLayout.contains_allAxes] using ha axis h

theorem AxisLayout.contains_axes_motorsFor (ha : axes ⊆ layout.allAxes) (axis : Nat)
    (h : axes.contains axis = true) : (layout.motorsFor axes).axes.contains axis = true := by
  have hl := lt_axisCount ha h
  have hs : axis < 16 := Nat.lt_of_lt_of_le hl (Nat.le_trans layout.axisCount_le (by decide))
  simp [hs, hl, h]

theorem AxisLayout.onAxes_motorsFor (axes' : AxisMask) (h : axes ⊆ axes') :
    (layout.motorsFor axes).onAxes axes' = layout.motorsFor axes := by
  apply MotorMask.ext_has
  intro axis ha motor hm
  have hc := layout.axisCount_le
  have hs := h axis
  simp only [MotorMask.has_onAxes _ _ ha hm, AxisLayout.has_motorsFor _ _ ha hm]
  grind

/-- Axes wait for their motors exactly as long as one of these is left. -/
private theorem requireAll_isEmpty (axes : AxisMask) (seen : MotorMask) :
    (LimitOutcome.requireAll axes (layout.motorsFor axes) seen).axes.isEmpty =
      (layout.motorsFor axes - seen).isEmpty := by
  rw [Bool.eq_iff_iff, AxisMask.isEmpty_iff, layout.isEmpty_sub_iff, LimitOutcome.requireAll_axes]
  simp only [AxisMask.contains_and, Bool.and_eq_false_imp]

private theorem requireAll_unreported (ha : axes ⊆ layout.allAxes) :
    (LimitOutcome.requireAll axes (layout.motorsFor axes) .none).axes = axes := by
  have hm := AxisLayout.contains_axes_motorsFor ha
  rw [LimitOutcome.requireAll_axes, MotorMask.sub_none]
  apply AxisMask.ext_contains
  grind [AxisMask.contains_and]

end

theorem Cartesian.switchHoming (limits : SoftLimits α) (layout : AxisLayout) :
    SwitchHoming .cartesian ⟨kinematics limits, layout⟩ where
  cumulative := LimitOutcome.requireAll_cumulative
  axes_subset := LimitOutcome.requireAll_axes_subset
  motors_subset axes motors limited := by
    simp only [kinematics, LimitOutcome.requireAll_motors]
    exact MotorMask.sub_subset motors limited
  needs_motion _ := rfl
  approach axes directions := ⟨_, rfl⟩
  unreported axes ha :=
    ⟨requireAll_unreported ha, (LimitOutcome.requireAll_motors ..).trans (MotorMask.sub_none _)⟩
  stops axes seen _ := requireAll_isEmpty axes seen
  moves axes seen _ := LimitOutcome.requireAll_motors ..
  keeps_moving axes seen _ h := by
    have he := @requireAll_isEmpty layout axes seen
    exact (congrArg MotorMask.isEmpty (LimitOutcome.requireAll_motors ..)).trans (he.symm.trans h)
  releases axes _ := AxisLayout.onAxes_motorsFor axes fun _ => id

theorem RotaryDelta.switchHoming (g : DeltaSettings α) (layout : AxisLayout) :
    SwitchHoming (.parallelDelta g) ⟨kinematics g, layout⟩ where
  cumulative := limitReached_cumulative
  axes_subset := limitReached_axes_subset
  motors_subset axes motors limited := by
    simp only [kinematics, limitReached_motors]
    exact MotorMask.sub_subset motors limited
  needs_motion _ := rfl
  approach axes directions := ⟨_, rfl⟩
  unreported axes ha := by
    refine ⟨AxisMask.ext_contains fun axis => ?_, (limitReached_motors ..).trans (MotorMask.sub_none _)⟩
    have hm := AxisLayout.contains_axes_motorsFor ha axis
    rw [Bool.eq_iff_iff]
    simp only [kinematics, MachineModel.homingMotors, contains_limitReached, MotorMask.sub_none]
    grind
  stops axes seen _ := by
    rw [Bool.eq_iff_iff, AxisMask.isEmpty_iff, layout.isEmpty_sub_iff]
    simp only [← Bool.not_eq_true, kinematics, MachineModel.homingMotors, contains_limitReached]
    grind
  moves axes seen _ := limitReached_motors ..
  keeps_moving axes seen _ h := by
    obtain ⟨axis, hc⟩ := (AxisMask.isEmpty_eq_false_iff _).mp h
    simp only [kinematics, limitReached_motors]
    obtain ⟨-, hl | ⟨-, arm, -, -, hl⟩⟩ := (contains_limitReached ..).mp hc
    · exact MotorMask.isEmpty_eq_false_of_axes _ hl
    · exact MotorMask.isEmpty_eq_false_of_axes _ hl
  releases axes _ := AxisLayout.onAxes_motorsFor axes fun _ => id

namespace CoreXY
variable {layout : AxisLayout} {axes : AxisMask} (seen : MotorMask)

theorem contains_coupled (axes : AxisMask) (axis : Nat) : (coupled axes).contains axis = true ↔
    axes.contains axis = true ∨ axis < 2 ∧ ∃ belt < 2, axes.contains belt = true := by
  have hi := AxisMask.intersects_iff axes beltAxes
  simp only [contains_beltAxes, decide_eq_true_eq] at hi
  rw [coupled]
  split
  · simp only [AxisMask.contains_or, contains_beltAxes]
    grind
  · grind

theorem has_belts {axis motor : Nat} (hm : motor < 2) :
    belts.has axis motor = decide (axis < 2 ∧ motor = 0) := by
  simp only [belts, MotorMask.has_or, MotorMask.has_single, MotorMask.position, secondMotor]
  grind

theorem beltsNeeded_eq_true : beltsNeeded axes seen = true ↔
    ∃ axis < 2, axes.contains axis = true ∧ seen.has axis 0 = false := by
  simp only [beltsNeeded, List.any_eq_true, List.mem_range, Bool.and_eq_true, Bool.not_eq_true']

section
variable (h2 : 2 ≤ layout.axisCount) (hg : ∀ axis < 2, layout.ganged.contains axis = false)
include h2 hg

/-- A belt axis has one motor, which a plan for either belt axis includes. -/
private theorem has_plan_belt {axis motor : Nat} (ha : axis < 2) (hm : motor < 2) :
    (layout.motorsFor (coupled axes)).has axis motor = true ↔
      motor = 0 ∧ ∃ belt < 2, axes.contains belt = true := by
  have hc := contains_coupled axes axis
  have hn := hg axis ha
  rw [AxisLayout.has_motorsFor _ _ (by omega) hm]
  grind

/-- A switch of a belt axis is the switch of its one motor. -/
private theorem beltWaits_plan (axes : AxisMask) :
    beltWaits axes (layout.motorsFor (coupled axes)) seen = beltsNeeded axes seen := by
  rw [Bool.eq_iff_iff, beltWaits_eq_true, beltsNeeded_eq_true]
  apply exists_congr
  intro axis
  apply and_congr_right
  intro ha
  apply and_congr_right
  intro hc
  have h0 : (layout.motorsFor (coupled axes)).has axis 0 = true ↔ _ :=
    has_plan_belt h2 hg ha (by decide)
  have h1 : (layout.motorsFor (coupled axes)).has axis 1 = true ↔ _ :=
    has_plan_belt h2 hg ha (by decide)
  simp only [MotorMask.contains_axes, MotorMask.has_and]
  grind

end

/-- A plan treats the axes off the belts as the layout does. -/
private theorem has_plan_other {axis motor : Nat} (hb : ¬ axis < 2) (ha : axis < 16) (hm : motor < 2) :
    (layout.motorsFor (coupled axes)).has axis motor = (layout.motorsFor axes).has axis motor := by
  have hc := contains_coupled axes axis
  rw [AxisLayout.has_motorsFor _ _ ha hm, AxisLayout.has_motorsFor _ _ ha hm]
  grind

private theorem contains_axes_plan (ha : axes ⊆ layout.allAxes) (axis : Nat)
    (h : axes.contains axis = true) : (layout.motorsFor (coupled axes)).axes.contains axis = true := by
  have hl := ha axis h
  have hc := contains_coupled axes axis
  have h16 := layout.axisCount_le
  rw [AxisLayout.contains_allAxes, decide_eq_true_eq] at hl
  rw [maxAxes] at h16
  have hs : axis < 16 := by omega
  simp [hs, hl, hc.mpr (.inl h)]

omit [Scalar α] in
/-- What is left of a plan: the other axes lose their motors one by one, the belts run on. -/
private theorem moves_eq (h2 : 2 ≤ layout.axisCount)
    (hg : ∀ axis < 2, layout.ganged.contains axis = false) (xScaler : α) :
    (limitReached axes (layout.motorsFor (coupled axes)) seen).motors =
      (KinematicsSettings.coreXY xScaler).moving axes (layout.motorsFor (coupled axes)) seen := by
  apply MotorMask.ext_has
  intro axis ha motor hm
  have hn : beltsNeeded axes seen = true ↔ _ := beltsNeeded_eq_true seen
  rw [has_limitReached _ _ _ ha hm, beltWaits_plan seen h2 hg, KinematicsSettings.moving]
  by_cases hb : axis < 2
  · have hp : (layout.motorsFor (coupled axes)).has axis motor = true ↔ _ := has_plan_belt h2 hg hb hm
    cases he : beltsNeeded axes seen <;> simp [has_belts hm, hb] <;> grind
  · cases beltsNeeded axes seen <;> simp [has_belts hm, hb]

private theorem plan_unreported (ha : axes ⊆ layout.allAxes) (h2 : 2 ≤ layout.axisCount)
    (hg : ∀ axis < 2, layout.ganged.contains axis = false) :
    (limitReached axes (layout.motorsFor (coupled axes)) .none).axes = axes ∧
      (limitReached axes (layout.motorsFor (coupled axes)) .none).motors = layout.motorsFor (coupled axes) := by
  constructor
  · apply AxisMask.ext_contains
    intro axis
    have hm := contains_axes_plan ha axis
    have hn : (MotorMask.none &&& layout.motorsFor (coupled axes)).axes.contains axis = false := by simp
    rw [contains_limitReached, hn, MotorMask.sub_none]
    grind
  · apply MotorMask.ext_has
    intro axis hs motor hm
    have hp (hb : axis < 2) : (layout.motorsFor (coupled axes)).has axis motor = true ↔ _ :=
      has_plan_belt h2 hg hb hm
    have hn : beltsNeeded axes .none = true ↔ _ := beltsNeeded_eq_true .none
    simp only [MotorMask.has_none] at hn
    rw [has_limitReached _ _ _ hs hm, beltWaits_plan .none h2 hg, MotorMask.has_none]
    grind

private theorem stops_eq (h2 : 2 ≤ layout.axisCount) (hg : ∀ axis < 2, layout.ganged.contains axis = false) :
    (limitReached axes (layout.motorsFor (coupled axes)) seen).axes.isEmpty =
      (layout.motorsFor axes - seen).isEmpty := by
  rw [Bool.eq_iff_iff, AxisMask.isEmpty_iff, layout.isEmpty_sub_iff]
  apply forall_congr'
  intro axis
  simp only [contains_limitReached, Bool.and_eq_false_imp]
  apply imp_congr_right
  intro hc
  by_cases hb : axis < 2
  · have hm := (contains_coupled axes axis).mpr (.inl hc)
    have hn := hg axis hb
    simp [hb, hn, hc, hm, show axis < 16 by omega, show axis < layout.axisCount by omega]
  · by_cases hs : axis < 16
    · simp only [hb, if_false, MotorMask.contains_axes, MotorMask.has_sub,
        has_plan_other hb hs (by decide : 0 < 2), has_plan_other hb hs (by decide : 1 < 2)]
    · simp [hb, hs]

/-- An axis that waits has a motor that moves on. -/
private theorem keeps_moving (ha : axes ⊆ layout.allAxes)
    (h : (limitReached axes (layout.motorsFor (coupled axes)) seen).axes.isEmpty = false) :
    (limitReached axes (layout.motorsFor (coupled axes)) seen).motors.isEmpty = false := by
  obtain ⟨axis, hc⟩ := (AxisMask.isEmpty_eq_false_iff _).mp h
  refine MotorMask.isEmpty_eq_false_of_axes _ (?_ : AxisMask.contains _ axis = true)
  rw [contains_limitReached, Bool.and_eq_true] at hc
  rw [contains_axes_limitReached]
  have hm := contains_axes_plan ha axis hc.1
  have hw := beltWaits_eq_true axes (layout.motorsFor (coupled axes)) seen
  grind

theorem switchHoming (xScaler : α) (limits : SoftLimits α) (h2 : 2 ≤ layout.axisCount)
    (hg : ∀ axis < 2, layout.ganged.contains axis = false) :
    SwitchHoming (.coreXY xScaler) ⟨kinematics xScaler limits, layout⟩ where
  cumulative := limitReached_cumulative
  axes_subset := limitReached_axes_subset
  motors_subset axes motors limited := by
    apply MotorMask.subset_of_has
    intro axis ha motor hm h
    simp only [kinematics, has_limitReached _ _ _ ha hm, Bool.and_eq_true] at h
    exact h.1
  needs_motion _ := rfl
  approach axes directions := by
    simp only [kinematics, inverse]
    cases directions.values with
    | nil => exact ⟨_, rfl⟩
    | cons x rest => cases rest <;> exact ⟨_, rfl⟩
  unreported axes ha := plan_unreported ha h2 hg
  stops axes seen _ := stops_eq seen h2 hg
  moves axes seen _ := moves_eq seen h2 hg xScaler
  keeps_moving axes seen ha h := keeps_moving seen ha h
  releases axes _ := AxisLayout.onAxes_motorsFor (coupled axes) fun _ => id

end CoreXY

theorem CoreXY.of_validate {xScaler : α} {limits : SoftLimits α} {layout : AxisLayout}
    (h : validate xScaler limits layout = .ok ()) :
    2 ≤ layout.axisCount ∧ ∀ axis < 2, layout.ganged.contains axis = false := by
  obtain ⟨h2, -, hg, -⟩ := validate_eq_ok.mp h
  refine ⟨h2, fun axis ha => ?_⟩
  rw [← Bool.not_eq_true, AxisMask.intersects_iff] at hg
  rw [← Bool.not_eq_true]
  exact fun hc => hg ⟨axis, hc, by simp [contains_beltAxes, ha]⟩

theorem KinematicsCatalog.switchHoming {c : KinematicsCatalog α} {machine : MachineDescription α}
    {model : MachineModel α} (hm : c.create machine = .ok model)
    (hb : ∀ name params, machine.kinematics ≠ .custom name params) :
    SwitchHoming machine.kinematics model := by
  cases builtInModel hm hb with
  | cartesian selected valid =>
    rw [selected]
    exact Cartesian.switchHoming _ _
  | coreXY selected valid =>
    obtain ⟨h2, hg⟩ := CoreXY.of_validate valid
    rw [selected]
    exact CoreXY.switchHoming _ _ h2 hg
  | parallelDelta selected valid =>
    rw [selected]
    exact RotaryDelta.switchHoming _ _

/-- The cycle of some axes once the given motors have been reported. -/
def MachineModel.cycleAfter (model : MachineModel α) (axes : AxisMask) (seen : MotorMask) : ActiveCycle :=
  let outcome := model.kinematics.limitReached axes (model.homingMotors axes) seen
  ⟨axes, outcome.axes, outcome.motors⟩

namespace SwitchHoming
variable {settings : KinematicsSettings α} {model : MachineModel α} (sw : SwitchHoming settings model)
  {axes : AxisMask} (ha : axes ⊆ model.layout.allAxes) (seen limited : MotorMask)
include sw

include ha in
theorem cycleAfter_none : model.cycleAfter axes .none = ⟨axes, axes, model.homingMotors axes⟩ := by
  obtain ⟨hp, hm⟩ := sw.unreported axes ha
  rw [MachineModel.cycleAfter]
  simp only [hp, hm]

theorem limitReached_cycleAfter {outcome : LimitOutcome}
    (ho : model.kinematics.limitReached (model.cycleAfter axes seen).pending
      (model.cycleAfter axes seen).motors limited = outcome) :
    (⟨axes, outcome.axes, outcome.motors⟩ : ActiveCycle) = model.cycleAfter axes (seen ||| limited) ∧
      outcome.stop = (model.cycleAfter axes (seen ||| limited)).pending.isEmpty := by
  have hp := sw.cumulative.axes_report axes (model.homingMotors axes) seen limited
  have hm := sw.cumulative.motors_report axes (model.homingMotors axes) seen limited
  have hs := sw.cumulative.stop_eq (model.cycleAfter axes seen).pending
    (model.cycleAfter axes seen).motors limited
  subst ho
  refine ⟨?_, hs.trans (congrArg AxisMask.isEmpty hp)⟩
  simp only [MachineModel.cycleAfter, ActiveCycle.mk.injEq, true_and]
  exact ⟨hp, hm⟩

include ha in
theorem pending_cycleAfter_isEmpty : (model.cycleAfter axes seen).pending.isEmpty =
    (model.layout.motorsFor axes - seen).isEmpty :=
  sw.stops axes seen ha

end SwitchHoming

end MotionControl
