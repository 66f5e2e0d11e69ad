import MotionControl.Proofs.Homing.SwitchCycles
import MotionControl.Simulation

/-! Simulated limit switches. Only motors that move are reported, and a motor moves as long as its cycle
waits for it. -/
namespace MotionControl
variable {α : Type} [Scalar α]

namespace SimulationSettings
variable (s : SimulationSettings α) {axis motor : Nat} {travelled : α}

theorem trips_iff : s.trips axis travelled = true ↔
    ∃ part, s.tripAt[axis]? = some (some part) ∧ part ≤ travelled := by
  rw [trips, List.getD_eq_getElem?_getD]
  cases s.tripAt[axis]? with
  | none => simp
  | some trip => simp [Option.any_eq_true]

theorem has_limited (moving : MotorMask) (ha : axis < maxAxes) (hm : motor < 2) :
    (s.limited moving travelled).has axis motor = (moving.has axis motor && s.trips axis travelled) := by
  have hs : axis < 16 := Nat.lt_trans ha (by decide)
  rw [limited, MotorMask.has_ofList_filter moving _ hs hm, decide_eq_true ha, Bool.true_and, Bool.and_comm]

end SimulationSettings

variable {model : MachineModel α} {axes : AxisMask} {seen : MotorMask} {axis motor : Nat}

/-- The switches of some axes are enough to tell whether all of their motors have been reported. -/
theorem AxisLayout.isEmpty_motorsFor_sub_iff {layout : AxisLayout} (hl : axes ⊆ layout.allAxes)
    {tripped : Nat → Bool} (hs : ∀ axis < maxAxes, ∀ motor < 2,
      (layout.motorsFor axes).has axis motor = true → seen.has axis motor = tripped axis) :
    (layout.motorsFor axes - seen).isEmpty = true ↔
      ∀ axis, axes.contains axis = true → tripped axis = true := by
  rw [MotorMask.isEmpty_iff]
  have hmax (axis : Nat) (h : axis < layout.axisCount) : axis < maxAxes :=
    Nat.lt_of_lt_of_le h layout.axisCount_le
  constructor
  · intro h axis hc
    have hcount := hl axis hc
    rw [AxisLayout.contains_allAxes, decide_eq_true_eq] at hcount
    have ha := hmax axis hcount
    have h16 : axis < 16 := Nat.lt_trans ha (by decide)
    have hr : (layout.motorsFor axes).has axis 0 = true := by simp [h16, hcount, hc]
    have hn := h axis h16 0 (by decide)
    rw [MotorMask.has_sub, hr, hs axis ha 0 (by decide) hr] at hn
    simpa using hn
  · intro h axis h16 motor hm
    rw [MotorMask.has_sub]
    cases hr : (layout.motorsFor axes).has axis motor with
    | false => rfl
    | true =>
      have hr' := hr
      rw [AxisLayout.has_motorsFor _ _ h16 hm] at hr'
      simp only [Bool.and_eq_true, decide_eq_true_eq] at hr'
      rw [hs axis (hmax axis hr'.1.1) motor hm hr, h axis hr'.1.2]
      rfl

omit [Scalar α] in
/-- The belts run until both have been reported, the other motors until their own report. -/
theorem CoreXY.has_moving {layout : AxisLayout} (xScaler : α)
    (hg : ∀ axis < 2, layout.ganged.contains axis = false) (ha : axis < maxAxes) (hm : motor < 2)
    (hr : (layout.motorsFor axes).has axis motor = true) (hs : seen.has axis motor = false) :
    ((KinematicsSettings.coreXY xScaler).moving axes (layout.motorsFor (coupled axes)) seen).has axis motor =
      true := by
  have h16 : axis < 16 := Nat.lt_trans ha (by decide)
  rw [AxisLayout.has_motorsFor _ _ h16 hm] at hr
  simp only [Bool.and_eq_true, Bool.or_eq_true, decide_eq_true_eq] at hr
  obtain ⟨⟨hcount, hc⟩, hfirst⟩ := hr
  rw [KinematicsSettings.moving, MotorMask.has_or]
  by_cases hbelt : axis < 2
  · obtain rfl : motor = 0 := hfirst.resolve_right (by simp [hg axis hbelt])
    rw [if_pos ((beltsNeeded_eq_true seen).mpr ⟨axis, hbelt, hc, hs⟩), has_belts hm]
    simp [hbelt]
  · have hcoupled : (coupled axes).contains axis = true := (contains_coupled axes axis).mpr (.inl hc)
    have hplan : (layout.motorsFor (coupled axes)).has axis motor = true := by
      rw [AxisLayout.has_motorsFor _ _ h16 hm]
      simp [hcount, hcoupled, hfirst]
    simp [has_belts hm, hbelt, hs, hplan]

theorem KinematicsCatalog.has_moving {catalog : KinematicsCatalog α} {machine : MachineDescription α}
    (hc : catalog.create machine = .ok model)
    (hb : ∀ name params, machine.kinematics ≠ .custom name params) (ha : axis < maxAxes) (hm : motor < 2)
    (hr : (model.layout.motorsFor axes).has axis motor = true) (hs : seen.has axis motor = false) :
    (machine.kinematics.moving axes (model.homingMotors axes) seen).has axis motor = true := by
  cases builtInModel hc hb with
  | cartesian selected valid =>
    rw [selected, KinematicsSettings.moving, MotorMask.has_sub, hs]
    · simpa [MachineModel.homingMotors, Cartesian.kinematics] using hr
    · rintro ratio ⟨⟩
  | coreXY selected valid =>
    rw [selected]
    exact CoreXY.has_moving _ (CoreXY.of_validate valid).2 ha hm hr hs
  | parallelDelta selected valid =>
    rw [selected, KinematicsSettings.moving, MotorMask.has_sub, hs]
    · simpa [MachineModel.homingMotors, RotaryDelta.kinematics] using hr
    · rintro ratio ⟨⟩

end MotionControl
