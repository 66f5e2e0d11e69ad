import MotionControl.Proofs.Position.Lines
import MotionControl.Proofs.Kinematics.ValueCounts

/-! Machines whose motors follow their axes linearly. Over exact numbers the transforms undo each other, and
the motors of a line run along a line of their own. -/
namespace MotionControl
open Scalar

/-- Kinematics of a machine with a number of axes whose transforms are linear. Axes that meet their home
switches are set by way of the position. -/
structure LinearKinematics (k : Kinematics ℝ) (axisCount : ℕ) : Prop where
  exists_inverse : ∀ p : AxisPosition ℝ, p.length = axisCount → ∃ motors, k.inverse p = .ok motors
  forward_inverse : ∀ {p motors}, k.inverse p = .ok motors → k.forward motors p.length = .ok p
  inverse_forward : ∀ motors : MotorPosition ℝ, motors.length = axisCount →
    ∃ p, k.forward motors axisCount = .ok p ∧ p.length = axisCount ∧ k.inverse p = .ok motors
  inverse_lerp : ∀ {a b motors motors'}, k.inverse a = .ok motors → k.inverse b = .ok motors' →
    ∀ t, k.inverse (a.lerp b t) = .ok (motors.lerp motors' t)
  homed : k.homedPosition = k.poseByAxes

theorem Cartesian.linearKinematics (limits : SoftLimits ℝ) (axisCount : ℕ) :
    LinearKinematics (kinematics limits) axisCount where
  exists_inverse p _ := ⟨_, rfl⟩
  forward_inverse {p motors} h := by
    cases h
    change AxisPosition.new (Coordinates.resize p.values p.values.length) = _
    rw [Coordinates.resize_self, AxisPosition.new_real]
  inverse_forward motors hl := by
    refine ⟨⟨motors.values⟩, ?_, hl, rfl⟩
    change AxisPosition.new (Coordinates.resize motors.values axisCount) = _
    rw [← hl, MotorPosition.length, Coordinates.resize_self, AxisPosition.new_real]
  inverse_lerp h h' t := by
    cases h
    cases h'
    rfl
  homed := rfl

namespace CoreXY
variable {xScaler : ℝ}

theorem inverse_eq_ok {p : AxisPosition ℝ} {motors : MotorPosition ℝ} : inverse xScaler p = .ok motors ↔
    ∃ x y rest, p = ⟨x :: y :: rest⟩ ∧ motors = ⟨(x * xScaler + y) :: (x * xScaler - y) :: rest⟩ := by
  rw [inverse]
  obtain ⟨_ | ⟨x, _ | ⟨y, rest⟩⟩⟩ := p
  · simp
  · simp
  · simp [eq_comm]

theorem forward_inverse (hx : xScaler ≠ 0) {p : AxisPosition ℝ} {motors : MotorPosition ℝ}
    (h : inverse xScaler p = .ok motors) : forward xScaler motors p.length = .ok p := by
  obtain ⟨x, y, rest, rfl, rfl⟩ := inverse_eq_ok.mp h
  have hl : max (AxisPosition.length ⟨x :: y :: rest⟩) 2 =
      ((x * xScaler + y) :: (x * xScaler - y) :: rest).length := by
    simp [AxisPosition.length]
  have hfirst : (x * xScaler + y + (x * xScaler - y)) / (2.0 * xScaler) = x := by
    rw [two_real]
    field_simp
    ring
  have hsecond : (x * xScaler + y - (x * xScaler - y)) / 2.0 = y := by
    rw [two_real]
    ring
  rw [forward, hl, Coordinates.resize_self]
  dsimp only
  rw [hfirst, hsecond, AxisPosition.new_real]
  exact congrArg (fun values => Except.ok (AxisPosition.mk values)) (List.take_length ..)

theorem inverse_forward (hx : xScaler ≠ 0) {motors : MotorPosition ℝ} (h2 : 2 ≤ motors.length) :
    ∃ p, forward xScaler motors motors.length = .ok p ∧ p.length = motors.length ∧
      inverse xScaler p = .ok motors := by
  obtain ⟨_ | ⟨a, _ | ⟨b, rest⟩⟩⟩ := motors
  · contradiction
  · contradiction
  · have hsum : (a + b) / (2 * xScaler) * xScaler = (a + b) / 2 := by field_simp
    refine ⟨⟨(a + b) / (2 * xScaler) :: (a - b) / 2 :: rest⟩, ?_, rfl, inverse_eq_ok.mpr ⟨_, _, rest, rfl, ?_⟩⟩
    · rw [forward, Nat.max_eq_left h2, MotorPosition.length, Coordinates.resize_self, AxisPosition.new_real]
      norm_num
    · rw [hsum, ← add_div, ← sub_div, add_add_sub_cancel, add_sub_sub_cancel, add_self_div_two,
        add_self_div_two]

theorem linearKinematics (hx : xScaler ≠ 0) (limits : SoftLimits ℝ) {axisCount : ℕ} (h2 : 2 ≤ axisCount) :
    LinearKinematics (kinematics xScaler limits) axisCount where
  exists_inverse p hl := exists_inverse xScaler (h2.trans_eq hl.symm)
  forward_inverse := forward_inverse hx
  inverse_forward motors hl := by
    subst hl
    exact inverse_forward hx h2
  inverse_lerp h h' t := by
    obtain ⟨x, y, rest, rfl, rfl⟩ := inverse_eq_ok.mp h
    obtain ⟨x', y', rest', rfl, rfl⟩ := inverse_eq_ok.mp h'
    refine inverse_eq_ok.mpr ⟨x + (x' - x) * t, y + (y' - y) * t, Coordinates.lerp rest rest' t, rfl, ?_⟩
    have hsum : x * xScaler + y + (x' * xScaler + y' - (x * xScaler + y)) * t =
        (x + (x' - x) * t) * xScaler + (y + (y' - y) * t) := by
      ring
    have hdifference : x * xScaler - y + (x' * xScaler - y' - (x * xScaler - y)) * t =
        (x + (x' - x) * t) * xScaler - (y + (y' - y) * t) := by
      ring
    rw [← hsum, ← hdifference]
    rfl
  homed := rfl

end CoreXY

/-- The machines whose motors follow their axes linearly. -/
def MachineDescription.IsLinear {α : Type} (machine : MachineDescription α) : Prop :=
  machine.kinematics = .cartesian ∨ ∃ xScaler, machine.kinematics = .coreXY xScaler

/-- The motors of the other machines with built-in kinematics turn cranks. -/
theorem BuiltInModel.isLinear_or {α : Type} [Scalar α] {machine : MachineDescription α} {model : MachineModel α}
    (hm : BuiltInModel machine model) : machine.IsLinear ∨ ∃ g, machine.kinematics = .parallelDelta g := by
  cases hm with
  | cartesian selected => exact .inl (.inl selected)
  | coreXY selected => exact .inl (.inr ⟨_, selected⟩)
  | parallelDelta selected => exact .inr ⟨_, selected⟩

theorem MachineDescription.IsLinear.not_custom {α : Type} {machine : MachineDescription α} (hk : machine.IsLinear)
    (name : String) (params : NameTable α) : machine.kinematics ≠ .custom name params := by
  obtain hk | ⟨xScaler, hk⟩ := hk
  · simp [hk]
  · simp [hk]

theorem BuiltInModel.linearKinematics {machine : MachineDescription ℝ} {model : MachineModel ℝ}
    (hm : BuiltInModel machine model) (hk : machine.IsLinear) :
    LinearKinematics model.kinematics model.axisCount ∧ model.kinematics.isLinear = true := by
  cases hm with
  | cartesian => exact ⟨Cartesian.linearKinematics _ _, rfl⟩
  | coreXY _ valid =>
    obtain ⟨h2, hx, -⟩ := CoreXY.validate_eq_ok.mp valid
    exact ⟨CoreXY.linearKinematics ((isPositive_real _).mp hx).ne' _ h2, rfl⟩
  | parallelDelta selected => simp [MachineDescription.IsLinear, selected] at hk

theorem KinematicsCatalog.linearKinematics {catalog : KinematicsCatalog ℝ} {machine : MachineDescription ℝ}
    {model : MachineModel ℝ} (hc : catalog.create machine = .ok model) (hk : machine.IsLinear) :
    LinearKinematics model.kinematics model.axisCount ∧ model.kinematics.isLinear = true :=
  (builtInModel hc hk.not_custom).linearKinematics hk

/-- X and Y on belts, X at twice its scale and with its home switch at a hundred millimetres, and Z. -/
noncomputable def scaledBelts : MachineDescription ℝ :=
  let homing : AxisHoming ℝ := { (default : AxisHoming ℝ) with homePosition := 100.0 }
  { (default : MachineDescription ℝ) with
    kinematics := .coreXY 2.0
    axes := [{ AxisSettings.homedIn "X" 300.0 1 with homing := some homing }, .homedIn "Y" 300.0 2,
      .homedIn "Z" 100.0 3] }

theorem create_scaledBelts : KinematicsCatalog.builtin.create scaledBelts =
    .ok ⟨CoreXY.kinematics 2.0 ⟨[none, none, none]⟩, ⟨3, .none, by decide⟩⟩ := by
  have hp : isPositive (2.0 : ℝ) = true := by norm_num [isPositive]
  have hv : CoreXY.validate (2.0 : ℝ) ⟨[none, none, none]⟩ ⟨3, .none, by decide⟩ = .ok () :=
    CoreXY.validate_eq_ok.mpr ⟨by decide, hp, rfl, rfl⟩
  exact KinematicsCatalog.create_eq_ok.mpr ⟨rfl, rfl, rfl, hv⟩

end MotionControl
