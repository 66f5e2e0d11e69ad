import MotionControl.Proofs.Kinematics.Workspaces
import MotionControl.Proofs.Machine.Models
import MotionControl.Proofs.Scalar.Real

/-! How many values the built-in transforms give. A motor position has a value for each value of the position
it is for, and a position has as many values as it is asked for. -/
namespace MotionControl
variable {α : Type} [Scalar α]

/-- Transforms that give as many values as they take. -/
structure KeepsLength (k : Kinematics α) : Prop where
  init : ∀ channels, (k.initPosition channels).length = channels
  inverse : ∀ {p motors}, k.inverse p = .ok motors → motors.length = p.length
  homed : ∀ {axes current home motors}, k.homedPosition axes current home = .ok motors →
    motors.length = current.length

/-- The motor position at home switches by way of the axes, their other coordinates as they are. -/
def Kinematics.poseByAxes (k : Kinematics α) (axes : AxisMask) (current : MotorPosition α)
    (home : AxisPosition α) : Outcome KinematicsError (MotorPosition α) := do
  let position ← Checked.lift (k.forward current current.length)
  k.inverse ⟨position.values.mapIdx fun axis value =>
    if axis < maxAxes && axes.contains axis then home.axis axis else value⟩

theorem Kinematics.length_of_poseByAxes {k : Kinematics α} {axes : AxisMask}
    {current motors : MotorPosition α} {home : AxisPosition α}
    (hf : ∀ {p}, k.forward current current.length = .ok p → p.length = current.length)
    (hi : ∀ {p motors}, k.inverse p = .ok motors → motors.length = p.length)
    (h : k.poseByAxes axes current home = .ok motors) : motors.length = current.length := by
  obtain ⟨position, hp, h⟩ := Outcome.bind_eq_ok.mp h
  rw [hi h, AxisPosition.length, List.length_mapIdx]
  exact hf (Outcome.lift_eq_ok.mp hp)

theorem Coordinates.length_resize (values : List α) (length : Nat) : (resize values length).length = length := by
  simp [resize]
  omega

theorem Coordinates.resize_self (values : List α) : resize values values.length = values := by
  simp [resize]

theorem AxisPosition.eq_of_new {values : List α} {p : AxisPosition α} (h : AxisPosition.new values = .ok p) :
    p = ⟨values⟩ := by
  rw [AxisPosition.new] at h
  split at h
  · exact (Except.ok.inj h).symm
  · cases h

theorem AxisPosition.length_of_values {x : Checked (AxisPosition α)} {axisCount : Nat} {p : AxisPosition α}
    (hx : ∃ values, values.length = axisCount ∧ x = AxisPosition.new values) (h : x = .ok p) :
    p.length = axisCount := by
  obtain ⟨values, hl, rfl⟩ := hx
  rw [AxisPosition.eq_of_new h]
  exact hl

theorem MotorPosition.length_zeros (channels : Nat) : (zeros channels : MotorPosition α).length = channels := by
  simp [zeros, length]

namespace Cartesian

omit [Scalar α] in
theorem length_of_inverse {p : AxisPosition α} {motors : MotorPosition α} (h : inverse p = .ok motors) :
    motors.length = p.length := by
  cases h
  rfl

/-- The values of a position are computed first and only then looked at, whether they are finite. -/
theorem exists_values (motors : MotorPosition α) (axisCount : Nat) :
    ∃ values, values.length = axisCount ∧ forward motors axisCount = AxisPosition.new values :=
  ⟨_, Coordinates.length_resize .., rfl⟩

theorem length_of_forward {motors : MotorPosition α} {axisCount : Nat} {p : AxisPosition α}
    (h : forward motors axisCount = .ok p) : p.length = axisCount :=
  AxisPosition.length_of_values (exists_values motors axisCount) h

theorem keepsLength (limits : SoftLimits α) : KeepsLength (kinematics limits) where
  init := MotorPosition.length_zeros
  inverse := length_of_inverse
  homed h := (kinematics limits).length_of_poseByAxes length_of_forward length_of_inverse h

end Cartesian

namespace CoreXY
variable {xScaler : α}

theorem length_of_inverse {p : AxisPosition α} {motors : MotorPosition α} (h : inverse xScaler p = .ok motors) :
    motors.length = p.length := by
  rw [inverse] at h
  split at h
  · rename_i x y rest hp
    cases h
    simp [MotorPosition.length, AxisPosition.length, hp]
  · cases h

theorem exists_values (xScaler : α) (motors : MotorPosition α) (axisCount : Nat) :
    ∃ values, values.length = axisCount ∧ forward xScaler motors axisCount = AxisPosition.new values := by
  refine ⟨_, ?_, rfl⟩
  have hl := Coordinates.length_resize motors.values (max axisCount 2)
  rw [List.length_take]
  split
  · rename_i a b rest hr
    rw [hr] at hl
    simp at hl ⊢
    omega
  · rw [hl]
    omega

theorem length_of_forward {motors : MotorPosition α} {axisCount : Nat} {p : AxisPosition α}
    (h : forward xScaler motors axisCount = .ok p) : p.length = axisCount :=
  AxisPosition.length_of_values (exists_values xScaler motors axisCount) h

theorem exists_inverse (xScaler : α) {p : AxisPosition α} (h : 2 ≤ p.length) :
    ∃ motors, inverse xScaler p = .ok motors := by
  obtain ⟨values⟩ := p
  match values, h with
  | _ :: _ :: _, _ => exact ⟨_, rfl⟩

theorem keepsLength (xScaler : α) (limits : SoftLimits α) : KeepsLength (kinematics xScaler limits) where
  init := MotorPosition.length_zeros
  inverse := length_of_inverse
  homed h := (kinematics xScaler limits).length_of_poseByAxes length_of_forward length_of_inverse h

end CoreXY

theorem RotaryDelta.exists_values (g : DeltaSettings α) (motors : MotorPosition α) (axisCount : Nat) :
    ∃ values, values.length = axisCount ∧ forward g motors axisCount = AxisPosition.new values := by
  refine ⟨_, ?_, rfl⟩
  have hl := Coordinates.length_resize motors.values (max axisCount armCount)
  rw [List.length_take]
  split
  · rename_i θ1 θ2 θ3 rest hr
    rw [hr] at hl
    simp at hl ⊢
    omega
  · rw [hl]
    omega

theorem RotaryDelta.length_of_forward {g : DeltaSettings α} {motors : MotorPosition α} {axisCount : Nat}
    {p : AxisPosition α} (h : forward g motors axisCount = .ok p) : p.length = axisCount :=
  AxisPosition.length_of_values (exists_values g motors axisCount) h

theorem RotaryDelta.keepsLength (g : DeltaSettings α) : KeepsLength (kinematics g) where
  init := MotorPosition.length_zeros
  inverse h := by
    obtain ⟨x, y, z, θ1, θ2, θ3, rest, rfl, rfl, -⟩ := armAngles_of_inverse h
    rfl
  homed h := by
    cases h
    exact List.length_mapIdx

theorem KinematicsCatalog.keepsLength {catalog : KinematicsCatalog α} {machine : MachineDescription α}
    {model : MachineModel α} (hc : catalog.create machine = .ok model)
    (hb : ∀ name params, machine.kinematics ≠ .custom name params) : KeepsLength model.kinematics := by
  cases builtInModel hc hb with
  | cartesian => exact Cartesian.keepsLength _
  | coreXY => exact CoreXY.keepsLength _ _
  | parallelDelta => exact RotaryDelta.keepsLength _

namespace KinematicsCatalog
variable {catalog : KinematicsCatalog α} {machine : MachineDescription α} {model : MachineModel α}

theorem exists_values (hc : catalog.create machine = .ok model)
    (hb : ∀ name params, machine.kinematics ≠ .custom name params) (motors : MotorPosition α) (axisCount : Nat) :
    ∃ values, values.length = axisCount ∧ model.forward motors axisCount = AxisPosition.new values := by
  cases builtInModel hc hb with
  | cartesian => exact Cartesian.exists_values motors axisCount
  | coreXY => exact CoreXY.exists_values _ motors axisCount
  | parallelDelta => exact RotaryDelta.exists_values _ motors axisCount

theorem length_of_forward (hc : catalog.create machine = .ok model)
    (hb : ∀ name params, machine.kinematics ≠ .custom name params) {motors : MotorPosition α} {axisCount : Nat}
    {p : AxisPosition α} (h : model.forward motors axisCount = .ok p) : p.length = axisCount :=
  AxisPosition.length_of_values (exists_values hc hb motors axisCount) h

/-- Over exact numbers, a position can be found for any motors. -/
theorem exists_forward {catalog : KinematicsCatalog ℝ} {machine : MachineDescription ℝ} {model : MachineModel ℝ}
    (hc : catalog.create machine = .ok model) (hb : ∀ name params, machine.kinematics ≠ .custom name params)
    (motors : MotorPosition ℝ) (axisCount : Nat) : ∃ p, model.forward motors axisCount = .ok p := by
  obtain ⟨values, -, h⟩ := exists_values hc hb motors axisCount
  exact ⟨⟨values⟩, h.trans (AxisPosition.new_real values)⟩

end KinematicsCatalog

end MotionControl
