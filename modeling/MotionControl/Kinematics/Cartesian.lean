import MotionControl.Kinematics.SoftLimits
import MotionControl.Kinematics.Model

/-! Cartesian kinematics: every motor channel drives its own axis. -/
namespace MotionControl.Cartesian
variable {α : Type} [Scalar α]

def inverse (target : AxisPosition α) : Outcome KinematicsError (MotorPosition α) :=
  .ok ⟨target.values⟩

def forward (motors : MotorPosition α) (axisCount : Nat) : Checked (AxisPosition α) :=
  AxisPosition.new (Coordinates.resize motors.values axisCount)

def kinematics (limits : SoftLimits α) : Kinematics α where
  name := "cartesian"
  validate := limits.validate
  inverse := inverse
  forward := forward
  constrainJog := limits.clipJog
  invalidLine target := !limits.contains target
  canHome _ := true
  isLinear := true

end MotionControl.Cartesian
