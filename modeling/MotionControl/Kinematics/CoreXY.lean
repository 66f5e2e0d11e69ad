import MotionControl.Kinematics.SoftLimits
import MotionControl.Kinematics.Model

/-! CoreXY kinematics. Two belts move X and Y together: their motors stand at the sum and the
difference of scaled X and Y. Each of the two axes has a switch of its own, and both belts run
until both are satisfied. -/
namespace MotionControl.CoreXY
open Scalar

/-- The axes that hang on the belts. -/
def beltAxes : AxisMask := ⟨0b11⟩

/-- A tripped motor of X or Y satisfies that axis at once; the belts stop when none is left. -/
def limitReached (axes : AxisMask) (motors limited : MotorMask) : LimitOutcome :=
  let belts := motors.onAxes beltAxes
  let others := LimitOutcome.requireAll (axes - beltAxes) (motors - belts) limited
  let pendingBelts := (axes &&& beltAxes) - (limited &&& belts).axes
  let belts := if pendingBelts.isEmpty then .none else belts
  let pending := others.axes ||| pendingBelts
  ⟨pending, others.motors ||| belts, axes - pending, pending.isEmpty⟩

/-- Either belt axis stands for both. -/
def coupled (axes : AxisMask) : AxisMask :=
  if axes.intersects beltAxes then axes ||| beltAxes else axes

variable {α : Type} [Scalar α]

def validate (xScaler : α) (limits : SoftLimits α) (layout : AxisLayout) :
    Except ConfigurationError Unit :=
  if layout.axisCount < 2 then .error (.tooFewAxes "corexy" 2 layout.axisCount)
  else if !isPositive xScaler then .error (.invalidGeometry "x_scaler" "must be > 0")
  else if layout.ganged.intersects beltAxes then
    .error (.invalidAxes "CoreXY belt axes cannot be ganged")
  else limits.validate layout

def inverse (xScaler : α) (target : AxisPosition α) : Outcome KinematicsError (MotorPosition α) :=
  match target.values with
  | x :: y :: rest =>
    let x := x * xScaler
    .ok ⟨(x + y) :: (x - y) :: rest⟩
  | _ => refuse (.axisCountMismatch 2 target.length)

def forward (xScaler : α) (motors : MotorPosition α) (axisCount : Nat) : Checked (AxisPosition α) :=
  let values := match Coordinates.resize motors.values (max axisCount 2) with
    | a :: b :: rest => (a + b) / (2.0 * xScaler) :: (a - b) / 2.0 :: rest
    | values => values
  AxisPosition.new (values.take axisCount)

def kinematics (xScaler : α) (limits : SoftLimits α) : Kinematics α where
  name := "corexy"
  validate := validate xScaler limits
  inverse := inverse xScaler
  forward := forward xScaler
  constrainJog := limits.clipJog
  invalidLine target := !limits.contains target
  canHome _ := true
  homingMotors axes layout := layout.motorsFor (coupled axes)
  releaseMotors axes motors := motors.onAxes (coupled axes)
  limitReached := limitReached
  isLinear := true

end MotionControl.CoreXY
