import MotionControl.Kinematics.Model
import MotionControl.NameTable

/-! Kinematics that a machine description selects by a registered name and a table of numbers. -/
namespace MotionControl.Plugins
open Scalar
variable {α : Type} [Scalar α]

/-- Every channel is the axis value times a factor. -/
def scaled (factor : α) : Kinematics α where
  name := "scaled"
  inverse target := .ok ⟨target.values.map (· * factor)⟩
  forward motors _ := AxisPosition.new (motors.values.map (· / factor))

def identity (name : String) : Kinematics α where
  name := name
  inverse target := .ok ⟨target.values⟩
  forward motors _ := AxisPosition.new motors.values

def passthrough : Kinematics α := identity "passthrough"

/-- Encoders that know every axis position, so that homing needs no motion. -/
def absoluteEncoders : Kinematics α :=
  { identity "absolute_encoders" with
    canHome := fun _ => true
    homesItself := fun _ => true }

/-- X bent by the square of Y, within a limit on Y. -/
def bent (k limit : α) : Kinematics α where
  name := "bent"
  validate layout :=
    if layout.axisCount < 2 then .error (.tooFewAxes "bent" 2 layout.axisCount) else .ok ()
  inverse target :=
    if limit < Scalar.abs (target.axis 1) then
      refuse (.infeasible "bent" target.text "beyond limit")
    else match target.values with
      | x :: y :: rest => .ok ⟨(x + k * y * y) :: y :: rest⟩
      | [x] => .ok ⟨[x]⟩
      | [] => .error (.fault .missingAxis)
  forward motors _ := match motors.values with
    | x :: y :: rest => AxisPosition.new ((x - k * y * y) :: y :: rest)
    | _ => .error .missingAxis
  canHome _ := true

abbrev Constructor (α : Type) [Scalar α] :=
  NameTable α → Except ConfigurationError (Kinematics α)

/-- The constructor that a name stands for. -/
def constructor (name : String) : Constructor α := fun params =>
  let param name standard := (params.find? name).getD standard
  match name with
  | "scaled" =>
    let factor := param "factor" 1.0
    if factor ≤ 0.0 ∧ 0.0 ≤ factor then
      .error (.invalidGeometry "factor" "must not be zero")
    else .ok (scaled factor)
  | "absolute_encoders" => .ok absoluteEncoders
  | "bent" => .ok (bent (param "k" 0.01) (param "limit" 1e9))
  | _ => .ok passthrough

end MotionControl.Plugins
