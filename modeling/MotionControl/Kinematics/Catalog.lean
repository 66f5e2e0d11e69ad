import MotionControl.Kinematics.Cartesian
import MotionControl.Kinematics.CoreXY
import MotionControl.Kinematics.RotaryDelta
import MotionControl.Kinematics.Plugins
import MotionControl.Quoted

/-! The kinematics that machine descriptions can select. -/
namespace MotionControl
open Plugins (Constructor)

/-- Kinematics registered by name, beside the built-in ones. -/
structure KinematicsCatalog (α : Type) [Scalar α] where
  custom : NameTable (Constructor α)

namespace KinematicsCatalog
variable {α : Type} [Scalar α]

def builtinNames : List String := ["cartesian", "corexy", "parallel_delta"]

/-- Only the built-in kinematics. -/
def builtin : KinematicsCatalog α := ⟨∅⟩

/-- One more kinematics, in place of any registered under the same name. -/
def register (c : KinematicsCatalog α) (name : String) (make : Constructor α) :
    KinematicsCatalog α :=
  ⟨c.custom.insert name make⟩

def contains (c : KinematicsCatalog α) (name : String) : Bool := c.custom.contains name

def names (c : KinematicsCatalog α) : List String := builtinNames ++ c.custom.names

/-- The kinematics of a machine, before they are checked against its axes. -/
def select (c : KinematicsCatalog α) (machine : MachineDescription α) :
    Except ConfigurationError (Kinematics α) :=
  match machine.kinematics with
  | .cartesian => .ok (Cartesian.kinematics ⟨machine.softLimits⟩)
  | .coreXY xScaler => .ok (CoreXY.kinematics xScaler ⟨machine.softLimits⟩)
  | .parallelDelta geometry => .ok (RotaryDelta.kinematics geometry)
  | .custom name params =>
    match c.custom.find? name with
    | some make => make params
    | none => .error (.unknownKinematics name)

/-- The kinematic model of a machine, its geometry checked. -/
def create (c : KinematicsCatalog α) (machine : MachineDescription α) :
    Except ConfigurationError (MachineModel α) :=
  if machine.axes.isEmpty then .error (.invalidAxes "no axes configured")
  else match machine.layout with
    | .error _ => .error (.invalidAxes
        s!"{machine.axisCount} axes configured, at most {maxAxes} supported")
    | .ok layout => do
      let kinematics ← c.select machine
      kinematics.validate layout
      return ⟨kinematics, layout⟩

/-- The names of the registered kinematics, for diagnosis. -/
def describe (c : KinematicsCatalog α) : String :=
  let names := c.custom.names.map Quoted.text
  "KinematicsRegistry \x7b custom: [" ++ ", ".intercalate names ++ "] \x7d"

end KinematicsCatalog

end MotionControl
