import MotionControl.Axes.Layout
import MotionControl.NameTable
import MotionControl.Scalar

/-! The description of a machine: its kinematics, axes and motion tolerances. -/
namespace MotionControl
open Scalar

/-- The deepest subdivision of a line. -/
def maxSegmentDepth : UInt32 := 20

/-- The highest homing cycle number. -/
def maxHomingCycle : UInt8 := 9

/-- Geometry of the rotary delta, lengths in millimetres and angles in radians. -/
structure DeltaSettings (α : Type) where
  crank : α
  baseTriangle : α
  arm : α
  effectorTriangle : α
  minAngle : α
  maxAngle : α
  homingAngle : α
  deriving DecidableEq, Repr, BEq

/-- The kinematics of a machine and its parameters. -/
inductive KinematicsSettings (α : Type) where
  | cartesian
  /-- Belt-mixed X and Y, with a scale on X. -/
  | coreXY (xScaler : α)
  | parallelDelta (geometry : DeltaSettings α)
  /-- Kinematics registered under a name. -/
  | custom (name : String) (params : NameTable α)
  deriving BEq

/-- How an axis is homed. -/
structure AxisHoming (α : Type) where
  /-- The cycle of the full run, zero to stay out of it. -/
  cycle : UInt8
  allowSingleAxis : Bool
  positiveDirection : Bool
  /-- The machine position at the home switch. -/
  homePosition : α
  seekRate : α
  feedRate : α
  deriving DecidableEq, Repr, BEq

structure AxisSettings (α : Type) where
  name : String
  maxTravel : α
  softLimits : Bool
  ganged : Bool
  homing : Option (AxisHoming α)
  deriving DecidableEq, Repr, BEq

structure MotionSettings (α : Type) where
  segmentTolerance : α
  maxSegmentDepth : UInt32
  arcTolerance : α
  deriving DecidableEq, Repr, BEq

structure MachineDescription (α : Type) where
  name : String
  kinematics : KinematicsSettings α
  axes : List (AxisSettings α)
  motion : MotionSettings α
  deriving BEq

variable {α : Type} [Scalar α]

namespace DeltaSettings

instance : Inhabited (DeltaSettings α) :=
  ⟨⟨70.0, 179.437, 133.5, 86.603, -0.75, 1.57, -0.75⟩⟩

end DeltaSettings

namespace KinematicsSettings

omit [Scalar α] in
/-- The name that the kinematics are found under. -/
def name : KinematicsSettings α → String
  | cartesian => "cartesian"
  | coreXY _ => "corexy"
  | parallelDelta _ => "parallel_delta"
  | custom name _ => name

end KinematicsSettings

instance : Inhabited (AxisHoming α) := ⟨⟨1, true, true, 0.0, 200.0, 50.0⟩⟩

namespace AxisSettings

/-- An axis homed in a cycle. -/
def homedIn (name : String) (maxTravel : α) (cycle : UInt8) : AxisSettings α :=
  ⟨name, maxTravel, false, false, some { (default : AxisHoming α) with cycle }⟩

/-- The machine positions covered by the travel of the axis. The home switch is at one end. -/
def travelRange (axis : AxisSettings α) : α × α :=
  match axis.homing with
  | some homing =>
    if homing.positiveDirection then (homing.homePosition - axis.maxTravel, homing.homePosition)
    else (homing.homePosition, homing.homePosition + axis.maxTravel)
  | none => (-axis.maxTravel, 0.0)

end AxisSettings

instance : Inhabited (MotionSettings α) := ⟨⟨0.01, 12, 0.002⟩⟩

namespace MachineDescription

def defaultName : String := "MotionKit"

instance : Inhabited (MachineDescription α) where
  default := ⟨defaultName, .cartesian, [.homedIn "X" 300.0 2, .homedIn "Y" 300.0 2,
    .homedIn "Z" 100.0 1], default⟩

omit [Scalar α] in
def axisCount (m : MachineDescription α) : Nat := m.axes.length

omit [Scalar α] in
/-- The axes that satisfy a condition. -/
def axesWhere (m : MachineDescription α) (p : AxisSettings α → Bool) : AxisMask :=
  .ofList ((m.axes.zipIdx.filter fun a => p a.1).map (·.2))

omit [Scalar α] in
def layout (m : MachineDescription α) : Checked AxisLayout :=
  AxisLayout.new m.axisCount (m.axesWhere (·.ganged))

omit [Scalar α] in
/-- The axes that have a home switch. -/
def homingAxes (m : MachineDescription α) : AxisMask := m.axesWhere (·.homing.isSome)

/-- The travel range of every axis that enforces it. -/
def softLimits (m : MachineDescription α) : List (Option (α × α)) :=
  m.axes.map fun axis => if axis.softLimits then some axis.travelRange else none

end MachineDescription

end MotionControl
