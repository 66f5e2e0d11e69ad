import MotionControl.Machine.Description
import MotionControl.Machine.Path
import MotionControl.Whitespace

/-! The value ranges of a machine description, and the errors of reading and writing one. -/
namespace MotionControl
open Scalar

/-- A value that a machine description must not have. -/
inductive RangeError where
  | missingKey (key : String)
  | unsupportedFormat (path : String)
  | valueOutOfRange (key value : String)
  | unsupportedPlatform (platform : String)
  deriving DecidableEq, Repr

def RangeError.message : RangeError → String
  | missingKey key => s!"Missing configuration key: {key}"
  | unsupportedFormat path => s!"Unsupported machine description format: {path}"
  | valueOutOfRange key value => s!"Value out of range for '{key}': {value}"
  | unsupportedPlatform platform => s!"Unsupported platform: {platform}"

/-- Why a machine description cannot be loaded or saved. -/
inductive SettingsError where
  | read (path : String) (problem : FileProblem)
  | write (path : String) (problem : FileProblem)
  | invalidSetting (key reason : String)
  | json
  | toml
  | tomlWriting
  | range (error : RangeError)
  deriving DecidableEq, Repr

namespace SettingsError

def message : SettingsError → String
  | read path problem => s!"Failed to read machine description {path}: {problem.message}"
  | write path problem => s!"Failed to write machine description {path}: {problem.message}"
  | invalidSetting key reason => s!"Invalid setting '{key}': {reason}"
  | json => "JSON error"
  | toml | tomlWriting => "TOML error"
  | range error => s!"Config error: {error.message}"

/-- Whether the description does not exist. -/
def isNotFound : SettingsError → Bool
  | read _ .notFound => true
  | _ => false

def outOfRange (key value : String) : SettingsError := range (.valueOutOfRange key value)

end SettingsError

variable {α : Type} [Scalar α]

/-- Letters in either case are the same name. -/
def sameLetters (a b : String) : Bool := a.toList.map Char.toLower == b.toList.map Char.toLower

/-- The first value of an axis that is out of range. -/
def AxisSettings.validate (axis : AxisSettings α) (index : Nat) : Except SettingsError Unit :=
  let letter := (axisName index).toString
  if !sameLetters axis.name letter then
    .error (.invalidSetting s!"axes[{index}].name" s!"expected {letter}, found '{axis.name}'")
  else if !isPositive axis.maxTravel then
    .error (.outOfRange s!"axes.{letter}.max_travel_mm" (text axis.maxTravel))
  else match axis.homing with
    | none => .ok ()
    | some homing =>
      if maxHomingCycle < homing.cycle then
        .error (.outOfRange s!"axes.{letter}.homing.cycle" (toString homing.cycle))
      else if homing.seekRate ≤ 0.0 ∨ homing.feedRate ≤ 0.0 then
        .error (.invalidSetting s!"axes.{letter}.homing" "homing rates must be > 0")
      else .ok ()

/-- The first tolerance that is out of range. -/
def MotionSettings.validate (motion : MotionSettings α) : Except SettingsError Unit :=
  if !isPositive motion.segmentTolerance then
    .error (.outOfRange "motion.segment_tolerance_mm" (text motion.segmentTolerance))
  else if !isPositive motion.arcTolerance then
    .error (.outOfRange "motion.arc_tolerance_mm" (text motion.arcTolerance))
  else if motion.maxSegmentDepth = 0 ∨ MotionControl.maxSegmentDepth < motion.maxSegmentDepth then
    .error (.outOfRange "motion.max_segment_depth" (toString motion.maxSegmentDepth))
  else .ok ()

omit [Scalar α] in
/-- Custom kinematics have a name. -/
def KinematicsSettings.validate : KinematicsSettings α → Except SettingsError Unit
  | custom name _ =>
    if (trimmed name.toList).isEmpty then .error (.range (.missingKey "kinematics.name"))
    else .ok ()
  | _ => .ok ()

/-- The first value of a machine that is out of range: of the axes in order, of the motion
tolerances, of the kinematics. -/
def MachineDescription.validate (m : MachineDescription α) : Except SettingsError Unit := do
  if m.axes.isEmpty ∨ maxAxes < m.axes.length then
    throw (.outOfRange "axes" (toString m.axes.length))
  m.axes.zipIdx.forM fun (axis, index) => axis.validate index
  m.motion.validate
  m.kinematics.validate

end MotionControl
