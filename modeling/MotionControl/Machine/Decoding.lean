import MotionControl.Document
import MotionControl.Machine.Description
import MotionControl.Machine.Format
import MotionControl.Scalar.Binary64

/-! Machine descriptions read from documents. Unknown fields are passed over; most known ones
have a default. -/
namespace MotionControl

def DeltaSettings.fieldNames : List String :=
  ["crank_mm", "base_triangle_mm", "arm_mm", "effector_triangle_mm", "max_negative_angle_rad",
    "max_positive_angle_rad", "homing_angle_rad"]

def DeltaSettings.ofFields (fields : Fields) : Option (DeltaSettings Float) := do
  let standard : DeltaSettings Float := default
  let number := fun name default => fields.get name Document.float? (some default)
  return {
    crank := ← number "crank_mm" standard.crank
    baseTriangle := ← number "base_triangle_mm" standard.baseTriangle
    arm := ← number "arm_mm" standard.arm
    effectorTriangle := ← number "effector_triangle_mm" standard.effectorTriangle
    minAngle := ← number "max_negative_angle_rad" standard.minAngle
    maxAngle := ← number "max_positive_angle_rad" standard.maxAngle
    homingAngle := ← number "homing_angle_rad" standard.homingAngle }

/-- A table of numbers; the last one of a name counts. -/
def paramTable? : Document → Option (NameTable Float)
  | .record fields =>
    let entries? := fields.mapM fun (field : String × Document) =>
      field.2.float?.map (field.1, ·)
    entries?.map NameTable.ofList
  | _ => none

namespace KinematicsSettings

/-- The tag that selects the kinematics, and what is left without it. -/
def tagged? : Document → Option (String × Document)
  | .record fields =>
    if fields.countP (·.1 == "type") = 1 then do
      let tag ← (← fields.lookup "type").string?
      return (tag, .record (fields.filter (·.1 != "type")))
    else none
  | .list (.string tag :: rest) => some (tag, .list rest)
  | _ => none

def ofTagged (tag : String) (content : Document) : Option (KinematicsSettings Float) :=
  match tag with
  | "cartesian" => match content with
    | .list (_ :: _) => none
    | _ => some .cartesian
  | "corexy" => do
    let fields ← content.fields? ["x_scaler"] false
    return .coreXY (← fields.get "x_scaler" Document.float? (some 1.0))
  | "parallel_delta" => do
    let fields ← content.fields? DeltaSettings.fieldNames false
    return .parallelDelta (← DeltaSettings.ofFields fields)
  | "custom" => do
    let fields ← content.fields? ["name", "params"] false
    return .custom (← fields.get "name" Document.string? none)
      (← fields.get "params" paramTable? (some ∅))
  | _ => none

/-- Kinematics are read as a whole before their kind is known, so every part must be readable
and within the depth of the format. -/
def ofDocument (format : FileFormat) (document : Document) :
    Option (KinematicsSettings Float) := do
  let (tag, content) ← tagged? document
  if document.isReadable && format.depthLimit.all (document.depth ≤ ·) then
    ofTagged tag content
  else none

end KinematicsSettings

def AxisHoming.ofDocument (format : FileFormat) (document : Document) :
    Option (AxisHoming Float) := do
  let standard : AxisHoming Float := default
  let fields ← document.fields? ["cycle", "allow_single_axis", "positive_direction", "mpos_mm",
    "seek_mm_per_min", "feed_mm_per_min"] format.allowsSurplus
  let cycle ← fields.get "cycle" (Document.nat? UInt8.size) standard.cycle.toNat
  return {
    cycle := UInt8.ofNat cycle
    allowSingleAxis := ← fields.get "allow_single_axis" Document.bool? standard.allowSingleAxis
    positiveDirection := ← fields.get "positive_direction" Document.bool? standard.positiveDirection
    homePosition := ← fields.get "mpos_mm" Document.float? standard.homePosition
    seekRate := ← fields.get "seek_mm_per_min" Document.float? standard.seekRate
    feedRate := ← fields.get "feed_mm_per_min" Document.float? standard.feedRate }

/-- A homing group that may be absent. -/
def homing? (format : FileFormat) : Document → Option (Option (AxisHoming Float))
  | .null => some none
  | document => (AxisHoming.ofDocument format document).map some

def AxisSettings.ofDocument (format : FileFormat) (document : Document) :
    Option (AxisSettings Float) := do
  let fields ← document.fields? ["name", "max_travel_mm", "soft_limits", "ganged", "homing"]
    format.allowsSurplus
  return {
    name := ← fields.get "name" Document.string? none
    maxTravel := ← fields.get "max_travel_mm" Document.float? none
    softLimits := ← fields.get "soft_limits" Document.bool? (some false)
    ganged := ← fields.get "ganged" Document.bool? (some false)
    homing := ← fields.get "homing" (homing? format) (some none) }

def MotionSettings.ofDocument (format : FileFormat) (document : Document) :
    Option (MotionSettings Float) := do
  let standard : MotionSettings Float := default
  let fields ← document.fields? ["segment_tolerance_mm", "max_segment_depth", "arc_tolerance_mm"]
    format.allowsSurplus
  let depth ← fields.get "max_segment_depth" (Document.nat? UInt32.size)
    standard.maxSegmentDepth.toNat
  return {
    segmentTolerance :=
      ← fields.get "segment_tolerance_mm" Document.float? standard.segmentTolerance
    maxSegmentDepth := UInt32.ofNat depth
    arcTolerance := ← fields.get "arc_tolerance_mm" Document.float? standard.arcTolerance }

/-- The axes in order. -/
def axes? (format : FileFormat) : Document → Option (List (AxisSettings Float))
  | .list items => items.mapM (AxisSettings.ofDocument format)
  | _ => none

def MachineDescription.ofDocument (format : FileFormat) (document : Document) :
    Option (MachineDescription Float) := do
  let fields ← document.fields? ["name", "kinematics", "axes", "motion"] format.allowsSurplus
  return {
    name := ← fields.get "name" Document.string? (some defaultName)
    kinematics := ← fields.get "kinematics" (KinematicsSettings.ofDocument format) (some .cartesian)
    axes := ← fields.get "axes" (axes? format) none
    motion := ← fields.get "motion" (MotionSettings.ofDocument format) (some default) }

end MotionControl
