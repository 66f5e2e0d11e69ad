import MotionControl.Document
import MotionControl.Machine.Description

/-! Machine descriptions written as documents, with every field in order. -/
namespace MotionControl

def KinematicsSettings.fields : KinematicsSettings Float → List (String × Document)
  | cartesian => []
  | coreXY xScaler => [("x_scaler", .float xScaler)]
  | parallelDelta g =>
    [("crank_mm", .float g.crank), ("base_triangle_mm", .float g.baseTriangle),
      ("arm_mm", .float g.arm), ("effector_triangle_mm", .float g.effectorTriangle),
      ("max_negative_angle_rad", .float g.minAngle), ("max_positive_angle_rad", .float g.maxAngle),
      ("homing_angle_rad", .float g.homingAngle)]
  | custom name params =>
    [("name", .string name), ("params", .record (params.toList.map fun (n, x) => (n, .float x)))]

def KinematicsSettings.tag {α : Type} : KinematicsSettings α → String
  | cartesian => "cartesian"
  | coreXY _ => "corexy"
  | parallelDelta _ => "parallel_delta"
  | custom _ _ => "custom"

def KinematicsSettings.toDocument (k : KinematicsSettings Float) : Document :=
  .record (("type", .string k.tag) :: k.fields)

def AxisHoming.toDocument (h : AxisHoming Float) : Document :=
  .record [("cycle", .integer h.cycle.toNat), ("allow_single_axis", .bool h.allowSingleAxis),
    ("positive_direction", .bool h.positiveDirection), ("mpos_mm", .float h.homePosition),
    ("seek_mm_per_min", .float h.seekRate), ("feed_mm_per_min", .float h.feedRate)]

def AxisSettings.toDocument (a : AxisSettings Float) : Document :=
  .record [("name", .string a.name), ("max_travel_mm", .float a.maxTravel),
    ("soft_limits", .bool a.softLimits), ("ganged", .bool a.ganged),
    ("homing", (a.homing.map AxisHoming.toDocument).getD .null)]

def MotionSettings.toDocument (m : MotionSettings Float) : Document :=
  .record [("segment_tolerance_mm", .float m.segmentTolerance),
    ("max_segment_depth", .integer m.maxSegmentDepth.toNat),
    ("arc_tolerance_mm", .float m.arcTolerance)]

def MachineDescription.fields (m : MachineDescription Float) : List (String × Document) :=
  [("name", .string m.name), ("kinematics", m.kinematics.toDocument),
    ("axes", .list (m.axes.map AxisSettings.toDocument)), ("motion", m.motion.toDocument)]

def MachineDescription.toDocument (m : MachineDescription Float) : Document := .record m.fields

end MotionControl
