import MotionControl.Kinematics.Model
import MotionControl.Machine.Description

/-! Subdivision of lines. Where the inverse transform is not linear, the motor chord of a line
strays from it, and the line is bisected until every chord stays within the tolerance at its
quarter points. -/
namespace MotionControl
open Scalar

/-- A waypoint in motor space. -/
structure MotorSegment (α : Type) where
  target : AxisPosition α
  motors : MotorPosition α
  /-- Feed rate in motor units a minute. -/
  feedRate : α

/-- A tolerance and the deepest subdivision. -/
structure Subdivision (α : Type) where
  tolerance : α
  maxDepth : UInt32

/-- A point of a line with its motor position. -/
structure Waypoint (α : Type) where
  target : AxisPosition α
  motors : MotorPosition α

namespace Subdivision
variable {α : Type} [Scalar α]

/-- Moves shorter than this are dropped. -/
def minMoveLength : α := 1e-9

/-- Where a chord is compared with the line. -/
def chordSamples : List α := [0.25, 0.5, 0.75]

def new (tolerance : α) (maxDepth : UInt32) : Except ConfigurationError (Subdivision α) :=
  if !isPositive tolerance then
    .error (.invalidTolerance "segment_tolerance_mm" (text tolerance))
  else if maxDepth = 0 ∨ maxSegmentDepth < maxDepth then
    .error (.invalidTolerance "max_segment_depth" (toString maxDepth))
  else .ok ⟨tolerance, maxDepth⟩

def ofSettings (motion : MotionSettings α) : Except ConfigurationError (Subdivision α) :=
  new motion.segmentTolerance motion.maxSegmentDepth

/-- How far the motor chord strays from the line between two waypoints. -/
def chordDeviation (model : MachineModel α) (start stop : Waypoint α) : Checked α :=
  chordSamples.foldlM (fun worst t => do
    let point ← model.forward (start.motors.lerp stop.motors t) start.target.length
    return larger worst (point.distanceToSegment start.target stop.target)) 0.0

/-- The waypoints after `start` up to `stop`, the line bisected at most `depth` times. -/
def split (s : Subdivision α) (model : MachineModel α) :
    Nat → Waypoint α → Waypoint α → Outcome KinematicsError (List (Waypoint α))
  | 0, start, stop => do
    let _ ← Checked.lift (chordDeviation model start stop)
    return [stop]
  | depth + 1, start, stop => do
    let deviation ← Checked.lift (chordDeviation model start stop)
    if deviation ≤ s.tolerance then return [stop]
    else
      let target := start.target.lerp stop.target 0.5
      let middle := ⟨target, ← model.inverse target⟩
      let first ← split s model depth start middle
      return first ++ (← split s model depth middle stop)

/-- Waypoints with the feed rate that keeps the commanded speed along the line. -/
def withFeed (feedRate : α) : Waypoint α → List (Waypoint α) → List (MotorSegment α)
  | _, [] => []
  | previous, w :: rest =>
    let length := previous.target.distance w.target
    let feed := if 0.0 < length then feedRate * previous.motors.distance w.motors / length
      else feedRate
    ⟨w.target, w.motors, feed⟩ :: withFeed feedRate w rest

/-- The waypoints of a move. Linear kinematics go straight to the target. -/
def waypoints (s : Subdivision α) (model : MachineModel α) (start stop : Waypoint α) :
    Outcome KinematicsError (List (Waypoint α)) :=
  if model.kinematics.isLinear then .ok [stop] else s.split model s.maxDepth.toNat start stop

/-- The motor segments of a move, which end at its target. -/
def segment (s : Subdivision α) (model : MachineModel α) (start : AxisPosition α)
    (move : Move α) : Outcome KinematicsError (List (MotorSegment α)) := do
  let first := ⟨start, ← model.inverse start⟩
  let last := ⟨move.target, ← model.inverse move.target⟩
  if start.distance move.target < minMoveLength then return []
  else return withFeed move.feedRate first (← s.waypoints model first last)

end Subdivision

end MotionControl
