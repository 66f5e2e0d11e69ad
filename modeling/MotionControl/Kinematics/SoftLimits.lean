import MotionControl.Axes.Layout
import MotionControl.Move

/-! Travel ranges enforced on lines and jogs. -/
namespace MotionControl
open Scalar

/-- A range of machine positions for every axis that has one. -/
structure SoftLimits (α : Type) where
  ranges : List (Option (α × α))
  deriving BEq

namespace SoftLimits

def none {α : Type} : SoftLimits α := ⟨[]⟩

def isEnabled {α : Type} (s : SoftLimits α) : Bool := s.ranges.any Option.isSome

/-- The axes with a range, and the range. -/
def limits {α : Type} (s : SoftLimits α) : List (Nat × α × α) :=
  s.ranges.zipIdx.filterMap fun (range, axis) => range.map (axis, ·)

variable {α : Type} [Scalar α]

/-- Ranges are finite, not empty, and of axes that the machine has. -/
def validate (s : SoftLimits α) (layout : AxisLayout) : Except ConfigurationError Unit :=
  if layout.axisCount < s.ranges.length then
    .error (.invalidAxes
      s!"{s.ranges.length} soft limit ranges for {layout.axisCount} axes")
  else
    match s.limits.find? fun (_, low, high) =>
        !(isFinite low && isFinite high && decide (low < high)) with
    | some (axis, _) => .error (.invalidAxes s!"soft limit range of {axisName axis} is empty")
    | Option.none => .ok ()

/-- Whether the position lies in every range. -/
def contains (s : SoftLimits α) (p : AxisPosition α) : Bool :=
  s.limits.all fun (axis, low, high) => decide (low ≤ p.axis axis) && decide (p.axis axis ≤ high)

/-- The part of the way from one value to another up to the end of a range in its direction. -/
def fraction (low high start target : α) (scale : α) : α :=
  let delta := target - start
  if 0.0 < delta ∧ high < start + delta then
    smaller scale (larger ((high - start) / delta) 0.0)
  else if delta < 0.0 ∧ start + delta < low then
    smaller scale (larger ((low - start) / delta) 0.0)
  else scale

/-- The part of a jog before the first end of a range that it crosses. -/
def scale (s : SoftLimits α) (current target : AxisPosition α) : α :=
  s.limits.foldl (fun scale (axis, low, high) =>
    fraction low high (current.axis axis) (target.axis axis) scale) 1.0

/-- Values moved into the ranges of their axes. -/
def confineAll : List (Option (α × α)) → List α → Checked (List α)
  | some (low, high) :: ranges, value :: values => do
    let value ← Coordinates.clamp low high value
    return value :: (← confineAll ranges values)
  | Option.none :: ranges, value :: values => do return value :: (← confineAll ranges values)
  | _, values => .ok values

/-- A jog shortened so that it stops at the first end of a range. -/
def clipJog (s : SoftLimits α) (move : Move α) (current : AxisPosition α) :
    Checked (Move α) :=
  if s.contains move.target then .ok move
  else do
    let clipped := current.lerp move.target (s.scale current move.target)
    let values ← confineAll s.ranges clipped.values
    return { move with target := ⟨values⟩ }

end SoftLimits

end MotionControl
