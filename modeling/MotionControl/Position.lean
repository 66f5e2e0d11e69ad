import MotionControl.Axes.AxisMask
import MotionControl.Scalar

/-! Positions in axis space and in motor space. -/
namespace MotionControl
open Scalar
variable {α : Type} [Scalar α]

namespace Coordinates

/-- Euclidean distance over the coordinates that both lists have. -/
def distance (a b : List α) : α := sqrt (sum (List.zipWith (fun x y => (x - y) * (x - y)) a b))

/-- The point at parameter `t` of the line from `a` to `b`. -/
def lerp (a b : List α) (t : α) : List α := List.zipWith (fun x y => x + (y - x) * t) a b

/-- The values padded with zeros or cut to a length. -/
def resize (values : List α) (length : Nat) : List α :=
  values.take length ++ List.replicate (length - values.length) 0.0

/-- The values with one coordinate replaced. -/
def set (values : List α) (index : Nat) (value : α) : Checked (List α) :=
  if index < values.length then .ok (values.set index value) else .error .missingAxis

/-- The value moved to the nearer end of a range that has its ends in order. -/
def clamp (low high x : α) : Checked α :=
  if low ≤ high then .ok (confine low high x) else .error .emptyRange

end Coordinates

/-- A position in axis space, one value an axis. -/
structure AxisPosition (α : Type) where
  values : List α
  deriving DecidableEq, Repr, BEq

/-- A position in motor space, one value a channel. Channel `n` belongs to axis `n`; the motors
of a ganged axis share it. -/
structure MotorPosition (α : Type) where
  values : List α
  deriving DecidableEq, Repr, BEq

namespace AxisPosition

/-- A position of finite values. -/
def new (values : List α) : Checked (AxisPosition α) :=
  if values.all isFinite then .ok ⟨values⟩ else .error .notFinite

def zeros (axisCount : Nat) : AxisPosition α := ⟨List.replicate axisCount 0.0⟩

def length (p : AxisPosition α) : Nat := p.values.length

/-- The value of an axis, zero for one that the position does not have. -/
def axis (p : AxisPosition α) (axis : Nat) : α := p.values.getD axis 0.0

def distance (p q : AxisPosition α) : α := Coordinates.distance p.values q.values

def lerp (p q : AxisPosition α) (t : α) : AxisPosition α := ⟨Coordinates.lerp p.values q.values t⟩

/-- Distance to the nearest point of the segment from `a` to `b`. -/
def distanceToSegment (p a b : AxisPosition α) : α :=
  let lengthSq := sum (List.zipWith (fun x y => (y - x) * (y - x)) a.values b.values)
  if lengthSq ≤ epsilon then p.distance a
  else
    let dot := sum (List.zipWith (fun x (s : α × α) => (x - s.1) * (s.2 - s.1)) p.values
      (a.values.zip b.values))
    p.distance (a.lerp b (confine 0.0 1.0 (dot / lengthSq)))

/-- Whether every axis is within the tolerance. -/
def approxEq (p q : AxisPosition α) (tolerance : α) : Bool :=
  p.length == q.length &&
    (p.values.zip q.values).all fun v => decide (Scalar.abs (v.1 - v.2) ≤ tolerance)

/-- Axis letters with three decimals. -/
def text (p : AxisPosition α) : String :=
  " ".intercalate (p.values.zipIdx.map fun v => s!"{axisName v.2}:{fixed 3 v.1}")

end AxisPosition

namespace MotorPosition

def zeros (channels : Nat) : MotorPosition α := ⟨List.replicate channels 0.0⟩

def length (p : MotorPosition α) : Nat := p.values.length

def distance (p q : MotorPosition α) : α := Coordinates.distance p.values q.values

def lerp (p q : MotorPosition α) (t : α) : MotorPosition α := ⟨Coordinates.lerp p.values q.values t⟩

/-- Channel numbers with four decimals. -/
def text (p : MotorPosition α) : String :=
  " ".intercalate (p.values.zipIdx.map fun v => s!"M{v.2}:{fixed 4 v.1}")

end MotorPosition

end MotionControl
