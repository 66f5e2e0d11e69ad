import MotionControl.Position

/-! Circular moves: swept angle, points of the arc and its expansion into chords. -/
namespace MotionControl
open Scalar

/-- The two axes of the circle and the axis that moves along it. -/
structure ArcPlane where
  first : Nat
  second : Nat
  linear : Nat
  deriving DecidableEq, Repr

namespace ArcPlane

def xy : ArcPlane := ⟨0, 1, 2⟩
def zx : ArcPlane := ⟨2, 0, 1⟩
def yz : ArcPlane := ⟨1, 2, 0⟩

instance : Inhabited ArcPlane := ⟨xy⟩

end ArcPlane

/-- An arc around a center given in absolute coordinates of the plane. -/
structure Arc (α : Type) where
  center : α × α
  radius : α
  plane : ArcPlane := .xy
  clockwise : Bool := false

namespace Arc
variable {α : Type} [Scalar α]

/-- The point relative to the center, in the plane. -/
def offset (arc : Arc α) (p : AxisPosition α) : α × α :=
  (p.axis arc.plane.first - arc.center.1, p.axis arc.plane.second - arc.center.2)

/-- The angle swept from `start` to `target`, negative for a clockwise arc. Coincident ends
make a full circle. -/
def sweep (arc : Arc α) (start target : AxisPosition α) : α :=
  let s := arc.offset start
  let t := arc.offset target
  let angle := atan2 (s.1 * t.2 - s.2 * t.1) (s.1 * t.1 + s.2 * t.2)
  if arc.clockwise then
    if -1e-9 ≤ angle then angle - 2.0 * pi else angle
  else if angle ≤ 1e-9 then angle + 2.0 * pi else angle

/-- The point at parameter `t` of the arc. Axes outside the plane move linearly. -/
def pointAt (arc : Arc α) (start target : AxisPosition α) (sweep t : α) :
    Checked (AxisPosition α) := do
  let s := arc.offset start
  let angle := atan2 s.2 s.1 + sweep * t
  let line := Coordinates.lerp start.values target.values t
  let values ← Coordinates.set line arc.plane.first (arc.center.1 + arc.radius * cos angle)
  let values ← Coordinates.set values arc.plane.second (arc.center.2 + arc.radius * sin angle)
  let along := start.axis arc.plane.linear +
    (target.axis arc.plane.linear - start.axis arc.plane.linear) * t
  return ⟨values.set arc.plane.linear along⟩

/-- The number of chords whose sagitta stays within the tolerance. -/
def chordCount (arc : Arc α) (sweep tolerance : α) : Nat :=
  let span := sqrt (larger (tolerance * (2.0 * arc.radius - tolerance)) 0.0)
  if 0.0 < span then max 1 (ceilNat (Scalar.abs (0.5 * sweep * arc.radius) / span)) else 1

/-- The ends of the chords from `start` to `target`, the last one being `target` itself. -/
def chords (arc : Arc α) (start target : AxisPosition α) (tolerance : α) :
    Checked (List (AxisPosition α)) := do
  let sweep := arc.sweep start target
  let count := arc.chordCount sweep tolerance
  let points ← (List.range (count - 1)).mapM fun i =>
    arc.pointAt start target sweep (ofNat (i + 1) / ofNat count)
  return points ++ [target]

/-- The most bytes that can be reserved at once, and the bytes of a position in a list. -/
def maxReservation : Nat := 0x7fffffffffffffff
def positionBytes : Nat := 24

/-- The chords collected into a list. Room for the points between the ends is reserved before the
first of them is worked out. -/
def collectChords (arc : Arc α) (start target : AxisPosition α) (tolerance : α) :
    Checked (List (AxisPosition α)) :=
  let count := arc.chordCount (arc.sweep start target) tolerance
  if maxReservation < (count - 1) * positionBytes then .error .capacityOverflow
  else arc.chords start target tolerance

/-- Whether the point lies on the circle of the arc. -/
def onCircle (arc : Arc α) (p : AxisPosition α) (tolerance : α) : Bool :=
  let d := arc.offset p
  decide (Scalar.abs (hypot d.1 d.2 - arc.radius) ≤ tolerance)

end Arc

end MotionControl
