import MotionControl.Scalar
import MotionControl.Decimal.Shortest

/-! Doubles as coordinate values. -/
namespace MotionControl.Binary64

/-- Square root of the sum of squares with the rounding error of the root taken back once.
The first length is the longer one. -/
private def correctedLength (long short : Float) : Float :=
  let h := Float.sqrt (long * long + short * short)
  if h ≤ 2.0 * short then
    let delta := h - short
    let t1 := long * (2.0 * delta - long)
    let t2 := (delta - 2.0 * (long - short)) * delta
    h - (t1 + t2) / (2.0 * h)
  else
    let delta := h - long
    let t1 := 2.0 * delta * (long - 2.0 * short)
    let t2 := (4.0 * delta - short) * short + delta * delta
    h - (t1 + t2) / (2.0 * h)

/-- Length of a plane vector, rescaled where a square would overflow or underflow and equal to
the longer side where the other one cannot be seen beside it. -/
def hypot (x y : Float) : Float :=
  let x := x.abs
  let y := y.abs
  if x.isInf || y.isInf then 1.0 / 0.0
  else if x.isNaN || y.isNaN then x + y
  else
    let long := if x < y then y else x
    let short := if x < y then x else y
    let tiny := Float.scaleB 1.0 (-54)
    let unit := Float.scaleB 1.0 (-600)
    if short ≤ long * tiny then long + short
    else if Float.scaleB 1.0 511 < long then correctedLength (long * unit) (short * unit) / unit
    else if short < Float.scaleB 1.0 (-459) then correctedLength (long / unit) (short / unit) * unit
    else correctedLength long short

instance : Scalar Float where
  decLt := inferInstance
  decLe := inferInstance
  ofNat := Float.ofNat
  pi := 3.141592653589793
  sqrt := Float.sqrt
  sin := Float.sin
  cos := Float.cos
  slopeAngle rise run := Float.atan (rise / run)
  atan2 := Float.atan2
  hypot := hypot
  ceilNat x := x.ceil.toUInt64.toNat
  isFinite := Float.isFinite
  text := Decimal.plain.write
  fixed := Decimal.fixed

end MotionControl.Binary64
