/-! The number type of the geometry. Positions, transforms and arcs are written against this
class, so the same definitions run on doubles and are read over exact numbers. -/
namespace MotionControl

/-- Arithmetic, order and elementary functions of a coordinate value. -/
class Scalar (α : Type) extends Add α, Sub α, Mul α, Div α, Neg α, LT α, LE α, OfScientific α where
  decLt : DecidableLT α
  decLe : DecidableLE α
  ofNat : Nat → α
  pi : α
  sqrt : α → α
  sin : α → α
  cos : α → α
  /-- Arctangent of a slope given as rise over run; a vertical slope has a right angle. -/
  slopeAngle : α → α → α
  /-- Angle of the direction with the given rise and run, in the full turn around zero. -/
  atan2 : α → α → α
  /-- Length of a plane vector. -/
  hypot : α → α → α
  /-- The least whole number that is not below the value, zero for a negative value. -/
  ceilNat : α → Nat
  isFinite : α → Bool
  /-- Full decimal text, for messages. -/
  text : α → String
  /-- Decimal text with the given number of decimals, for messages. -/
  fixed : Nat → α → String

namespace Scalar
variable {α : Type} [Scalar α]

instance (x y : α) : Decidable (x < y) := decLt x y
instance (x y : α) : Decidable (x ≤ y) := decLe x y

/-- Distance between one and the next double. -/
def epsilon : α := 1.0 / ofNat 0x10000000000000

def abs (x : α) : α := if x < 0.0 then -x else x

/-- The larger of two values; one that is not a number loses. -/
def larger (x y : α) : α := if x < y then y else if x ≤ x then x else y

/-- The smaller of two values; one that is not a number loses. -/
def smaller (x y : α) : α := if y < x then y else if x ≤ x then x else y

/-- The value moved to the nearer end of `low..high` when it lies outside. -/
def confine (low high x : α) : α := if x < low then low else if high < x then high else x

/-- Whether a length, rate or tolerance is usable. -/
def isPositive (x : α) : Bool := isFinite x && decide (0.0 < x)

/-- Sum from the first to the last term. -/
def sum (terms : List α) : α := terms.foldl (· + ·) 0.0

end Scalar

end MotionControl
