import MotionControl.Position

/-! Commanded moves. -/
namespace MotionControl
variable {α : Type}

inductive MotionType where
  | rapid
  | linear
  deriving DecidableEq, Repr

/-- A move to a target at a feed rate in units a minute. -/
structure Move (α : Type) where
  target : AxisPosition α
  feedRate : α
  motionType : MotionType := .linear
  /-- An operator jog rather than programmed motion. -/
  isJog : Bool := false
  /-- The program line, for reporting. -/
  lineNumber : Option UInt32 := none

namespace Move

def linear (target : AxisPosition α) (feedRate : α) : Move α := { target, feedRate }

def rapid (target : AxisPosition α) (feedRate : α) : Move α :=
  { target, feedRate, motionType := .rapid }

def jog (target : AxisPosition α) (feedRate : α) : Move α :=
  { target, feedRate, isJog := true }

end Move

end MotionControl
