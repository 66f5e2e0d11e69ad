import MotionControl.Homing.Groups
import MotionControl.Whitespace

/-! Homing commands: their text, and the groups of axes they stand for. -/
namespace MotionControl

/-- What an operator asks to home. -/
inductive HomingCommand where
  /-- Every cycle in ascending order. -/
  | all
  /-- The listed cycles in the given order. -/
  | cycles (numbers : List Nat)
  /-- The given axes as one group. -/
  | axes (mask : AxisMask)
  deriving DecidableEq, Repr

namespace HomingCommand

/-- White space around a command means nothing; digits list cycles, letters name axes. -/
def parse (command : String) : Except HomingError HomingCommand :=
  match trimmed command.toList with
  | [] => .ok .all
  | text =>
    if text.all Char.isDigit then .ok (.cycles (text.map fun c => c.toNat - '0'.toNat))
    else match AxisMask.ofLetters text with
      | some mask => .ok (.axes mask)
      | none => .error (.invalidRequest command)

/-- The axes of a cycle that has some. -/
def cycleAxes (g : HomingGroups) (number : Nat) : Except HomingError AxisMask :=
  if (g.cycle number).isEmpty then .error (.emptyCycle number) else .ok (g.cycle number)

/-- The groups of axes to home, in order. -/
def resolve (g : HomingGroups) (command : HomingCommand) : Except HomingError (List AxisMask) :=
  if !g.isEnabled then .error .disabled
  else match command with
    | all => if g.run.isEmpty then .error .disabled else .ok g.run
    | cycles numbers => numbers.mapM (cycleAxes g)
    | axes mask => (g.checkSingleAxis mask).map fun _ => [mask]

end HomingCommand

end MotionControl
