import MotionControl.Machine.Description

/-! The groups that axes are homed in. Every homed axis belongs to a numbered cycle. A full run
goes through the cycles in ascending order; cycle zero keeps its axes out of it. -/
namespace MotionControl

/-- The axes of each cycle, the axes that can be homed, and those that can be homed alone. -/
structure HomingGroups where
  /-- The axes of a cycle by its number. -/
  cycle : Nat → AxisMask
  configured : AxisMask
  singleAxis : AxisMask

namespace HomingGroups

/-- The cycles of a full run. -/
def runNumbers : List Nat := (List.range maxHomingCycle.toNat).map (· + 1)

/-- Axes beyond those of a machine and cycles beyond the highest are left out. -/
def ofMachine {α : Type} (machine : MachineDescription α) : HomingGroups :=
  let machine := { machine with axes := machine.axes.take maxAxes }
  let homedWhere (p : AxisHoming α → Bool) := machine.axesWhere fun axis => axis.homing.any p
  { cycle := fun n =>
      if n ≤ maxHomingCycle.toNat then homedWhere fun homing => homing.cycle.toNat == n else .none
    configured := homedWhere fun _ => true
    singleAxis := homedWhere (·.allowSingleAxis) }

def isEnabled (g : HomingGroups) : Bool := !g.configured.isEmpty

/-- The cycles of a full run that have axes, in order. -/
def run (g : HomingGroups) : List AxisMask :=
  (runNumbers.map g.cycle).filter fun axes => !axes.isEmpty

/-- Whether the axes are exactly a cycle of the full run. -/
def isCycle (g : HomingGroups) (axes : AxisMask) : Bool :=
  !axes.isEmpty && (runNumbers.map g.cycle).contains axes

/-- A group that is no cycle must not contain an axis that cannot be homed alone. -/
def checkSingleAxis (g : HomingGroups) (axes : AxisMask) : Except HomingError Unit :=
  if g.isCycle axes then .ok ()
  else match (axes - g.singleAxis).toList with
    | axis :: _ => .error (.singleAxisNotAllowed (axisName axis).toString)
    | [] => .ok ()

end HomingGroups

end MotionControl
