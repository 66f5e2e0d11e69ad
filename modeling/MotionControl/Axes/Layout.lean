import MotionControl.Axes.MotorMask

/-! The fixed attachment of motors to axes. -/
namespace MotionControl

/-- A number of axes, some of them driven by two motors. -/
structure AxisLayout where
  axisCount : Nat
  ganged : AxisMask
  axisCount_le : axisCount ≤ maxAxes
  deriving DecidableEq, Repr

namespace AxisLayout

/-- The layout of a machine; a ganged mark on an axis it does not have is dropped. -/
def new (axisCount : Nat) (ganged : AxisMask) : Checked AxisLayout :=
  if h : axisCount ≤ maxAxes then .ok ⟨axisCount, ganged &&& .all axisCount, h⟩
  else .error .axisLimit

def allAxes (layout : AxisLayout) : AxisMask := .all layout.axisCount

/-- The motors attached to the given axes. -/
def motorsFor (layout : AxisLayout) (axes : AxisMask) : MotorMask :=
  let axes := axes &&& layout.allAxes
  ⟨axes.bits ||| (axes &&& layout.ganged).bits <<< secondMotor⟩

def allMotors (layout : AxisLayout) : MotorMask := layout.motorsFor layout.allAxes

def motorCount (layout : AxisLayout) : Nat := layout.allMotors.count

end AxisLayout

end MotionControl
