import MotionControl.Axes.AxisMask

/-! Sets of physical motors. An axis has a motor, and a ganged axis a second one. -/
namespace MotionControl

/-- The second motor of an axis lies this many bits above the first. -/
def secondMotor : Nat := 16

/-- A set of motors: motor `m` of axis `n` is bit `n + 16 m`. -/
structure MotorMask where
  bits : BitVec 32
  deriving DecidableEq, Repr

namespace MotorMask

def none : MotorMask := ⟨0⟩

instance : Inhabited MotorMask := ⟨none⟩
instance : OrOp MotorMask := ⟨fun a b => ⟨a.bits ||| b.bits⟩⟩
instance : AndOp MotorMask := ⟨fun a b => ⟨a.bits &&& b.bits⟩⟩
instance : Sub MotorMask := ⟨fun a b => ⟨a.bits &&& ~~~b.bits⟩⟩

def position (axis motor : Nat) : Nat := axis + secondMotor * motor

/-- The mask of one motor; the empty mask beyond its width. -/
def single (axis motor : Nat) : MotorMask := ⟨1#32 <<< position axis motor⟩

/-- The mask of one motor that has a bit. -/
def motor (axis motor : Nat) : Checked MotorMask :=
  if position axis motor < 32 then .ok (single axis motor) else .error .bitWidth

/-- Whether the motor is in the mask. -/
def has (a : MotorMask) (axis motor : Nat) : Bool := a.bits.getLsbD (position axis motor)

/-- Whether a motor that has a bit is in the mask. -/
def contains (a : MotorMask) (axis motor : Nat) : Checked Bool :=
  if position axis motor < 32 then .ok (a.has axis motor) else .error .bitWidth

def isEmpty (a : MotorMask) : Bool := a.bits == 0

def intersects (a b : MotorMask) : Bool := a.bits &&& b.bits != 0

/-- The number of motors in the mask. -/
def count (a : MotorMask) : Nat := (List.range 32).countP a.bits.getLsbD

/-- The axes that have a motor in the mask. -/
def axes (a : MotorMask) : AxisMask := ⟨(a.bits ||| a.bits >>> secondMotor) &&& 0xffff⟩

/-- Every motor a machine can have, first motors before second ones. -/
def places : List (Nat × Nat) :=
  (List.range 2).flatMap fun motor => (List.range maxAxes).map fun axis => (axis, motor)

/-- The machine motors in the mask as axis and motor number. -/
def toList (a : MotorMask) : List (Nat × Nat) := places.filter fun m => a.has m.1 m.2

/-- The union of the masks of some motors. -/
def ofList (motors : List (Nat × Nat)) : MotorMask :=
  motors.foldl (fun mask m => mask ||| single m.1 m.2) none

/-- The motors of the mask that are attached to one of the axes. -/
def onAxes (a : MotorMask) (axes : AxisMask) : MotorMask :=
  ofList (a.toList.filter fun m => axes.contains m.1)

/-- Axis letter and number of every motor, or a mark for the empty mask. -/
def text (a : MotorMask) : String :=
  if a.isEmpty then "<none>"
  else " ".intercalate (a.toList.map fun m => s!"{axisName m.1}{m.2}")

end MotorMask

end MotionControl
