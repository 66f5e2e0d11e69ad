import MotionControl.Error

/-! Sets of logical axes, one bit an axis. -/
namespace MotionControl

/-- A machine has at most six axes. -/
def maxAxes : Nat := 6

def axisNames : List Char := ['X', 'Y', 'Z', 'A', 'B', 'C']

/-- The letter of an axis. -/
def axisName (axis : Nat) : Char := axisNames.getD axis '?'

/-- A set of axes: bit `n` is axis `n`. -/
structure AxisMask where
  bits : BitVec 32
  deriving DecidableEq, Repr

namespace AxisMask

def none : AxisMask := ⟨0⟩

instance : Inhabited AxisMask := ⟨none⟩
instance : OrOp AxisMask := ⟨fun a b => ⟨a.bits ||| b.bits⟩⟩
instance : AndOp AxisMask := ⟨fun a b => ⟨a.bits &&& b.bits⟩⟩
instance : Sub AxisMask := ⟨fun a b => ⟨a.bits &&& ~~~b.bits⟩⟩

/-- The mask of one axis; the empty mask beyond its width. -/
def single (axis : Nat) : AxisMask := ⟨1#32 <<< axis⟩

/-- The mask of one axis that has a bit. -/
def bit (axis : Nat) : Checked AxisMask :=
  if axis < 32 then .ok (single axis) else .error .bitWidth

/-- The first `count` axes of a machine. -/
def all (count : Nat) : AxisMask := ⟨(1#32 <<< min count maxAxes) - 1#32⟩

/-- The machine axes that are not in the mask. -/
def compl (a : AxisMask) : AxisMask := ⟨~~~a.bits &&& (all maxAxes).bits⟩

def contains (a : AxisMask) (axis : Nat) : Bool := a.bits.getLsbD axis

def containsAll (a b : AxisMask) : Bool := a.bits &&& b.bits == b.bits

def isEmpty (a : AxisMask) : Bool := a.bits == 0

def intersects (a b : AxisMask) : Bool := a.bits &&& b.bits != 0

/-- The number of axes in the mask. -/
def count (a : AxisMask) : Nat := (List.range 32).countP a.contains

def insert (a : AxisMask) (axis : Nat) : Checked AxisMask := (a ||| ·) <$> bit axis

def remove (a : AxisMask) (axis : Nat) : Checked AxisMask := (a - ·) <$> bit axis

/-- The machine axes in the mask, in ascending order. -/
def toList (a : AxisMask) : List Nat := (List.range maxAxes).filter a.contains

/-- The union of the masks of some axes. -/
def ofList (axes : List Nat) : AxisMask := axes.foldl (fun mask axis => mask ||| single axis) none

/-- The axes of a text of axis letters in either case. -/
def ofLetters : List Char → Option AxisMask
  | [] => some none
  | c :: rest =>
    match axisNames.findIdx? (· == c.toUpper) with
    | some axis => (single axis ||| ·) <$> ofLetters rest
    | Option.none => Option.none

def ofNames (names : String) : Option AxisMask := ofLetters names.toList

/-- The letters of the axes, or a mark for the empty mask. -/
def text (a : AxisMask) : String :=
  if a.isEmpty then "<none>" else String.ofList (a.toList.map axisName)

instance : ToString AxisMask := ⟨text⟩

end AxisMask

end MotionControl
