import MotionControl.Move

/-! The planner, which takes motor-space segments one at a time, and a bounded queue for it. -/
namespace MotionControl
variable {α σ : Type}

/-- A motor-space segment handed to the planner. -/
structure PlannerSegment (α : Type) where
  motors : MotorPosition α
  target : AxisPosition α
  /-- Feed rate in motor units a minute. -/
  feedRate : α
  motionType : MotionType
  isJog : Bool
  lineNumber : Option UInt32

/-- What a planner made of one segment. -/
structure PlannerReply (σ : Type) where
  verdict : Except PlannerError Unit
  state : σ
  /-- How often the jog was cancelled or superseded meanwhile. -/
  jogCancels : Nat := 0

/-- A planner with states `σ`. -/
abbrev Planner (α σ : Type) := σ → PlannerSegment α → PlannerReply σ

/-- A bounded queue of segments, the oldest first. -/
structure SegmentQueue (α : Type) where
  capacity : Nat
  segments : Array (PlannerSegment α) := #[]
  /-- Why segments are refused for now. -/
  notReady : Option String := none

namespace SegmentQueue

def defaultCapacity : Nat := 64

/-- A segment at the end of the queue. -/
def enqueue (q : SegmentQueue α) (segment : PlannerSegment α) :
    Except PlannerError (SegmentQueue α) :=
  match q.notReady with
  | some reason => .error (.notReady reason)
  | none =>
    if q.capacity ≤ q.segments.size then .error .queueFull
    else .ok { q with segments := q.segments.push segment }

/-- The oldest segment, and the queue without it. -/
def pop (q : SegmentQueue α) : Option (PlannerSegment α) × SegmentQueue α :=
  (q.segments[0]?, { q with segments := q.segments.extract 1 })

/-- All segments, and the queue without them. -/
def drain (q : SegmentQueue α) : List (PlannerSegment α) × SegmentQueue α :=
  (q.segments.toList, { q with segments := #[] })

def setNotReady (q : SegmentQueue α) (reason : String) : SegmentQueue α :=
  { q with notReady := some reason }

def setReady (q : SegmentQueue α) : SegmentQueue α := { q with notReady := none }

/-- The queue as a planner. -/
def planner : Planner α (SegmentQueue α) := fun q segment =>
  match q.enqueue segment with
  | .ok q => { verdict := .ok (), state := q }
  | .error e => { verdict := .error e, state := q }

/-- The queue as a planner that cancels the jog whenever it has grown to a given length. -/
def plannerCancellingAt (length : Nat) : Planner α (SegmentQueue α) := fun q segment =>
  match q.enqueue segment with
  | .ok q =>
    { verdict := .ok (), state := q, jogCancels := if q.segments.size = length then 1 else 0 }
  | .error e => { verdict := .error e, state := q }

end SegmentQueue

end MotionControl
