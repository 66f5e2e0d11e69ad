import MotionControl.Homing.Command
import MotionControl.Homing.Sequence
import MotionControl.JogTicket
import MotionControl.Kinematics.Catalog
import MotionControl.SegmentQueue
import MotionControl.Subdivision

/-! The controller of a machine, the one place through which it is moved. A move is turned into
motor-space segments as a whole before the first of them is offered to the planner, and the
tracked motor position advances only with segments that the planner accepted. -/
namespace MotionControl
open Scalar

structure Controller (α : Type) [Scalar α] where
  model : MachineModel α
  subdivision : Subdivision α
  arcTolerance : α
  jog : JogCounter := .new
  homing : HomingSequence α
  /-- The tracked motor position. -/
  motors : MotorPosition α

/-- What became of a move: the number of segments accepted or the reason for stopping, and the
controller and the planner afterwards. -/
structure MoveReport (α σ : Type) [Scalar α] where
  result : Outcome MotionError Nat
  controller : Controller α
  planner : σ

namespace Controller
variable {α σ : Type} [Scalar α]

/-- What a line for the log comes to that names the position of some motors. It is only worked out
where a log is kept. -/
def logPosition (model : MachineModel α) (motors : MotorPosition α) (logged : Bool) : Checked Unit :=
  if logged then (model.forward motors model.axisCount).map fun _ => () else .ok ()

/-- The controller of a machine at its power-up position, which goes to the log if there is one. -/
def ofMachine (catalog : KinematicsCatalog α) (machine : MachineDescription α)
    (logged : Bool := true) : Outcome ConfigurationError (Controller α) := do
  let model ← Outcome.ofExcept (catalog.create machine)
  let subdivision ← Outcome.ofExcept (Subdivision.ofSettings machine.motion)
  let arcTolerance := machine.motion.arcTolerance
  if !isPositive arcTolerance then
    refuse (.invalidTolerance "arc_tolerance_mm" (text arcTolerance))
  let motors := model.initPosition
  Checked.lift (logPosition model motors logged)
  let homing ← Checked.lift (HomingSequence.ofMachine machine)
  return { model, subdivision, arcTolerance, homing, motors }

/-- The axis-space position of some motors. -/
def positionOf (c : Controller α) (motors : MotorPosition α) : Checked (AxisPosition α) :=
  c.model.forward motors c.model.axisCount

/-- The current axis-space position. -/
def position (c : Controller α) : Checked (AxisPosition α) := c.positionOf c.motors

/-- Adopts a motor position reported from outside. -/
def sync (c : Controller α) (motors : MotorPosition α) :
    Except KinematicsError (Controller α) :=
  if motors.length ≠ c.model.axisCount then
    .error (.axisCountMismatch c.model.axisCount motors.length)
  else .ok { c with motors }

def cancelJog (c : Controller α) : Controller α := { c with jog := c.jog.cancel }

/-- A position named in the rejection of a move. -/
def outside (c : Controller α) (p : AxisPosition α) : String :=
  s!"{p.text} is outside the {c.model.name} workspace"

/-- The segments of a line from the current position, and the move as the jog guard left it. -/
def lineSegments (c : Controller α) (move : Move α) :
    Outcome MotionError (Move α × List (MotorSegment α)) := do
  let current ← Checked.lift c.position
  let move ← Checked.lift (c.model.guardJog move current)
  if c.model.invalidLine move.target then refuse (.invalidTarget (c.outside move.target))
  let segments ← (c.subdivision.segment c.model current move).mapReason .kinematics
  return (move, segments)

/-- The segments of a chain of chords that starts at `start`. -/
def chordSegments (c : Controller α) (move : Move α) :
    AxisPosition α → List (AxisPosition α) → Outcome MotionError (List (MotorSegment α))
  | _, [] => .ok []
  | start, point :: rest => do
    if c.model.invalidLine point then refuse (.invalidArc (c.outside point))
    let chord ← (c.subdivision.segment c.model start { move with target := point }).mapReason
      .kinematics
    return chord ++ (← chordSegments c move point rest)

/-- How far from the circle an arc may start and end. -/
def circleTolerance (radius : α) : α := larger (radius * 1e-3) 0.005

/-- The segments of an arc from the current position. -/
def arcSegments (c : Controller α) (move : Move α) (arc : Arc α) :
    Outcome MotionError (List (MotorSegment α)) := do
  let current ← Checked.lift c.position
  if !isPositive arc.radius then
    refuse (.invalidArc s!"radius {text arc.radius} must be > 0")
  let tolerance := circleTolerance arc.radius
  if !arc.onCircle current tolerance || !arc.onCircle move.target tolerance then
    refuse (.invalidArc "start and end must lie on the arc")
  if ← Checked.lift (c.model.invalidArc current move.target arc) then
    refuse (.invalidArc s!"arc leaves the {c.model.name} workspace")
  let points ← Checked.lift (arc.collectChords current move.target c.arcTolerance)
  c.chordSegments move current points

/-- A motor segment with the properties of the move it belongs to. -/
def plannerSegment (move : Move α) (segment : MotorSegment α) : PlannerSegment α where
  motors := segment.motors
  target := segment.target
  feedRate := segment.feedRate
  motionType := move.motionType
  isJog := move.isJog
  lineNumber := move.lineNumber

/-- Offers segments to the planner in order, until one is refused or the jog is superseded. The
number counts those accepted so far. -/
def offer (planner : Planner α σ) (move : Move α) (ticket : Option JogTicket) :
    Nat → List (MotorSegment α) → Controller α → σ → MoveReport α σ
  | accepted, [], c, state => ⟨.ok accepted, c, state⟩
  | accepted, segment :: rest, c, state =>
    if ticket.any fun ticket => !c.jog.isCurrent ticket then ⟨.ok accepted, c, state⟩
    else
      let reply := planner state (plannerSegment move segment)
      let c := { c with jog := c.jog.cancelTimes reply.jogCancels }
      match reply.verdict with
      | .error e => ⟨refuse (.plannerRejected accepted e), c, reply.state⟩
      | .ok () =>
        offer planner move ticket (accepted + 1) rest { c with motors := segment.motors }
          reply.state

/-- The ticket of a new jog; no other move has one. -/
def ticket (c : Controller α) (move : Move α) : Option JogTicket × Controller α :=
  if move.isJog then
    let (ticket, jog) := c.jog.begin
    (some ticket, { c with jog })
  else (none, c)

/-- Moves along a straight axis-space line. A jog that is superseded on the way stops without an
error. -/
def moveTo (c : Controller α) (planner : Planner α σ) (state : σ) (move : Move α) :
    MoveReport α σ :=
  let (ticket, started) := c.ticket move
  match c.lineSegments move with
  | .error e => ⟨.error e, started, state⟩
  | .ok (move, segments) => offer planner move ticket 0 segments started state

/-- Moves along a circular arc. -/
def arcTo (c : Controller α) (planner : Planner α σ) (state : σ) (move : Move α)
    (arc : Arc α) : MoveReport α σ :=
  match c.arcSegments move arc with
  | .error e => ⟨.error e, c, state⟩
  | .ok segments => offer planner move none 0 segments c state

/-- The groups of axes that an operator's command homes, in order. -/
def resolveHoming (c : Controller α) (command : String) : Except HomingError (List AxisMask) := do
  (← HomingCommand.parse command).resolve c.homing.groups

/-- Starts a homing cycle. It cancels any jog, also when it is refused. -/
def startHoming (c : Controller α) (axes : AxisMask) (safety : SafetyInputs) :
    Outcome HomingError (CycleStart α) × Controller α :=
  let c := c.cancelJog
  let (start, homing) := c.homing.start c.model axes safety
  (start, { c with homing })

/-- Sets the tracked position of axes to their home switches. -/
def finishHoming (c : Controller α) (axes : AxisMask) : Outcome KinematicsError (Controller α) := do
  let motors ← c.model.kinematics.homedPosition axes c.motors c.homing.home
  return { c with motors }

/-- Moves the active homing cycle on. Once it is done the tracked position is at the home
switches, unless the kinematics has no motor position for them. -/
def homingStep (c : Controller α) (poll : HomingPoll) :
    Outcome MotionControlError HomingStep × Controller α :=
  match c.homing.step c.model poll with
  | .error e => (refuse (.homing e), c)
  | .ok (step, homing) =>
    let c := { c with homing }
    match step with
    | .done outcome =>
      match (c.finishHoming outcome.homed).mapReason MotionControlError.kinematics with
      | .ok c => (.ok step, c)
      | .error e => (.error e, c)
    | _ => (.ok step, c)

def abortHoming (c : Controller α) : Except HomingError (Controller α) :=
  c.homing.abort.map fun homing => { c with homing }

/-- Takes the axes as homed and releases their motors. -/
def unlock (c : Controller α) (axes : AxisMask) : Except HomingError (MotorMask × Controller α) :=
  (c.homing.unlock c.model axes).map fun (motors, homing) => (motors, { c with homing })

/-- Forgets every homed axis and cancels any jog. -/
def reset (c : Controller α) : Controller α :=
  { c.cancelJog with homing := c.homing.reset }

end Controller

end MotionControl
