import MotionControl.Controller

/-! A machine without hardware. Segments are executed as soon as they are queued, and homing runs
against simulated limit switches, polled once a tick. -/
namespace MotionControl
open Scalar

structure SimulationSettings (α : Type) where
  /-- The time between two polls, in nanoseconds. -/
  period : Nat := 2000000
  /-- Polls needed for the whole approach of a homing cycle. -/
  ticksPerApproach : Nat := 40
  /-- For every axis the part of the approach at which its switch trips, if it ever does. -/
  tripAt : List (Option α)
  queueSize : Nat := 256

namespace SimulationSettings
variable {α : Type} [Scalar α]

/-- Every switch trips half way through the approach. -/
def new (axisCount : Nat) : SimulationSettings α :=
  { tripAt := List.replicate axisCount (some 0.5) }

/-- Whether the switch of an axis has tripped after part of the approach. -/
def trips (s : SimulationSettings α) (axis : Nat) (travelled : α) : Bool :=
  (s.tripAt.getD axis none).any fun part => decide (part ≤ travelled)

/-- The part of the approach covered in a tick. -/
def increment (s : SimulationSettings α) : α := 1.0 / ofNat (max 1 s.ticksPerApproach)

/-- Those of some moving motors whose switch has tripped. -/
def limited (s : SimulationSettings α) (moving : MotorMask) (travelled : α) : MotorMask :=
  .ofList (moving.toList.filter fun motor => s.trips motor.1 travelled)

end SimulationSettings

/-- The reason, if any, that a poll sees for cancelling. Polls are told apart by their number since
homing began, as the first poll of a cycle comes at the same tick as the last one before it. -/
abbrev CancelSchedule := (poll tick : Nat) → Option AbortReason

/-- How a homing cycle ended. -/
inductive CycleEnd where
  | homed (axes : AxisMask)
  | aborted (reason : AbortReason)
  deriving DecidableEq, Repr

/-- How a homing run ended. -/
inductive HomingReport where
  | homed (axes : AxisMask)
  /-- The cycle of `axes` was aborted after the cycles of `homed`. -/
  | aborted (homed axes : AxisMask) (reason : AbortReason)
  deriving DecidableEq, Repr

/-- An answer of the simulation together with the polls it took and the tick it was given at. -/
structure Timed (β α : Type) [Scalar α] where
  result : Outcome MotionControlError β
  polls : Nat
  tick : Nat
  controller : Controller α

namespace Simulation
variable {α : Type} [Scalar α]

/-- Polls the active cycle until it ends, the first time at `tick` and after `polls` others. The
approach is over once it has been travelled, or at the last of the remaining polls. -/
def pollCycle (s : SimulationSettings α) (cancel : CancelSchedule) :
    Nat → Nat → Nat → α → MotorMask → Controller α → Timed CycleEnd α
  | remaining, polls, tick, travelled, moving, c =>
    let travelled := smaller (travelled + s.increment) 1.0
    let poll : HomingPoll :=
      { limited := s.limited moving travelled
        motionDone := remaining == 0 || decide (1.0 ≤ travelled)
        cancel := cancel polls tick }
    match c.homingStep poll with
    | (.error e, c) => ⟨.error e, polls + 1, tick, c⟩
    | (.ok (.done outcome), c) => ⟨.ok (.homed outcome.homed), polls + 1, tick, c⟩
    | (.ok (.aborted reason), c) => ⟨.ok (.aborted reason), polls + 1, tick, c⟩
    | (.ok (.continue moving), c) =>
      match remaining with
      | 0 => ⟨.ok (.aborted .approachFailed), polls + 1, tick, c⟩
      | remaining + 1 => pollCycle s cancel remaining (polls + 1) (tick + 1) travelled moving c

/-- More polls than an approach takes, however the parts covered in a tick are rounded. -/
def pollLimit (s : SimulationSettings α) : Nat := 2 * max 1 s.ticksPerApproach

/-- Homes one group of axes. The timer of the polls is set up once the cycle is active. -/
def runCycle (s : SimulationSettings α) (safety : SafetyInputs) (cancel : CancelSchedule)
    (polls tick : Nat) (axes : AxisMask) (c : Controller α) : Timed CycleEnd α :=
  match c.startHoming axes safety with
  | (.error e, c) => ⟨Outcome.mapReason .homing (.error e), polls, tick, c⟩
  | (.ok (.done outcome), c) => ⟨.ok (.homed outcome.homed), polls, tick, c⟩
  | (.ok (.plan plan), c) =>
    if s.period = 0 then ⟨.error (.fault .zeroPeriod), polls, tick, c⟩
    else pollCycle s cancel (pollLimit s) polls tick 0.0 plan.motors c

/-- Homes groups of axes in order, up to the first that is aborted. -/
def runCycles (s : SimulationSettings α) (safety : SafetyInputs) (cancel : CancelSchedule) :
    Nat → Nat → AxisMask → List AxisMask → Controller α → Timed HomingReport α
  | polls, tick, homed, [], c => ⟨.ok (.homed homed), polls, tick, c⟩
  | polls, tick, homed, axes :: rest, c =>
    let cycle := runCycle s safety cancel polls tick axes c
    match cycle.result with
    | .error e => ⟨.error e, cycle.polls, cycle.tick, cycle.controller⟩
    | .ok (.homed axes) =>
      runCycles s safety cancel cycle.polls cycle.tick (homed ||| axes) rest cycle.controller
    | .ok (.aborted reason) =>
      ⟨.ok (.aborted homed axes reason), cycle.polls, cycle.tick, cycle.controller⟩

end Simulation

/-- A controller with a simulated planner and simulated limit switches. -/
structure SimulatedMachine (α : Type) [Scalar α] where
  settings : SimulationSettings α
  controller : Controller α
  queue : SegmentQueue α
  /-- The segments executed so far. -/
  executed : Nat := 0

namespace SimulatedMachine
variable {α : Type} [Scalar α]

def new (controller : Controller α) (settings : SimulationSettings α) : SimulatedMachine α where
  settings := settings
  controller := controller
  queue := { capacity := settings.queueSize }

/-- Runs one move. Segments of a move that succeeds are executed with all that are queued. -/
def execute (m : SimulatedMachine α) (move : Move α) :
    Outcome MotionError Nat × SimulatedMachine α :=
  let report := m.controller.moveTo SegmentQueue.planner m.queue move
  let m := { m with controller := report.controller, queue := report.planner }
  match report.result with
  | .error e => (.error e, m)
  | .ok accepted =>
    let (segments, queue) := m.queue.drain
    (.ok accepted, { m with queue, executed := m.executed + segments.length })

/-- Homes as an operator's command says. Where the machine then is goes to the log if there is one. -/
def home (m : SimulatedMachine α) (command : String) (safety : SafetyInputs)
    (cancel : CancelSchedule) (logged : Bool := true) : Timed HomingReport α :=
  match m.controller.resolveHoming command with
  | .error e => ⟨refuse (.homing e), 0, 0, m.controller⟩
  | .ok cycles =>
    let run := Simulation.runCycles m.settings safety cancel 0 0 .none cycles m.controller
    let line := Controller.logPosition run.controller.model run.controller.motors logged
    match run.result, line with
    | .ok (.homed _), .error fault => { run with result := .error (.fault fault) }
    | _, _ => run

end SimulatedMachine

end MotionControl
