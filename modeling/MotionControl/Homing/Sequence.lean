import MotionControl.Homing.Cycle
import MotionControl.Homing.Groups
import MotionControl.Homing.Status
import MotionControl.Kinematics.Model

/-! The homing sequence of a machine. It turns the axes to home into a plan for their motors, and
the limit switches met on the way into homed axes. Motor motion is the business of a driver, which
reports to `step` from its polling loop. -/
namespace MotionControl
open Scalar

structure HomingSequence (α : Type) where
  groups : HomingGroups
  /-- The signed seek distance of every axis. -/
  seek : AxisPosition α
  /-- The machine position of every axis at its home switch. -/
  home : AxisPosition α
  status : HomingStatus := {}
  active : Option ActiveCycle := none

namespace HomingSequence
variable {α : Type}

/-- Ends the active cycle without homing its axes. -/
def abort (h : HomingSequence α) : Except HomingError (HomingSequence α) :=
  match h.active with
  | none => .error .noActiveCycle
  | some cycle => .ok { h with active := none, status := h.status.abort cycle.axes }

/-- Forgets every homed axis and any active cycle. -/
def reset (h : HomingSequence α) : HomingSequence α := { h with active := none, status := {} }

variable [Scalar α]

/-- The seek distance as a multiple of the travel. -/
def seekScaler : α := 1.1

/-- The signed distance in which the home switch of an axis must be met. -/
def seekDistance (axis : AxisSettings α) : α :=
  match axis.homing with
  | some homing =>
    if homing.positiveDirection then axis.maxTravel * seekScaler else -axis.maxTravel * seekScaler
  | none => 0.0

/-- The position of an axis at its home switch, zero for one that has none. -/
def homePosition (axis : AxisSettings α) : α :=
  match axis.homing with
  | some homing => homing.homePosition
  | none => 0.0

/-- The sequence of a machine with no axis homed. -/
def ofMachine (machine : MachineDescription α) : Checked (HomingSequence α) := do
  let seek ← AxisPosition.new (machine.axes.map seekDistance)
  let home ← AxisPosition.new (machine.axes.map homePosition)
  return { groups := .ofMachine machine, seek, home }

/-- The seek distances of some axes, zero elsewhere. -/
def seekDirections (h : HomingSequence α) (axes : AxisMask) : AxisPosition α :=
  ⟨h.seek.values.mapIdx fun axis value =>
    if axis < maxAxes && axes.contains axis then value else 0.0⟩

/-- The axes of a cycle are homed and their motors released. -/
def complete (h : HomingSequence α) (model : MachineModel α) (axes : AxisMask) :
    HomingOutcome × HomingSequence α :=
  (⟨axes, model.kinematics.releaseMotors axes (model.homingMotors axes)⟩,
    { h with active := none, status := h.status.complete axes })

/-- What stands against starting a cycle, looked at in order. -/
def gate (h : HomingSequence α) (model : MachineModel α) (axes : AxisMask)
    (safety : SafetyInputs) : Except HomingError Unit := do
  if let some active := h.active then throw (.cycleActive active.axes.text)
  if !h.groups.isEnabled then throw .disabled
  if axes.isEmpty || !h.groups.configured.containsAll axes then
    throw (.invalidRequest s!"no homing configuration for {axes - h.groups.configured}")
  h.groups.checkSingleAxis axes
  safety.check
  if !model.kinematics.canHome axes then throw (.unsupportedAxes model.name axes.text)

/-- Starts a cycle that passes its gate. The axes lose their reference until it completes. -/
def start (h : HomingSequence α) (model : MachineModel α) (axes : AxisMask)
    (safety : SafetyInputs) : Outcome HomingError (CycleStart α) × HomingSequence α :=
  match h.gate model axes safety with
  | .error e => (refuse e, h)
  | .ok () =>
    let h := { h with status := h.status.begin axes }
    if model.kinematics.homesItself axes then
      let (outcome, h) := h.complete model axes
      (.ok (.done outcome), h)
    else
      match model.kinematics.homingApproach axes (h.seekDirections axes) with
      | .error fault => (.error (.fault fault), h)
      | .ok approach =>
        let motors := model.homingMotors axes
        (.ok (.plan ⟨axes, motors, approach⟩), { h with active := some ⟨axes, axes, motors⟩ })

/-- Moves the active cycle on. A cancel comes before anything else, a switch before the end of
the approach. -/
def step (h : HomingSequence α) (model : MachineModel α) (poll : HomingPoll) :
    Except HomingError (HomingStep × HomingSequence α) :=
  match h.active with
  | none => .error .noActiveCycle
  | some cycle =>
    let stopped reason : HomingStep × HomingSequence α :=
      (.aborted reason, { h with active := none, status := h.status.abort cycle.axes })
    match poll.cancel with
    | some reason => .ok (stopped reason)
    | none =>
      if poll.limited.isEmpty then
        .ok (if poll.motionDone then stopped .approachFailed else (.continue cycle.motors, h))
      else
        let outcome := model.kinematics.limitReached cycle.pending cycle.motors poll.limited
        if outcome.stop then
          let (homed, h) := h.complete model cycle.axes
          .ok (.done homed, h)
        else if poll.motionDone then .ok (stopped .approachFailed)
        else
          let cycle := { cycle with pending := outcome.axes, motors := outcome.motors }
          .ok (.continue cycle.motors, { h with active := some cycle })

/-- Takes the axes as homed and releases their motors. -/
def unlock (h : HomingSequence α) (model : MachineModel α) (axes : AxisMask) :
    Except HomingError (MotorMask × HomingSequence α) :=
  match h.active with
  | some cycle => .error (.cycleActive cycle.axes.text)
  | none => .ok (model.kinematics.releaseMotors axes model.layout.allMotors,
      { h with status := h.status.markHomed axes })

end HomingSequence

end MotionControl
