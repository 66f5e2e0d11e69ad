import MotionControl.Proofs.Controller.HomingSteps
import MotionControl.Scalar.Binary64
import MotionControl.Simulation

/-! The axes that a homing report lists, and the axes that are marked as homed when it is given. A cycle
takes the marks of its axes away when it begins, so a command that lists a cycle twice can lose what the
report goes on to list. -/
namespace MotionControl
variable {α : Type} [Scalar α]

/-- The axes marked as homed. -/
def Controller.marks (c : Controller α) : AxisMask := c.homing.status.homed

/-- The marks at the end of a cycle of some axes, with those in `begun` marked as it began. -/
def CycleEnd.Leaves (axes begun marks : AxisMask) : CycleEnd → Prop
  | .homed ended => ended = axes ∧ marks = begun ||| axes
  | .aborted _ => marks = begun

/-- The axes that a report lists are marked. After an abort these are the ones homed before it, apart from
the axes of the aborted cycle, of which none is marked. -/
def HomingReport.Describes (marks : AxisMask) : HomingReport → Prop
  | .homed axes => ∀ axis, axes.contains axis = true → marks.contains axis = true
  | .aborted before axes _ => ∀ axis,
    (before.contains axis = true → marks.contains axis = !axes.contains axis) ∧
    (axes.contains axis = true → marks.contains axis = false)

namespace Controller
variable {c c' : Controller α} {axes : AxisMask}

theorem startHoming_leaves {safety : SafetyInputs} {start : CycleStart α} :
    c.startHoming axes safety = (.ok start, c') → match start with
      | .plan _ => c'.homing.active.map ActiveCycle.axes = some axes ∧ c'.marks = c.marks - axes
      | .done outcome => (CycleEnd.homed outcome.homed).Leaves axes (c.marks - axes) c'.marks := by
  intro h
  cases hs : c.homing.start c.model axes safety with
  | mk started homing =>
    have hc : c.startHoming axes safety = (started, { c.cancelJog with homing }) := by
      rw [startHoming]
      exact congrArg (fun start => (start.1, { c.cancelJog with homing := start.2 })) hs
    rw [hc] at h
    cases h
    cases start with
    | plan plan =>
      have hp : c.homing.perform c.model (.start axes safety) = .ok (.planned plan, homing) := by
        rw [HomingSequence.perform, hs]
      cases HomingSequence.perform_transition hp with
      | planned => exact ⟨rfl, rfl⟩
    | done outcome =>
      have hp : c.homing.perform c.model (.start axes safety) = .ok (.completed outcome, homing) := by
        rw [HomingSequence.perform, hs]
      cases HomingSequence.perform_transition hp with
      | completed => exact ⟨rfl, rfl⟩

theorem homingStep_leaves {poll : HomingPoll} {step : HomingStep}
    (ha : c.homing.active.map ActiveCycle.axes = some axes) :
    c.homingStep poll = (.ok step, c') → match step with
      | .continue _ => c'.homing.active.map ActiveCycle.axes = some axes ∧ c'.marks = c.marks
      | .done outcome => (CycleEnd.homed outcome.homed).Leaves axes c.marks c'.marks
      | .aborted reason => (CycleEnd.aborted reason).Leaves axes c.marks c'.marks := by
  intro h
  obtain ⟨homing, hs, ⟨hpending, rfl⟩ | ⟨outcome, motors, rfl, -, rfl⟩⟩ := of_homingStep h
  · cases transition_of_step hs with
    | waited => exact ⟨ha, rfl⟩
    | reported active =>
      rw [active] at ha
      exact ⟨ha, rfl⟩
    | aborted => rfl
    | done => exact absurd rfl (hpending _)
  · cases transition_of_step hs with
    | done active =>
      rw [active] at ha
      cases ha
      exact ⟨rfl, rfl⟩

end Controller

namespace Simulation
open Controller
variable {c : Controller α} {axes : AxisMask} {ending : CycleEnd}

/-- However many polls are left, the end of an active cycle leaves the marks that it stands for. -/
theorem pollCycle_leaves (s : SimulationSettings α) (cancel : CancelSchedule)
    (remaining polls tick : Nat) (travelled : α) (moving : MotorMask)
    (ha : c.homing.active.map ActiveCycle.axes = some axes)
    (h : (pollCycle s cancel remaining polls tick travelled moving c).result = .ok ending) :
    ending.Leaves axes c.marks (pollCycle s cancel remaining polls tick travelled moving c).controller.marks := by
  revert ha h
  fun_induction pollCycle s cancel remaining polls tick travelled moving c with
  | case1 =>
    intro _ h
    cases h
  | case2 remaining polls tick travelled moving c _ _ outcome after hs =>
    intro ha h
    cases h
    exact homingStep_leaves ha hs
  | case3 remaining polls tick travelled moving c _ _ reason after hs =>
    intro ha h
    cases h
    exact homingStep_leaves ha hs
  | case4 polls tick travelled moving c _ _ after _ hs =>
    intro ha h
    cases h
    exact (homingStep_leaves ha hs).2
  | case5 polls tick travelled moving c _ _ after remaining _ hs ih =>
    intro ha h
    obtain ⟨hactive, hmarks⟩ := homingStep_leaves ha hs
    rw [← hmarks]
    exact ih hactive h

theorem runCycle_leaves (s : SimulationSettings α) (safety : SafetyInputs) (cancel : CancelSchedule)
    (polls tick : Nat) (h : (runCycle s safety cancel polls tick axes c).result = .ok ending) :
    ending.Leaves axes (c.marks - axes) (runCycle s safety cancel polls tick axes c).controller.marks := by
  revert h
  fun_cases runCycle s safety cancel polls tick axes c with
  | case1 e after hs =>
    intro h
    cases e <;> cases h
  | case2 outcome after hs =>
    intro h
    cases h
    exact startHoming_leaves hs
  | case3 plan after hs =>
    intro h
    cases h
  | case4 plan after hs =>
    intro h
    obtain ⟨hactive, hmarks⟩ := startHoming_leaves hs
    rw [← hmarks]
    exact pollCycle_leaves s cancel _ polls tick _ _ hactive h

/-- A run of the groups that are left, while what has been homed so far is marked. -/
theorem runCycles_describes (s : SimulationSettings α) (safety : SafetyInputs) (cancel : CancelSchedule)
    (polls tick : Nat) {homed : AxisMask} {groups : List AxisMask} {report : HomingReport} (hm : homed ⊆ c.marks)
    (h : (runCycles s safety cancel polls tick homed groups c).result = .ok report) :
    report.Describes (runCycles s safety cancel polls tick homed groups c).controller.marks := by
  induction groups generalizing polls tick homed c with
  | nil =>
    cases h
    exact hm
  | cons axes rest ih =>
    have hl : ∀ ending, (runCycle s safety cancel polls tick axes c).result = .ok ending → _ := fun ending =>
      runCycle_leaves s safety cancel polls tick
    rw [runCycles] at h ⊢
    generalize runCycle s safety cancel polls tick axes c = cycle at h hl ⊢
    obtain ⟨result, polls, tick, after⟩ := cycle
    rcases result with e | ended | reason
    · cases h
    · obtain ⟨rfl, hmarks⟩ := hl _ rfl
      refine ih polls tick (fun axis ha => ?_) h
      have hb := hm axis
      rw [hmarks]
      simp only [AxisMask.contains_or, AxisMask.contains_sub] at ha ⊢
      grind
    · have hmarks : after.marks = c.marks - axes := hl _ rfl
      cases h
      intro axis
      have hb := hm axis
      rw [hmarks, AxisMask.contains_sub]
      grind

end Simulation

/-- For every simulated machine, command, table of switches and schedule of cancels, a report of homing
describes the marks at the moment it is given, with a log or without. -/
theorem SimulatedMachine.home_describes (m : SimulatedMachine α) (command : String) (safety : SafetyInputs)
    (cancel : CancelSchedule) (logged : Bool) {report : HomingReport}
    (h : (m.home command safety cancel logged).result = .ok report) :
    report.Describes (m.home command safety cancel logged).controller.marks := by
  rw [home] at h ⊢
  cases hr : m.controller.resolveHoming command with
  | error e =>
    rw [hr] at h
    cases h
  | ok groups =>
    have hm : AxisMask.none ⊆ m.controller.marks := fun _ ha => by simp at ha
    have hrun := fun report => @Simulation.runCycles_describes α _ m.controller m.settings safety cancel 0 0 .none
      groups report hm
    rw [hr] at h
    dsimp only at h ⊢
    generalize Simulation.runCycles m.settings safety cancel 0 0 .none groups m.controller = run at h hrun ⊢
    -- A line for the log that cannot be written leaves no report.
    split at h
    · cases h
    · exact hrun report h

/-- Z has been homed when the switch of Y is not found, and is the only axis marked. -/
theorem SimulatedMachine.z_marked_after_abort : ∃ c : Controller Float,
    Controller.ofMachine .builtin default = .ok c ∧
    let run := (new c { ticksPerApproach := 2, tripAt := [some 1.0, none, some 1.0] }).home "" {} fun _ _ => none
    run.result = .ok (.aborted ⟨0b100⟩ ⟨0b011⟩ .approachFailed) ∧
    (HomingReport.aborted ⟨0b100⟩ ⟨0b011⟩ .approachFailed).Describes run.controller.marks := by
  refine ⟨_, rfl, ?_⟩
  intro run
  have hr : run.result = .ok (.aborted ⟨0b100⟩ ⟨0b011⟩ .approachFailed) := by
    decide +kernel
  exact ⟨hr, home_describes _ _ _ _ true hr⟩

/-- Z is homed, and loses its mark when it is homed again and that is cancelled. The report lists it as
homed, with no axis marked. -/
theorem SimulatedMachine.axis_homed_again_not_marked : ∃ c : Controller Float,
    Controller.ofMachine .builtin default = .ok c ∧
    let run := (new c { ticksPerApproach := 2, tripAt := List.replicate 3 (some 1.0) }).home "11" {}
      fun _ tick => if tick < 2 then none else some .cancelled
    run.result = .ok (.aborted ⟨0b100⟩ ⟨0b100⟩ .cancelled) ∧ run.controller.marks = .none ∧
    ¬ ∀ axis, (⟨0b100⟩ : AxisMask).contains axis = true → run.controller.marks.contains axis = true := by
  refine ⟨_, rfl, ?_⟩
  intro run
  have hm : run.controller.marks = .none := by
    decide +kernel
  refine ⟨by decide +kernel, hm, ?_⟩
  intro h
  have h2 := h 2 (by decide)
  rw [hm] at h2
  cases h2

end MotionControl
