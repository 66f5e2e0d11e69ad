import MotionControl.Proofs.Axes.Masks
import MotionControl.Proofs.Controller.TrackedMotors
import MotionControl.Proofs.Homing.Calls
import MotionControl.Proofs.Homing.SwitchCycles
import MotionControl.Scalar.Binary64

/-! The poll that ends a homing cycle changes two things, the marks of the homed axes and the tracked
motor position. They stay in step as long as the kinematics has a motor position for the home switches. -/
namespace MotionControl
variable {α : Type} [Scalar α]

namespace Controller
variable {c : Controller α} {poll : HomingPoll} {step : HomingStep}
  {homing : HomingSequence α} {outcome : HomingOutcome}

/-- A poll that fails changes nothing, and an axis is marked as homed only when the tracked motors have
moved to where it is homed. -/
structure StaysInStep (c : Controller α) (poll : HomingPoll) : Prop where
  unchanged : ∀ e, (c.homingStep poll).1 = .error e →
    (c.homingStep poll).2.homing = c.homing ∧ (c.homingStep poll).2.motors = c.motors
  moved : ∀ axis, c.homing.status.homed.contains axis = false →
    (c.homingStep poll).2.homing.status.homed.contains axis = true →
      ∃ axes, axes.contains axis = true ∧ c.model.kinematics.homedPosition axes c.motors c.homing.home =
        .ok (c.homingStep poll).2.motors

theorem transition_of_step (h : c.homing.step c.model poll = .ok (step, homing)) :
    HomingSequence.Transition c.model c.homing (.step poll) (.stepped step) homing := by
  apply HomingSequence.perform_transition
  rw [HomingSequence.perform, h]

/-- The answers of the sequence that end no cycle, or end it without a mark. -/
theorem homingStep_of_pending (h : c.homing.step c.model poll = .ok (step, homing))
    (hs : ∀ outcome, step ≠ .done outcome) :
    c.homingStep poll = (.ok step, { c with homing }) ∧ homing.status.homed = c.homing.status.homed := by
  rw [homingStep, h]
  cases transition_of_step h with
  | waited => exact ⟨rfl, rfl⟩
  | reported => exact ⟨rfl, rfl⟩
  | aborted => exact ⟨rfl, rfl⟩
  | done => exact absurd rfl (hs _)

theorem of_step_done (h : c.homing.step c.model poll = .ok (.done outcome, homing)) :
    (∃ cycle, c.homing.active = some cycle) ∧ homing.active = none ∧ homing.home = c.homing.home ∧
      homing.status.homed = c.homing.status.homed ||| outcome.homed := by
  cases transition_of_step h with
  | done active => exact ⟨⟨_, active⟩, rfl, rfl, rfl⟩

theorem homingStep_of_pose (h : c.homing.step c.model poll = .ok (.done outcome, homing))
    {motors : MotorPosition α}
    (hm : c.model.kinematics.homedPosition outcome.homed c.motors c.homing.home = .ok motors) :
    c.homingStep poll = (.ok (.done outcome), { c with homing, motors }) := by
  rw [← (of_step_done h).2.2.1] at hm
  have hf : ({ c with homing } : Controller α).finishHoming outcome.homed = .ok { c with homing, motors } :=
    finishHoming_eq_ok.mpr ⟨motors, hm, rfl⟩
  rw [homingStep, h]
  dsimp only
  rw [hf]
  rfl

/-- The homed axes have no motor position. The sequence has been moved on all the same. -/
theorem homingStep_of_no_pose (h : c.homing.step c.model poll = .ok (.done outcome, homing))
    {failure : Failure KinematicsError}
    (hm : c.model.kinematics.homedPosition outcome.homed c.motors c.homing.home = .error failure) :
    ∃ e, c.homingStep poll = (.error e, { c with homing }) := by
  have hf : ({ c with homing } : Controller α).finishHoming outcome.homed = .error failure := by
    rw [finishHoming, (of_step_done h).2.2.1, hm]
    rfl
  rw [homingStep, h]
  dsimp only
  rw [hf]
  cases failure with
  | refused => exact ⟨_, rfl⟩
  | fault => exact ⟨_, rfl⟩

/-- All that an answered poll can have done. -/
theorem of_homingStep {after : Controller α} (h : c.homingStep poll = (.ok step, after)) :
    ∃ homing, c.homing.step c.model poll = .ok (step, homing) ∧
      ((∀ outcome, step ≠ .done outcome) ∧ after = { c with homing } ∨
        ∃ outcome motors, step = .done outcome ∧
          c.model.kinematics.homedPosition outcome.homed c.motors c.homing.home = .ok motors ∧
          after = { c with homing, motors }) := by
  cases hs : c.homing.step c.model poll with
  | error e =>
    rw [homingStep, hs] at h
    cases h
  | ok answer =>
    obtain ⟨answered, homing⟩ := answer
    by_cases hd : ∃ outcome, answered = .done outcome
    · obtain ⟨outcome, rfl⟩ := hd
      cases hm : c.model.kinematics.homedPosition outcome.homed c.motors c.homing.home with
      | error failure =>
        obtain ⟨e, he⟩ := homingStep_of_no_pose hs hm
        rw [he] at h
        cases h
      | ok motors =>
        rw [homingStep_of_pose hs hm] at h
        cases h
        exact ⟨homing, rfl, .inr ⟨outcome, motors, rfl, hm, rfl⟩⟩
    · have hpending (outcome : HomingOutcome) : answered ≠ .done outcome := fun he => hd ⟨outcome, he⟩
      rw [(homingStep_of_pending hs hpending).1] at h
      cases h
      exact ⟨homing, rfl, .inl ⟨hpending, rfl⟩⟩

private theorem staysInStep_of_unmarked {after : Controller α} (hc : c.homingStep poll = (.ok step, after))
    (hh : after.homing.status.homed = c.homing.status.homed) : c.StaysInStep poll where
  unchanged e he := by
    rw [hc] at he
    cases he
  moved axis hn hm := by
    rw [hc, hh, hn] at hm
    cases hm

theorem staysInStep_of_pose (hp : ∀ outcome homing, c.homing.step c.model poll = .ok (.done outcome, homing) →
      ∃ motors, c.model.kinematics.homedPosition outcome.homed c.motors c.homing.home = .ok motors) :
    c.StaysInStep poll := by
  cases hs : c.homing.step c.model poll with
  | error e =>
    have hc : c.homingStep poll = (refuse (.homing e), c) := by rw [homingStep, hs]
    refine ⟨?_, ?_⟩
    · intro _ _
      rw [hc]
      exact ⟨rfl, rfl⟩
    · intro axis hn hm
      rw [hc, hn] at hm
      cases hm
  | ok answer =>
    obtain ⟨step, homing⟩ := answer
    by_cases hd : ∃ outcome, step = .done outcome
    · obtain ⟨outcome, rfl⟩ := hd
      obtain ⟨motors, hm⟩ := hp outcome homing hs
      have hc := homingStep_of_pose hs hm
      refine ⟨?_, ?_⟩
      · intro e he
        rw [hc] at he
        cases he
      · intro axis hn hmark
        rw [hc, (of_step_done hs).2.2.2, AxisMask.contains_or, hn, Bool.false_or] at hmark
        rw [hc]
        exact ⟨outcome.homed, hmark, hm⟩
    · obtain ⟨hc, hh⟩ := homingStep_of_pending hs fun outcome he => hd ⟨outcome, he⟩
      exact staysInStep_of_unmarked hc hh

/-- A poll keeps the marks and the tracked motors in step exactly when it does not end a cycle whose axes
have no motor position at their home switches. -/
theorem homingStep_staysInStep_iff (c : Controller α) (poll : HomingPoll) : c.StaysInStep poll ↔
    ∀ outcome homing, c.homing.step c.model poll = .ok (.done outcome, homing) →
      ∃ motors, c.model.kinematics.homedPosition outcome.homed c.motors c.homing.home = .ok motors := by
  constructor
  · intro hk outcome homing h
    cases hm : c.model.kinematics.homedPosition outcome.homed c.motors c.homing.home with
    | ok motors => exact ⟨motors, rfl⟩
    | error failure =>
      obtain ⟨e, he⟩ := homingStep_of_no_pose h hm
      obtain ⟨⟨cycle, ha⟩, hn, -⟩ := of_step_done h
      have hu := (hk.unchanged e (by rw [he])).1
      rw [he] at hu
      rw [← hu, hn] at ha
      cases ha
  · exact staysInStep_of_pose

/-- X and Y, bent by the square of Y as far as 100 millimetres. The switch of Y is at 150. -/
def bentMachine : MachineDescription Float :=
  { (default : MachineDescription Float) with
    kinematics := .custom "bent" ((∅ : NameTable Float).insert "limit" 100.0)
    axes := [.homedIn "X" 200.0 1,
      { AxisSettings.homedIn "Y" 200.0 2 with
        homing := some { (default : AxisHoming Float) with cycle := 2, homePosition := 150.0 } }] }

/-- Y is marked as homed by a poll that is refused, and the motors have not moved. -/
theorem bent_homed_without_pose : ∃ c,
    Reachable (KinematicsCatalog.builtin.register "bent" (Plugins.constructor "bent")) bentMachine c ∧
    (∃ target, (c.homingStep { limited := ⟨0b10⟩ }).1 =
      .error (.refused (.kinematics (.infeasible "bent" target "beyond limit")))) ∧
    c.homing.status = ⟨.none, .cycleActive ⟨0b10⟩⟩ ∧
    (c.homingStep { limited := ⟨0b10⟩ }).2.homing.status = ⟨⟨0b10⟩, .done ⟨0b10⟩⟩ ∧
    (c.homingStep { limited := ⟨0b10⟩ }).2.motors = c.motors ∧ ¬ c.StaysInStep { limited := ⟨0b10⟩ } := by
  obtain ⟨fresh, hf⟩ : ∃ fresh, ofMachine
    (KinematicsCatalog.builtin.register "bent" (Plugins.constructor "bent")) bentMachine = .ok fresh := ⟨_, rfl⟩
  refine ⟨(fresh.startHoming ⟨0b10⟩ {}).2, .step (.start hf) (.startHoming _ _), ?_⟩
  cases hf
  refine ⟨⟨_, rfl⟩, rfl, rfl, rfl, ?_⟩
  intro hk
  have hs : (⟨⟨0b10⟩, .done ⟨0b10⟩⟩ : HomingStatus) = ⟨.none, .cycleActive ⟨0b10⟩⟩ :=
    congrArg HomingSequence.status (hk.unchanged _ rfl).1
  exact absurd hs (by decide)

end Controller

namespace KinematicsCatalog
variable {catalog : KinematicsCatalog α} {machine : MachineDescription α} {model : MachineModel α}

/-- Built-in kinematics have a motor position for all home switches, once they have an axis position to
start from. -/
theorem exists_homedPosition (hc : catalog.create machine = .ok model)
    (hb : ∀ name params, machine.kinematics ≠ .custom name params) {current : MotorPosition α}
    (hl : current.length = model.axisCount) {p : AxisPosition α}
    (hp : model.forward current model.axisCount = .ok p) (axes : AxisMask) (home : AxisPosition α) :
    ∃ motors, model.kinematics.homedPosition axes current home = .ok motors := by
  rw [← hl] at hp
  cases builtInModel hc hb with
  | cartesian => exact ⟨_, Outcome.bind_eq_ok.mpr ⟨p, Outcome.lift_eq_ok.mpr hp, rfl⟩⟩
  | @coreXY _ xScaler _ valid =>
    have h2 : 2 ≤ p.length := by
      rw [CoreXY.length_of_forward hp, hl]
      exact (CoreXY.of_validate valid).1
    obtain ⟨motors, hm⟩ := CoreXY.exists_inverse xScaler (p := ⟨p.values.mapIdx fun axis value =>
      if axis < maxAxes && axes.contains axis then home.axis axis else value⟩) (by
        rw [AxisPosition.length, List.length_mapIdx]
        exact h2)
    exact ⟨motors, Outcome.bind_eq_ok.mpr ⟨p, Outcome.lift_eq_ok.mpr hp, hm⟩⟩
  | parallelDelta => exact ⟨_, rfl⟩

end KinematicsCatalog

/-- On a machine with built-in kinematics, the marks and the tracked motors stay in step at every poll, as
long as the tracked motors stand at a position. -/
theorem Controller.Reachable.staysInStep {catalog : KinematicsCatalog α} {machine : MachineDescription α}
    {c : Controller α} (hr : Reachable catalog machine c)
    (hb : ∀ name params, machine.kinematics ≠ .custom name params) {p : AxisPosition α}
    (hp : c.position = .ok p) (poll : HomingPoll) : c.StaysInStep poll :=
  staysInStep_of_pose fun outcome _ _ =>
    KinematicsCatalog.exists_homedPosition hr.create hb (hr.channelled hb) hp outcome.homed c.homing.home

end MotionControl
