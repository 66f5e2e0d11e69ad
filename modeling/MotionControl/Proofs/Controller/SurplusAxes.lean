import MotionControl.Proofs.Controller.TrackedMotors
import MotionControl.Proofs.Kinematics.JogCuts

/-! Moves to a target with too few or too many values. They are turned away, but for a jog with values to
spare that leaves the workspace: drawn back to the boundary, it has lost what was too many. -/
namespace MotionControl
variable {α σ : Type} [Scalar α]

/-- A jog from one position to another leaves the workspace of a machine. -/
def MachineDescription.Leaves (machine : MachineDescription α) : AxisPosition α → AxisPosition α → Prop :=
  match machine.kinematics with
  | .parallelDelta geometry => RotaryDelta.Leaves geometry
  | _ => fun _ target => SoftLimits.contains ⟨machine.softLimits⟩ target = false

namespace KinematicsCatalog
variable {catalog : KinematicsCatalog α} {machine : MachineDescription α} {model : MachineModel α}

theorem drawsBack [StrictlyOrderedScalar α] (hc : catalog.create machine = .ok model)
    (hb : ∀ name params, machine.kinematics ≠ .custom name params) :
    DrawsBack model.kinematics model.axisCount machine.Leaves := by
  cases builtInModel hc hb with
  | cartesian selected valid =>
    rw [MachineDescription.Leaves, selected]
    exact SoftLimits.drawsBack valid rfl
  | coreXY selected valid =>
    rw [MachineDescription.Leaves, selected]
    exact SoftLimits.drawsBack (CoreXY.validate_eq_ok.mp valid).2.2.2 rfl
  | parallelDelta selected valid =>
    rw [MachineDescription.Leaves, selected]
    exact RotaryDelta.drawsBack valid

end KinematicsCatalog

namespace Controller
variable {c : Controller α} {planner : Planner α σ} {state : σ} {move guarded : Move α}
  {current : AxisPosition α} {failure : Failure MotionError}

/-- A move fails before the planner is offered anything, and the tracked motors stay where they are. -/
structure TurnedAway (c : Controller α) (planner : Planner α σ) (state : σ) (move : Move α)
    (failure : Failure MotionError) : Prop where
  result : (c.moveTo planner.recorded (state, []) move).result = .error failure
  offered : (c.moveTo planner.recorded (state, []) move).planner = (state, [])
  motors : (c.moveTo planner.recorded (state, []) move).controller.motors = c.motors

/-- A jog to a target with values to spare leaves the workspace. -/
structure LeavesWithSurplus (machine : MachineDescription α) (axisCount : Nat) (move : Move α)
    (current : AxisPosition α) : Prop where
  isJog : move.isJog = true
  surplus : axisCount < move.target.length
  leaves : machine.Leaves current move.target

theorem turnedAway_of_lineSegments (h : c.lineSegments move = .error failure) :
    c.TurnedAway planner state move failure := by
  have hm : c.moveTo planner.recorded (state, []) move = ⟨.error failure, (c.ticket move).2, (state, [])⟩ := by
    rw [moveTo, h]
  refine ⟨?_, ?_, ?_⟩
  · rw [hm]
  · rw [hm]
  · rw [hm]
    exact motors_ticket c move

/-- Whatever its guard has made of a move, its target must have a value for each axis. -/
theorem turnedAway_of_guard (hp : c.position = .ok current) (hg : c.model.guardJog move current = .ok guarded)
    (hl : guarded.target.length ≠ c.model.axisCount) :
    c.TurnedAway planner state move (.refused (.invalidTarget (c.outside guarded.target))) := by
  have hi : c.model.invalidLine guarded.target = true := by
    rw [MachineModel.invalidLine, bne_iff_ne.mpr hl, Bool.true_or]
  apply turnedAway_of_lineSegments
  rw [lineSegments, hp]
  dsimp only [Checked.lift, bind, Except.bind]
  rw [hg]
  dsimp only
  rw [if_pos hi]
  rfl

theorem lineSegments_congr {other : Move α} (hp : c.position = .ok current)
    (hg : c.model.guardJog other current = c.model.guardJog move current) :
    c.lineSegments other = c.lineSegments move := by
  rw [lineSegments, lineSegments, hp]
  dsimp only [Checked.lift, bind, Except.bind]
  rw [hg]

variable {catalog : KinematicsCatalog α} {machine : MachineDescription α}

/-- A target whose length is not the number of axes is turned away by every machine with built-in
kinematics, unless it is that of a jog with values to spare which leaves the workspace. That jog is the
same as the one without the spare values. -/
theorem moveTo_of_length_ne [StrictlyOrderedScalar α] (hr : Reachable catalog machine c)
    (hb : ∀ name params, machine.kinematics ≠ .custom name params) (planner : Planner α σ) (state : σ)
    (hl : move.target.length ≠ c.model.axisCount) :
    (∀ fault, c.position = .error fault → c.TurnedAway planner state move (.fault fault)) ∧
    ∀ current, c.position = .ok current →
      (¬ LeavesWithSurplus machine c.model.axisCount move current →
        ∃ reason, c.TurnedAway planner state move (.refused (.invalidTarget reason))) ∧
      (LeavesWithSurplus machine c.model.axisCount move current → c.moveTo planner state move =
        c.moveTo planner state { move with target := move.target.take c.model.axisCount }) := by
  have hd := KinematicsCatalog.drawsBack hr.create hb
  refine ⟨fun fault hp => turnedAway_of_lineSegments ?_, fun current hp => ⟨fun hn => ?_, fun hs => ?_⟩⟩
  · rw [lineSegments, hp]
    rfl
  · have hc := KinematicsCatalog.length_of_forward hr.create hb hp
    by_cases hj : move.isJog = true
    · have hg : c.model.guardJog move current = c.model.constrainJog move current := if_pos hj
      by_cases hw : machine.Leaves current move.target
      · obtain ⟨target, ht, htl⟩ := hd.drawn hw
        have hshort : move.target.length < c.model.axisCount :=
          Nat.lt_of_le_of_ne (Nat.le_of_not_lt fun h => hn ⟨hj, h, hw⟩) hl
        refine ⟨_, turnedAway_of_guard hp (hg.trans ht) ?_⟩
        dsimp only
        omega
      · exact ⟨_, turnedAway_of_guard hp (hg.trans (hd.kept hw)) hl⟩
    · exact ⟨_, turnedAway_of_guard hp (if_neg hj) hl⟩
  · have hc := KinematicsCatalog.length_of_forward hr.create hb hp
    have hg : c.model.guardJog { move with target := move.target.take c.model.axisCount } current =
        c.model.guardJog move current := by
      rw [MachineModel.guardJog, MachineModel.guardJog, if_pos hs.isJog, if_pos hs.isJog]
      exact hd.surplus hc hs.leaves
    rw [moveTo, moveTo, lineSegments_congr hp hg]
    rfl

/-- A line to a target without a value for Y is turned away. -/
theorem line_without_y_turned_away : ∃ c : Controller Float, Reachable .builtin confinedMachine c ∧
    (∀ name params, confinedMachine.kinematics ≠ .custom name params) ∧
    (Move.linear ⟨[-100.0]⟩ 600.0).target.length ≠ c.model.axisCount ∧
    ∃ reason, c.TurnedAway SegmentQueue.planner { capacity := 4 } (.linear ⟨[-100.0]⟩ 600.0)
      (.refused (.invalidTarget reason)) := by
  have hb : ∀ name params, confinedMachine.kinematics ≠ .custom name params := fun _ _ => nofun
  obtain ⟨c, hc⟩ : ∃ c, Controller.ofMachine .builtin confinedMachine = .ok c := ⟨_, rfl⟩
  obtain ⟨current, hp⟩ : ∃ current, c.position = .ok current := by
    cases hc
    exact ⟨_, rfl⟩
  have hl : (Move.linear ⟨[-100.0]⟩ 600.0).target.length ≠ c.model.axisCount := by
    cases hc
    decide
  obtain ⟨-, hrest⟩ := moveTo_of_length_ne (.start hc) hb SegmentQueue.planner { capacity := 4 } hl
  exact ⟨c, .start hc, hb, hl, (hrest current hp).1 fun hs => nomatch hs.isJog⟩

/-- A jog to a target with three values, beyond the end of the travel of X, is accepted by a machine with
two axes. -/
theorem jog_with_third_value_accepted : ∃ c : Controller Float, Reachable .builtin confinedMachine c ∧
    (Move.jog ⟨[-400.0, 10.0, 7.0]⟩ 600.0).target.length ≠ c.model.axisCount ∧
    (c.moveTo SegmentQueue.planner.recorded ({ capacity := 4 }, [])
      (.jog ⟨[-400.0, 10.0, 7.0]⟩ 600.0)).result.toOption = some 1 ∧
    ¬ ∃ reason, c.TurnedAway SegmentQueue.planner { capacity := 4 } (.jog ⟨[-400.0, 10.0, 7.0]⟩ 600.0)
      (.refused (.invalidTarget reason)) := by
  obtain ⟨c, hc⟩ : ∃ c, Controller.ofMachine .builtin confinedMachine = .ok c := ⟨_, rfl⟩
  have hr : (c.moveTo SegmentQueue.planner.recorded ({ capacity := 4 }, [])
      (.jog ⟨[-400.0, 10.0, 7.0]⟩ 600.0)).result.toOption = some 1 := by
    cases hc
    decide +kernel
  refine ⟨c, .start hc, ?_, hr, ?_⟩
  · cases hc
    decide
  · rintro ⟨reason, ht⟩
    rw [ht.result] at hr
    cases hr

end Controller

end MotionControl
