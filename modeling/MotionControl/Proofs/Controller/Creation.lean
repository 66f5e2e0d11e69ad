import MotionControl.Proofs.Kinematics.ValueCounts
import MotionControl.Controller
import MotionControl.Machine.Validation
import MotionControl.Proofs.Guards
import MotionControl.Proofs.Outcomes
import MotionControl.Scalar.Binary64

/-! Creating a controller for a machine whose description is in range. Its tolerances are accepted again, so
only its geometry can be refused; its home switches are looked at for the first time. -/
namespace MotionControl
open Scalar
variable {α : Type} [Scalar α]

/-- Whether the home switch of an axis is at a finite position and is sought within a finite distance. -/
def AxisSettings.HomesFinitely (axis : AxisSettings α) : Prop :=
  isFinite (HomingSequence.seekDistance axis) = true ∧ isFinite (HomingSequence.homePosition axis) = true

theorem AxisPosition.new_eq_error {values : List α} {fault : Fault} :
    AxisPosition.new values = .error fault ↔ fault = .notFinite ∧ ∃ value ∈ values, isFinite value = false := by
  rw [AxisPosition.new]
  cases h : values.all isFinite with
  | true =>
    rw [List.all_eq_true] at h
    simp +contextual [h]
  | false =>
    simp only [List.all_eq_false, Bool.not_eq_true] at h
    simp [h, eq_comm (a := fault)]

theorem MotionSettings.validate_eq_ok {motion : MotionSettings α} : motion.validate = .ok () ↔
    isPositive motion.segmentTolerance = true ∧ isPositive motion.arcTolerance = true ∧
      ¬ (motion.maxSegmentDepth = 0 ∨ MotionControl.maxSegmentDepth < motion.maxSegmentDepth) := by
  rw [MotionSettings.validate]
  cases isPositive motion.segmentTolerance <;> cases isPositive motion.arcTolerance <;> simp

theorem MotionSettings.validate_default : (default : MotionSettings ℝ).validate = .ok () := by
  apply MotionSettings.validate_eq_ok.mpr
  refine ⟨?_, ?_, ?_⟩
  · norm_num [isPositive, default]
  · norm_num [isPositive, default]
  · change ¬ ((12 : UInt32) = 0 ∨ MotionControl.maxSegmentDepth < 12)
    decide

/-- The axes, the tolerances and the kinematics of a machine are checked one after the other. -/
theorem MachineDescription.motion_of_validate {machine : MachineDescription α}
    (h : machine.validate = .ok ()) : machine.motion.validate = .ok () := by
  rw [MachineDescription.validate] at h
  obtain ⟨-, h⟩ := Guards.refuse_first_eq_ok.mp h
  obtain ⟨-, h⟩ := Guards.bind_eq_ok.mp h
  exact (Guards.bind_eq_ok.mp h).1

theorem Subdivision.ofSettings_of_validate {motion : MotionSettings α} (h : motion.validate = .ok ()) :
    Subdivision.ofSettings motion = .ok ⟨motion.segmentTolerance, motion.maxSegmentDepth⟩ := by
  obtain ⟨hs, -, hd⟩ := MotionSettings.validate_eq_ok.mp h
  rw [ofSettings, new, hs, if_neg (by decide), if_neg hd]

namespace HomingSequence
variable {machine : MachineDescription α}

theorem ofMachine_eq_error {fault : Fault} :
    ofMachine machine = .error fault ↔ fault = .notFinite ∧ ∃ axis ∈ machine.axes, ¬ axis.HomesFinitely := by
  simp only [ofMachine, Outcome.bind_eq_error, AxisPosition.new_eq_error, Outcome.pure_ne_error, and_false,
    exists_false, or_false, List.mem_map, exists_exists_and_eq_and, AxisSettings.HomesFinitely, not_and_or,
    Bool.not_eq_true]
  constructor
  · rintro (⟨rfl, axis, ha, hf⟩ | ⟨_, -, rfl, axis, ha, hf⟩)
    · exact ⟨rfl, axis, ha, .inl hf⟩
    · exact ⟨rfl, axis, ha, .inr hf⟩
  · rintro ⟨rfl, axis, ha, hf⟩
    cases hs : (AxisPosition.new (machine.axes.map seekDistance) : Checked (AxisPosition α)) with
    | error fault =>
      obtain ⟨-, value, hv, hn⟩ := AxisPosition.new_eq_error.mp hs
      obtain ⟨other, ho, rfl⟩ := List.mem_map.mp hv
      exact .inl ⟨rfl, other, ho, hn⟩
    | ok seek => exact hf.imp (fun hn => ⟨rfl, axis, ha, hn⟩) fun hn => ⟨seek, rfl, rfl, axis, ha, hn⟩

end HomingSequence

namespace Controller
variable {catalog : KinematicsCatalog α} {machine : MachineDescription α} {model : MachineModel α}
  {motors : MotorPosition α} {logged : Bool}

theorem logPosition_eq_ok : logPosition model motors logged = .ok () ↔
    (logged = true → ∃ p, model.forward motors model.axisCount = .ok p) := by
  rw [logPosition]
  cases logged with
  | false => simp
  | true => cases model.forward motors model.axisCount <;> simp [Except.map]

theorem logPosition_eq_error {fault : Fault} : logPosition model motors logged = .error fault ↔
    logged = true ∧ model.forward motors model.axisCount = .error fault := by
  rw [logPosition]
  cases logged with
  | false => simp
  | true => cases model.forward motors model.axisCount <;> simp [Except.map]

/-- With tolerances in range, a machine has its controller once its kinematics, the line for the log and its
home switches do. -/
theorem ofMachine_of_motion (hm : machine.motion.validate = .ok ()) :
    ofMachine catalog machine logged = do
      let model ← Outcome.ofExcept (catalog.create machine)
      Checked.lift (logPosition model model.initPosition logged)
      let homing ← Checked.lift (HomingSequence.ofMachine machine)
      return {
        model
        subdivision := ⟨machine.motion.segmentTolerance, machine.motion.maxSegmentDepth⟩
        arcTolerance := machine.motion.arcTolerance
        homing
        motors := model.initPosition } := by
  obtain ⟨-, ha, -⟩ := MotionSettings.validate_eq_ok.mp hm
  rw [ofMachine, Subdivision.ofSettings_of_validate hm]
  dsimp only
  rw [ha]
  rfl

/-- The controller of a machine whose home switches are at exact positions. -/
noncomputable def exact (machine : MachineDescription ℝ) (model : MachineModel ℝ) : Controller ℝ where
  model := model
  subdivision := ⟨machine.motion.segmentTolerance, machine.motion.maxSegmentDepth⟩
  arcTolerance := machine.motion.arcTolerance
  homing := {
    groups := .ofMachine machine
    seek := ⟨machine.axes.map HomingSequence.seekDistance⟩
    home := ⟨machine.axes.map HomingSequence.homePosition⟩ }
  motors := model.initPosition

theorem ofMachine_real {catalog : KinematicsCatalog ℝ} {machine : MachineDescription ℝ} {model : MachineModel ℝ}
    (hc : catalog.create machine = .ok model) (hm : machine.motion.validate = .ok ())
    (hp : ∃ start, model.forward model.initPosition model.axisCount = .ok start) :
    ofMachine catalog machine logged = .ok (exact machine model) := by
  have hlog : logPosition model model.initPosition logged = .ok () := logPosition_eq_ok.mpr fun _ => hp
  rw [ofMachine_of_motion hm, hc, HomingSequence.ofMachine, AxisPosition.new_real, AxisPosition.new_real]
  change (Checked.lift (logPosition model model.initPosition logged) >>= _) = _
  rw [hlog]
  rfl

theorem ofMachine_builtIn {catalog : KinematicsCatalog ℝ} {machine : MachineDescription ℝ} {model : MachineModel ℝ}
    (hc : catalog.create machine = .ok model) (hm : machine.motion.validate = .ok ())
    (hb : ∀ name params, machine.kinematics ≠ .custom name params) :
    ofMachine catalog machine logged = .ok (exact machine model) :=
  ofMachine_real hc hm (KinematicsCatalog.exists_forward hc hb _ _)

/-- On a machine that is in range, the creation of the controller is broken off exactly when the kinematics
suits the machine and has no position for the log at power-up, or some home switch is not met at finite
values. Otherwise there is a controller or a reason why there is none. -/
theorem ofMachine_broken_off_iff (hv : machine.validate = .ok ()) {fault : Fault} :
    ofMachine catalog machine logged = .error (.fault fault) ↔
      ∃ model, catalog.create machine = .ok model ∧
        (logged = true ∧ model.forward model.initPosition model.axisCount = .error fault ∨
          (logged = true → ∃ start, model.forward model.initPosition model.axisCount = .ok start) ∧
            fault = .notFinite ∧ ∃ axis ∈ machine.axes, ¬ axis.HomesFinitely) := by
  rw [ofMachine_of_motion (MachineDescription.motion_of_validate hv)]
  simp only [Outcome.bind_eq_error, Outcome.ofExcept_ne_fault, Outcome.ofExcept_eq_ok, Outcome.lift_eq_fault,
    Outcome.lift_eq_ok, Outcome.pure_ne_error, and_false, exists_false, or_false, false_or,
    HomingSequence.ofMachine_eq_error, logPosition_eq_error]
  refine exists_congr fun model => and_congr_right fun _ => or_congr_right ?_
  rw [← logPosition_eq_ok]
  constructor
  · rintro ⟨⟨⟩, h⟩
    exact h
  · exact fun h => ⟨(), h⟩

theorem cartesian_starts_at_zero :
    Cartesian.forward (MotorPosition.zeros 1 : MotorPosition Float) 1 = .ok (AxisPosition.zeros 1) := by
  decide +kernel

/-- An axis whose home switch is sought at rates that are not finite. -/
def rateless : MachineDescription Float :=
  { (default : MachineDescription Float) with
    axes := [{ AxisSettings.homedIn "X" 300.0 1 with
      homing := some { (default : AxisHoming Float) with seekRate := 0.0 / 0.0, feedRate := 1.0 / 0.0 } }] }

/-- Such rates are in range, and do no harm. -/
theorem rateless_created : rateless.validate = .ok () ∧
    ∀ fault, ofMachine .builtin rateless ≠ .error (.fault fault) := by
  have hv : rateless.validate = .ok () := by
    decide +kernel
  refine ⟨hv, fun fault h => ?_⟩
  obtain ⟨model, hm, ⟨-, hp⟩ | ⟨-, -, axis, ha, hn⟩⟩ := (ofMachine_broken_off_iff hv).mp h
  · obtain rfl := Except.ok.inj hm
    cases hp.symm.trans cartesian_starts_at_zero
  · obtain rfl := List.mem_singleton.mp ha
    exact hn ⟨by decide +kernel, by decide +kernel⟩

/-- An axis so long that its home switch is not sought within a finite distance. -/
def overlong : MachineDescription Float :=
  { (default : MachineDescription Float) with axes := [.homedIn "X" (1.7e154 * 1e154) 1] }

theorem overlong_broken_off : overlong.validate = .ok () ∧
    ofMachine .builtin overlong = .error (.fault .notFinite) := by
  have hv : overlong.validate = .ok () := by
    decide +kernel
  have hn : ¬ (AxisSettings.homedIn "X" (1.7e154 * 1e154 : Float) 1).HomesFinitely := by
    rw [AxisSettings.HomesFinitely]
    decide +kernel
  exact ⟨hv, (ofMachine_broken_off_iff hv).mpr
    ⟨_, rfl, .inr ⟨fun _ => ⟨_, cartesian_starts_at_zero⟩, rfl, _, List.mem_singleton_self _, hn⟩⟩⟩

end Controller

end MotionControl
