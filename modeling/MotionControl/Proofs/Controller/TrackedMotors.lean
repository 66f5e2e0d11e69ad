import MotionControl.Proofs.Controller.Feasible
import MotionControl.Proofs.Kinematics.ValueCounts

/-! The tracked motors of a machine with built-in kinematics have a channel for each axis, whatever calls
are made. -/
namespace MotionControl
variable {α σ : Type} [Scalar α]

namespace Controller
variable {c c' : Controller α}

/-- There is a channel for each axis. -/
def Channelled (c : Controller α) : Prop := c.motors.length = c.model.axisCount

theorem channelled_perform (hk : KeepsLength c.model.kinematics) (hc : c.Channelled) (planner : Planner α σ)
    (state : σ) (command : MotionCommand α) : (c.perform planner state command).controller.Channelled := by
  obtain ⟨result, after, last, record, count, hr, ho⟩ := c.recorded_offered planner state command
  have hm := model_perform c planner state command
  rw [← unrecorded_perform, hr, MoveReport.unrecorded] at hm ⊢
  rw [Channelled, hm, ho.motors, motorsAfter]
  cases hl : ((c.planned command).take count).getLast? with
  | none => exact hc
  | some segment =>
    have hs := passed_of_planned (List.mem_of_mem_take (List.mem_of_getLast? hl))
    obtain ⟨ht, hi⟩ := MachineModel.inverse_eq_ok.mp hs.1
    exact (hk.inverse hi).trans ht

theorem channelled_homingStep (hk : KeepsLength c.model.kinematics) (hc : c.Channelled) (poll : HomingPoll) :
    (c.homingStep poll).2.Channelled := by
  obtain h | ⟨step, homing, -, h | ⟨axes, motors, hm, h⟩⟩ := c.homingStep_cases poll
  · rwa [h]
  · rw [h]
    exact hc
  · rw [h]
    exact (hk.homed hm).trans hc

theorem channelled_step (hk : KeepsLength c.model.kinematics) (hc : c.Channelled) (h : Step c c') :
    c'.Channelled := by
  cases h with
  | perform planner state command => exact channelled_perform hk hc planner state command
  | sync accepted =>
    obtain ⟨hl, rfl⟩ := sync_eq_ok.mp accepted
    exact hl
  | cancelJog => exact hc
  | startHoming => exact hc
  | homingStep poll => exact channelled_homingStep hk hc poll
  | finishHoming accepted =>
    obtain ⟨motors, hm, rfl⟩ := finishHoming_eq_ok.mp accepted
    exact (hk.homed hm).trans hc
  | abortHoming accepted =>
    obtain ⟨homing, -, rfl⟩ := Outcome.map_eq_ok.mp accepted
    exact hc
  | unlock accepted =>
    obtain ⟨unlocked, -, h⟩ := Outcome.map_eq_ok.mp accepted
    cases h
    exact hc
  | reset => exact hc

theorem Reachable.channelled {catalog : KinematicsCatalog α} {machine : MachineDescription α}
    (hr : Reachable catalog machine c) (hb : ∀ name params, machine.kinematics ≠ .custom name params) :
    c.Channelled := by
  induction hr with
  | start created =>
    obtain ⟨hc, hm⟩ := of_ofMachine created
    rw [Channelled, hm]
    exact (KinematicsCatalog.keepsLength hc hb).init _
  | step earlier step ih => exact channelled_step (KinematicsCatalog.keepsLength earlier.create hb) ih step

end Controller

end MotionControl
