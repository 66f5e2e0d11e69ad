import MotionControl.Proofs.Controller.SurplusAxes

/-! One number for each axis. Whatever calls a machine with built-in kinematics is given, its tracked motors,
its position and what planners are offered have as many values as the machine has axes. -/
namespace MotionControl
variable {α : Type} [Scalar α] {catalog : KinematicsCatalog α} {machine : MachineDescription α}

theorem KinematicsCatalog.axisCount_of_create {model : MachineModel α} (hc : catalog.create machine = .ok model) :
    model.axisCount = machine.axisCount :=
  MachineDescription.axisCount_of_layout (of_create hc).1

namespace Controller
variable {c : Controller α}

/-- Every vector that the controller holds, shows or hands over has `axisCount` values. The values of the
position are counted before it is looked at whether they are finite. -/
structure HasChannels (c : Controller α) (axisCount : Nat) : Prop where
  motors : c.motors.length = axisCount
  position : ∃ values, values.length = axisCount ∧ c.position = AxisPosition.new values
  offered : ∀ {σ : Type} (planner : Planner α σ) (state : σ) (command : MotionCommand α),
    ∀ offer ∈ (c.perform planner.recorded (state, []) command).planner.2, offer.1.motors.length = axisCount

/-- Every segment that is handed over has been found by the inverse transform from a target with a value for
each axis. -/
theorem length_of_offered {σ : Type} (hk : KeepsLength c.model.kinematics) (planner : Planner α σ) (state : σ)
    (command : MotionCommand α) {offer : PlannerSegment α × Except PlannerError Unit}
    (hm : offer ∈ (c.perform planner.recorded (state, []) command).planner.2) :
    offer.1.motors.length = c.model.axisCount := by
  obtain ⟨result, after, last, record, count, hp, ho⟩ := c.recorded_offered planner state command
  rw [hp] at hm
  obtain ⟨ht, hi⟩ := MachineModel.inverse_eq_ok.mp (passed_of_planned (ho.mem hm)).1
  exact (hk.inverse hi).trans ht

/-- After any calls there is a value for each axis of the machine, and there will be one in every segment
of the next command. -/
theorem Reachable.hasChannels (hr : Reachable catalog machine c)
    (hb : ∀ name params, machine.kinematics ≠ .custom name params) : c.HasChannels machine.axisCount := by
  have hn := KinematicsCatalog.axisCount_of_create hr.create
  have hk := KinematicsCatalog.keepsLength hr.create hb
  rw [← hn]
  exact {
    motors := hr.channelled hb
    position := KinematicsCatalog.exists_values hr.create hb c.motors c.model.axisCount
    offered := fun planner state command _ hm => length_of_offered hk planner state command hm }

/-- Motors reported from outside are adopted, then a jog leaves the travel of X. -/
theorem confined_jog_after_sync : ∃ c synced : Controller Float,
    Controller.ofMachine .builtin confinedMachine = .ok c ∧ c.sync ⟨[-10.0, 5.0]⟩ = .ok synced ∧
    (∀ name params, confinedMachine.kinematics ≠ .custom name params) ∧
    HasChannels (synced.moveTo SegmentQueue.planner { capacity := 4 } (.jog ⟨[-400.0, 10.0]⟩ 600.0)).controller 2 := by
  have hb : ∀ name params, confinedMachine.kinematics ≠ .custom name params := fun _ _ => nofun
  obtain ⟨c, hc⟩ : ∃ c, Controller.ofMachine .builtin confinedMachine = .ok c := ⟨_, rfl⟩
  obtain ⟨synced, hs⟩ : ∃ synced, c.sync ⟨[-10.0, 5.0]⟩ = .ok synced := by
    cases hc
    exact ⟨_, rfl⟩
  have hr := (Reachable.start hc).step (.sync hs)
  exact ⟨c, synced, hc, hs, hb, Reachable.hasChannels
    (hr.step (.perform SegmentQueue.planner { capacity := 4 } (.line (.jog ⟨[-400.0, 10.0]⟩ 600.0)))) hb⟩

end Controller

end MotionControl
