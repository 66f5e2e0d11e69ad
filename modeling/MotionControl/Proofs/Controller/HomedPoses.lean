import MotionControl.Proofs.Controller.Creation
import MotionControl.Proofs.Controller.HomingSteps
import MotionControl.Proofs.Homing.CommandGroups
import MotionControl.Proofs.Kinematics.LinearTransforms

/-! Where the end of a homing cycle leaves a machine. The axes of the cycle are at their home switches, and
nothing else has moved. -/
namespace MotionControl
open Scalar
variable {α : Type}

/-- The values of some axes are set to what is known of their home switches, the others are as before. -/
structure Rehomed (machine : MachineDescription α) (axes : AxisMask) (value : Nat → AxisHoming α → α)
    (before after : List α) : Prop where
  length_eq : after.length = before.length
  homed : ∀ axis, axes.contains axis = true →
    ∃ homing, machine.homing? axis = some homing ∧ after[axis]? = some (value axis homing)
  kept : ∀ axis, axes.contains axis = false → after[axis]? = before[axis]?

/-- The value at the home switch of a channel of the delta. -/
def DeltaSettings.homeValue (g : DeltaSettings α) (channel : Nat) (homing : AxisHoming α) : α :=
  if channel < RotaryDelta.armCount then g.homingAngle else homing.homePosition

variable {machine : MachineDescription α} {axes : AxisMask}

theorem rehomed_mapIdx {value : Nat → AxisHoming α → α} {place : Nat → α} {values : List α}
    (ha : axes ⊆ (HomingGroups.ofMachine machine).configured) (hl : values.length = machine.axisCount)
    (hp : ∀ axis homing, machine.homing? axis = some homing → place axis = value axis homing) :
    Rehomed machine axes value values (values.mapIdx fun axis x =>
      if axis < maxAxes && axes.contains axis then place axis else x) where
  length_eq := List.length_mapIdx
  homed axis hc := by
    obtain ⟨homing, hh⟩ := HomingGroups.contains_configured.mp (ha axis hc)
    have hmax : axis < maxAxes := HomingGroups.lt_maxAxes (ha axis hc)
    have hlt : axis < values.length :=
      (HomingGroups.lt_of_contains_configured (ha axis hc)).trans_eq hl.symm
    refine ⟨homing, hh, ?_⟩
    rw [List.getElem?_mapIdx, List.getElem?_eq_getElem hlt]
    simp [hmax, hc, hp axis homing hh]
  kept axis hc := by
    rw [List.getElem?_mapIdx]
    simp [hc]

section
variable [Scalar α]

theorem HomingSequence.axis_homePosition {axis : Nat} {homing : AxisHoming α}
    (h : machine.homing? axis = some homing) :
    AxisPosition.axis ⟨machine.axes.map homePosition⟩ axis = homing.homePosition := by
  obtain ⟨settings, hs, hh⟩ := Option.bind_eq_some_iff.mp h
  have hm : axis < maxAxes := by
    have hl := (List.getElem?_eq_some_iff.mp hs).1
    rw [List.length_take] at hl
    omega
  rw [List.getElem?_take_of_lt hm] at hs
  rw [AxisPosition.axis, List.getD_eq_getElem?_getD, List.getElem?_map, hs]
  simp [homePosition, hh]

namespace Controller
variable {c c' : Controller α} {catalog : KinematicsCatalog α} {poll : HomingPoll} {outcome : HomingOutcome}

/-- The cycle that a poll ends is one of the machine, and the motors are moved to its home switches. -/
theorem Reachable.of_done (hr : Reachable catalog machine c)
    (h : c.homingStep poll = (.ok (.done outcome), c')) :
    outcome.homed ⊆ (HomingGroups.ofMachine machine).configured ∧ c'.model = c.model ∧
      c.model.kinematics.homedPosition outcome.homed c.motors
        ⟨machine.axes.map HomingSequence.homePosition⟩ = .ok c'.motors := by
  have hh := hr.homesAxesOf
  obtain ⟨homing, hs, ⟨hpending, -⟩ | ⟨_, motors, ⟨⟩, hm, rfl⟩⟩ := of_homingStep h
  · exact absurd rfl (hpending outcome)
  · rw [hh.home] at hm
    refine ⟨?_, rfl, hm⟩
    cases transition_of_step hs with
    | done active => exact hh.configured _ active

theorem Reachable.rehomed_cranks (hr : Reachable catalog machine c)
    (h : c.homingStep poll = (.ok (.done outcome), c')) {g : DeltaSettings α}
    (hg : machine.kinematics = .parallelDelta g) :
    Rehomed machine outcome.homed g.homeValue c.motors.values c'.motors.values := by
  have hb : ∀ name params, machine.kinematics ≠ .custom name params := by
    simp [hg]
  obtain ⟨ha, -, hm⟩ := hr.of_done h
  have hl : c.motors.values.length = machine.axisCount :=
    (hr.channelled hb).trans (MachineDescription.axisCount_of_layout (KinematicsCatalog.of_create hr.create).1)
  rw [(KinematicsCatalog.builtInModel hr.create hb).kinematics_eq hg] at hm
  rw [← Except.ok.inj hm]
  refine rehomed_mapIdx ha hl fun channel homing hh => ?_
  rw [DeltaSettings.homeValue, HomingSequence.axis_homePosition hh]

end Controller

end

namespace Controller
variable {machine : MachineDescription ℝ} {c c' : Controller ℝ} {catalog : KinematicsCatalog ℝ}
  {poll : HomingPoll} {outcome : HomingOutcome}

theorem Reachable.rehomed_axes (hr : Reachable catalog machine c)
    (h : c.homingStep poll = (.ok (.done outcome), c')) (hk : machine.IsLinear) :
    ∃ before after, c.position = .ok before ∧ c'.position = .ok after ∧
      Rehomed machine outcome.homed (fun _ homing => homing.homePosition) before.values after.values := by
  have hb := hk.not_custom
  obtain ⟨hlinear, -⟩ := KinematicsCatalog.linearKinematics hr.create hk
  obtain ⟨ha, hmodel, hm⟩ := hr.of_done h
  have hc : c.motors.length = c.model.axisCount := hr.channelled hb
  obtain ⟨before, hp⟩ : ∃ before, c.position = .ok before := KinematicsCatalog.exists_forward hr.create hb _ _
  have hl : before.length = c.model.axisCount := KinematicsCatalog.length_of_forward hr.create hb hp
  -- The homed position goes by way of the position that the motors had.
  rw [hlinear.homed] at hm
  obtain ⟨p, hf, hi⟩ := Outcome.bind_eq_ok.mp hm
  rw [Outcome.lift_eq_ok, hc] at hf
  obtain rfl : before = p := Except.ok.inj (hp.symm.trans hf)
  have hafter := hlinear.forward_inverse hi
  rw [AxisPosition.length, List.length_mapIdx] at hafter
  refine ⟨before, _, hp, ?_, rehomed_mapIdx ha ?_ fun axis homing hh => HomingSequence.axis_homePosition hh⟩
  · rw [position, positionOf, hmodel, ← hl]
    exact hafter
  · exact hl.trans (MachineDescription.axisCount_of_layout (KinematicsCatalog.of_create hr.create).1)

/-- When a cycle is done, its axes are at their home positions and the other axes where they were, on a machine
whose motors follow its axes linearly. On a delta, the cranks of the cycle are at the homing angle, its other
channels at their home positions, and no other channel has moved. -/
theorem Reachable.homed_pose (hr : Reachable catalog machine c)
    (h : c.homingStep poll = (.ok (.done outcome), c')) :
    (machine.IsLinear → ∃ before after, c.position = .ok before ∧ c'.position = .ok after ∧
      Rehomed machine outcome.homed (fun _ homing => homing.homePosition) before.values after.values) ∧
    ∀ g, machine.kinematics = .parallelDelta g →
      Rehomed machine outcome.homed g.homeValue c.motors.values c'.motors.values :=
  ⟨hr.rehomed_axes h, fun _ => hr.rehomed_cranks h⟩

/-- X is homed after the belts have been moved by hand. Y and Z stay where they were. -/
theorem scaledBelts_rehomed : ∃ c c' : Controller ℝ, Reachable .builtin scaledBelts c ∧
    c.homingStep { limited := ⟨0b001⟩ } = (.ok (.done ⟨⟨0b001⟩, ⟨0b011⟩⟩), c') ∧
    scaledBelts.IsLinear ∧ c.position = .ok ⟨[10, 10, 5]⟩ ∧ c'.position = .ok ⟨[100, 10, 5]⟩ := by
  obtain ⟨fresh, hf, moved, hmoved, hp, c', hs⟩ : ∃ fresh, ofMachine .builtin scaledBelts = .ok fresh ∧
      ∃ moved, fresh.sync ⟨[30, 10, 5]⟩ = .ok moved ∧
        moved.position = .ok ⟨[(30 + 10) / (2.0 * 2.0), (30 - 10) / 2.0, 5]⟩ ∧
        ∃ c', (moved.startHoming ⟨0b001⟩ {}).2.homingStep { limited := ⟨0b001⟩ } =
          (.ok (.done ⟨⟨0b001⟩, ⟨0b011⟩⟩), c') :=
    ⟨_, ofMachine_builtIn create_scaledBelts MotionSettings.validate_default (fun _ _ => nofun), _, rfl, rfl, _, rfl⟩
  have hr : Reachable .builtin scaledBelts (moved.startHoming ⟨0b001⟩ {}).2 :=
    .step (.step (.start hf) (.sync hmoved)) (.startHoming _ _)
  have hk : scaledBelts.IsLinear := .inr ⟨2.0, rfl⟩
  have hbefore : (moved.startHoming ⟨0b001⟩ {}).2.position = .ok ⟨[10, 10, 5]⟩ := by
    norm_num at hp
    exact hp
  obtain ⟨before, ⟨after⟩, hb, ha, hh⟩ := (hr.homed_pose hs).1 hk
  obtain rfl : ⟨[10, 10, 5]⟩ = before := Except.ok.inj (hbefore.symm.trans hb)
  obtain ⟨homing, hhoming, hx⟩ := hh.homed 0 rfl
  cases hhoming
  have hafter : after = [100, 10, 5] := by
    apply List.ext_getElem?
    intro axis
    match axis with
    | 0 =>
      have hhome : (100.0 : ℝ) = 100 := by norm_num
      exact hx.trans (congrArg some hhome)
    | axis + 1 =>
      have hc : AxisMask.contains ⟨0b001⟩ (axis + 1) = false := by simp [AxisMask.contains]
      exact hh.kept (axis + 1) hc
  exact ⟨_, c', hr, hs, hk, hbefore, hafter ▸ ha⟩

end Controller

end MotionControl
