import MotionControl.Proofs.Homing.Polls
import MotionControl.Proofs.Scalar.Zeros

/-! The channels that a seek moves. The approach of a homing plan is a transform of seek distances and
its motors are worked out from masks, and the two agree. -/
namespace MotionControl
open Scalar
variable {α : Type} [Scalar α]

/-- Values that are zero on the channels of all other axes. -/
def MovesOnly (axes : AxisMask) (values : List α) : Prop :=
  ∀ channel value, values[channel]? = some value → ¬ IsZero value → axes.contains channel = true

/-- The motors include all that the machine has for one of its axes. -/
def MachineModel.Controls (model : MachineModel α) (motors : MotorMask) (axis : Nat) : Prop :=
  axis < model.axisCount ∧ model.layout.motorsFor (.single axis) ⊆ motors

theorem MovesOnly.mono {axes moved : AxisMask} {values : List α} (h : MovesOnly axes values)
    (hs : axes ⊆ moved) : MovesOnly moved values :=
  fun channel value hv hn => hs channel (h channel value hv hn)

theorem AxisLayout.motorsFor_mono (layout : AxisLayout) {axes moved : AxisMask} (hs : axes ⊆ moved) :
    layout.motorsFor axes ⊆ layout.motorsFor moved := by
  apply MotorMask.subset_of_has
  intro axis ha motor hm h
  have hc := hs axis
  simp only [AxisLayout.has_motorsFor _ _ ha hm] at h ⊢
  grind

/-- The seek of some axes, on the channels of `moved`, by all motors of these. -/
structure ControlledSeek (model : MachineModel α) (axes moved : AxisMask) (approach : MotorPosition α) :
    Prop where
  axes_subset : axes ⊆ moved
  moved_subset : moved ⊆ model.layout.allAxes
  motors_eq : model.homingMotors axes = model.layout.motorsFor moved
  movesOnly : MovesOnly moved approach.values

theorem ControlledSeek.controls {model : MachineModel α} {axes moved : AxisMask}
    {approach : MotorPosition α} (hc : ControlledSeek model axes moved approach) {axis : Nat}
    (ha : moved.contains axis = true) : model.Controls (model.homingMotors axes) axis := by
  have hl := hc.moved_subset axis ha
  rw [AxisLayout.contains_allAxes, decide_eq_true_eq] at hl
  refine ⟨hl, ?_⟩
  rw [hc.motors_eq]
  apply model.layout.motorsFor_mono
  intro other ho
  simp only [AxisMask.contains_single, decide_eq_true_eq] at ho
  rwa [ho.1]

theorem HomingSequence.seekDirections_movesOnly [ZeroArithmetic α] (h : HomingSequence α) (axes : AxisMask) :
    MovesOnly axes (h.seekDirections axes).values := by
  intro channel value hv hn
  simp only [seekDirections, List.getElem?_mapIdx, Option.map_eq_some_iff] at hv
  obtain ⟨distance, -, hv⟩ := hv
  split at hv
  · rename_i ha
    exact (Bool.and_eq_true_iff.mp ha).2
  · subst hv
    exact absurd ZeroArithmetic.isZero_zero hn

variable {layout : AxisLayout} {axes : AxisMask} {directions : AxisPosition α} {approach : MotorPosition α}

theorem Cartesian.controlledSeek (limits : SoftLimits α) (ha : axes ⊆ layout.allAxes)
    (hd : MovesOnly axes directions.values)
    (hp : (kinematics limits).homingApproach axes directions = .ok approach) :
    ControlledSeek ⟨kinematics limits, layout⟩ axes axes approach where
  axes_subset _ := id
  moved_subset := ha
  motors_eq := rfl
  movesOnly := by
    cases hp
    exact hd

namespace CoreXY
variable {xScaler : α}

/-- The two belts run on sums of the first two distances, and every other channel on a distance of its own. -/
private theorem movesOnly_belts [ZeroArithmetic α] {x y : α} {rest : List α} (hx : isFinite xScaler = true)
    (hd : MovesOnly axes (x :: y :: rest)) :
    MovesOnly (coupled axes) ((x * xScaler + y) :: (x * xScaler - y) :: rest) := by
  intro channel value hv hn
  rw [contains_coupled]
  by_cases hb : ∃ belt < 2, axes.contains belt = true
  · match channel with
    | 0 | 1 => exact .inr ⟨by decide, hb⟩
    | channel + 2 => exact .inl (hd (channel + 2) value hv hn)
  · have hzero {axis : Nat} {distance : α} (ha : axis < 2) (he : (x :: y :: rest)[axis]? = some distance) :
        IsZero distance := by
      by_contra hz
      exact hb ⟨axis, ha, hd axis distance he hz⟩
    have hscaled : IsZero (x * xScaler) := ZeroArithmetic.isZero_mul (hzero (by decide : 0 < 2) rfl) hx
    have hy : IsZero y := hzero (by decide : 1 < 2) rfl
    match channel with
    | 0 =>
      cases hv
      exact absurd (ZeroArithmetic.isZero_add hscaled hy) hn
    | 1 =>
      cases hv
      exact absurd (ZeroArithmetic.isZero_sub hscaled hy) hn
    | channel + 2 => exact .inl (hd (channel + 2) value hv hn)

theorem controlledSeek [ZeroArithmetic α] {limits : SoftLimits α}
    (hv : validate xScaler limits layout = .ok ()) (ha : axes ⊆ layout.allAxes)
    (hd : MovesOnly axes directions.values)
    (hp : (kinematics xScaler limits).homingApproach axes directions = .ok approach) :
    ControlledSeek ⟨kinematics xScaler limits, layout⟩ axes (coupled axes) approach where
  axes_subset axis h := (contains_coupled axes axis).mpr (.inl h)
  moved_subset axis h := by
    obtain h | ⟨hb, -⟩ := (contains_coupled axes axis).mp h
    · exact ha axis h
    · rw [AxisLayout.contains_allAxes, decide_eq_true_eq]
      exact Nat.lt_of_lt_of_le hb (validate_eq_ok.mp hv).1
  motors_eq := rfl
  movesOnly := by
    have hx : isFinite xScaler = true := (Bool.and_eq_true_iff.mp (validate_eq_ok.mp hv).2.1).1
    have hcoupled : axes ⊆ coupled axes := fun axis h => (contains_coupled axes axis).mpr (.inl h)
    obtain ⟨_ | ⟨x, _ | ⟨y, rest⟩⟩⟩ := directions
    · cases hp
      exact hd.mono hcoupled
    · cases hp
      exact hd.mono hcoupled
    · cases hp
      exact movesOnly_belts hx hd

end CoreXY

namespace RotaryDelta

/-- Either no crank is homed or all of them are. -/
theorem canHome_iff : canHome axes = true ↔ (∀ arm < armCount, axes.contains arm = false) ∨
    ∀ arm < armCount, axes.contains arm = true := by
  rw [canHome, Bool.or_eq_true, AxisMask.isEmpty_iff]
  refine or_congr ?_ ?_
  · simp only [AxisMask.contains_and, contains_armAxes, Bool.and_eq_false_iff, decide_eq_false_iff_not]
    grind
  · rw [beq_iff_eq]
    constructor
    · intro h arm ha
      have hc : (axes &&& armAxes).contains arm = armAxes.contains arm := by rw [h]
      rw [AxisMask.contains_and, contains_armAxes] at hc
      simpa [ha] using hc
    · intro h
      apply AxisMask.ext_contains
      intro axis
      rw [AxisMask.contains_and, contains_armAxes]
      by_cases ha : axis < armCount <;> simp [ha, h]

theorem controlledSeek [ZeroArithmetic α] (g : DeltaSettings α) (ha : axes ⊆ layout.allAxes)
    (hh : canHome axes = true) (hd : MovesOnly axes directions.values)
    (hp : (kinematics g).homingApproach axes directions = .ok approach) :
    ControlledSeek ⟨kinematics g, layout⟩ axes axes approach where
  axes_subset _ := id
  moved_subset := ha
  motors_eq := rfl
  movesOnly := by
    cases hp
    intro channel value hv hn
    simp only [homingApproach, List.getElem?_mapIdx, Option.map_eq_some_iff] at hv
    obtain ⟨distance, he, hv⟩ := hv
    subst hv
    by_cases hc : channel < armCount
    · rw [if_pos hc] at hn
      split at hn
      · rename_i hi
        -- Some crank is homed, so the crank of this channel is.
        obtain ⟨arm, harm, hl⟩ := (AxisMask.intersects_iff ..).mp hi
        rw [contains_armAxes, decide_eq_true_eq] at hl
        obtain hnone | hall := canHome_iff.mp hh
        · simp [hnone arm hl] at harm
        · exact hall channel hc
      · exact absurd ZeroArithmetic.isZero_zero hn
    · rw [if_neg hc] at hn
      exact hd channel distance he hn

end RotaryDelta

theorem BuiltInModel.exists_controlledSeek [ZeroArithmetic α] {machine : MachineDescription α}
    {model : MachineModel α} (hm : BuiltInModel machine model) (ha : axes ⊆ model.layout.allAxes)
    (hh : model.kinematics.canHome axes = true) (hd : MovesOnly axes directions.values)
    (hp : model.kinematics.homingApproach axes directions = .ok approach) :
    ∃ moved, ControlledSeek model axes moved approach := by
  cases hm with
  | cartesian => exact ⟨_, Cartesian.controlledSeek _ ha hd hp⟩
  | coreXY _ valid => exact ⟨_, CoreXY.controlledSeek valid ha hd hp⟩
  | parallelDelta => exact ⟨_, RotaryDelta.controlledSeek _ ha hh hd hp⟩

namespace HomingSequence
variable {h h' : HomingSequence α} {model : MachineModel α} {safety : SafetyInputs} {plan : HomingPlan α}

/-- A plan is made for the axes of its request, with the motors and the approach of the kinematics. -/
theorem of_planned (hs : h.start model axes safety = (.ok (.plan plan), h')) :
    h.gate model axes safety = .ok () ∧ plan.axes = axes ∧ plan.motors = model.homingMotors axes ∧
      model.kinematics.homingApproach axes (h.seekDirections axes) = .ok plan.approach := by
  rw [start] at hs
  split at hs
  · cases hs
  · rename_i passes
    dsimp only at hs
    split at hs
    · cases hs
    · split at hs
      · cases hs
      · rename_i approach happroach
        cases hs
        exact ⟨passes, rfl, rfl, happroach⟩

/-- For every machine with built-in kinematics and every plan of its sequence, a channel that the approach
moves is that of an axis with all its motors in the plan. So is every axis that is homed. -/
theorem planned_controls [ZeroArithmetic α] {c : KinematicsCatalog α} {machine : MachineDescription α}
    (hm : c.create machine = .ok model) (hb : ∀ name params, machine.kinematics ≠ .custom name params)
    (hg : h.groups = .ofMachine machine) (hs : h.start model axes safety = (.ok (.plan plan), h')) :
    plan.axes = axes ∧
      (∀ channel value, plan.approach.values[channel]? = some value → ¬ IsZero value →
        model.Controls plan.motors channel) ∧
      ∀ axis, axes.contains axis = true → model.Controls plan.motors axis := by
  obtain ⟨passes, haxes, hmotors, happroach⟩ := of_planned hs
  obtain ⟨-, -, -, -, -, hhome⟩ := gate_eq_ok.mp passes
  have ha := subset_allAxes_of_gate hm hg passes
  obtain ⟨moved, hc⟩ := (KinematicsCatalog.builtInModel hm hb).exists_controlledSeek ha hhome
    (h.seekDirections_movesOnly axes) happroach
  rw [hmotors]
  exact ⟨haxes, fun channel value hv hn => hc.controls (hc.movesOnly channel value hv hn),
    fun axis h => hc.controls (hc.axes_subset axis h)⟩

/-- X is homed alone and both belts move, that of Y by the seek distance of X. Both motors are in the plan. -/
theorem x_seek_moves_both_belts : ∃ model, KinematicsCatalog.builtin.create beltMachine = .ok model ∧
    (∀ name params, beltMachine.kinematics ≠ .custom name params) ∧
    ∃ h, ofMachine beltMachine = .ok h ∧ h.groups = .ofMachine beltMachine ∧
    ∃ plan h', h.start model ⟨0b001⟩ {} = (.ok (.plan plan), h') ∧ plan.motors = ⟨0b011⟩ ∧
    ∃ value, plan.approach.values[1]? = some value ∧ ¬ IsZero value ∧ model.Controls plan.motors 1 ∧
      model.Controls plan.motors 0 := by
  have hb : ∀ name params, beltMachine.kinematics ≠ .custom name params := fun _ _ => nofun
  have hg := (of_ofMachine (rfl : ofMachine beltMachine = .ok _)).1
  have hn : ¬ IsZero (300.0 * 1.1 * 1.0 - 0.0 : Float) := by
    rw [IsZero]
    decide +kernel
  obtain ⟨-, hmoved, hhomed⟩ := @planned_controls Float _ ⟨0b001⟩ _ _ _ {} _ _ .builtin beltMachine rfl hb hg rfl
  exact ⟨_, rfl, hb, _, rfl, hg, _, _, rfl, rfl, _, rfl, hn, hmoved 1 _ rfl hn, hhomed 0 rfl⟩

end HomingSequence

end MotionControl
