import MotionControl.Proofs.Kinematics.DeltaLevelPose
import MotionControl.Proofs.Kinematics.LinearTransforms
import MotionControl.Proofs.Controller.Creation
import MotionControl.Proofs.Controller.HomingSteps
import MotionControl.Proofs.Controller.SurplusAxes

/-! Where a machine is taken to stand at power-up and once all its axes are homed. A move begins by finding
the tracked motors again from their position, so a machine can only move from where that succeeds. -/
namespace MotionControl
open Scalar
variable {α : Type} [Scalar α]

/-- The axes that an answer to a poll reports as homed. -/
def HomingStep.homed : HomingStep → AxisMask
  | .done outcome => outcome.homed
  | _ => .none

namespace Controller
variable {c c' : Controller α} {axes : AxisMask} {catalog : KinematicsCatalog α}
  {machine : MachineDescription α}

/-- The tracked motors are found again from where they hold the machine. -/
def StandsAtPosition (c : Controller α) : Prop :=
  ∃ p, c.position = .ok p ∧ c.model.inverse p = .ok c.motors

/-- A controller goes through homing cycles, in which some axes are homed. -/
inductive Homes (c : Controller α) : AxisMask → Controller α → Prop where
  | begin : Homes c .none c
  | start {axes : AxisMask} {c' : Controller α} (earlier : Homes c axes c') (requested : AxisMask)
      (safety : SafetyInputs) : Homes c axes (c'.startHoming requested safety).2
  | poll {axes : AxisMask} {c' c'' : Controller α} {poll : HomingPoll} {step : HomingStep}
      (earlier : Homes c axes c') (answer : c'.homingStep poll = (.ok step, c'')) :
      Homes c (axes ||| step.homed) c''

theorem Homes.model (h : Homes c axes c') : c'.model = c.model := by
  induction h with
  | begin => rfl
  | start _ requested safety ih => exact ih
  | @poll _ c' _ poll _ _ answer ih =>
    have hm := model_homingStep c' poll
    rw [answer] at hm
    exact hm.trans ih

theorem Homes.reachable (h : Homes c axes c') (hc : Reachable catalog machine c) :
    Reachable catalog machine c' := by
  induction h with
  | begin => exact hc
  | start _ requested safety ih => exact .step ih (.startHoming requested safety)
  | @poll _ c' _ poll _ _ answer ih =>
    have hs := Step.homingStep (c := c') poll
    rw [answer] at hs
    exact .step ih hs

/-- An answered poll takes the tracked motors to the home position of the axes that it reports. -/
theorem motors_of_homingStep {poll : HomingPoll} {step : HomingStep} (h : c.homingStep poll = (.ok step, c')) :
    (step.homed = .none ∧ c'.motors = c.motors) ∨
      c.model.kinematics.homedPosition step.homed c.motors c.homing.home = .ok c'.motors := by
  obtain ⟨homing, -, ⟨hpending, rfl⟩ | ⟨outcome, motors, rfl, hm, rfl⟩⟩ := of_homingStep h
  · refine .inl ⟨?_, rfl⟩
    cases step with
    | done outcome => exact absurd rfl (hpending outcome)
    | «continue» => rfl
    | aborted => rfl
  · exact .inr hm

theorem Homes.crank_eq {g : DeltaSettings α} (hk : c.model.kinematics = RotaryDelta.kinematics g)
    (h : Homes c axes c') {arm : Nat} (ha : arm < RotaryDelta.armCount) (hh : axes.contains arm = true)
    {θ : α} (hθ : c'.motors.values[arm]? = some θ) : θ = g.homingAngle := by
  induction h generalizing θ with
  | begin =>
    rw [AxisMask.contains_none] at hh
    cases hh
  | start _ requested safety ih => exact ih hh hθ
  | @poll axes c' c'' poll step earlier answer ih =>
    rw [AxisMask.contains_or, Bool.or_eq_true] at hh
    obtain ⟨hn, hm⟩ | hm := motors_of_homingStep answer
    · rw [hn, AxisMask.contains_none] at hh
      rw [hm] at hθ
      exact ih (hh.resolve_right nofun) hθ
    · rw [earlier.model, hk] at hm
      rw [← Except.ok.inj hm] at hθ
      obtain ⟨before, hb, rfl⟩ := Option.map_eq_some_iff.mp (List.getElem?_mapIdx.symm.trans hθ)
      have hmax : arm < maxAxes := ha.trans (by decide)
      by_cases hs : step.homed.contains arm = true
      · rw [if_pos (by simp [hmax, hs]), if_pos ha]
      · rw [if_neg (by simp [hs])]
        exact ih (hh.resolve_right hs) hb

end Controller

namespace Controller
variable {c c' : Controller ℝ} {axes : AxisMask} {catalog : KinematicsCatalog ℝ}
  {machine : MachineDescription ℝ} {logged : Bool}

theorem standsAtPosition_of_linear (hk : LinearKinematics c.model.kinematics c.model.axisCount)
    (hc : c.Channelled) : c.StandsAtPosition := by
  obtain ⟨p, hp, hl, hi⟩ := hk.inverse_forward c.motors hc
  exact ⟨p, hp, MachineModel.inverse_eq_ok.mpr ⟨hl, hi⟩⟩

/-- Cranks at equal angles are found again when they rest. -/
theorem standsAtPosition_of_level {g : DeltaSettings ℝ} {θ : ℝ} {rest : List ℝ}
    (hv : RotaryDelta.validate g c.model.layout = .ok ()) (hk : c.model.kinematics = RotaryDelta.kinematics g)
    (hm : c.motors = ⟨θ :: θ :: θ :: rest⟩) (hc : c.Channelled) :
    c.StandsAtPosition ↔ RotaryDelta.RestsLevel g θ := by
  rw [Channelled, hm] at hc
  have hl : rest.length + 3 = c.model.axisCount := hc
  have hp : c.position = RotaryDelta.forward g ⟨θ :: θ :: θ :: rest⟩ (rest.length + 3) := by
    rw [position, positionOf, MachineModel.forward, hk, hm, hl]
    rfl
  have hi (p : AxisPosition ℝ) (h : RotaryDelta.forward g ⟨θ :: θ :: θ :: rest⟩ (rest.length + 3) = .ok p) :
      c.model.inverse p = .ok c.motors ↔ RotaryDelta.inverse g p = .ok ⟨θ :: θ :: θ :: rest⟩ := by
    have hpl := (RotaryDelta.length_of_forward h).trans hl
    rw [MachineModel.inverse_eq_ok, hk, hm, and_iff_right hpl]
    rfl
  rw [← RotaryDelta.exists_inverse_forward_level hv θ rest, StandsAtPosition, hp]
  exact exists_congr fun p => and_congr_right (hi p)

/-- Every machine with built-in kinematics stands at its position, unless it has cranks. Cranks at equal
angles must rest. -/
theorem standsAtPosition_iff_of_level (hb : BuiltInModel machine c.model) (hc : c.Channelled)
    (angle : DeltaSettings ℝ → ℝ)
    (hl : ∀ g, machine.kinematics = .parallelDelta g → c.model.kinematics = RotaryDelta.kinematics g →
      RotaryDelta.armCount ≤ c.model.axisCount → ∃ rest, c.motors = ⟨angle g :: angle g :: angle g :: rest⟩) :
    c.StandsAtPosition ↔
      ∀ g, machine.kinematics = .parallelDelta g → RotaryDelta.RestsLevel g (angle g) := by
  obtain hk | ⟨g, hg⟩ := hb.isLinear_or
  · refine iff_of_true (standsAtPosition_of_linear (hb.linearKinematics hk).1 hc) fun g hg => ?_
    simp [MachineDescription.IsLinear, hg] at hk
  · have hv := hb.validate_geometry hg
    obtain ⟨rest, hr⟩ := hl g hg (hb.kinematics_eq hg) (RotaryDelta.of_validate hv).1
    rw [standsAtPosition_of_level hv (hb.kinematics_eq hg) hr hc]
    constructor
    · intro h g' hg'
      rw [hg] at hg'
      cases hg'
      exact h
    · intro h
      exact h g hg

theorem exists_motors_of_ofMachine {g : DeltaSettings ℝ} (hc : ofMachine catalog machine logged = .ok c)
    (hk : c.model.kinematics = RotaryDelta.kinematics g) (ha : RotaryDelta.armCount ≤ c.model.axisCount) :
    ∃ rest, c.motors = ⟨0 :: 0 :: 0 :: rest⟩ := by
  have hm : c.motors = MotorPosition.zeros c.model.axisCount := by
    rw [(of_ofMachine hc).2, MachineModel.initPosition, hk]
    rfl
  obtain ⟨n, hn⟩ := Nat.exists_eq_add_of_le' ha
  refine ⟨List.replicate n 0, ?_⟩
  rw [hm, hn, MotorPosition.zeros, zero_real]
  rfl

theorem Homes.exists_motors {g : DeltaSettings ℝ} (h : Homes c axes c')
    (hk : c'.model.kinematics = RotaryDelta.kinematics g) (ha : RotaryDelta.armCount ≤ c'.model.axisCount)
    (hc : c'.Channelled) (hh : c'.model.layout.allAxes ⊆ axes) :
    ∃ rest, c'.motors = ⟨g.homingAngle :: g.homingAngle :: g.homingAngle :: rest⟩ := by
  rw [h.model] at hk
  have hcrank (arm : Nat) {θ : ℝ} (hl : arm < RotaryDelta.armCount) (hθ : c'.motors.values[arm]? = some θ) :
      θ = g.homingAngle := by
    refine h.crank_eq hk hl (hh arm ?_) hθ
    rw [AxisLayout.contains_allAxes, decide_eq_true_eq]
    exact hl.trans_le ha
  have hlen : RotaryDelta.armCount ≤ c'.motors.values.length := ha.trans_eq hc.symm
  generalize c'.motors = motors at hcrank hlen
  obtain ⟨values⟩ := motors
  match values, hlen with
  | θ1 :: θ2 :: θ3 :: rest, _ =>
    obtain rfl := hcrank 0 (by decide) rfl
    obtain rfl := hcrank 1 (by decide) rfl
    obtain rfl := hcrank 2 (by decide) rfl
    exact ⟨rest, rfl⟩

theorem stands_iff_of_ofMachine (hb : ∀ name params, machine.kinematics ≠ .custom name params)
    (hc : ofMachine catalog machine logged = .ok c) :
    c.StandsAtPosition ↔ ∀ g, machine.kinematics = .parallelDelta g → RotaryDelta.RestsLevel g 0 := by
  have hr : Reachable catalog machine c := .start hc
  exact standsAtPosition_iff_of_level (KinematicsCatalog.builtInModel hr.create hb) (hr.channelled hb)
    (fun _ => 0) fun g _ hk ha => exists_motors_of_ofMachine hc hk ha

theorem Homes.stands_iff (hb : ∀ name params, machine.kinematics ≠ .custom name params)
    (hr : Reachable catalog machine c) (h : Homes c axes c') (hh : c'.model.layout.allAxes ⊆ axes) :
    c'.StandsAtPosition ↔
      ∀ g, machine.kinematics = .parallelDelta g → RotaryDelta.RestsLevel g g.homingAngle := by
  have hr' := h.reachable hr
  have hc := hr'.channelled hb
  exact standsAtPosition_iff_of_level (KinematicsCatalog.builtInModel hr'.create hb) hc
    DeltaSettings.homingAngle fun g _ hk ha => h.exists_motors hk ha hc hh

/-- At power-up, a machine with built-in kinematics stands at its position unless it has cranks whose range
leaves out the horizontal, or whose arms are level there. Once all its axes are homed it does unless it has
cranks that do not rest at their homing angle. -/
theorem standsAtPosition_iff (hb : ∀ name params, machine.kinematics ≠ .custom name params) :
    (∀ logged c, ofMachine catalog machine logged = .ok c → (c.StandsAtPosition ↔
      ∀ g, machine.kinematics = .parallelDelta g → (g.minAngle ≤ 0 ∧ 0 ≤ g.maxAngle) ∧
        1e-9 ≤ √(g.arm ^ 2 - (RotaryDelta.sideGap g + g.crank) ^ 2))) ∧
    ∀ c axes c', Reachable catalog machine c → Homes c axes c' → c'.model.layout.allAxes ⊆ axes →
      (c'.StandsAtPosition ↔
        ∀ g, machine.kinematics = .parallelDelta g → RotaryDelta.RestsLevel g g.homingAngle) := by
  constructor
  · intro logged c hc
    have hm := KinematicsCatalog.builtInModel (Reachable.start hc).create hb
    rw [stands_iff_of_ofMachine hb hc]
    exact forall₂_congr fun g hg => RotaryDelta.restsLevel_zero_iff (hm.validate_geometry hg)
  · intro c axes c' hr h hh
    exact h.stands_iff hb hr hh

/-- A machine with cranks, which are homed together. -/
noncomputable def crankMachine (g : DeltaSettings ℝ) : MachineDescription ℝ :=
  { (default : MachineDescription ℝ) with
    kinematics := .parallelDelta g
    axes := [.homedIn "X" 300.0 1, .homedIn "Y" 300.0 1, .homedIn "Z" 100.0 1] }

theorem crankMachine_not_custom (g : DeltaSettings ℝ) (name : String) (params : NameTable ℝ) :
    (crankMachine g).kinematics ≠ .custom name params := nofun

theorem create_crankMachine {g : DeltaSettings ℝ} (hv : RotaryDelta.validate g ⟨3, .none, by decide⟩ = .ok ()) :
    KinematicsCatalog.builtin.create (crankMachine g) =
      .ok ⟨RotaryDelta.kinematics g, ⟨3, .none, by decide⟩⟩ := by
  have hl : (crankMachine g).layout = .ok ⟨3, .none, by decide⟩ := by
    change AxisLayout.new 3 .none = _
    rfl
  exact KinematicsCatalog.create_eq_ok.mpr ⟨rfl, hl, rfl, hv⟩

theorem ofMachine_crankMachine {g : DeltaSettings ℝ} {model : MachineModel ℝ}
    (hm : KinematicsCatalog.builtin.create (crankMachine g) = .ok model) :
    ofMachine .builtin (crankMachine g) = .ok (exact (crankMachine g) model) :=
  ofMachine_builtIn hm MotionSettings.validate_default (crankMachine_not_custom g)

theorem homes_crankMachine {g : DeltaSettings ℝ} (hc : ofMachine .builtin (crankMachine g) logged = .ok c)
    (hs : (c.startHoming ⟨0b111⟩ {}).2.homingStep { limited := ⟨0b111⟩ } =
      (.ok (.done ⟨⟨0b111⟩, ⟨0b111⟩⟩), c')) : Homes c ⟨0b111⟩ c' ∧ c'.model.layout.allAxes ⊆ ⟨0b111⟩ := by
  have hh : Homes c ⟨0b111⟩ c' := .poll (.start .begin ⟨0b111⟩ {}) hs
  have hl := MachineDescription.axisCount_of_layout (KinematicsCatalog.of_create (of_ofMachine hc).1).1
  have h3 : (crankMachine g).axisCount = 3 := rfl
  refine ⟨hh, ?_⟩
  rw [hh.model, AxisLayout.allAxes, hl, h3]
  exact fun axis ha => ha

/-- The default machine with cranks stands at its position, at power-up and when it has been homed. -/
theorem default_cranks_stand :
    (∀ name params, (crankMachine default).kinematics ≠ .custom name params) ∧
    ∃ c, ofMachine .builtin (crankMachine default) = .ok c ∧ c.StandsAtPosition ∧
      ∃ axes c', Homes c axes c' ∧ c'.model.layout.allAxes ⊆ axes ∧ c'.StandsAtPosition := by
  have hb := crankMachine_not_custom default
  have hm := create_crankMachine (RotaryDelta.validate_default le_rfl)
  obtain ⟨c, hc, c', hs⟩ : ∃ c, ofMachine .builtin (crankMachine default) = .ok c ∧
      ∃ c', (c.startHoming ⟨0b111⟩ {}).2.homingStep { limited := ⟨0b111⟩ } =
        (.ok (.done ⟨⟨0b111⟩, ⟨0b111⟩⟩), c') := ⟨_, ofMachine_crankMachine hm, _, rfl⟩
  obtain ⟨hh, hall⟩ := homes_crankMachine hc hs
  obtain ⟨hstart, hhome⟩ := @standsAtPosition_iff .builtin _ hb
  refine ⟨hb, c, hc, (hstart true c hc).mpr ?_, _, c', hh, hall, (hhome c _ c' (.start hc) hh hall).mpr ?_⟩
  · rintro _ ⟨⟩
    obtain ⟨hgl, hgu⟩ := RotaryDelta.sideGap_default
    refine ⟨by norm_num [default], Real.le_sqrt_of_sq_le ?_⟩
    have harm : (default : DeltaSettings ℝ).arm = 133.5 := rfl
    have hcrank : (default : DeltaSettings ℝ).crank = 70 := by norm_num [default]
    rw [harm, hcrank]
    nlinarith only [hgl, hgu]
  · rintro _ ⟨⟩
    exact RotaryDelta.restsLevel_default

/-- Cranks that can only hang below the horizontal are taken to be horizontal at power-up, and cranks that
are homed almost upright are found lower than that. -/
theorem cranks_not_found_again :
    (∃ c, ofMachine .builtin (crankMachine RotaryDelta.loweredDelta) = .ok c ∧ ¬ c.StandsAtPosition) ∧
    ∃ c axes c', ofMachine .builtin (crankMachine RotaryDelta.uprightDelta) = .ok c ∧ Homes c axes c' ∧
      c'.model.layout.allAxes ⊆ axes ∧ ¬ c'.StandsAtPosition := by
  constructor
  · have hv := RotaryDelta.validate_loweredDelta
    have hc := ofMachine_crankMachine (create_crankMachine hv)
    refine ⟨_, hc, fun h => ?_⟩
    have hr := (stands_iff_of_ofMachine (crankMachine_not_custom _) hc).mp h _ rfl
    exact absurd ((RotaryDelta.restsLevel_zero_iff hv).mp hr).1.1 (by norm_num [RotaryDelta.loweredDelta])
  · have hm := create_crankMachine RotaryDelta.validate_uprightDelta
    obtain ⟨c, hc, c', hs⟩ : ∃ c, ofMachine .builtin (crankMachine RotaryDelta.uprightDelta) = .ok c ∧
        ∃ c', (c.startHoming ⟨0b111⟩ {}).2.homingStep { limited := ⟨0b111⟩ } =
          (.ok (.done ⟨⟨0b111⟩, ⟨0b111⟩⟩), c') := ⟨_, ofMachine_crankMachine hm, _, rfl⟩
    obtain ⟨hh, hall⟩ := homes_crankMachine hc hs
    refine ⟨c, _, c', hc, hh, hall, fun h => ?_⟩
    exact RotaryDelta.not_restsLevel_uprightDelta
      ((hh.stands_iff (crankMachine_not_custom _) (.start hc) hall).mp h _ rfl)

end Controller

end MotionControl
