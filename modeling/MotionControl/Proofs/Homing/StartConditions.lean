import MotionControl.Proofs.Guards
import MotionControl.Proofs.Homing.CommandGroups
import MotionControl.Proofs.Homing.SwitchCycles

/-! What stands against a call of a homing sequence. A start is refused for the first of its conditions that is
not met, and a call that is refused changes nothing. -/
namespace MotionControl
variable {α : Type} [Scalar α]

/-- What must be so for a cycle to start. -/
inductive StartCondition where
  | idle
  | enabled
  | configured
  | grouped
  | safe
  | homeable
  deriving DecidableEq, Repr

namespace StartCondition
variable (h : HomingSequence α) (model : MachineModel α) (axes : AxisMask) (safety : SafetyInputs)

/-- The order in which a start looks at its conditions. -/
def order : List StartCondition := [idle, enabled, configured, grouped, safe, homeable]

def Holds : StartCondition → Prop
  | idle => h.active = none
  | enabled => ∃ axis, h.groups.configured.contains axis = true
  | configured => (∃ axis, axes.contains axis = true) ∧ axes ⊆ h.groups.configured
  | grouped => (∃ number, 1 ≤ number ∧ number ≤ 9 ∧ h.groups.cycle number = axes) ∨
      ∀ axis ∈ axes.toList, h.groups.singleAxis.contains axis = true
  | safe => safety.doorAjar = false ∧ safety.activePins = []
  | homeable => model.kinematics.canHome axes = true

/-- The error for a condition that is not met. -/
def Reports (e : HomingError) : StartCondition → Prop
  | idle => ∃ cycle, h.active = some cycle ∧ e = .cycleActive cycle.axes.text
  | enabled => e = .disabled
  | configured => e = .invalidRequest s!"no homing configuration for {axes - h.groups.configured}"
  | grouped => ∃ axis < maxAxes, axes.contains axis = true ∧ h.groups.singleAxis.contains axis = false ∧
      (∀ earlier < axis, axes.contains earlier = true → h.groups.singleAxis.contains earlier = true) ∧
      e = .singleAxisNotAllowed (axisName axis).toString
  | safe => ∃ input, e = .safetyInterlock input ∧
      (safety.doorAjar = true ∧ input = "safety door" ∨
        safety.doorAjar = false ∧ safety.activePins.head? = some input)
  | homeable => e = .unsupportedAxes model.name axes.text

/-- All earlier conditions are met, and this one is not. -/
def FirstUnmet (condition : StartCondition) : Prop :=
  ∃ before after, order = before ++ condition :: after ∧
    (∀ earlier ∈ before, earlier.Holds h model axes safety) ∧ ¬ condition.Holds h model axes safety

/-- The part of the gate that looks at a condition. -/
def check : StartCondition → Except HomingError Unit
  | idle => match h.active with
    | some cycle => .error (.cycleActive cycle.axes.text)
    | none => .ok ()
  | enabled => if h.groups.isEnabled then .ok () else .error .disabled
  | configured =>
    if axes.isEmpty || !h.groups.configured.containsAll axes then
      .error (.invalidRequest s!"no homing configuration for {axes - h.groups.configured}")
    else .ok ()
  | grouped => h.groups.checkSingleAxis axes
  | safe => safety.check
  | homeable =>
    if model.kinematics.canHome axes then .ok () else .error (.unsupportedAxes model.name axes.text)

variable {h model axes safety}

theorem check_eq_ok {condition : StartCondition} :
    condition.check h model axes safety = .ok () ↔ condition.Holds h model axes safety := by
  cases condition with
  | idle =>
    rw [check, Holds]
    cases h.active <;> simp
  | enabled =>
    rw [check, Holds, HomingGroups.isEnabled, ← AxisMask.isEmpty_eq_false_iff]
    cases h.groups.configured.isEmpty <;> simp
  | configured =>
    rw [check, Holds, ← AxisMask.isEmpty_eq_false_iff, ← AxisMask.containsAll_iff]
    cases axes.isEmpty <;> cases h.groups.configured.containsAll axes <;> simp
  | grouped =>
    rw [check, Holds, HomingGroups.checkSingleAxis_eq_ok, HomingGroups.isCycle_iff]
    simp only [AxisMask.mem_toList, and_imp]
    refine ⟨Or.imp_left And.right, ?_⟩
    rintro (hc | hs)
    · cases he : axes.isEmpty with
      | false => exact .inl ⟨rfl, hc⟩
      | true => exact .inr fun axis _ ha => by simp [(AxisMask.isEmpty_iff axes).mp he axis] at ha
    · exact .inr hs
  | safe =>
    rw [check, Holds, SafetyInputs.check]
    cases safety.doorAjar <;> cases safety.activePins <;> simp
  | homeable =>
    rw [check, Holds]
    cases model.kinematics.canHome axes <;> simp

theorem check_eq_error {condition : StartCondition} {e : HomingError} :
    condition.check h model axes safety = .error e ↔
      ¬ condition.Holds h model axes safety ∧ condition.Reports h model axes safety e := by
  rw [← check_eq_ok]
  cases condition with
  | idle =>
    rw [check, Reports]
    cases h.active <;> simp [eq_comm]
  | enabled =>
    rw [check, Reports]
    cases h.groups.isEnabled <;> simp [eq_comm]
  | configured =>
    rw [check, Reports]
    cases axes.isEmpty <;> cases h.groups.configured.containsAll axes <;> simp [eq_comm]
  | grouped =>
    have hfirst : grouped.Reports h model axes safety e ↔ ∃ axis,
        (axes - h.groups.singleAxis).toList.head? = some axis ∧
          e = .singleAxisNotAllowed (axisName axis).toString := by
      simp only [Reports, AxisMask.head?_toList_eq_some, AxisMask.contains_sub]
      grind
    rw [check, hfirst, HomingGroups.checkSingleAxis]
    cases h.groups.isCycle axes <;> cases (axes - h.groups.singleAxis).toList <;> simp [eq_comm]
  | safe =>
    rw [check, Reports, SafetyInputs.check]
    cases safety.doorAjar <;> cases safety.activePins <;> simp [eq_comm]
  | homeable =>
    rw [check, Reports]
    cases model.kinematics.canHome axes <;> simp [eq_comm]

theorem gate_eq_forM : h.gate model axes safety = order.forM (check h model axes safety) := by
  cases ha : h.active with
  | some cycle =>
    rw [HomingSequence.gate, order, List.forM, check, ha]
    rfl
  | none =>
    rw [HomingSequence.gate_of_idle ha]
    simp only [order, List.forM, check, ha]
    cases h.groups.isEnabled <;> cases axes.isEmpty <;> cases h.groups.configured.containsAll axes <;>
      cases h.groups.checkSingleAxis axes <;> cases safety.check <;>
      cases model.kinematics.canHome axes <;> rfl

theorem gate_eq_ok : h.gate model axes safety = .ok () ↔
    ∀ condition : StartCondition, condition.Holds h model axes safety := by
  have hall (condition : StartCondition) : condition ∈ order := by
    cases condition <;> decide
  rw [gate_eq_forM, Guards.forM_eq_ok]
  simp only [check_eq_ok, hall, true_imp_iff]

theorem gate_eq_error {e : HomingError} : h.gate model axes safety = .error e ↔
    ∃ condition : StartCondition, condition.FirstUnmet h model axes safety ∧
      condition.Reports h model axes safety e := by
  rw [gate_eq_forM, Guards.forM_eq_error]
  simp only [check_eq_ok, check_eq_error]
  constructor
  · rintro ⟨before, condition, after, ho, hb, hn, hr⟩
    exact ⟨condition, ⟨before, after, ho, hb, hn⟩, hr⟩
  · rintro ⟨condition, ⟨before, after, ho, hb, hn⟩, hr⟩
    exact ⟨before, condition, after, ho, hb, hn, hr⟩

end StartCondition

namespace HomingSequence
variable {h h' : HomingSequence α} {model : MachineModel α} {axes : AxisMask} {safety : SafetyInputs}
  {e : HomingError}

/-- What makes a call be refused with an error. -/
def RefusedWith (h : HomingSequence α) (model : MachineModel α) (e : HomingError) : HomingCall → Prop
  | .start axes safety => ∃ condition : StartCondition, condition.FirstUnmet h model axes safety ∧
      condition.Reports h model axes safety e
  | .step _ => h.active = none ∧ e = .noActiveCycle
  | .abort => h.active = none ∧ e = .noActiveCycle
  | .unlock _ => ∃ cycle, h.active = some cycle ∧ e = .cycleActive cycle.axes.text
  | .reset => False

theorem start_eq_ok : (∃ answer, (h.start model axes safety).1 = .ok answer) ↔
    h.gate model axes safety = .ok () ∧ (model.kinematics.homesItself axes = true ∨
      ∃ approach, model.kinematics.homingApproach axes (h.seekDirections axes) = .ok approach) := by
  rw [start]
  cases h.gate model axes safety with
  | error reason => simp [refuse]
  | ok =>
    dsimp only
    have hd : { h with status := h.status.begin axes }.seekDirections axes = h.seekDirections axes := rfl
    rw [hd]
    cases model.kinematics.homesItself axes <;>
      cases model.kinematics.homingApproach axes (h.seekDirections axes) <;> simp

theorem step_eq_error {poll : HomingPoll} :
    h.step model poll = .error e ↔ h.active = none ∧ e = .noActiveCycle := by
  cases ha : h.active with
  | none => simp [step, ha, eq_comm]
  | some cycle =>
    refine iff_of_false (fun hs => ?_) (by simp)
    cases hc : poll.cancel with
    | some reason => simp [step_of_cancel ha hc] at hs
    | none =>
      cases hl : poll.limited.isEmpty with
      | true => simp [step_of_no_report ha hc hl] at hs
      | false => simp [step_of_report ha hc hl rfl] at hs

theorem perform_start_eq_refused :
    (∃ h', h.perform model (.start axes safety) = .ok (.refused e, h')) ↔
      h.gate model axes safety = .error e := by
  rw [← start_eq_refuse, perform]
  split <;> rename_i hs <;> simp [hs, refuse, eq_comm]

/-- A call is refused for what stands against it, and leaves the sequence as it was. -/
theorem perform_eq_refused {call : HomingCall} :
    h.perform model call = .ok (.refused e, h') ↔ h' = h ∧ h.RefusedWith model e call := by
  have hkeeps : h.perform model call = .ok (.refused e, h') ↔
      h' = h ∧ ∃ after, h.perform model call = .ok (.refused e, after) := by
    constructor
    · intro hp
      cases perform_transition hp with
      | refused => exact ⟨rfl, h, hp⟩
    · rintro ⟨rfl, after, hp⟩
      cases perform_transition hp with
      | refused => exact hp
  rw [hkeeps]
  refine and_congr_right fun _ => ?_
  cases call with
  | start axes safety => rw [perform_start_eq_refused, StartCondition.gate_eq_error, RefusedWith]
  | step poll =>
    rw [RefusedWith, ← step_eq_error, perform]
    cases h.step model poll <;> simp
  | abort =>
    rw [RefusedWith, perform, abort]
    cases h.active <;> simp [eq_comm]
  | unlock axes =>
    rw [RefusedWith, perform, unlock]
    cases h.active <;> simp [eq_comm]
  | reset => simp [RefusedWith, perform]

/-- A call that is refused leaves the sequence as it was. A start is refused with the error for the first of its
conditions that is not met. When all are met it succeeds, unless the kinematics breaks off while it works out
the approach, which built-in kinematics never do. -/
theorem refused_iff (h : HomingSequence α) (model : MachineModel α) :
    (∀ call e h', h.perform model call = .ok (.refused e, h') ↔ h' = h ∧ h.RefusedWith model e call) ∧
    (∀ axes safety, (∃ answer, (h.start model axes safety).1 = .ok answer) ↔
      (∀ condition : StartCondition, condition.Holds h model axes safety) ∧
        (model.kinematics.homesItself axes = true ∨
          ∃ approach, model.kinematics.homingApproach axes (h.seekDirections axes) = .ok approach)) ∧
    ∀ (catalog : KinematicsCatalog α) (machine : MachineDescription α), catalog.create machine = .ok model →
      (∀ name params, machine.kinematics ≠ .custom name params) → ∀ axes safety,
        (∃ answer, (h.start model axes safety).1 = .ok answer) ↔
          ∀ condition : StartCondition, condition.Holds h model axes safety := by
  have hstart (axes : AxisMask) (safety : SafetyInputs) :
      (∃ answer, (h.start model axes safety).1 = .ok answer) ↔ _ ∧ _ := start_eq_ok
  simp only [StartCondition.gate_eq_ok] at hstart
  refine ⟨fun call e h' => perform_eq_refused, hstart, ?_⟩
  intro catalog machine hc hb axes safety
  rw [hstart, and_iff_left (.inr ((KinematicsCatalog.switchHoming hc hb).approach ..))]

/-- An axis that is not homed alone stands against a start before a door that is ajar. The door stands against
the start of a cycle. -/
theorem door_after_group : ∃ model, KinematicsCatalog.builtin.create requestedMachine = .ok model ∧
    ∃ h, ofMachine requestedMachine = .ok h ∧
      h.perform model (.start ⟨0b1000⟩ { doorAjar := true }) = .ok (.refused (.singleAxisNotAllowed "A"), h) ∧
      h.perform model (.start ⟨0b0011⟩ { doorAjar := true }) =
        .ok (.refused (.safetyInterlock "safety door"), h) := by
  let safety : SafetyInputs := { doorAjar := true }
  obtain ⟨model, hm, h, hh, hgroup, hdoor, hfirst, hearlier⟩ : ∃ model,
      KinematicsCatalog.builtin.create requestedMachine = .ok model ∧ ∃ h, ofMachine requestedMachine = .ok h ∧
        StartCondition.check h model ⟨0b1000⟩ safety .grouped = .error (.singleAxisNotAllowed "A") ∧
        StartCondition.check h model ⟨0b0011⟩ safety .safe = .error (.safetyInterlock "safety door") ∧
        (∀ c ∈ [StartCondition.idle, .enabled, .configured], c.check h model ⟨0b1000⟩ safety = .ok ()) ∧
        ∀ c ∈ [StartCondition.idle, .enabled, .configured, .grouped],
          c.check h model ⟨0b0011⟩ safety = .ok () := by
    refine ⟨_, rfl, _, rfl, rfl, rfl, ?_, ?_⟩
    · simp only [List.forall_mem_cons]
      exact ⟨rfl, rfl, rfl, List.forall_mem_nil _⟩
    · simp only [List.forall_mem_cons]
      exact ⟨rfl, rfl, rfl, rfl, List.forall_mem_nil _⟩
  simp only [StartCondition.check_eq_ok, StartCondition.check_eq_error] at hgroup hdoor hfirst hearlier
  obtain ⟨hperform, -⟩ := refused_iff h model
  refine ⟨model, hm, h, hh, ?_, ?_⟩
  · exact (hperform ..).mpr ⟨rfl, .grouped, ⟨_, _, rfl, hfirst, hgroup.1⟩, hgroup.2⟩
  · exact (hperform ..).mpr ⟨rfl, .safe, ⟨_, _, rfl, hearlier, hdoor.1⟩, hdoor.2⟩

end HomingSequence

end MotionControl
