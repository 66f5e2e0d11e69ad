import MotionControl.Proofs.Controller.Reachable
import MotionControl.Proofs.Machine.Models
import MotionControl.Scalar.Binary64

/-! The groups of axes that homing commands stand for, and the settings that a start holds against
them. A group that a command is resolved to can be started, unless it is cycle zero with an axis that
is not homed alone. -/
namespace MotionControl
variable {α : Type}

/-- How an axis of a machine is homed, if it has a home switch. -/
def MachineDescription.homing? (m : MachineDescription α) (axis : Nat) : Option (AxisHoming α) :=
  (m.axes.take maxAxes)[axis]?.bind AxisSettings.homing

namespace HomingGroups
variable {m : MachineDescription α} {axis : Nat}

private theorem contains_homedWhere (p : AxisHoming α → Bool) :
    (MachineDescription.axesWhere { m with axes := m.axes.take maxAxes } fun axis =>
      axis.homing.any p).contains axis = true ↔ ∃ homing, m.homing? axis = some homing ∧ p homing = true := by
  rw [MachineDescription.contains_axesWhere, decide_eq_true_eq, MachineDescription.homing?]
  constructor
  · rintro ⟨h, -⟩
    obtain ⟨settings, hs, hp⟩ := Option.any_eq_true .. |>.mp h
    obtain ⟨homing, hh, hp⟩ := Option.any_eq_true .. |>.mp hp
    exact ⟨homing, by rw [hs, Option.bind_some, hh], hp⟩
  · rintro ⟨homing, hh, hp⟩
    obtain ⟨settings, hs, hh⟩ := Option.bind_eq_some_iff.mp hh
    have hl := (List.getElem?_eq_some_iff.mp hs).1
    rw [List.length_take, maxAxes] at hl
    exact ⟨by simp [hs, hh, hp], by omega⟩

theorem contains_cycle {number : Nat} : ((ofMachine m).cycle number).contains axis = true ↔
    number ≤ 9 ∧ ∃ homing, m.homing? axis = some homing ∧ homing.cycle.toNat = number := by
  have hc : (ofMachine m).cycle number = if number ≤ 9 then
      MachineDescription.axesWhere { m with axes := m.axes.take maxAxes } fun axis =>
        axis.homing.any fun homing => homing.cycle.toNat == number else .none := rfl
  rw [hc]
  split
  · rename_i hn
    simp only [contains_homedWhere, beq_iff_eq, hn, true_and]
  · rename_i hn
    simp [hn]

theorem contains_configured :
    (ofMachine m).configured.contains axis = true ↔ ∃ homing, m.homing? axis = some homing :=
  (contains_homedWhere fun _ => true).trans (by simp only [and_true])

theorem lt_maxAxes (h : (ofMachine m).configured.contains axis = true) : axis < maxAxes := by
  obtain ⟨homing, hh⟩ := contains_configured.mp h
  obtain ⟨settings, hs, -⟩ := Option.bind_eq_some_iff.mp hh
  have hl := (List.getElem?_eq_some_iff.mp hs).1
  rw [List.length_take] at hl
  omega

theorem contains_singleAxis : (ofMachine m).singleAxis.contains axis = true ↔
    ∃ homing, m.homing? axis = some homing ∧ homing.allowSingleAxis = true :=
  contains_homedWhere (·.allowSingleAxis)

theorem cycle_subset_configured (number : Nat) : (ofMachine m).cycle number ⊆ (ofMachine m).configured := by
  intro axis h
  obtain ⟨-, homing, hh, -⟩ := contains_cycle.mp h
  exact contains_configured.mpr ⟨homing, hh⟩

theorem singleAxis_subset_configured : (ofMachine m).singleAxis ⊆ (ofMachine m).configured := by
  intro axis h
  obtain ⟨homing, hh, -⟩ := contains_singleAxis.mp h
  exact contains_configured.mpr ⟨homing, hh⟩

theorem cycle_injective {first second : Nat} (h : ((ofMachine m).cycle first).isEmpty = false)
    (he : (ofMachine m).cycle first = (ofMachine m).cycle second) : first = second := by
  obtain ⟨axis, ha⟩ := (AxisMask.isEmpty_eq_false_iff _).mp h
  obtain ⟨-, homing, hh, rfl⟩ := contains_cycle.mp ha
  obtain ⟨-, homing', hh', rfl⟩ := contains_cycle.mp (he ▸ ha)
  rw [hh] at hh'
  cases hh'
  rfl

variable {g : HomingGroups} {axes : AxisMask}

theorem mem_runNumbers {number : Nat} : number ∈ runNumbers ↔ 1 ≤ number ∧ number ≤ 9 := by
  have h : number ∈ runNumbers ↔ ∃ i < 9, i + 1 = number := by
    simp [runNumbers, maxHomingCycle]
  rw [h]
  constructor
  · rintro ⟨i, hi, rfl⟩
    omega
  · rintro ⟨h1, h9⟩
    exact ⟨number - 1, by omega, by omega⟩

theorem isCycle_iff : g.isCycle axes = true ↔
    axes.isEmpty = false ∧ ∃ number, 1 ≤ number ∧ number ≤ 9 ∧ g.cycle number = axes := by
  simp only [isCycle, Bool.and_eq_true, Bool.not_eq_true', List.contains_iff_mem, List.mem_map,
    mem_runNumbers, and_assoc]

theorem checkSingleAxis_eq_ok : g.checkSingleAxis axes = .ok () ↔ g.isCycle axes = true ∨
    ∀ axis < maxAxes, axes.contains axis = true → g.singleAxis.contains axis = true := by
  have ht := AxisMask.mem_toList (axes - g.singleAxis)
  rw [checkSingleAxis]
  by_cases hc : g.isCycle axes = true
  · simp [hc]
  · rw [if_neg hc]
    cases hl : (axes - g.singleAxis).toList with
    | nil =>
      simp only [hl, List.not_mem_nil, AxisMask.contains_sub, false_iff] at ht
      simp only [true_iff]
      grind
    | cons axis rest =>
      have ha := (ht axis).mp (by simp [hl])
      simp only [AxisMask.contains_sub] at ha
      simp only [reduceCtorEq, false_iff]
      grind

/-- Nothing in the settings stands against homing the axes together. -/
structure Admits (g : HomingGroups) (axes : AxisMask) : Prop where
  enabled : g.isEnabled = true
  nonempty : axes.isEmpty = false
  configured : axes ⊆ g.configured
  allowed : g.checkSingleAxis axes = .ok ()

end HomingGroups

/-- A refusal that depends on how the axes of the machine are set up to be homed. -/
def HomingError.OfSettings : HomingError → Prop
  | disabled | invalidRequest _ | singleAxisNotAllowed _ => True
  | _ => False

theorem HomingError.ofSettings_of_checkSingleAxis {g : HomingGroups} {axes : AxisMask} {e : HomingError}
    (h : g.checkSingleAxis axes = .error e) : e.OfSettings := by
  rw [HomingGroups.checkSingleAxis] at h
  split at h
  · cases h
  · split at h
    · cases h
      trivial
    · cases h

theorem HomingError.not_ofSettings_of_check {safety : SafetyInputs} {e : HomingError}
    (h : safety.check = .error e) : ¬ e.OfSettings := by
  rw [SafetyInputs.check] at h
  split at h
  · cases h
    exact id
  · split at h
    · cases h
      exact id
    · cases h

namespace HomingCommand
variable {g : HomingGroups} {axes : AxisMask} {groups : List AxisMask} {command : HomingCommand}

theorem of_ofLetters {letters : List Char} {mask : AxisMask} (h : AxisMask.ofLetters letters = some mask) :
    (∀ axis, mask.contains axis = true → axis < maxAxes) ∧ (letters ≠ [] → mask.isEmpty = false) := by
  induction letters generalizing mask with
  | nil =>
    cases h
    simp
  | cons c letters ih =>
    rw [AxisMask.ofLetters] at h
    split at h
    · rename_i axis hf
      obtain ⟨rest, hr, rfl⟩ := Option.map_eq_some_iff.mp h
      have hl : axis < maxAxes := (List.findIdx?_eq_some_iff_getElem.mp hf).1
      rw [maxAxes] at hl
      refine ⟨?_, fun _ => (AxisMask.isEmpty_eq_false_iff _).mpr ⟨axis, ?_⟩⟩
      · intro axis' ha
        rw [AxisMask.contains_or, Bool.or_eq_true, AxisMask.contains_single, decide_eq_true_eq] at ha
        obtain ⟨rfl, -⟩ | ha := ha
        · exact hl
        · exact (ih hr).1 axis' ha
      · rw [AxisMask.contains_or, AxisMask.contains_single]
        simp
        omega
    · cases h

theorem of_parse_axes {text : String} {mask : AxisMask} (h : parse text = .ok (.axes mask)) :
    mask.isEmpty = false ∧ ∀ axis, mask.contains axis = true → axis < maxAxes := by
  rw [parse] at h
  split at h
  · cases h
  · rename_i hn
    split at h
    · cases h
    · split at h
      · rename_i hm
        cases h
        obtain ⟨hl, he⟩ := of_ofLetters hm
        exact ⟨he hn, hl⟩
      · cases h

theorem isEnabled_of_resolve (h : command.resolve g = .ok groups) : g.isEnabled = true := by
  rw [resolve.eq_def] at h
  split at h
  · cases h
  · rename_i he
    simpa using he

/-- A group is a cycle, or the axes that the command names, which have been checked. -/
theorem origin_of_resolve (h : command.resolve g = .ok groups) (ha : axes ∈ groups) :
    (axes.isEmpty = false ∧ ∃ number, g.cycle number = axes) ∨
      command = .axes axes ∧ g.checkSingleAxis axes = .ok () := by
  rw [resolve.eq_def, isEnabled_of_resolve h] at h
  cases command with
  | all =>
    simp only [Bool.not_true, Bool.false_eq_true, if_false] at h
    split at h
    · cases h
    · cases h
      obtain ⟨hc, he⟩ := List.mem_filter.mp ha
      obtain ⟨number, -, rfl⟩ := List.mem_map.mp hc
      exact .inl ⟨Bool.not_eq_true' _ |>.mp he, number, rfl⟩
  | cycles numbers =>
    obtain ⟨number, -, hc⟩ := Outcome.exists_of_mem_mapM h ha
    rw [cycleAxes] at hc
    split at hc
    · cases hc
    · rename_i he
      cases hc
      exact .inl ⟨Bool.eq_false_iff.mpr he, number, rfl⟩
  | axes mask =>
    obtain ⟨_, hs, rfl⟩ := Outcome.map_eq_ok.mp h
    cases List.mem_singleton.mp ha
    exact .inr ⟨rfl, hs⟩

end HomingCommand

namespace HomingGroups
variable {m : MachineDescription α} {axes : AxisMask} {command : HomingCommand} {groups : List AxisMask}

theorem admits_cycle_iff {number : Nat} (hn : ((ofMachine m).cycle number).isEmpty = false) :
    (ofMachine m).Admits ((ofMachine m).cycle number) ↔
      (number = 0 → (ofMachine m).cycle 0 ⊆ (ofMachine m).singleAxis) := by
  obtain ⟨axis, ha⟩ := (AxisMask.isEmpty_eq_false_iff _).mp hn
  have hs := cycle_subset_configured (m := m) number
  have he : (ofMachine m).isEnabled = true := by
    rw [isEnabled, Bool.not_eq_true', AxisMask.isEmpty_eq_false_iff]
    exact ⟨axis, hs axis ha⟩
  suffices hc : (ofMachine m).checkSingleAxis ((ofMachine m).cycle number) = .ok () ↔
      (number = 0 → (ofMachine m).cycle 0 ⊆ (ofMachine m).singleAxis) from
    ⟨fun h => hc.mp h.allowed, fun h => ⟨he, hn, hs, hc.mpr h⟩⟩
  rw [checkSingleAxis_eq_ok, isCycle_iff]
  constructor
  · rintro (⟨-, other, h1, -, hc⟩ | h) rfl
    · have hz := cycle_injective hn hc.symm
      omega
    · intro axis' ha'
      exact h axis' (lt_maxAxes (hs axis' ha')) ha'
  · intro h
    by_cases hz : number = 0
    · subst hz
      exact .inr fun axis' _ => h rfl axis'
    · obtain ⟨h9, -⟩ := contains_cycle.mp ha
      exact .inl ⟨hn, number, by omega, h9, rfl⟩

/-- A group that a command is resolved to is admitted, unless it is cycle zero with an axis that cannot be
homed alone. -/
theorem admits_iff_of_resolve {text : String} (hp : HomingCommand.parse text = .ok command)
    (hr : command.resolve (ofMachine m) = .ok groups) (ha : axes ∈ groups) :
    (ofMachine m).Admits axes ↔ (axes = (ofMachine m).cycle 0 → axes ⊆ (ofMachine m).singleAxis) := by
  obtain ⟨hn, number, rfl⟩ | ⟨rfl, hs⟩ := HomingCommand.origin_of_resolve hr ha
  · rw [admits_cycle_iff hn]
    constructor
    · intro h he
      exact he ▸ h (cycle_injective hn he)
    · rintro h rfl
      exact h rfl
  · obtain ⟨hn, hl⟩ := HomingCommand.of_parse_axes hp
    have hc : axes ⊆ (ofMachine m).configured := by
      obtain hc | hc := checkSingleAxis_eq_ok.mp hs
      · obtain ⟨-, number, -, -, rfl⟩ := isCycle_iff.mp hc
        exact cycle_subset_configured number
      · exact fun axis h => singleAxis_subset_configured axis (hc axis (hl axis h) h)
    have had : (ofMachine m).Admits axes := ⟨HomingCommand.isEnabled_of_resolve hr, hn, hc, hs⟩
    refine ⟨?_, fun _ => had⟩
    rintro - rfl
    exact (admits_cycle_iff hn).mp had rfl

end HomingGroups

namespace HomingSequence
variable [Scalar α] {h : HomingSequence α} {model : MachineModel α} {axes : AxisMask}
  {safety : SafetyInputs} {e : HomingError}

theorem start_eq_refuse : (h.start model axes safety).1 = refuse e ↔ h.gate model axes safety = .error e := by
  rw [start]
  cases h.gate model axes safety with
  | error reason => simp [refuse]
  | ok =>
    dsimp only
    split
    · simp [refuse]
    · split <;> simp [refuse]

/-- The gate of an idle sequence looks at the settings first. -/
theorem gate_of_idle (hi : h.active = none) : h.gate model axes safety =
    if h.groups.isEnabled = false then .error .disabled
    else if axes.isEmpty = true ∨ h.groups.configured.containsAll axes = false then
      .error (.invalidRequest s!"no homing configuration for {axes - h.groups.configured}")
    else match h.groups.checkSingleAxis axes, safety.check with
      | .error e, _ => .error e
      | .ok (), .error e => .error e
      | .ok (), .ok () =>
        if model.kinematics.canHome axes = true then .ok ()
        else .error (.unsupportedAxes model.name axes.text) := by
  rw [gate, hi]
  cases h.groups.isEnabled <;> cases axes.isEmpty <;> cases h.groups.configured.containsAll axes <;>
    cases h.groups.checkSingleAxis axes <;> cases safety.check <;>
    cases model.kinematics.canHome axes <;> rfl

/-- As long as no cycle is in progress, the settings stand against a start exactly when they do not admit
its axes. -/
theorem gate_passes_settings_iff (hi : h.active = none) (model : MachineModel α) (axes : AxisMask)
    (safety : SafetyInputs) :
    (∀ e, h.gate model axes safety = .error e → ¬ e.OfSettings) ↔ h.groups.Admits axes := by
  rw [gate_of_idle hi]
  by_cases he : h.groups.isEnabled = false
  · rw [if_pos he]
    refine iff_of_false (fun hn => hn _ rfl trivial) fun ha => ?_
    simp [ha.enabled] at he
  · rw [if_neg he]
    by_cases hc : axes.isEmpty = true ∨ h.groups.configured.containsAll axes = false
    · rw [if_pos hc]
      refine iff_of_false (fun hn => hn _ rfl trivial) fun ha => ?_
      have hs := (AxisMask.containsAll_iff _ _).mpr ha.configured
      simp [ha.nonempty, hs] at hc
    · rw [if_neg hc]
      simp only [not_or, Bool.not_eq_true, Bool.not_eq_false] at he hc
      cases hs : h.groups.checkSingleAxis axes with
      | error reason =>
        refine iff_of_false (fun hn => hn reason rfl (HomingError.ofSettings_of_checkSingleAxis hs)) fun ha => ?_
        simp [ha.allowed] at hs
      | ok =>
        refine iff_of_true ?_ ⟨he, hc.1, (AxisMask.containsAll_iff _ _).mp hc.2, hs⟩
        intro reason hr
        cases hf : safety.check with
        | error e =>
          rw [hf] at hr
          cases hr
          exact HomingError.not_ofSettings_of_check hf
        | ok =>
          rw [hf] at hr
          dsimp only at hr
          split at hr
          · cases hr
          · cases hr
            exact id

end HomingSequence

/-- As long as no cycle is in progress, the settings do not stand against the start of a group that a
command is resolved to, unless it is cycle zero with an axis that cannot be homed alone. -/
theorem Controller.resolved_group_passes_iff [Scalar α] {catalog : KinematicsCatalog α}
    {machine : MachineDescription α} {c : Controller α} (hr : Reachable catalog machine c)
    (hi : c.homing.active = none) {text : String} {groups : List AxisMask}
    (hg : c.resolveHoming text = .ok groups) {axes : AxisMask} (ha : axes ∈ groups) (safety : SafetyInputs) :
    (∀ e, (c.startHoming axes safety).1 = refuse e → ¬ e.OfSettings) ↔
      (axes = (HomingGroups.ofMachine machine).cycle 0 →
        axes ⊆ (HomingGroups.ofMachine machine).singleAxis) := by
  obtain ⟨command, hp, hc⟩ := Outcome.bind_eq_ok.mp hg
  rw [hr.groups] at hc
  rw [← HomingGroups.admits_iff_of_resolve hp hc ha, ← hr.groups,
    ← HomingSequence.gate_passes_settings_iff hi c.model axes safety]
  simp only [startHoming, cancelJog, HomingSequence.start_eq_refuse]

/-- Three axes that are homed in a full run, and one that is homed on request and not alone. -/
def requestedMachine : MachineDescription Float :=
  let onRequest : AxisHoming Float := { (default : AxisHoming Float) with cycle := 0, allowSingleAxis := false }
  { (default : MachineDescription Float) with
    axes := [.homedIn "X" 300.0 2, .homedIn "Y" 300.0 2, .homedIn "Z" 100.0 1,
      { AxisSettings.homedIn "A" 360.0 0 with homing := some onRequest }] }

/-- The groups of a command that lists two cycles of the full run are started. -/
theorem listed_cycle_starts : ∃ c, Controller.Reachable .builtin requestedMachine c ∧ c.homing.active = none ∧
    c.resolveHoming " 21" = .ok [⟨0b0011⟩, ⟨0b0100⟩] ∧
    ∀ e, (c.startHoming ⟨0b0011⟩ {}).1 = refuse e → ¬ e.OfSettings := by
  obtain ⟨c, hc⟩ : ∃ c, Controller.ofMachine .builtin requestedMachine = .ok c := ⟨_, rfl⟩
  have hi : c.homing.active = none := by
    cases hc
    rfl
  have hg : c.resolveHoming " 21" = .ok [⟨0b0011⟩, ⟨0b0100⟩] := by
    cases hc
    rfl
  refine ⟨c, .start hc, hi, hg, ?_⟩
  refine (Controller.resolved_group_passes_iff (.start hc) hi hg (.head _) {}).mpr fun he => ?_
  exact absurd he (by decide +kernel)

/-- Cycle zero is resolved, and its start is refused because its axis cannot be homed alone. -/
theorem requested_cycle_refused : ∃ c, Controller.Reachable .builtin requestedMachine c ∧
    c.homing.active = none ∧ c.resolveHoming "0" = .ok [⟨0b1000⟩] ∧
    (c.startHoming ⟨0b1000⟩ {}).1 = refuse (.singleAxisNotAllowed "A") ∧
    ¬ ∀ e, (c.startHoming ⟨0b1000⟩ {}).1 = refuse e → ¬ e.OfSettings := by
  obtain ⟨c, hc⟩ : ∃ c, Controller.ofMachine .builtin requestedMachine = .ok c := ⟨_, rfl⟩
  have hs : (c.startHoming ⟨0b1000⟩ {}).1 = refuse (.singleAxisNotAllowed "A") := by
    cases hc
    rfl
  refine ⟨c, .start hc, ?_, ?_, hs, fun hn => hn _ hs trivial⟩
  · cases hc
    rfl
  · cases hc
    rfl

end MotionControl
