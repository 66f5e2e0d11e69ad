import MotionControl.Machine.Validation
import MotionControl.Proofs.Guards
import MotionControl.Proofs.Homing.CommandGroups

/-! Full homing runs. The cycles of a machine whose description is in range share its homed axes out, and a full
run goes through the cycles that have axes, but for cycle zero. -/
namespace MotionControl
variable {α : Type}

/-- The number of the cycle that an axis is homed in, if it has a home switch. -/
def MachineDescription.cycleNumber? (m : MachineDescription α) (axis : Nat) : Option Nat :=
  (m.axes[axis]?.bind AxisSettings.homing).map fun homing => homing.cycle.toNat

/-- Groups of axes in the order in which a full run homes them. -/
structure FullRun (m : MachineDescription α) (groups : List AxisMask) : Prop where
  nonempty : ∀ group ∈ groups, ∃ axis, group.contains axis = true
  numbered : ∀ group ∈ groups, ∀ axis, group.contains axis = true →
    ∃ number, m.cycleNumber? axis = some number ∧ number ≠ 0
  once : ∀ axis number, m.cycleNumber? axis = some number → number ≠ 0 →
    ∃ place, ∀ i : Nat, (∃ group, groups[i]? = some group ∧ group.contains axis = true) ↔ i = place
  together : ∀ axis number other number', m.cycleNumber? axis = some number → number ≠ 0 →
    m.cycleNumber? other = some number' → number' ≠ 0 →
      ((∃ group ∈ groups, group.contains axis = true ∧ group.contains other = true) ↔ number = number')
  ascending : groups.Pairwise fun (earlier later : AxisMask) => ∀ axis number other number',
    earlier.contains axis = true → m.cycleNumber? axis = some number →
      later.contains other = true → m.cycleNumber? other = some number' → number < number'

/-- Cycles in ascending order of their numbers, each with all axes of its number, are a full run. -/
theorem FullRun.of_numbers {m : MachineDescription α} {numbers : List Nat} {cycle : Nat → AxisMask}
    (hsorted : numbers.Pairwise (· < ·))
    (hcycle : ∀ number axis, (cycle number).contains axis = true ↔ m.cycleNumber? axis = some number)
    (hnumbers : ∀ number, number ∈ numbers ↔ number ≠ 0 ∧ ∃ axis, m.cycleNumber? axis = some number) :
    FullRun m (numbers.map cycle) where
  nonempty := by
    simp only [List.forall_mem_map, hcycle]
    intro number hn
    exact ((hnumbers number).mp hn).2
  numbered := by
    simp only [List.forall_mem_map, hcycle]
    intro number hn axis ha
    exact ⟨number, ha, ((hnumbers number).mp hn).1⟩
  once axis number ha h0 := by
    obtain ⟨place, hp⟩ := List.mem_iff_getElem?.mp ((hnumbers number).mpr ⟨h0, axis, ha⟩)
    have hdistinct : numbers.Nodup := hsorted.imp Nat.ne_of_lt
    refine ⟨place, fun i => ?_⟩
    simp only [List.getElem?_map, Option.map_eq_some_iff, exists_exists_and_eq_and, hcycle, ha, Option.some.injEq]
    constructor
    · rintro ⟨_, hi, rfl⟩
      exact (List.getElem?_inj (List.getElem?_eq_some_iff.mp hi).1 hdistinct).mp (hi.trans hp.symm)
    · rintro rfl
      exact ⟨number, hp, rfl⟩
  together axis number other number' ha h0 ho h0' := by
    simp only [List.mem_map, exists_exists_and_eq_and, hcycle, ha, ho, Option.some.injEq]
    constructor
    · rintro ⟨_, -, rfl, rfl⟩
      rfl
    · rintro rfl
      exact ⟨number, (hnumbers number).mpr ⟨h0, axis, ha⟩, rfl, rfl⟩
  ascending := by
    simp only [List.pairwise_map, hcycle]
    refine hsorted.imp ?_
    rintro first second hlt axis number other number' ha hn ho hn'
    rw [ha] at hn
    rw [ho] at hn'
    cases hn
    cases hn'
    exact hlt

theorem FullRun.eq_nil_iff {m : MachineDescription α} {groups : List AxisMask} (h : FullRun m groups) :
    groups = [] ↔ ∀ axis number, m.cycleNumber? axis = some number → number = 0 := by
  constructor
  · rintro rfl axis number ha
    refine Decidable.by_contra fun h0 => ?_
    obtain ⟨place, hp⟩ := h.once axis number ha h0
    obtain ⟨group, hg, -⟩ := (hp place).mpr rfl
    cases hg
  · intro hz
    refine List.eq_nil_iff_forall_not_mem.mpr fun group hg => ?_
    obtain ⟨axis, ha⟩ := h.nonempty group hg
    obtain ⟨number, hn, h0⟩ := h.numbered group hg axis ha
    exact h0 (hz axis number hn)

theorem AxisSettings.cycle_of_validate [Scalar α] {settings : AxisSettings α} {homing : AxisHoming α} {index : Nat}
    (h : settings.validate index = .ok ()) (hh : settings.homing = some homing) : homing.cycle.toNat ≤ 9 := by
  refine UInt8.le_iff_toNat_le.mp (UInt8.not_lt.mp fun hl : maxHomingCycle < homing.cycle => ?_)
  rw [AxisSettings.validate, hh] at h
  split at h
  · cases h
  · split at h
    · cases h
    · simp [hl] at h

namespace MachineDescription
variable [Scalar α] {m : MachineDescription α} (hv : m.validate = .ok ())
include hv

theorem length_of_validate : m.axes.length ≤ maxAxes := by
  rw [validate] at hv
  obtain ⟨hn, -⟩ := Guards.refuse_first_eq_ok.mp hv
  exact Nat.le_of_not_lt (not_or.mp hn).2

theorem cycle_of_validate {settings : AxisSettings α} {homing : AxisHoming α} (hs : settings ∈ m.axes)
    (hh : settings.homing = some homing) : homing.cycle.toNat ≤ 9 := by
  rw [validate] at hv
  obtain ⟨-, h⟩ := Guards.refuse_first_eq_ok.mp hv
  have haxes := Guards.forM_eq_ok.mp (Guards.bind_eq_ok.mp h).1
  obtain ⟨axis, ha⟩ := List.mem_iff_getElem?.mp hs
  exact AxisSettings.cycle_of_validate (haxes (settings, axis) (List.mem_zipIdx_iff_getElem?.mpr ha)) hh

theorem homing?_of_validate (axis : Nat) : m.homing? axis = m.axes[axis]?.bind AxisSettings.homing := by
  rw [homing?, List.take_of_length_le (length_of_validate hv)]

end MachineDescription

namespace HomingGroups
section
variable [Scalar α] {m : MachineDescription α} (hv : m.validate = .ok ())
include hv

theorem contains_cycle_of_validate (number axis : Nat) :
    ((ofMachine m).cycle number).contains axis = true ↔ m.cycleNumber? axis = some number := by
  rw [contains_cycle, MachineDescription.cycleNumber?, Option.map_eq_some_iff, m.homing?_of_validate hv]
  refine and_iff_right_of_imp ?_
  rintro ⟨homing, hh, rfl⟩
  obtain ⟨settings, hs, hh⟩ := Option.bind_eq_some_iff.mp hh
  exact m.cycle_of_validate hv (List.mem_of_getElem? hs) hh

theorem contains_configured_of_validate (axis : Nat) :
    (ofMachine m).configured.contains axis = true ↔ ∃ number, m.cycleNumber? axis = some number := by
  simp only [contains_configured, m.homing?_of_validate hv, MachineDescription.cycleNumber?,
    Option.map_eq_some_iff]
  grind

theorem configured_eq_homingAxes : (ofMachine m).configured = m.homingAxes := by
  rw [MachineDescription.homingAxes, ofMachine]
  simp only [List.take_of_length_le (m.length_of_validate hv)]
  congr 1

theorem fullRun_of_validate : FullRun m (ofMachine m).run := by
  have hr : (ofMachine m).run =
      (runNumbers.filter fun number => !((ofMachine m).cycle number).isEmpty).map (ofMachine m).cycle :=
    List.filter_map ..
  rw [hr]
  refine .of_numbers (List.Pairwise.filter _ (by decide)) (contains_cycle_of_validate hv) fun number => ?_
  have hcycle := contains_cycle_of_validate hv number
  simp only [List.mem_filter, Bool.not_eq_true', AxisMask.isEmpty_eq_false_iff, hcycle, mem_runNumbers]
  refine and_congr_left ?_
  rintro ⟨axis, ha⟩
  have h9 := (contains_cycle.mp ((hcycle axis).mpr ha)).1
  omega

/-- The cycles of a machine in range share out the axes that can be homed, which are those with a home switch. A
command without text stands for a full run through the cycles of the numbered axes, and is refused as disabled if
no axis has a number other than zero. -/
theorem cycles_share_out :
    (∀ first second, first ≠ second → ∀ axis, ¬ (((ofMachine m).cycle first).contains axis = true ∧
      ((ofMachine m).cycle second).contains axis = true)) ∧
    (∀ axis, (ofMachine m).configured.contains axis = true ↔
      ∃ number ≤ 9, ((ofMachine m).cycle number).contains axis = true) ∧
    (ofMachine m).configured = m.homingAxes ∧
    HomingCommand.parse "" = .ok .all ∧
    ((HomingCommand.resolve (ofMachine m) .all = .error .disabled ∧
        ∀ axis number, m.cycleNumber? axis = some number → number = 0) ∨
      ∃ groups, HomingCommand.resolve (ofMachine m) .all = .ok groups ∧ FullRun m groups ∧
        ∃ axis number, m.cycleNumber? axis = some number ∧ number ≠ 0) := by
  have hcycle := contains_cycle_of_validate hv
  have hconfigured := contains_configured_of_validate hv
  have hrun := fullRun_of_validate hv
  refine ⟨?_, ?_, configured_eq_homingAxes hv, rfl, ?_⟩
  · rintro first second hne axis ⟨hf, hs⟩
    exact hne (Option.some.inj (((hcycle first axis).mp hf).symm.trans ((hcycle second axis).mp hs)))
  · intro axis
    rw [hconfigured]
    refine exists_congr fun number => ?_
    rw [hcycle, iff_and_self]
    exact fun ha => (contains_cycle.mp ((hcycle number axis).mpr ha)).1
  · by_cases hz : ∀ axis number, m.cycleNumber? axis = some number → number = 0
    · refine .inl ⟨?_, hz⟩
      rw [HomingCommand.resolve.eq_def, hrun.eq_nil_iff.mpr hz]
      cases (ofMachine m).isEnabled <;> rfl
    · obtain ⟨axis, number, ha, h0⟩ : ∃ axis number, m.cycleNumber? axis = some number ∧ number ≠ 0 := by
        simpa only [Classical.not_forall, exists_prop] using hz
      have henabled : (ofMachine m).isEnabled = true := by
        rw [isEnabled, Bool.not_eq_true', AxisMask.isEmpty_eq_false_iff]
        exact ⟨axis, (hconfigured axis).mpr ⟨number, ha⟩⟩
      refine .inr ⟨_, ?_, hrun, axis, number, ha, h0⟩
      rw [HomingCommand.resolve.eq_def, henabled]
      exact if_neg fun hn => hz (hrun.eq_nil_iff.mp (List.isEmpty_iff.mp hn))

end

/-- Cycles one and two are run, the first with an axis that comes after those of the second. -/
theorem requestedMachine_shared_out : requestedMachine.validate = .ok () ∧
    (HomingCommand.resolve (ofMachine requestedMachine) .all = .ok [⟨0b0100⟩, ⟨0b0011⟩]) ∧
    FullRun requestedMachine [⟨0b0100⟩, ⟨0b0011⟩] ∧ (ofMachine requestedMachine).configured = ⟨0b1111⟩ := by
  have hv : requestedMachine.validate = .ok () := by
    decide +kernel
  obtain ⟨-, -, hh, -, ⟨hr, -⟩ | ⟨groups, hr, hf, -⟩⟩ := cycles_share_out hv
  · cases hr
  · cases hr
    exact ⟨hv, rfl, hf, rfl⟩

end HomingGroups

end MotionControl
