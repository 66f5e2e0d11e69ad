import MotionControl.Homing.Groups
import MotionControl.Kinematics.Catalog
import MotionControl.Proofs.Axes.Masks
import MotionControl.Proofs.Outcomes

/-! What is known of a machine once a model has been created for it. -/
namespace MotionControl
variable {α : Type}

theorem MachineDescription.contains_axesWhere (m : MachineDescription α) (p : AxisSettings α → Bool)
    (axis : Nat) :
    (m.axesWhere p).contains axis = decide (m.axes[axis]?.any p = true ∧ axis < 32) := by
  rw [axesWhere, AxisMask.contains_ofList, decide_eq_decide]
  simp only [List.mem_map, List.mem_filter, List.mem_zipIdx_iff_getElem?, Prod.exists]
  constructor
  · rintro ⟨⟨settings, index, ⟨hs, hp⟩, rfl⟩, hl⟩
    exact ⟨by simp [hs, hp], hl⟩
  · rintro ⟨h, hl⟩
    obtain ⟨settings, hs, hp⟩ := Option.any_eq_true .. |>.mp h
    exact ⟨⟨settings, axis, ⟨hs, hp⟩, rfl⟩, hl⟩

theorem MachineDescription.axisCount_of_layout {m : MachineDescription α} {layout : AxisLayout}
    (h : m.layout = .ok layout) : layout.axisCount = m.axisCount := by
  rw [MachineDescription.layout, AxisLayout.new] at h
  split at h
  · cases h
    rfl
  · cases h

theorem HomingGroups.lt_of_contains_configured {m : MachineDescription α} {axis : Nat}
    (h : (HomingGroups.ofMachine m).configured.contains axis = true) : axis < m.axisCount := by
  have hc : (MachineDescription.axesWhere { m with axes := m.axes.take maxAxes } fun settings =>
      settings.homing.any fun _ => true).contains axis = true := h
  rw [MachineDescription.contains_axesWhere, decide_eq_true_eq] at hc
  obtain ⟨settings, hs, -⟩ := Option.any_eq_true .. |>.mp hc.1
  have hl := (List.getElem?_eq_some_iff.mp hs).1
  rw [List.length_take] at hl
  exact Nat.lt_of_lt_of_le hl (Nat.min_le_right ..)

variable [Scalar α]

/-- A created model has the layout and the kinematics of its machine, which suit each other. -/
theorem KinematicsCatalog.create_eq_ok {c : KinematicsCatalog α} {m : MachineDescription α}
    {model : MachineModel α} : c.create m = .ok model ↔ m.axes.isEmpty = false ∧
      m.layout = .ok model.layout ∧ c.select m = .ok model.kinematics ∧
      model.kinematics.validate model.layout = .ok () := by
  rw [create]
  cases m.axes.isEmpty with
  | true => simp
  | false =>
    cases m.layout with
    | error fault => simp
    | ok layout =>
      simp only [Bool.false_eq_true, if_false, Outcome.bind_eq_ok, Outcome.pure_eq_ok, Except.ok.injEq,
        true_and]
      constructor
      · rintro ⟨kinematics, hs, _, hv, rfl⟩
        exact ⟨rfl, hs, hv⟩
      · rintro ⟨rfl, hs, hv⟩
        exact ⟨model.kinematics, hs, (), hv, rfl⟩

theorem KinematicsCatalog.of_create {c : KinematicsCatalog α} {m : MachineDescription α}
    {model : MachineModel α} (h : c.create m = .ok model) :
    m.layout = .ok model.layout ∧ c.select m = .ok model.kinematics ∧
      model.kinematics.validate model.layout = .ok () :=
  (create_eq_ok.mp h).2

theorem CoreXY.validate_eq_ok {xScaler : α} {limits : SoftLimits α} {layout : AxisLayout} :
    validate xScaler limits layout = .ok () ↔ 2 ≤ layout.axisCount ∧ Scalar.isPositive xScaler = true ∧
      layout.ganged.intersects beltAxes = false ∧ limits.validate layout = .ok () := by
  rw [validate]
  by_cases h2 : layout.axisCount < 2
  · simp [h2, Nat.not_le.mpr h2]
  · cases Scalar.isPositive xScaler <;> cases layout.ganged.intersects beltAxes <;>
      simp [h2, Nat.le_of_not_lt h2]

/-- The models of a machine with built-in kinematics. -/
inductive BuiltInModel (machine : MachineDescription α) : MachineModel α → Prop where
  | cartesian {layout : AxisLayout} (selected : machine.kinematics = .cartesian)
      (valid : SoftLimits.validate ⟨machine.softLimits⟩ layout = .ok ()) :
      BuiltInModel machine ⟨Cartesian.kinematics ⟨machine.softLimits⟩, layout⟩
  | coreXY {layout : AxisLayout} {xScaler : α} (selected : machine.kinematics = .coreXY xScaler)
      (valid : CoreXY.validate xScaler ⟨machine.softLimits⟩ layout = .ok ()) :
      BuiltInModel machine ⟨CoreXY.kinematics xScaler ⟨machine.softLimits⟩, layout⟩
  | parallelDelta {layout : AxisLayout} {geometry : DeltaSettings α}
      (selected : machine.kinematics = .parallelDelta geometry)
      (valid : RotaryDelta.validate geometry layout = .ok ()) :
      BuiltInModel machine ⟨RotaryDelta.kinematics geometry, layout⟩

theorem KinematicsCatalog.builtInModel {c : KinematicsCatalog α} {m : MachineDescription α}
    {model : MachineModel α} (h : c.create m = .ok model)
    (hb : ∀ name params, m.kinematics ≠ .custom name params) : BuiltInModel m model := by
  obtain ⟨-, hs, hv⟩ := of_create h
  obtain ⟨kinematics, layout⟩ := model
  rw [select] at hs
  cases hk : m.kinematics with
  | cartesian =>
    rw [hk] at hs
    cases hs
    exact .cartesian hk hv
  | coreXY xScaler =>
    rw [hk] at hs
    cases hs
    exact .coreXY hk hv
  | parallelDelta geometry =>
    rw [hk] at hs
    cases hs
    exact .parallelDelta hk hv
  | custom name params => exact absurd hk (hb name params)

theorem BuiltInModel.validate_geometry {machine : MachineDescription α} {model : MachineModel α}
    {g : DeltaSettings α} (h : BuiltInModel machine model) (hg : machine.kinematics = .parallelDelta g) :
    RotaryDelta.validate g model.layout = .ok () := by
  cases h with
  | cartesian selected => simp [selected] at hg
  | coreXY selected => simp [selected] at hg
  | parallelDelta selected valid =>
    rw [selected] at hg
    cases hg
    exact valid

theorem BuiltInModel.kinematics_eq {machine : MachineDescription α} {model : MachineModel α}
    {g : DeltaSettings α} (h : BuiltInModel machine model) (hg : machine.kinematics = .parallelDelta g) :
    model.kinematics = RotaryDelta.kinematics g := by
  cases h with
  | cartesian selected => simp [selected] at hg
  | coreXY selected => simp [selected] at hg
  | parallelDelta selected =>
    rw [selected] at hg
    cases hg
    rfl

theorem KinematicsCatalog.configured_subset {c : KinematicsCatalog α} {m : MachineDescription α}
    {model : MachineModel α} (h : c.create m = .ok model) :
    (HomingGroups.ofMachine m).configured ⊆ model.layout.allAxes := by
  intro axis ha
  rw [AxisLayout.contains_allAxes, MachineDescription.axisCount_of_layout (of_create h).1, decide_eq_true_eq]
  exact HomingGroups.lt_of_contains_configured ha

end MotionControl
