import MotionControl.Axes.Layout

/-! Masks read as sets. A mask of axes is fixed by the axes it contains, and a mask of motors by
the first and second motors it has. -/
namespace MotionControl

namespace AxisMask
variable (a b : AxisMask)

@[simp] theorem contains_none (axis : Nat) : none.contains axis = false := by
  simp [none, contains]

@[simp] theorem contains_or (axis : Nat) :
    (a ||| b).contains axis = (a.contains axis || b.contains axis) :=
  BitVec.getLsbD_or

@[simp] theorem contains_and (axis : Nat) :
    (a &&& b).contains axis = (a.contains axis && b.contains axis) :=
  BitVec.getLsbD_and

variable {a b}

theorem lt_of_contains {axis : Nat} (h : a.contains axis = true) : axis < 32 := by
  rw [contains] at h
  exact Decidable.by_contra fun hl => by simp [BitVec.getLsbD_of_ge _ _ (Nat.le_of_not_lt hl)] at h

theorem ext_contains (h : ∀ axis, a.contains axis = b.contains axis) : a = b := by
  cases a
  cases b
  exact congrArg mk (BitVec.eq_of_getLsbD_eq fun axis _ => h axis)

variable (a b)

@[simp] theorem contains_sub (axis : Nat) :
    (a - b).contains axis = (a.contains axis && !b.contains axis) := by
  change (a.bits &&& ~~~b.bits).getLsbD axis = (a.bits.getLsbD axis && !b.bits.getLsbD axis)
  by_cases h : axis < 32
  · simp [h]
  · simp [BitVec.getLsbD_of_ge _ _ (Nat.le_of_not_lt h)]

@[simp] theorem contains_single (axis other : Nat) :
    (single axis).contains other = decide (other = axis ∧ other < 32) := by
  rw [single, contains, BitVec.getLsbD_shiftLeft]
  by_cases h : other < 32 <;> by_cases hl : other < axis <;> simp [h, hl, BitVec.getLsbD_one] <;> omega

instance : HasSubset AxisMask := ⟨fun a b => ∀ axis, a.contains axis = true → b.contains axis = true⟩

theorem subset_iff : a ⊆ b ↔ ∀ axis, a.contains axis = true → b.contains axis = true := Iff.rfl

variable {a b} in
theorem sub_or_sub {c : AxisMask} (hb : b ⊆ a) (hc : c ⊆ b) : (a - b) ||| (b - c) = a - c := by
  apply ext_contains
  intro axis
  have hab := hb axis
  have hbc := hc axis
  simp only [contains_or, contains_sub]
  grind

theorem isEmpty_iff : a.isEmpty = true ↔ ∀ axis, a.contains axis = false := by
  rw [isEmpty, beq_iff_eq]
  constructor
  · intro h axis
    simp [contains, h]
  · intro h
    exact congrArg bits (ext_contains (b := none) fun axis => by simp [h axis])

theorem isEmpty_eq_false_iff : a.isEmpty = false ↔ ∃ axis, a.contains axis = true := by
  simp [← Bool.not_eq_true, isEmpty_iff]

theorem containsAll_iff : a.containsAll b = true ↔ b ⊆ a := by
  rw [containsAll, beq_iff_eq]
  constructor
  · intro h axis hb
    have ha := congrArg (·.getLsbD axis) h
    simp only [BitVec.getLsbD_and] at ha
    rw [contains] at hb ⊢
    simpa [hb] using ha
  · intro h
    suffices he : a &&& b = b from congrArg bits he
    apply ext_contains
    intro axis
    cases hb : b.contains axis with
    | false => simp [hb]
    | true => simp [hb, h axis hb]

theorem intersects_iff :
    a.intersects b = true ↔ ∃ axis, a.contains axis = true ∧ b.contains axis = true := by
  have h : a.intersects b = !(a &&& b).isEmpty := rfl
  simp [h, isEmpty_eq_false_iff]

@[simp] theorem contains_all (count axis : Nat) :
    (all count).contains axis = decide (axis < count ∧ axis < maxAxes) := by
  have hc : min count maxAxes ≤ 6 := Nat.min_le_right _ _
  have h : ∀ n ≤ 6, ∀ axis < 32,
      ((1#32 <<< n) - 1#32).getLsbD axis = decide (axis < n) := by decide
  rw [all, contains]
  by_cases hl : axis < 32
  · rw [h _ hc axis hl]
    exact decide_eq_decide.mpr Nat.lt_min
  · rw [BitVec.getLsbD_of_ge _ _ (Nat.le_of_not_lt hl)]
    rw [maxAxes] at hc ⊢
    exact (decide_eq_false (by omega)).symm

theorem mem_toList (axis : Nat) : axis ∈ a.toList ↔ axis < maxAxes ∧ a.contains axis = true := by
  simp [toList]

theorem head?_toList_eq_some {axis : Nat} : a.toList.head? = some axis ↔
    axis < maxAxes ∧ a.contains axis = true ∧ ∀ earlier < axis, a.contains earlier = false := by
  rw [toList, List.head?_filter, List.find?_range_eq_some]
  simp only [List.mem_range, Bool.not_eq_true']
  exact and_left_comm

private theorem contains_foldl (axes : List Nat) (mask : AxisMask) (axis : Nat) :
    (axes.foldl (fun mask axis => mask ||| single axis) mask).contains axis =
      (mask.contains axis || decide (axis ∈ axes ∧ axis < 32)) := by
  induction axes generalizing mask with
  | nil => simp
  | cons first rest ih =>
    rw [List.foldl_cons, ih]
    by_cases h : axis = first <;> by_cases hl : axis < 32 <;> simp [h, hl] <;> grind

@[simp] theorem contains_ofList (axes : List Nat) (axis : Nat) :
    (ofList axes).contains axis = decide (axis ∈ axes ∧ axis < 32) := by
  rw [ofList, contains_foldl, contains_none, Bool.false_or]

end AxisMask

namespace MotorMask
variable (a b : MotorMask)

@[simp] theorem has_none (axis motor : Nat) : none.has axis motor = false := by
  simp [none, has]

@[simp] theorem has_or (axis motor : Nat) :
    (a ||| b).has axis motor = (a.has axis motor || b.has axis motor) :=
  BitVec.getLsbD_or

@[simp] theorem has_and (axis motor : Nat) :
    (a &&& b).has axis motor = (a.has axis motor && b.has axis motor) :=
  BitVec.getLsbD_and

@[simp] theorem has_sub (axis motor : Nat) :
    (a - b).has axis motor = (a.has axis motor && !b.has axis motor) :=
  AxisMask.contains_sub ⟨a.bits⟩ ⟨b.bits⟩ (position axis motor)

variable {a b}

/-- Bits below sixteen are first motors, the others second motors. -/
theorem getLsbD_bits (bit : Nat) : a.bits.getLsbD bit = a.has (bit % 16) (bit / 16) := by
  rw [has, position, secondMotor, Nat.mod_add_div]

theorem ext_has (h : ∀ axis < 16, ∀ motor < 2, a.has axis motor = b.has axis motor) : a = b := by
  suffices hb : a.bits = b.bits by
    cases a
    cases b
    exact congrArg mk hb
  apply BitVec.eq_of_getLsbD_eq
  intro bit hb
  rw [getLsbD_bits, getLsbD_bits]
  exact h _ (Nat.mod_lt _ (by decide)) _ (by omega)

variable (a b)

instance : HasSubset MotorMask :=
  ⟨fun a b => ∀ axis motor, a.has axis motor = true → b.has axis motor = true⟩

theorem subset_iff : a ⊆ b ↔ ∀ axis motor, a.has axis motor = true → b.has axis motor = true := Iff.rfl

theorem subset_of_has (h : ∀ axis < 16, ∀ motor < 2, a.has axis motor = true → b.has axis motor = true) :
    a ⊆ b := by
  intro axis motor ha
  have hl : position axis motor < 32 := AxisMask.lt_of_contains (a := ⟨a.bits⟩) ha
  rw [has, getLsbD_bits] at ha ⊢
  exact h _ (Nat.mod_lt _ (by decide)) _ (by omega) ha

theorem sub_subset : a - b ⊆ a := by
  intro axis motor h
  simp at h
  exact h.1

theorem isEmpty_iff :
    a.isEmpty = true ↔ ∀ axis < 16, ∀ motor < 2, a.has axis motor = false := by
  rw [isEmpty, beq_iff_eq]
  constructor
  · intro h axis _ motor _
    simp [has, h]
  · intro h
    exact congrArg bits (ext_has (b := none) fun axis ha motor hm => by simp [h axis ha motor hm])

@[simp] theorem contains_axes (axis : Nat) :
    a.axes.contains axis = (decide (axis < 16) && (a.has axis 0 || a.has axis 1)) := by
  have h : ∀ axis < 32, (0xffff#32).getLsbD axis = decide (axis < 16) := by decide
  rw [axes, AxisMask.contains]
  by_cases hl : axis < 32
  · simp [has, position, secondMotor, h axis hl, Nat.add_comm, Bool.and_comm]
  · rw [BitVec.getLsbD_of_ge _ _ (Nat.le_of_not_lt hl)]
    simp
    omega

theorem isEmpty_eq_false_of_axes {axis : Nat} (h : a.axes.contains axis = true) :
    a.isEmpty = false := by
  rw [← Bool.not_eq_true, isEmpty_iff]
  intro hn
  simp at h
  grind

variable {a} in
theorem eq_none_of_isEmpty (h : a.isEmpty = true) : a = none := by
  apply ext_has
  intro axis ha motor hm
  rw [(isEmpty_iff a).mp h axis ha motor hm, has_none]

@[simp] theorem or_none : a ||| none = a := by
  apply ext_has
  intro axis _ motor _
  simp

@[simp] theorem none_or : none ||| a = a := by
  apply ext_has
  intro axis _ motor _
  simp

theorem or_assoc (c : MotorMask) : a ||| b ||| c = a ||| (b ||| c) := by
  apply ext_has
  intro axis _ motor _
  simp [Bool.or_assoc]

theorem sub_sub (c : MotorMask) : a - b - c = a - (b ||| c) := by
  apply ext_has
  intro axis _ motor _
  simp [Bool.and_assoc]

@[simp] theorem sub_none : a - none = a := by
  apply ext_has
  intro axis _ motor _
  simp

/-- An axis whose motors are only partly left was there before. -/
theorem contains_axes_of_sub (axis : Nat) (h : (a - b).axes.contains axis = true) :
    a.axes.contains axis = true := by
  simp at h ⊢
  grind

theorem has_single (axis motor axis' motor' : Nat) :
    (single axis motor).has axis' motor' =
      decide (position axis' motor' = position axis motor ∧ position axis' motor' < 32) :=
  AxisMask.contains_single (position axis motor) (position axis' motor')

private theorem has_foldl (motors : List (Nat × Nat)) (mask : MotorMask) (axis motor : Nat) :
    (motors.foldl (fun mask m => mask ||| single m.1 m.2) mask).has axis motor =
      (mask.has axis motor || motors.any fun m =>
        decide (position axis motor = position m.1 m.2 ∧ position axis motor < 32)) := by
  induction motors generalizing mask with
  | nil => simp
  | cons first rest ih => rw [List.foldl_cons, ih, has_or, has_single, List.any_cons, Bool.or_assoc]

theorem has_ofList (motors : List (Nat × Nat)) (axis motor : Nat) :
    (ofList motors).has axis motor =
      motors.any fun m => decide (position axis motor = position m.1 m.2 ∧ position axis motor < 32) := by
  rw [ofList, has_foldl, has_none, Bool.false_or]

theorem mem_toList (axis motor : Nat) :
    (axis, motor) ∈ a.toList ↔ axis < maxAxes ∧ motor < 2 ∧ a.has axis motor = true := by
  simp [toList, places]
  grind

theorem has_ofList_filter (keep : Nat × Nat → Bool) {axis motor : Nat} (ha : axis < 16) (hm : motor < 2) :
    (ofList (a.toList.filter keep)).has axis motor =
      (decide (axis < maxAxes) && keep (axis, motor) && a.has axis motor) := by
  have hp : position axis motor < 32 := by rw [position, secondMotor]; omega
  rw [has_ofList, Bool.eq_iff_iff]
  simp only [List.any_eq_true, List.mem_filter, decide_eq_true_eq, Bool.and_eq_true, hp, and_true]
  constructor
  · rintro ⟨⟨axis', motor'⟩, ⟨hmem, hc⟩, he⟩
    obtain ⟨hb, hm', hh⟩ := (mem_toList a axis' motor').mp hmem
    simp only [position, secondMotor, maxAxes] at he hb
    obtain rfl : axis = axis' := by omega
    obtain rfl : motor = motor' := by omega
    exact ⟨⟨hb, hc⟩, hh⟩
  · rintro ⟨⟨hb, hc⟩, hh⟩
    exact ⟨(axis, motor), ⟨(mem_toList a axis motor).mpr ⟨hb, hm, hh⟩, hc⟩, rfl⟩

@[simp] theorem has_onAxes (axes : AxisMask) {axis motor : Nat} (ha : axis < 16) (hm : motor < 2) :
    (a.onAxes axes).has axis motor =
      (decide (axis < maxAxes) && axes.contains axis && a.has axis motor) :=
  has_ofList_filter a (fun m => axes.contains m.1) ha hm

end MotorMask

namespace AxisLayout
variable (layout : AxisLayout)

theorem contains_allAxes (axis : Nat) :
    layout.allAxes.contains axis = decide (axis < layout.axisCount) := by
  have h := layout.axisCount_le
  simp only [allAxes, AxisMask.contains_all, decide_eq_decide]
  omega

@[simp] theorem has_motorsFor (axes : AxisMask) {axis motor : Nat} (ha : axis < 16) (hm : motor < 2) :
    (layout.motorsFor axes).has axis motor =
      (decide (axis < layout.axisCount) && axes.contains axis &&
        (decide (motor = 0) || layout.ganged.contains axis)) := by
  have hc := layout.axisCount_le
  rw [maxAxes] at hc
  have hh : (layout.motorsFor axes).has axis motor =
      ((axes &&& layout.allAxes).contains (axis + 16 * motor) ||
        (decide (axis + 16 * motor < 32) && !decide (axis + 16 * motor < 16) &&
          ((axes &&& layout.allAxes) &&& layout.ganged).contains (axis + 16 * motor - 16))) := by
    simp [motorsFor, MotorMask.has, MotorMask.position, AxisMask.contains, secondMotor]
  rw [hh]
  obtain rfl | rfl : motor = 0 ∨ motor = 1 := by omega
  · simp [contains_allAxes, ha, Bool.and_comm]
  · simp [contains_allAxes, show ¬ axis + 16 < layout.axisCount by omega,
      show axis + 16 < 32 by omega]
    grind

theorem isEmpty_sub_iff (axes : AxisMask) (motors : MotorMask) :
    (layout.motorsFor axes - motors).isEmpty = true ↔
      ∀ axis, axes.contains axis = true → (layout.motorsFor axes - motors).axes.contains axis = false := by
  rw [MotorMask.isEmpty_iff]
  constructor
  · intro h axis _
    rw [MotorMask.contains_axes]
    grind
  · intro h axis ha motor hm
    cases hc : axes.contains axis with
    | false => simp [ha, hm, hc]
    | true =>
      have hn := h axis hc
      rw [MotorMask.contains_axes] at hn
      grind

end AxisLayout

end MotionControl
