import MotionControl.Proofs.Kinematics.LimitReports

/-! Switch reports in batches. Reports that are fed in one after the other settle what their union settles in one
call, so neither the order in which the switches trip nor the polls that tell of them matter. -/
namespace MotionControl

namespace MotorMask

/-- All motors of some reports. -/
def union (reports : List MotorMask) : MotorMask := reports.foldr (· ||| ·) none

theorem has_union (reports : List MotorMask) (axis motor : Nat) :
    (union reports).has axis motor = reports.any (·.has axis motor) := by
  induction reports with
  | nil => exact has_none axis motor
  | cons first later ih =>
    rw [List.any_cons, ← ih, ← has_or]
    rfl

theorem union_map_union (batches : List (List MotorMask)) : union (batches.map union) = union batches.flatten := by
  apply ext_has
  intro axis _ motor _
  simp only [has_union, List.any_map, List.any_flatten, Function.comp_def]

theorem union_eq_of_perm {reports reports' : List MotorMask} (h : reports.Perm reports') :
    union reports = union reports' := by
  apply ext_has
  intro axis _ motor _
  rw [has_union, has_union, h.any_eq]

end MotorMask

namespace LimitOutcome

/-- The outcome of a later report, together with the axes that were satisfied before it. -/
def followedBy (earlier later : LimitOutcome) : LimitOutcome :=
  { later with reached := earlier.reached ||| later.reached }

/-- What reports in turn lead to. Each is fed with the axes and motors that the one before left, and the axes that
they satisfy add up. -/
def inTurn (rule : AxisMask → MotorMask → MotorMask → LimitOutcome) (axes : AxisMask)
    (motors first : MotorMask) : List MotorMask → LimitOutcome
  | [] => rule axes motors first
  | second :: later =>
    let outcome := rule axes motors first
    outcome.followedBy (inTurn rule outcome.axes outcome.motors second later)

end LimitOutcome

/-- A cumulative rule for which an axis either waits or has been satisfied. -/
structure SettlingReports (rule : AxisMask → MotorMask → MotorMask → LimitOutcome) : Prop
    extends CumulativeReports rule where
  axes_subset : ∀ axes motors limited, (rule axes motors limited).axes ⊆ axes
  reached_eq : ∀ axes motors limited, (rule axes motors limited).reached = axes - (rule axes motors limited).axes

namespace SettlingReports
variable {rule : AxisMask → MotorMask → MotorMask → LimitOutcome} (h : SettlingReports rule)
  (axes : AxisMask) (motors first second : MotorMask)
include h

/-- Two reports in turn settle what their union settles. -/
theorem followedBy_eq :
    (rule axes motors first).followedBy
        (rule (rule axes motors first).axes (rule axes motors first).motors second) =
      rule axes motors (first ||| second) := by
  have ha := h.axes_report axes motors first second
  have hm := h.motors_report axes motors first second
  have hs : (rule (rule axes motors first).axes (rule axes motors first).motors second).stop =
      (rule axes motors (first ||| second)).stop := by
    rw [h.stop_eq, h.stop_eq, ha]
  have hr : (rule axes motors first).reached |||
      (rule (rule axes motors first).axes (rule axes motors first).motors second).reached =
        (rule axes motors (first ||| second)).reached := by
    rw [h.reached_eq, h.reached_eq, h.reached_eq,
      AxisMask.sub_or_sub (h.axes_subset _ _ _) (h.axes_subset _ _ _), ha]
  rw [LimitOutcome.followedBy, ha, hm, hs, hr]

theorem inTurn_eq (later : List MotorMask) :
    LimitOutcome.inTurn rule axes motors first later = rule axes motors (.union (first :: later)) := by
  induction later generalizing axes motors first with
  | nil => exact congrArg (rule axes motors) (MotorMask.or_none first).symm
  | cons second later ih =>
    rw [LimitOutcome.inTurn, ih]
    exact h.followedBy_eq axes motors first (.union (second :: later))

end SettlingReports

theorem LimitOutcome.requireAll_settling : SettlingReports requireAll where
  toCumulativeReports := requireAll_cumulative
  axes_subset := requireAll_axes_subset
  reached_eq _ _ _ := rfl

theorem CoreXY.limitReached_settling : SettlingReports limitReached where
  toCumulativeReports := limitReached_cumulative
  axes_subset := limitReached_axes_subset
  reached_eq _ _ _ := rfl

theorem RotaryDelta.limitReached_settling : SettlingReports limitReached where
  toCumulativeReports := limitReached_cumulative
  axes_subset := limitReached_axes_subset
  reached_eq axes motors limited := by
    rw [limitReached]
    split <;> rfl

/-- The rules for switch reports of the built-in kinematics. -/
inductive BuiltInRule : (AxisMask → MotorMask → MotorMask → LimitOutcome) → Prop where
  | axes : BuiltInRule LimitOutcome.requireAll
  | belts : BuiltInRule CoreXY.limitReached
  | cranks : BuiltInRule RotaryDelta.limitReached

namespace BuiltInRule
variable {rule : AxisMask → MotorMask → MotorMask → LimitOutcome}

theorem settling (h : BuiltInRule rule) : SettlingReports rule := by
  cases h with
  | axes => exact LimitOutcome.requireAll_settling
  | belts => exact CoreXY.limitReached_settling
  | cranks => exact RotaryDelta.limitReached_settling

/-- Reports in turn settle what their union settles in one call: the axes that still wait, the motors that move
on, the satisfied axes and whether all is done. The same reports in another order, and in batches of any size,
come to the same. -/
theorem reports_add_up (h : BuiltInRule rule) (axes : AxisMask) (motors first : MotorMask)
    (later : List MotorMask) :
    LimitOutcome.inTurn rule axes motors first later = rule axes motors (.union (first :: later)) ∧
    ∀ batch batches, List.Perm (batch :: batches).flatten (first :: later) →
      LimitOutcome.inTurn rule axes motors (.union batch) (batches.map .union) =
        LimitOutcome.inTurn rule axes motors first later := by
  have ht := h.settling.inTurn_eq axes motors
  refine ⟨ht first later, fun batch batches hp => ?_⟩
  calc
    _ = rule axes motors (.union ((batch :: batches).map .union)) := ht (.union batch) (batches.map .union)
    _ = rule axes motors (.union (first :: later)) := by
      rw [MotorMask.union_map_union, MotorMask.union_eq_of_perm hp]
    _ = _ := (ht first later).symm

/-- X has tripped twice and Z once in a cycle of X, Y and Z on belts. Z has stopped, and the belts run on for Y,
also when Z and one of the reports of X come in together. -/
theorem belts_run_on_for_y :
    LimitOutcome.inTurn CoreXY.limitReached ⟨0b111⟩ ⟨0b111⟩ ⟨0b001⟩ [⟨0b100⟩, ⟨0b001⟩] =
      ⟨⟨0b010⟩, ⟨0b011⟩, ⟨0b101⟩, false⟩ ∧
    LimitOutcome.inTurn CoreXY.limitReached ⟨0b111⟩ ⟨0b111⟩ ⟨0b101⟩ [⟨0b001⟩] =
      ⟨⟨0b010⟩, ⟨0b011⟩, ⟨0b101⟩, false⟩ := by
  obtain ⟨hunion, hbatches⟩ := reports_add_up belts ⟨0b111⟩ ⟨0b111⟩ ⟨0b001⟩ [⟨0b100⟩, ⟨0b001⟩]
  have hone : LimitOutcome.inTurn CoreXY.limitReached ⟨0b111⟩ ⟨0b111⟩ ⟨0b001⟩ [⟨0b100⟩, ⟨0b001⟩] =
      ⟨⟨0b010⟩, ⟨0b011⟩, ⟨0b101⟩, false⟩ := hunion.trans (by decide)
  exact ⟨hone, (hbatches [⟨0b100⟩, ⟨0b001⟩] [[⟨0b001⟩]] (by decide)).trans hone⟩

end BuiltInRule

end MotionControl
