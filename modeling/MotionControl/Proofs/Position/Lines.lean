import Mathlib.Data.List.GetD
import Mathlib.Tactic.LinearCombination
import Mathlib.Tactic.NormNum
import MotionControl.Position
import MotionControl.Proofs.Scalar.Real

/-! Lines. A line keeps to the common axes of its ends, and over exact numbers a piece of it is a line
again. -/
namespace MotionControl
open Scalar

theorem Scalar.confine_unit_mem (x : ℝ) : confine 0.0 1.0 x ∈ Set.Icc (0 : ℝ) 1 := by
  have hr : (0.0 : ℝ) ≤ 1.0 := by norm_num
  obtain ⟨hl, hh⟩ := confine_mem hr (le_refl x)
  norm_num at hl hh ⊢
  exact ⟨hl, hh⟩

namespace Coordinates
variable {a b : List ℝ}

theorem lerp_zero (h : a.length = b.length) : lerp a b 0 = a := by
  rw [lerp]
  induction a generalizing b with
  | nil => rfl
  | cons x a ih =>
    cases b with
    | nil => cases h
    | cons y b =>
      rw [List.zipWith_cons_cons, ih (by simpa using h)]
      simp

theorem lerp_one (h : a.length = b.length) : lerp a b 1 = b := by
  rw [lerp]
  induction a generalizing b with
  | nil =>
    cases b with
    | nil => rfl
    | cons y b => cases h
  | cons x a ih =>
    cases b with
    | nil => cases h
    | cons y b =>
      rw [List.zipWith_cons_cons, ih (by simpa using h)]
      simp

theorem length_lerp {α : Type} [Scalar α] (a b : List α) (t : α) :
    (lerp a b t).length = min a.length b.length := by
  rw [lerp, List.length_zipWith]

/-- A point of a piece of a line is a point of the line. -/
theorem lerp_lerp (a b : List ℝ) (s t u : ℝ) :
    lerp (lerp a b s) (lerp a b t) u = lerp a b (s + (t - s) * u) := by
  simp only [lerp]
  induction a generalizing b with
  | nil => rfl
  | cons x a ih =>
    cases b with
    | nil => rfl
    | cons y b =>
      simp only [List.zipWith_cons_cons, ih, List.cons.injEq, and_true]
      ring

theorem set_eq_ok {α : Type} [Scalar α] {values result : List α} {index : Nat} {x : α} :
    set values index x = .ok result ↔ index < values.length ∧ values.set index x = result := by
  rw [set]
  split
  · rename_i h
    rw [Except.ok.injEq, and_iff_right h]
  · rename_i h
    exact iff_of_false nofun fun hr => h hr.1

end Coordinates

namespace AxisPosition
variable {a b : AxisPosition ℝ}

theorem lerp_zero (h : a.length = b.length) : a.lerp b 0 = a :=
  congrArg AxisPosition.mk (Coordinates.lerp_zero h)

theorem lerp_one (h : a.length = b.length) : a.lerp b 1 = b :=
  congrArg AxisPosition.mk (Coordinates.lerp_one h)

theorem length_lerp {α : Type} [Scalar α] (a b : AxisPosition α) (t : α) :
    (a.lerp b t).length = min a.length b.length :=
  Coordinates.length_lerp a.values b.values t

theorem axis_set {α : Type} [Scalar α] {values : List α} {axis : Nat} (h : axis < values.length) (x : α) :
    AxisPosition.axis ⟨values.set axis x⟩ axis = x := by
  rw [AxisPosition.axis, List.getD_eq_getElem _ _ (by rwa [List.length_set]), List.getElem_set_self]

theorem axis_set_ne {α : Type} [Scalar α] {values : List α} {index axis : Nat} (h : index ≠ axis) (x : α) :
    AxisPosition.axis ⟨values.set index x⟩ axis = AxisPosition.axis ⟨values⟩ axis := by
  rw [AxisPosition.axis, AxisPosition.axis, List.getD_eq_getElem?_getD, List.getD_eq_getElem?_getD,
    List.getElem?_set_ne h]

theorem axis_lerp {α : Type} [Scalar α] {a b : AxisPosition α} {axis : Nat}
    (h : axis < min a.length b.length) (t : α) :
    (a.lerp b t).axis axis = a.axis axis + (b.axis axis - a.axis axis) * t := by
  obtain ⟨ha, hb⟩ := Nat.lt_min.mp h
  have hl : axis < (a.lerp b t).values.length := h.trans_eq (length_lerp a b t).symm
  rw [AxisPosition.axis, AxisPosition.axis, AxisPosition.axis, List.getD_eq_getElem _ _ hl,
    List.getD_eq_getElem _ _ ha, List.getD_eq_getElem _ _ hb]
  exact List.getElem_zipWith

theorem ext_axis {α : Type} [Scalar α] {p q : AxisPosition α} (hl : p.length = q.length)
    (h : ∀ axis < p.length, p.axis axis = q.axis axis) : p = q := by
  apply congrArg AxisPosition.mk
  apply List.ext_getElem hl
  intro axis hp hq
  rw [← List.getD_eq_getElem _ 0.0 hp, ← List.getD_eq_getElem _ 0.0 hq]
  exact h axis hp

theorem lerp_lerp (a b : AxisPosition ℝ) (s t u : ℝ) :
    (a.lerp b s).lerp (a.lerp b t) u = a.lerp b (s + (t - s) * u) :=
  congrArg AxisPosition.mk (Coordinates.lerp_lerp a.values b.values s t u)

/-- The distance to a line is the distance to one of its points. -/
theorem exists_distanceToSegment_eq (p : AxisPosition ℝ) (h : a.length = b.length) :
    ∃ u ∈ Set.Icc (0 : ℝ) 1, p.distanceToSegment a b = p.distance (a.lerp b u) := by
  rw [distanceToSegment]
  split
  · exact ⟨0, by simp, by rw [lerp_zero h]⟩
  · exact ⟨_, confine_unit_mem _, rfl⟩

end AxisPosition

end MotionControl
