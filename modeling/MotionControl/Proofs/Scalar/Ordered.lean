import MotionControl.Position

/-! The order of coordinate values. One that is not a number is comparable with nothing, itself
included, and any two others are comparable. -/
namespace MotionControl
open Scalar
variable {α : Type} [Scalar α]

/-- What holds of the order of doubles as well as of exact numbers. -/
class OrderedScalar (α : Type) [Scalar α] : Prop where
  comparable_of_le : ∀ {x y : α}, x ≤ y → x ≤ x ∧ y ≤ y
  le_of_not_lt : ∀ {x y : α}, x ≤ x → y ≤ y → ¬ x < y → y ≤ x
  comparable_of_isFinite : ∀ {x : α}, isFinite x = true → x ≤ x

/-- An order in which what is less is at most as well. -/
class StrictlyOrderedScalar (α : Type) [Scalar α] : Prop extends OrderedScalar α where
  le_of_lt : ∀ {x y : α}, x < y → x ≤ y

variable [OrderedScalar α] {low high x y : α}

theorem Scalar.confine_mem (hr : low ≤ high) (hx : x ≤ x) :
    low ≤ confine low high x ∧ confine low high x ≤ high := by
  obtain ⟨hl, hh⟩ := OrderedScalar.comparable_of_le hr
  rw [confine]
  split
  · exact ⟨hl, hr⟩
  · rename_i hlow
    split
    · exact ⟨hr, hh⟩
    · rename_i hhigh
      exact ⟨OrderedScalar.le_of_not_lt hx hl hlow, OrderedScalar.le_of_not_lt hh hx hhigh⟩

theorem Coordinates.mem_of_clamp (h : clamp low high x = .ok y) (hx : x ≤ x) : low ≤ y ∧ y ≤ high := by
  rw [clamp] at h
  split at h
  · rename_i hr
    cases h
    exact confine_mem hr hx
  · cases h

end MotionControl
