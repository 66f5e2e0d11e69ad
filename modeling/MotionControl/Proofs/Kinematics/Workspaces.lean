import MotionControl.Kinematics.RotaryDelta
import MotionControl.Kinematics.SoftLimits
import MotionControl.Proofs.Outcomes
import MotionControl.Proofs.Scalar.Ordered

/-! What is known of a position that passes the checks of its kinematics, its travel ranges and the
ranges of its cranks. -/
namespace MotionControl
open Scalar
variable {α : Type}

theorem SoftLimits.mem_limits {s : SoftLimits α} {axis : Nat} {low high : α} :
    (axis, low, high) ∈ s.limits ↔ s.ranges[axis]? = some (some (low, high)) := by
  simp only [limits, List.mem_filterMap, List.mem_zipIdx_iff_getElem?, Prod.exists,
    Option.map_eq_some_iff, Prod.mk.injEq]
  constructor
  · rintro ⟨range, index, h, low', high', rfl, rfl, rfl, rfl⟩
    exact h
  · intro h
    exact ⟨_, _, h, low, high, rfl, rfl, rfl, rfl⟩

variable [Scalar α]

theorem SoftLimits.contains_iff {s : SoftLimits α} {p : AxisPosition α} :
    s.contains p = true ↔ ∀ axis low high, s.ranges[axis]? = some (some (low, high)) →
      low ≤ p.axis axis ∧ p.axis axis ≤ high := by
  simp only [contains, List.all_eq_true, Prod.forall, mem_limits, Bool.and_eq_true, decide_eq_true_eq]

namespace RotaryDelta
variable {g : DeltaSettings α} {p : AxisPosition α} {m : MotorPosition α} {x y z θ : α}

theorem isFinite_of_crankAngle (h : crankAngle g x y z = some θ) : isFinite θ = true := by
  simp only [crankAngle, Option.ite_none_left_eq_some, Option.ite_none_right_eq_some,
    Option.some.injEq] at h
  obtain ⟨-, hf, rfl⟩ := h
  exact hf

/-- A position with angles has three axes and is not above the base. -/
theorem armAngles_of_inverse (h : inverse g p = .ok m) : ∃ x y z θ1 θ2 θ3 rest,
    p = ⟨x :: y :: z :: rest⟩ ∧ m = ⟨θ1 :: θ2 :: θ3 :: rest⟩ ∧ ¬ Scalar.abs z < 1e-9 ∧ ¬ 0.0 < z ∧
      ∀ θ ∈ [θ1, θ2, θ3], ∃ arm x y, armAngle g p arm x y z = .ok θ := by
  rw [inverse] at h
  split at h
  · rename_i x y z rest hp
    split at h
    · cases h
    · rename_i hs
      split at h
      · cases h
      · rename_i ha
        simp only [Outcome.bind_eq_ok, Outcome.pure_eq_ok] at h
        obtain ⟨θ1, h1, θ2, h2, θ3, h3, rfl⟩ := h
        refine ⟨x, y, z, θ1, θ2, θ3, rest, by rw [← hp], rfl, hs, ha, ?_⟩
        simpa using ⟨⟨_, _, _, h1⟩, ⟨_, _, _, h2⟩, ⟨_, _, _, h3⟩⟩
  · cases h

variable [OrderedScalar α]

theorem mem_range_of_armAngle {arm : Nat} (h : armAngle g p arm x y z = .ok θ) :
    g.minAngle ≤ θ ∧ θ ≤ g.maxAngle := by
  rw [armAngle] at h
  split at h
  · cases h
  · rename_i raw hr
    split at h
    · cases h
    · exact Coordinates.mem_of_clamp (Outcome.lift_eq_ok.mp h)
        (OrderedScalar.comparable_of_isFinite (isFinite_of_crankAngle hr))

theorem angles_of_inverse (h : inverse g p = .ok m) : ∃ x y z θ1 θ2 θ3 rest,
    p = ⟨x :: y :: z :: rest⟩ ∧ m = ⟨θ1 :: θ2 :: θ3 :: rest⟩ ∧ ¬ Scalar.abs z < 1e-9 ∧ ¬ 0.0 < z ∧
      ∀ θ ∈ [θ1, θ2, θ3], g.minAngle ≤ θ ∧ θ ≤ g.maxAngle := by
  obtain ⟨x, y, z, θ1, θ2, θ3, rest, hp, hm, hs, ha, hθ⟩ := armAngles_of_inverse h
  refine ⟨x, y, z, θ1, θ2, θ3, rest, hp, hm, hs, ha, ?_⟩
  intro θ ht
  obtain ⟨_, _, _, hr⟩ := hθ θ ht
  exact mem_range_of_armAngle hr

end RotaryDelta

end MotionControl
