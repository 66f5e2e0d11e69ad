import Mathlib
import MotionControl.Proofs.Scalar.Ordered
import MotionControl.Scalar.Binary64

/-! The order of doubles. -/
namespace MotionControl.Binary64
open Float.Model

private theorem swap_compare (a b : UnpackedFloat) :
    (a.compare b).map Ordering.swap = b.compare a := by
  rcases a with (_ | _) | _ | (_ | _) | ⟨_ | _, m, e, _⟩ <;>
    rcases b with (_ | _) | _ | (_ | _) | ⟨_ | _, n, f, _⟩ <;>
    simp [UnpackedFloat.compare, Ordering.swap_then, Int.compare_swap, Nat.compare_swap]
  all_goals rfl

private theorem isSome_compare (a b : UnpackedFloat) :
    (a.compare b).isSome = (!a.isNaN && !b.isNaN) := by
  rcases a with (_ | _) | _ | (_ | _) | ⟨_ | _, m, e, _⟩ <;>
    rcases b with (_ | _) | _ | (_ | _) | ⟨_ | _, n, f, _⟩ <;> rfl

variable {x y : Float}

theorem le_iff :
    x ≤ y ↔ ∃ o, x.toModel.unpack.compare y.toModel.unpack = some o ∧ o.isLE = true := by
  have h : x ≤ y ↔ (x.toModel.unpack.compare y.toModel.unpack).any Ordering.isLE = true :=
    decide_eq_true_iff
  rw [h, Option.any_eq_true]

private theorem lt_iff : x < y ↔ x.toModel.unpack.compare y.toModel.unpack = some .lt := by
  have h : x < y ↔ (x.toModel.unpack.compare y.toModel.unpack == some .lt) = true :=
    decide_eq_true_iff
  rw [h, beq_iff_eq]

/-- Only what is not a number is not comparable with itself. -/
theorem le_self_iff : x ≤ x ↔ x.toModel.unpack.isNaN = false := by
  rw [le_iff]
  constructor
  · rintro ⟨o, ho, -⟩
    have hs := isSome_compare x.toModel.unpack x.toModel.unpack
    simpa [ho] using hs.symm
  · intro hn
    have hs := isSome_compare x.toModel.unpack x.toModel.unpack
    rw [hn] at hs
    obtain ⟨o, ho⟩ := Option.isSome_iff_exists.mp hs
    have hswap := swap_compare x.toModel.unpack x.toModel.unpack
    rw [ho] at hswap
    refine ⟨o, ho, ?_⟩
    cases o with
    | gt => cases hswap
    | lt => rfl
    | eq => rfl

instance : OrderedScalar Float where
  comparable_of_le {x y} h := by
    obtain ⟨o, ho, -⟩ := le_iff.mp h
    have hs := isSome_compare x.toModel.unpack y.toModel.unpack
    rw [ho] at hs
    simp only [Option.isSome_some, Bool.true_eq, Bool.and_eq_true, Bool.not_eq_true'] at hs
    exact ⟨le_self_iff.mpr hs.1, le_self_iff.mpr hs.2⟩
  le_of_not_lt {x y} hx hy h := by
    have hs := isSome_compare x.toModel.unpack y.toModel.unpack
    rw [le_self_iff.mp hx, le_self_iff.mp hy] at hs
    obtain ⟨o, ho⟩ := Option.isSome_iff_exists.mp hs
    refine le_iff.mpr ⟨o.swap, by rw [← swap_compare, ho]; rfl, ?_⟩
    rw [lt_iff, ho] at h
    cases o with
    | lt => exact absurd rfl h
    | eq => rfl
    | gt => rfl
  comparable_of_isFinite {x} h := by
    refine le_self_iff.mpr ?_
    have hf : x.toModel.unpack.isFinite = true := h
    revert hf
    cases x.toModel.unpack <;> simp [UnpackedFloat.isFinite, UnpackedFloat.isNaN]

instance : StrictlyOrderedScalar Float where
  le_of_lt h := le_iff.mpr ⟨.lt, lt_iff.mp h, rfl⟩

end MotionControl.Binary64
