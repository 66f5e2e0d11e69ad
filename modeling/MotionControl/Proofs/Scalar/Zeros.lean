import MotionControl.Proofs.Scalar.Doubles
import MotionControl.Proofs.Scalar.Real

/-! Zeros. Doubles have two of them, which compare as equal. -/
namespace MotionControl
open Scalar
variable {α : Type} [Scalar α]

/-- Neither above nor below zero. What is not a number is not zero. -/
def Scalar.IsZero (x : α) : Prop := x ≤ 0.0 ∧ 0.0 ≤ x

/-- Sums of zeros and finite multiples of zero are zero, up to the sign that a double gives them. -/
class ZeroArithmetic (α : Type) [Scalar α] : Prop where
  isZero_zero : IsZero (0.0 : α)
  isZero_add {x y : α} : IsZero x → IsZero y → IsZero (x + y)
  isZero_sub {x y : α} : IsZero x → IsZero y → IsZero (x - y)
  isZero_mul {x factor : α} : IsZero x → isFinite factor = true → IsZero (x * factor)

theorem Scalar.isZero_real {x : ℝ} : IsZero x ↔ x = 0 := by
  rw [IsZero, zero_real]
  exact antisymm_iff

instance : ZeroArithmetic ℝ where
  isZero_zero := isZero_real.mpr zero_real
  isZero_add hx hy := by simp [isZero_real.mp hx, isZero_real.mp hy, isZero_real]
  isZero_sub hx hy := by simp [isZero_real.mp hx, isZero_real.mp hy, isZero_real]
  isZero_mul hx _ := by simp [isZero_real.mp hx, isZero_real]

namespace Binary64
open Float.Model UnpackedFloat
variable {x y : Float}

private theorem unpack_zero : (0.0 : Float).toModel.unpack = .zero .positive := rfl

theorem isZero_iff : IsZero x ↔ ∃ sign, x.toModel.unpack = .zero sign := by
  rw [IsZero, le_iff, le_iff, unpack_zero]
  rcases x.toModel.unpack with (_ | _) | _ | sign | ⟨_ | _, m, e, hm⟩ <;> simp [UnpackedFloat.compare]

/-- An operation that has a zero as its exact result has it as its result. -/
private theorem isZero_of_pack {u : UnpackedFloat} (hx : x.toModel = pack u) (hu : ∃ sign, u = .zero sign) :
    IsZero x := by
  obtain ⟨sign, rfl⟩ := hu
  refine isZero_iff.mpr ⟨sign, ?_⟩
  rw [hx]
  cases sign <;> rfl

instance : ZeroArithmetic Float where
  isZero_zero := isZero_iff.mpr ⟨.positive, unpack_zero⟩
  isZero_add {x y} hx hy := by
    obtain ⟨sign, hx⟩ := isZero_iff.mp hx
    obtain ⟨sign', hy⟩ := isZero_iff.mp hy
    refine isZero_of_pack (u := UnpackedFloat.add .binary64 x.toModel.unpack y.toModel.unpack) rfl ?_
    rw [hx, hy, UnpackedFloat.add]
    split <;> exact ⟨_, rfl⟩
  isZero_sub {x y} hx hy := by
    obtain ⟨sign, hx⟩ := isZero_iff.mp hx
    obtain ⟨sign', hy⟩ := isZero_iff.mp hy
    refine isZero_of_pack (u := UnpackedFloat.sub .binary64 x.toModel.unpack y.toModel.unpack) rfl ?_
    rw [hx, hy, UnpackedFloat.sub]
    split <;> exact ⟨_, rfl⟩
  isZero_mul {x factor} hx hf := by
    obtain ⟨sign, hx⟩ := isZero_iff.mp hx
    have hf : factor.toModel.unpack.isFinite = true := hf
    refine isZero_of_pack (u := UnpackedFloat.mul .binary64 x.toModel.unpack factor.toModel.unpack) rfl ?_
    rw [hx]
    cases hu : factor.toModel.unpack with
    | zero sign' => exact ⟨_, rfl⟩
    | finite sign' m e hm => exact ⟨_, rfl⟩
    | notANumber => simp [hu, UnpackedFloat.isFinite] at hf
    | infinity sign' => simp [hu, UnpackedFloat.isFinite] at hf

end Binary64

end MotionControl
