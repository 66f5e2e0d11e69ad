import Mathlib
import MotionControl.Proofs.Decimal.ShortestInterval

/-! What a double stands for, read off its bits and read off the model of its arithmetic. -/
namespace MotionControl.Decimal
open Float.Model Float.Model.UnpackedFloat

def isNegative : Sign → Bool
  | .negative => true
  | .positive => false

/-- What an unpacked double stands for. -/
def Binary.ofUnpacked : UnpackedFloat → Binary
  | .notANumber => .nan
  | .infinity sign => .infinite (isNegative sign)
  | .zero sign => .finite (isNegative sign) 0 (-1074)
  | .finite sign significand exponent _ => .finite (isNegative sign) significand exponent

section
variable (bits : UInt64)

private theorem toNat_mantissa :
    (@unpackMantissa .binary64 bits.toBitVec).toNat = (bits &&& 0xfffffffffffff).toNat := by
  rw [unpackMantissa_def, BitVec.extractLsb'_toNat, UInt64.toNat_and]
  exact (Nat.and_two_pow_sub_one_eq_mod bits.toNat 52).symm

private theorem toNat_exponent :
    (@unpackExponent .binary64 bits.toBitVec).toNat = ((bits >>> 52) &&& 0x7ff).toNat := by
  rw [unpackExponent_def, BitVec.extractLsb'_toNat, UInt64.toNat_and, UInt64.toNat_shiftRight]
  exact (Nat.and_two_pow_sub_one_eq_mod (bits.toNat >>> 52) 11).symm

private theorem toNat_sign :
    (@unpackSign .binary64 bits.toBitVec).toNat = (bits >>> 63).toNat := by
  rw [unpackSign_def, BitVec.extractLsb'_toNat, UInt64.toNat_shiftRight]
  refine Nat.mod_eq_of_lt ?_
  rw [Nat.shiftRight_eq_div_pow]
  exact Nat.div_lt_of_lt_mul bits.toNat_lt

private theorem isNegative_sign :
    isNegative (Sign.ofBitVec (@unpackSign .binary64 bits.toBitVec)) = (bits >>> 63 == 1) := by
  have h := toNat_sign bits
  have hl := (@unpackSign .binary64 bits.toBitVec).isLt
  by_cases hz : @unpackSign .binary64 bits.toBitVec = 0#1
  · have hb : bits >>> 63 = 0 := UInt64.toNat_inj.mp (h.symm.trans (by rw [hz]; rfl))
    rw [Sign.ofBitVec, if_pos hz, hb]
    rfl
  · have hp : (@unpackSign .binary64 bits.toBitVec).toNat ≠ 0 := fun h0 => hz (BitVec.eq_of_toNat_eq h0)
    have hb : bits >>> 63 = 1 := UInt64.toNat_inj.mp (h.symm.trans (by rw [UInt64.toNat_one]; omega))
    rw [Sign.ofBitVec, if_neg hz, hb]
    rfl

end

theorem Binary.ofFloat_eq (x : Float) : Binary.ofFloat x = .ofUnpacked x.toModel.unpack := by
  rw [Binary.ofFloat, Binary.ofBits, ← toNat_mantissa, ← toNat_exponent, ← isNegative_sign]
  change _ = ofUnpacked (UnpackedFloat.unpack .binary64 x.toBits.toBitVec)
  generalize x.toBits.toBitVec = b
  have full : @unpackExponent .binary64 b = -1#_ ↔ (@unpackExponent .binary64 b).toNat = 0x7ff :=
    BitVec.toNat_inj.symm
  have none : @unpackExponent .binary64 b = 0#_ ↔ (@unpackExponent .binary64 b).toNat = 0 :=
    BitVec.toNat_inj.symm
  have zero : @unpackMantissa .binary64 b = 0#_ ↔ (@unpackMantissa .binary64 b).toNat = 0 :=
    BitVec.toNat_inj.symm
  rw [UnpackedFloat.unpack]
  by_cases he : (@unpackExponent .binary64 b).toNat = 0x7ff
  · by_cases hm : (@unpackMantissa .binary64 b).toNat = 0
    · rw [if_pos he, if_pos hm, if_pos (full.mpr he), if_pos (zero.mpr hm)]
      rfl
    · rw [if_pos he, if_neg hm, if_pos (full.mpr he), if_neg (mt zero.mp hm)]
      rfl
  · by_cases hn : (@unpackExponent .binary64 b).toNat = 0
    · by_cases hm : (@unpackMantissa .binary64 b).toNat = 0
      · rw [if_neg he, if_pos hn, if_neg (mt full.mp he), if_pos (none.mpr hn), dif_pos (zero.mpr hm), hm]
        rfl
      · rw [if_neg he, if_pos hn, if_neg (mt full.mp he), if_pos (none.mpr hn), dif_neg (mt zero.mp hm), hn]
        rfl
    · rw [if_neg he, if_neg hn, if_neg (mt full.mp he), if_neg (mt none.mp hn)]
      have significand : (1#1 ++ @unpackMantissa .binary64 b).toNat =
          (@unpackMantissa .binary64 b).toNat + hiddenBit := by
        rw [BitVec.toNat_append, ← Nat.shiftLeft_add_eq_or_of_lt (BitVec.isLt _), Nat.add_comm]
        rfl
      rw [ofUnpacked, significand]
      rfl

variable {x y : Float} {negative : Bool} {significand : Nat} {exponent : Int}

theorem Binary.proper_of_ofFloat (h : Binary.ofFloat x = .finite negative significand exponent)
    (hs : 0 < significand) : Proper significand exponent := by
  have hb : ((x.toBits >>> 52) &&& 0x7ff).toNat < 2 ^ 11 := by
    rw [← toNat_exponent]
    exact BitVec.isLt _
  have hf : (x.toBits &&& 0xfffffffffffff).toNat < hiddenBit := by
    rw [← toNat_mantissa]
    exact BitVec.isLt _
  rw [Binary.ofFloat, Binary.ofBits] at h
  split at h
  · split at h <;> cases h
  · split at h
    · cases h
      exact ⟨hs, by omega, le_rfl, by decide, fun h => absurd h (lt_irrefl _)⟩
    · cases h
      exact ⟨hs, by omega, by omega, by omega, fun _ => Nat.le_add_left ..⟩

theorem Binary.exponent_of_zero (h : Binary.ofFloat x = .finite negative 0 exponent) : exponent = -1074 := by
  rw [Binary.ofFloat_eq] at h
  cases hu : x.toModel.unpack with
  | zero => rw [hu] at h; exact (Binary.finite.inj h).2.2.symm
  | finite _ _ _ hm => rw [hu] at h; exact absurd (Binary.finite.inj h).2.1 hm.ne'
  | notANumber => rw [hu] at h; cases h
  | infinity => rw [hu] at h; cases h

theorem Binary.isInf_of_ofFloat (h : Binary.ofFloat x = .finite negative significand exponent) : x.isInf = false := by
  change x.toModel.unpack.isInf = false
  rw [Binary.ofFloat_eq] at h
  cases hu : x.toModel.unpack with
  | infinity => rw [hu] at h; cases h
  | _ => rfl

theorem eq_of_unpack_eq (h : x.toModel.unpack = y.toModel.unpack) : x = y := by
  obtain ⟨⟨bits, valid⟩⟩ := x
  obtain ⟨⟨bits', valid'⟩⟩ := y
  obtain rfl : bits = bits' := UInt64.toBitVec_inj.mp ((unpack_inj_of_valid valid valid').mp h)
  rfl

theorem isNegative_injective : Function.Injective isNegative := by
  rintro (_ | _) (_ | _) h <;> first | rfl | cases h

theorem Binary.ofUnpacked_injective : Function.Injective Binary.ofUnpacked := by
  intro u v h
  cases u <;> cases v <;> simp only [Binary.ofUnpacked, Binary.infinite.injEq, Binary.finite.injEq, reduceCtorEq] at h
  · rw [isNegative_injective h]
  · rfl
  · rw [isNegative_injective h.1]
  · rename_i hm
    exact absurd h.2.1 hm.ne
  · rename_i hm _
    exact absurd h.2.1 hm.ne'
  · obtain ⟨hs, rfl, rfl⟩ := h
    rw [isNegative_injective hs]

/-- A double is determined by what it stands for. -/
theorem Binary.ofFloat_injective : Function.Injective Binary.ofFloat := fun x y h => by
  rw [Binary.ofFloat_eq, Binary.ofFloat_eq] at h
  exact eq_of_unpack_eq (Binary.ofUnpacked_injective h)

theorem Binary.isFinite_iff : x.isFinite = true ↔ ∃ negative significand exponent,
    Binary.ofFloat x = .finite negative significand exponent := by
  change x.toModel.unpack.isFinite = true ↔ _
  rw [Binary.ofFloat_eq]
  cases x.toModel.unpack <;> simp [UnpackedFloat.isFinite, Binary.ofUnpacked]

end MotionControl.Decimal
