import MotionControl.Proofs.Decimal.Doubles

/-! Decimals read as doubles. The quotient that a decimal stands for is cut off, with two bits for what is lost, and
rounded to the nearest significand; a decimal in the interval of a double is therefore read as that double. -/
namespace MotionControl.Decimal
open Float.Model Float.Model.UnpackedFloat

/-- Where a number lies above a significand that was cut off. The round bit tells in which half of the unit, the
sticky bit whether inside that half or at its lower end. -/
def Locates (em : ExtendedMantissa) (q : ℚ) : Prop :=
  match em.roundBit, em.stickyBit with
  | false, false => q = em.mantissa
  | false, true => em.mantissa < q ∧ q < em.mantissa + 1 / 2
  | true, false => q = em.mantissa + 1 / 2
  | true, true => em.mantissa + 1 / 2 < q ∧ q < em.mantissa + 1

namespace Locates
variable {em : ExtendedMantissa} {q : ℚ} {n : Nat}

theorem floor (h : Locates em q) : em.mantissa ≤ q ∧ q < em.mantissa + 1 := by
  obtain ⟨m, r, s⟩ := em
  cases r <;> cases s <;> simp only [Locates] at h <;> constructor <;> linarith

theorem shiftRightOne (h : Locates em q) : Locates em.shiftRightOne (q / 2) := by
  obtain ⟨m, r, s⟩ := em
  have hm : (2 * (m / 2 : Nat) + (m % 2 : Nat) : ℚ) = m := by exact_mod_cast Nat.div_add_mod m 2
  rcases Nat.mod_two_eq_zero_or_one m with h2 | h2
  · have hb : (m % 2 != 0) = false := by rw [h2]; rfl
    rw [h2, Nat.cast_zero] at hm
    cases r <;> cases s <;>
      simp only [Locates, ExtendedMantissa.shiftRightOne, hb, Bool.or_true, Bool.or_false] at h ⊢ <;>
      first | linarith | constructor <;> linarith
  · have hb : (m % 2 != 0) = true := by rw [h2]; rfl
    rw [h2, Nat.cast_one] at hm
    cases r <;> cases s <;>
      simp only [Locates, ExtendedMantissa.shiftRightOne, hb, Bool.or_true, Bool.or_false] at h ⊢ <;>
      first | linarith | constructor <;> linarith

theorem shiftRight (h : Locates em q) (k : Nat) : Locates (em >>> k) (q / 2 ^ k) := by
  induction k with
  | zero =>
    rw [pow_zero, div_one]
    exact h
  | succ k ih =>
    rw [pow_succ, ← div_div]
    exact ih.shiftRightOne

theorem roundedMantissa_eq (h : Locates em q) (hn : |q - n| ≤ 1 / 2) (he : |q - n| = 1 / 2 → Even n) :
    em.roundedMantissa = n := by
  obtain ⟨m, r, s⟩ := em
  obtain ⟨hl, hh⟩ := abs_le.mp hn
  have nat_lt : ∀ {a b : Nat}, (a : ℚ) < b + 1 → a ≤ b := fun h => Nat.lt_succ_iff.mp (by exact_mod_cast h)
  cases r <;> cases s <;> simp only [Locates] at h
  · change m = n
    exact Nat.le_antisymm (nat_lt (by linarith)) (nat_lt (by linarith))
  · change m = n
    exact Nat.le_antisymm (nat_lt (by linarith)) (nat_lt (by linarith))
  · -- halfway between two whole numbers
    change m + m % 2 = n
    have hm : m ≤ n := nat_lt (by linarith)
    have hn' : n ≤ m + 1 := nat_lt (by push_cast; linarith)
    have even : n % 2 = 0 := by
      refine Nat.even_iff.mp (he ?_)
      rcases Nat.le_and_le_add_one_iff.mp ⟨hm, hn'⟩ with rfl | rfl
      · rw [h, add_sub_cancel_left, abs_of_nonneg (by norm_num)]
      · rw [h, Nat.cast_succ, add_sub_add_left_eq_sub, abs_of_nonpos (by norm_num)]
        norm_num
    omega
  · change m + 1 = n
    have hm : m + 1 ≤ n := nat_lt (by push_cast; linarith)
    exact Nat.le_antisymm hm (nat_lt (by push_cast; linarith))

theorem of_exact (m : Nat) : Locates (.ofMantissaAndAccuracy m .exact) m := rfl

theorem of_fraction (num : Nat) {den : Nat} (hd : 0 < den) :
    Locates (.ofMantissaAndAccuracy (num / den) (accuracyOfFraction (num % den) den)) (num / den : ℚ) := by
  have pos : (0 : ℚ) < den := by exact_mod_cast hd
  have split : (num / den : ℚ) = (num / den : Nat) + (num % den : Nat) / den := by
    have : (num : ℚ) = den * (num / den : Nat) + (num % den : Nat) := by exact_mod_cast (Nat.div_add_mod num den).symm
    field_simp
    linarith
  have hlt : ((num % den : Nat) / den : ℚ) < 1 := (div_lt_one pos).mpr (by exact_mod_cast Nat.mod_lt num hd)
  rw [split]
  generalize num / den = m at *
  generalize num % den = r at *
  rw [accuracyOfFraction]
  split
  · rename_i hz
    simp [Locates, ExtendedMantissa.ofMantissaAndAccuracy, hz]
  · rename_i hz
    have hpos : (0 : ℚ) < r / den := div_pos (by exact_mod_cast Nat.pos_of_ne_zero hz) pos
    rcases lt_trichotomy (2 * r) den with h | h | h
    · have hh : (r / den : ℚ) < 1 / 2 := by
        rw [div_lt_div_iff₀ pos two_pos, one_mul, mul_comm]
        exact_mod_cast h
      rw [Nat.compare_eq_lt.mpr h]
      change (m : ℚ) < _ ∧ _ < (m : ℚ) + 1 / 2
      constructor <;> linarith
    · have hh : (r / den : ℚ) = 1 / 2 := by
        rw [div_eq_div_iff pos.ne' two_ne_zero, one_mul, mul_comm]
        exact_mod_cast h
      rw [Nat.compare_eq_eq.mpr h]
      change _ = (m : ℚ) + 1 / 2
      rw [hh]
    · have hh : (1 / 2 : ℚ) < r / den := by
        rw [div_lt_div_iff₀ two_pos pos, one_mul, mul_comm (r : ℚ)]
        exact_mod_cast h
      rw [Nat.compare_eq_gt.mpr h]
      change (m : ℚ) + 1 / 2 < _ ∧ _ < (m : ℚ) + 1
      constructor <;> linarith

end Locates

/-- The exponent that a cut off significand is brought to: that of its leading bit less 52, but no less than that of
the smallest double. -/
def target (m : Nat) (e : Int) : Int := max (m.log2 + e - 52) (-1074)

theorem targetExponent_eq (m : Nat) (e : Int) : Format.binary64.targetExponent (totalExponent m e) = target m e := by
  rw [Format.targetExponent, totalExponent, target]
  change max ((m.log2 + 1 + e : Int) - 53) (-1074) = _
  congr 1
  omega

section
variable {m significand : Nat} {e exponent : Int} {accuracy : Accuracy} {q : ℚ}

theorem mantissa_ofMantissaAndAccuracy (m : Nat) (accuracy : Accuracy) :
    (ExtendedMantissa.ofMantissaAndAccuracy m accuracy).mantissa = m := by
  rcases accuracy with _ | _ | _ | _ <;> rfl

/-- What was cut off at `2 ^ e` lies between its significand and the next one. -/
theorem Locates.bounds (h : Locates (.ofMantissaAndAccuracy m accuracy) (q / 2 ^ e)) :
    m * 2 ^ e ≤ q ∧ q < (m + 1) * 2 ^ e := by
  obtain ⟨hl, hu⟩ := h.floor
  rw [mantissa_ofMantissaAndAccuracy] at hl hu
  exact ⟨(le_div_iff₀ (by positivity)).mp hl, (div_lt_iff₀ (by positivity)).mp hu⟩

private theorem two_zpow_lt {a b : Int} (h : (2 : ℚ) ^ a < 2 ^ b) : a < b := (zpow_lt_zpow_iff_right₀ one_lt_two).mp h

/-- The leading bit of what was cut off is that of the number, so the exponent is that of the number as well. -/
theorem target_of_bounds (hl : m * 2 ^ e ≤ q) (hu : q < (m + 1) * 2 ^ e) (fine : e ≤ target m e)
    (he : -1074 ≤ exponent) (low : 2 ^ (52 + exponent) ≤ q ∨ exponent = -1074) (high : q < 2 ^ (53 + exponent)) :
    target m e = exponent := by
  rw [target] at fine ⊢
  obtain rfl | hm := Nat.eq_zero_or_pos m
  · rw [Nat.cast_zero, zero_add, one_mul] at hu
    rw [Nat.log2_zero] at fine ⊢
    rcases low with low | rfl
    · have := two_zpow_lt (low.trans_lt hu)
      omega
    · omega
  · have first : (2 : ℚ) ^ (m.log2 + e) ≤ q := by
      refine le_trans ?_ hl
      rw [zpow_add₀ two_ne_zero, zpow_natCast]
      exact mul_le_mul_of_nonneg_right (by exact_mod_cast Nat.log2_self_le hm.ne') (by positivity)
    have next : q < (2 : ℚ) ^ (m.log2 + 1 + e) := by
      have hm : ((m + 1 : Nat) : ℚ) ≤ 2 ^ (m.log2 + 1) := by exact_mod_cast Nat.lt_log2_self
      refine hu.trans_le ?_
      rw [zpow_add₀ two_ne_zero, ← Nat.cast_succ]
      exact mul_le_mul_of_nonneg_right (by exact_mod_cast hm) (by positivity)
    have := two_zpow_lt (first.trans_lt high)
    rcases low with low | rfl
    · have := two_zpow_lt (low.trans_lt next)
      omega
    · omega

theorem roundWithAccuracy_at (sign : Sign) {n : Nat} {t : Int} (ht : target m e = t) (fine : e ≤ t)
    (h : Locates (.ofMantissaAndAccuracy m accuracy) (q / 2 ^ e)) (hn : |q / 2 ^ t - n| ≤ 1 / 2)
    (even : |q / 2 ^ t - n| = 1 / 2 → Even n) :
    roundWithAccuracy .binary64 sign m e accuracy =
      let shifted := shiftToTargetExponent .binary64 n t .exact
      if hz : shifted.1.mantissa = 0 then .zero sign
      else .finite sign shifted.1.mantissa shifted.2 (Nat.pos_of_ne_zero hz) := by
  have hk : e + ((t - e).toNat : Int) = t := by omega
  have hs : shiftToTargetExponent .binary64 m e accuracy =
      (ExtendedMantissa.ofMantissaAndAccuracy m accuracy >>> (t - e).toNat, t) := by
    rw [shiftToTargetExponent, targetExponent_eq, ht, shiftToExponent, hk]
  have hl : Locates (ExtendedMantissa.ofMantissaAndAccuracy m accuracy >>> (t - e).toNat) (q / 2 ^ t) := by
    have := h.shiftRight (t - e).toNat
    rwa [div_div, ← zpow_natCast, ← zpow_add₀ two_ne_zero, hk] at this
  rw [roundWithAccuracy, hs]
  dsimp only
  rw [hl.roundedMantissa_eq hn even]

theorem nearest_of_holds (hq : (Interval.of significand exponent).Holds q) :
    |q / 2 ^ exponent - significand| ≤ 1 / 2 ∧ (|q / 2 ^ exponent - significand| = 1 / 2 → Even significand) ∧
      (significand = hiddenBit → -1074 < exponent → (significand - 1 / 4 : ℚ) ≤ q / 2 ^ exponent) := by
  have unit : (0 : ℚ) < 2 ^ exponent := by positivity
  have units_eq : ∀ n : Nat, (Interval.of significand exponent).units n = n / 4 * 2 ^ exponent := fun n => by
    rw [Interval.units, Interval.of, sub_eq_add_neg, zpow_add₀ two_ne_zero]
    norm_num
    ring
  have high : ((Interval.of significand exponent).high : ℚ) / 4 = significand + 1 / 2 := by
    rw [Interval.of]
    push_cast
    ring
  have low : (significand - 1 / 2 : ℚ) ≤ (Interval.of significand exponent).low / 4 := by
    have : 4 * significand ≤ (Interval.of significand exponent).low + 2 := by
      rw [Interval.of]
      dsimp only
      split <;> omega
    have : (4 * significand : ℚ) ≤ (Interval.of significand exponent).low + 2 := by exact_mod_cast this
    linarith
  have power : significand = hiddenBit → -1074 < exponent →
      (significand - 1 / 4 : ℚ) ≤ (Interval.of significand exponent).low / 4 := by
    intro hs he
    have : 4 * significand ≤ (Interval.of significand exponent).low + 1 := by
      rw [Interval.of]
      dsimp only
      rw [if_pos ⟨hs, he⟩]
      omega
    have : (4 * significand : ℚ) ≤ (Interval.of significand exponent).low + 1 := by exact_mod_cast this
    linarith
  rw [Interval.Holds, units_eq, units_eq, high, ← le_div_iff₀ unit, ← lt_div_iff₀ unit, ← div_le_iff₀ unit,
    ← div_lt_iff₀ unit] at hq
  split at hq
  · rename_i closed
    have hs : Even significand := Nat.even_iff.mpr (by simpa [Interval.of] using closed)
    exact ⟨abs_le.mpr ⟨by linarith, by linarith⟩, fun _ => hs, fun h he => (power h he).trans hq.1⟩
  · have strict : |q / 2 ^ exponent - significand| < 1 / 2 := abs_lt.mpr ⟨by linarith, by linarith⟩
    exact ⟨strict.le, fun h => absurd h strict.ne, fun h he => (power h he).trans hq.1.le⟩

theorem two_zpow_le_of_holds (hp : Proper significand exponent) (hq : (Interval.of significand exponent).Holds q) :
    2 ^ (-1075 : Int) ≤ q := by
  have near := (abs_le.mp (nearest_of_holds hq).1).1
  have hs : (1 : ℚ) ≤ significand := by exact_mod_cast hp.pos
  have half : 1 / 2 ≤ q / 2 ^ exponent := by linarith
  rw [le_div_iff₀ (by positivity)] at half
  refine le_trans ?_ half
  rw [show (-1075 : Int) = -1 + -1074 by decide, zpow_add₀ two_ne_zero, zpow_neg_one, ← one_div]
  exact mul_le_mul_of_nonneg_left (zpow_le_zpow_right₀ (by norm_num) hp.le_exponent) (by norm_num)

private theorem lt_carry (hp : Proper significand exponent) (hq : (Interval.of significand exponent).Holds q) :
    q < 2 ^ (53 + exponent) := by
  have near := (abs_le.mp (nearest_of_holds hq).1).2
  have carry : (2 : ℚ) ^ (53 + exponent) = 2 * hiddenBit * 2 ^ exponent := by
    rw [zpow_add₀ two_ne_zero, hiddenBit]
    norm_num
  rw [carry, ← div_lt_iff₀ (by positivity)]
  have : (significand + 1 : ℚ) ≤ 2 * hiddenBit := by exact_mod_cast hp.lt
  linarith

theorem lt_two_zpow_of_holds (hp : Proper significand exponent) (hq : (Interval.of significand exponent).Holds q) :
    q < 2 ^ (1024 : Int) :=
  (lt_carry hp hq).trans_le (zpow_le_zpow_right₀ (by norm_num) (by have := hp.exponent_le; omega))

theorem shift_fitting (hp : Proper significand exponent) :
    shiftToTargetExponent .binary64 significand exponent .exact = (⟨significand, false, false⟩, exponent) := by
  have hs : significand.log2 ≤ 52 := Nat.lt_succ_iff.mp ((Nat.log2_lt hp.pos.ne').mpr hp.lt)
  have he := hp.le_exponent
  have hk : (target significand exponent - exponent).toNat = 0 := by
    rw [target]
    omega
  rw [shiftToTargetExponent, targetExponent_eq, shiftToExponent, hk]
  simp only [Nat.cast_zero, add_zero]
  rfl

theorem shift_carry (he : -1074 < exponent) :
    shiftToTargetExponent .binary64 (2 * hiddenBit) (exponent - 1) .exact = (⟨hiddenBit, false, false⟩, exponent) := by
  have hs : (2 * hiddenBit).log2 = 53 := by decide
  have hk : (target (2 * hiddenBit) (exponent - 1) - (exponent - 1)).toNat = 1 := by
    rw [target, hs]
    omega
  rw [shiftToTargetExponent, targetExponent_eq, shiftToExponent, hk]
  simp only [Nat.cast_one, sub_add_cancel]
  rfl

private theorem two_zpow_hidden (exponent : Int) : (2 : ℚ) ^ (52 + exponent) = hiddenBit * 2 ^ exponent := by
  rw [zpow_add₀ two_ne_zero, hiddenBit]
  norm_num

theorem eq_hiddenBit_of_holds (hp : Proper significand exponent) (hq : (Interval.of significand exponent).Holds q)
    (he : -1074 < exponent) (low : q < 2 ^ (52 + exponent)) : significand = hiddenBit := by
  have below : q / 2 ^ exponent < hiddenBit := (div_lt_iff₀ (by positivity)).mpr (by rwa [two_zpow_hidden] at low)
  have near := (abs_le.mp (nearest_of_holds hq).1).1
  refine Nat.le_antisymm (Nat.lt_succ_iff.mp ?_) (hp.normal he)
  have : (significand : ℚ) < hiddenBit + 1 := by linarith
  exact_mod_cast this

/-- Just below a power of two the numbers have half the distance, and the carry leads back to it. -/
theorem roundWithAccuracy_below (sign : Sign) (hq : (Interval.of hiddenBit exponent).Holds q) (he : -1074 < exponent)
    (low : q < 2 ^ (52 + exponent)) (h : Locates (.ofMantissaAndAccuracy m accuracy) (q / 2 ^ e))
    (fine : e ≤ target m e) :
    roundWithAccuracy .binary64 sign m e accuracy = .finite sign hiddenBit exponent (by decide) := by
  obtain ⟨hl, hu⟩ := h.bounds
  have unit : (0 : ℚ) < 2 ^ exponent := by positivity
  have below : q / 2 ^ exponent < hiddenBit := (div_lt_iff₀ unit).mpr (by rwa [two_zpow_hidden] at low)
  have quarter : (hiddenBit - 1 / 4 : ℚ) ≤ q / 2 ^ exponent := (nearest_of_holds hq).2.2 rfl he
  have halved : q / 2 ^ (exponent - 1) = 2 * (q / 2 ^ exponent) := by
    rw [zpow_sub_one₀ two_ne_zero]
    field_simp
  have ht : target m e = exponent - 1 := by
    refine target_of_bounds hl hu fine (by omega) (.inl ?_) ?_
    · have half : (2 : ℚ) ^ (52 + (exponent - 1)) = hiddenBit / 2 * 2 ^ exponent := by
        rw [← add_sub_assoc, zpow_sub_one₀ two_ne_zero, two_zpow_hidden]
        ring
      have : (hiddenBit : ℚ) = 4503599627370496 := by norm_num [hiddenBit]
      rw [half, ← le_div_iff₀ unit]
      linarith
    · rwa [show 53 + (exponent - 1) = 52 + exponent by omega]
  have carried : |q / 2 ^ (exponent - 1) - (2 * hiddenBit : Nat)| ≤ 1 / 2 := by
    rw [halved]
    push_cast
    exact abs_le.mpr ⟨by linarith, by linarith⟩
  rw [roundWithAccuracy_at sign ht (ht ▸ fine) h carried fun _ => even_two_mul _, shift_carry he]
  exact dif_neg (show hiddenBit ≠ 0 by decide)

/-- A number in the interval of a double is rounded to that double. -/
theorem roundWithAccuracy_eq (sign : Sign) (hp : Proper significand exponent)
    (hq : (Interval.of significand exponent).Holds q)
    (h : Locates (.ofMantissaAndAccuracy m accuracy) (q / 2 ^ e)) (fine : e ≤ target m e) :
    roundWithAccuracy .binary64 sign m e accuracy = .finite sign significand exponent hp.pos := by
  by_cases low : 2 ^ (52 + exponent) ≤ q ∨ exponent = -1074
  · obtain ⟨hl, hu⟩ := h.bounds
    obtain ⟨near, even, -⟩ := nearest_of_holds hq
    have ht := target_of_bounds hl hu fine hp.le_exponent low (lt_carry hp hq)
    rw [roundWithAccuracy_at sign ht (ht ▸ fine) h near even, shift_fitting hp]
    exact dif_neg hp.pos.ne'
  · obtain ⟨low, hne⟩ := not_or.mp low
    have he : -1074 < exponent := lt_of_le_of_ne hp.le_exponent (Ne.symm hne)
    obtain rfl := eq_hiddenBit_of_holds hp hq he (not_le.mp low)
    exact roundWithAccuracy_below sign hq he (not_le.mp low) h fine

theorem two_pow_le_div {m₁ m₂ k : Nat} (h₁ : 0 < m₁) (h₂ : 0 < m₂) (hk : 53 + m₂.log2 ≤ m₁.log2 + k) :
    2 ^ 52 ≤ m₁ * 2 ^ k / m₂ := by
  rw [Nat.le_div_iff_mul_le h₂]
  calc 2 ^ 52 * m₂ ≤ 2 ^ 52 * 2 ^ (m₂.log2 + 1) := Nat.mul_le_mul_left _ Nat.lt_log2_self.le
    _ = 2 ^ (52 + (m₂.log2 + 1)) := (Nat.pow_add ..).symm
    _ ≤ 2 ^ (m₁.log2 + k) := Nat.pow_le_pow_right (by decide) (by omega)
    _ = 2 ^ m₁.log2 * 2 ^ k := Nat.pow_add ..
    _ ≤ m₁ * 2 ^ k := Nat.mul_le_mul_right _ (Nat.log2_self_le h₁.ne')

theorem div_eq {s₁ s₂ : Sign} {m₁ m₂ : Nat} {e₁ e₂ : Int} (h₁ : 0 < m₁) (h₂ : 0 < m₂) (hp : Proper significand exponent)
    (hq : (Interval.of significand exponent).Holds (m₁ * 2 ^ e₁ / (m₂ * 2 ^ e₂))) :
    UnpackedFloat.div .binary64 (.finite s₁ m₁ e₁ h₁) (.finite s₂ m₂ e₂ h₂) =
      .finite (s₁ / s₂) significand exponent hp.pos := by
  obtain ⟨t, ht⟩ : ∃ t, t = min (e₁ - e₂) (Format.binary64.targetExponent (totalExponent m₁ e₁ - totalExponent m₂ e₂)) :=
    ⟨_, rfl⟩
  obtain ⟨k, hk⟩ : ∃ k : Nat, k = (e₁ - e₂ - t).toNat := ⟨_, rfl⟩
  have core : divCore .binary64 m₁ e₁ m₂ e₂ =
      (m₁ * 2 ^ k / m₂, t, accuracyOfFraction (m₁ * 2 ^ k % m₂) m₂) := by
    rw [divCore, ← ht, ← hk, Nat.shiftLeft_eq]
  have hke : (k : Int) = e₁ - e₂ - t := by omega
  have fraction : (m₁ * 2 ^ e₁ / (m₂ * 2 ^ e₂) : ℚ) / 2 ^ t = (m₁ * 2 ^ k : Nat) / m₂ := by
    have : (2 : ℚ) ^ k = 2 ^ e₁ / 2 ^ e₂ / 2 ^ t := by
      rw [← zpow_natCast, hke, zpow_sub₀ two_ne_zero, zpow_sub₀ two_ne_zero]
    push_cast
    rw [this]
    ring
  have located := Locates.of_fraction (m₁ * 2 ^ k) h₂
  rw [← fraction] at located
  refine (congrArg (fun r : Nat × Int × Accuracy => roundWithAccuracy .binary64 (s₁ / s₂) r.1 r.2.1 r.2.2) core).trans
    (roundWithAccuracy_eq _ hp hq located ?_)
  have limit : Format.binary64.targetExponent (totalExponent m₁ e₁ - totalExponent m₂ e₂) =
      max (m₁.log2 + e₁ - (m₂.log2 + e₂) - 53) (-1074) := by
    rw [Format.targetExponent, totalExponent, totalExponent]
    change max (_ - 53) (-1074) = _
    congr 1
    omega
  rw [limit] at ht
  rw [target]
  dsimp only
  by_cases hs : t ≤ -1074
  · omega
  · have bits := two_pow_le_div (k := k) h₁ h₂ (by omega)
    have := (Nat.le_log2 (by omega)).mpr bits
    omega

end

section
variable {sign : Sign} {significand : Nat}

/-- The stored bits of a significand with a leading bit leave that bit out, and it is put back. -/
theorem unpack_components_normal {biased : Nat} (hp : 0 < significand) (hl : hiddenBit ≤ significand)
    (hu : significand < 2 * hiddenBit) (hn : 0 < biased) (hb : biased < 2047) :
    UnpackedFloat.unpack .binary64
        (packComponents .binary64 sign (BitVec.ofNat 11 biased) (BitVec.ofNat 52 significand)) =
      .finite sign significand (biased - 1075) hp := by
  have hexp : (BitVec.ofNat 11 biased).toNat = biased := Nat.mod_eq_of_lt (by omega)
  have hsig : (1#1 ++ BitVec.ofNat 52 significand).toNat = significand := by
    rw [BitVec.toNat_append, ← Nat.shiftLeft_add_eq_or_of_lt (BitVec.isLt _), BitVec.toNat_ofNat]
    rw [hiddenBit] at hl hu
    change 1 <<< 52 + significand % 2 ^ 52 = significand
    omega
  have full : BitVec.ofNat 11 biased ≠ -1#11 := fun h => by
    have h : biased = 2047 := hexp.symm.trans (congrArg BitVec.toNat h)
    omega
  have none : BitVec.ofNat 11 biased ≠ 0#11 := fun h => by
    have h : biased = 0 := hexp.symm.trans (congrArg BitVec.toNat h)
    omega
  rw [UnpackedFloat.unpack]
  simp only [unpackExponent_packComponents, unpackMantissa_packComponents, unpackSign_packComponents,
    Sign.ofBitVec_toBitVec]
  rw [if_neg full, if_neg none, UnpackedFloat.finite.injEq, hexp]
  exact ⟨rfl, hsig, rfl⟩

theorem unpack_components_subnormal (hp : 0 < significand) (hu : significand < hiddenBit) :
    UnpackedFloat.unpack .binary64 (packComponents .binary64 sign 0#11 (BitVec.ofNat 52 significand)) =
      .finite sign significand (-1074) hp := by
  have hsig : (BitVec.ofNat 52 significand).toNat = significand := Nat.mod_eq_of_lt hu
  have none : BitVec.ofNat 52 significand ≠ 0#52 := fun h => by
    have h : significand = 0 := hsig.symm.trans (congrArg BitVec.toNat h)
    exact hp.ne' h
  rw [UnpackedFloat.unpack]
  simp only [unpackExponent_packComponents, unpackMantissa_packComponents, unpackSign_packComponents,
    Sign.ofBitVec_toBitVec]
  rw [if_neg (show 0#11 ≠ -1#11 by decide), if_pos trivial, dif_neg none, UnpackedFloat.finite.injEq]
  exact ⟨rfl, hsig, rfl⟩

theorem unpack_pack {exponent : Int} (hp : Proper significand exponent) :
    (Float.Model.pack (.finite sign significand exponent hp.pos)).unpack = .finite sign significand exponent hp.pos := by
  have he := hp.le_exponent
  have he' := hp.exponent_le
  obtain ⟨biased, hb⟩ : ∃ biased : Nat, (biased : Int) = exponent + 1075 := ⟨_, Int.toNat_of_nonneg (by omega)⟩
  have hbias : (exponent + (Format.binary64.exponentBias : Int) + (52 : Nat)).toNat = biased := by
    change (exponent + 1023 + 52).toNat = _
    omega
  change UnpackedFloat.unpack .binary64 (UnpackedFloat.pack .binary64 _) = _
  rw [UnpackedFloat.pack]
  simp only [hbias]
  rw [if_neg (show ¬ 2 ^ 11 ≤ biased + 1 by omega)]
  by_cases normal : hiddenBit ≤ significand
  · have hlog : significand.log2 = 52 :=
      Nat.le_antisymm (Nat.lt_succ_iff.mp ((Nat.log2_lt hp.pos.ne').mpr hp.lt)) ((Nat.le_log2 hp.pos.ne').mpr normal)
    obtain rfl : biased - 1075 = exponent := by omega
    rw [if_pos (show significand.log2 + 1 = Format.binary64.mantissaBits by rw [hlog]; rfl)]
    exact unpack_components_normal hp.pos normal hp.lt (by omega) (by omega)
  · have hlog : significand.log2 < 52 := (Nat.log2_lt hp.pos.ne').mpr (not_le.mp normal)
    obtain rfl : -1074 = exponent := by
      by_contra h
      exact normal (hp.normal (lt_of_le_of_ne he h))
    rw [if_neg (show significand.log2 + 1 ≠ Format.binary64.mantissaBits from Nat.ne_of_lt (Nat.succ_lt_succ hlog))]
    exact unpack_components_subnormal hp.pos (not_le.mp normal)

end

theorem Binary.ofFloat_neg {x : Float} {significand : Nat} {exponent : Int}
    (h : Binary.ofFloat x = .finite false significand exponent) :
    Binary.ofFloat (-x) = .finite true significand exponent := by
  have proper := Binary.proper_of_ofFloat h
  rw [Binary.ofFloat_eq] at h ⊢
  change Binary.ofUnpacked (Float.Model.pack x.toModel.unpack.neg).unpack = _
  cases hu : x.toModel.unpack with
  | finite sign m e hm =>
    rw [hu] at h
    cases sign <;> cases h
    rw [UnpackedFloat.neg, unpack_pack (proper hm)]
    rfl
  | zero sign =>
    rw [hu] at h
    cases sign <;> cases h
    rfl
  | notANumber => rw [hu] at h; cases h
  | infinity => rw [hu] at h; cases h

theorem holds_self {significand : Nat} {exponent : Int} (hp : Proper significand exponent) :
    (Interval.of significand exponent).Holds (significand * 2 ^ exponent) := by
  have value : (significand * 2 ^ exponent : ℚ) =
      (Interval.of significand exponent).units (Interval.of significand exponent).value := by
    rw [Interval.units, Interval.of, sub_eq_add_neg, zpow_add₀ two_ne_zero]
    push_cast
    norm_num
    ring
  have pos := hp.pos
  have low : (Interval.of significand exponent).low < (Interval.of significand exponent).value := by
    rw [Interval.of]
    dsimp only
    split <;> omega
  have high : (Interval.of significand exponent).value < (Interval.of significand exponent).high :=
    Nat.lt_add_of_pos_right (by decide)
  have unit : (0 : ℚ) < 2 ^ (Interval.of significand exponent).exponent := by positivity
  have hl := mul_lt_mul_of_pos_right (Nat.cast_lt (α := ℚ).mpr low) unit
  have hh := mul_lt_mul_of_pos_right (Nat.cast_lt (α := ℚ).mpr high) unit
  rw [Interval.Holds, value]
  split
  · exact ⟨hl.le, hh.le⟩
  · exact ⟨hl, hh⟩

theorem proper_normalized {n k : Nat} (hn : 0 < n) (hk : n.log2 + k = 52) : Proper (n * 2 ^ k) (-k) where
  pos := Nat.mul_pos hn (Nat.two_pow_pos k)
  lt :=
    calc n * 2 ^ k < 2 ^ (n.log2 + 1) * 2 ^ k := Nat.mul_lt_mul_of_pos_right Nat.lt_log2_self (Nat.two_pow_pos k)
      _ = 2 * hiddenBit := by rw [← Nat.pow_add, Nat.add_right_comm, hk]; rfl
  le_exponent := by omega
  exponent_le := by omega
  normal _ :=
    calc hiddenBit = 2 ^ n.log2 * 2 ^ k := by rw [← Nat.pow_add, hk]; rfl
      _ ≤ n * 2 ^ k := Nat.mul_le_mul_right _ (Nat.log2_self_le hn.ne')

theorem ofNat_normalized {n k : Nat} (hn : 0 < n) (hk : n.log2 + k = 52) :
    UnpackedFloat.ofNat .binary64 n = .finite .positive (n * 2 ^ k) (-k) (proper_normalized hn hk).pos := by
  have hp := proper_normalized hn hk
  have fine : (-k : Int) ≤ target (n * 2 ^ k) (-k) := by
    have := (Nat.le_log2 (k := 52) hp.pos.ne').mpr (hp.normal (by omega))
    rw [target]
    omega
  have located : Locates (.ofMantissaAndAccuracy (n * 2 ^ k) .exact)
      (((n * 2 ^ k : Nat) * 2 ^ (-k : Int) : ℚ) / 2 ^ (-k : Int)) := by
    rw [mul_div_assoc, div_self (by positivity), mul_one]
    exact Locates.of_exact _
  have shift : (0 - target n 0).toNat = k := by
    rw [target]
    omega
  rw [UnpackedFloat.ofNat, UnpackedFloat.ofInt, UnpackedFloat.normalize, Int.compare_eq_gt.mpr (by omega)]
  dsimp only
  rw [Int.toNat_natCast, UnpackedFloat.round, targetExponent_eq, decreaseExponent, shift, Nat.shiftLeft_eq]
  dsimp only
  rw [zero_sub]
  exact roundWithAccuracy_eq .positive hp (holds_self hp) located fine

theorem unpack_ofNat {n : Nat} (hn : 0 < n) (hb : n < 2 ^ 53) :
    ∃ (m : Nat) (e : Int) (h : 0 < m), (Float.Model.ofNat n).unpack = .finite .positive m e h ∧ (m * 2 ^ e : ℚ) = n := by
  have hlog : n.log2 < 53 := (Nat.log2_lt hn.ne').mpr hb
  obtain ⟨k, hk⟩ : ∃ k, n.log2 + k = 52 := ⟨52 - n.log2, by omega⟩
  have hp := proper_normalized hn hk
  refine ⟨n * 2 ^ k, -k, hp.pos, ?_, ?_⟩
  · rw [Float.Model.ofNat, ofNat_normalized hn hk]
    exact unpack_pack hp
  · push_cast
    rw [mul_assoc, ← zpow_natCast, ← zpow_add₀ two_ne_zero, add_neg_cancel, zpow_zero, mul_one]

private def isPowerOfTen (x : Float) (k : Nat) : Bool :=
  match x.toModel.unpack with
  | .finite .positive m e _ => (scaled 2 m e).1 == 10 ^ k * (scaled 2 m e).2
  | _ => false

private theorem isPowerOfTen_table :
    ∀ k, ∀ h : k < Float.exactlyRepresentablePowersOfTen.size,
      isPowerOfTen Float.exactlyRepresentablePowersOfTen[k] k = true := by decide +kernel

/-- The table of powers of ten is exact. -/
theorem unpack_powerOfTen {k : Nat} (h : k < Float.exactlyRepresentablePowersOfTen.size) :
    ∃ (m : Nat) (e : Int) (hm : 0 < m), Float.exactlyRepresentablePowersOfTen[k].toModel.unpack =
      .finite .positive m e hm ∧ (m * 2 ^ e : ℚ) = 10 ^ k := by
  have ht := isPowerOfTen_table k h
  rw [isPowerOfTen] at ht
  split at ht
  · rename_i m e hm hu
    refine ⟨m, e, hm, hu, ?_⟩
    have hden : ((scaled 2 m e).2 : ℚ) ≠ 0 := Nat.cast_ne_zero.mpr (scaled_den_pos (by decide)).ne'
    have value : (((scaled 2 m e).1 : Nat) : ℚ) = 10 ^ k * (scaled 2 m e).2 := by exact_mod_cast beq_iff_eq.mp ht
    rw [← Nat.cast_two, ← scaled_div, value, mul_div_assoc, div_self hden, mul_one]
  · cases ht

theorem places_le_of_holds {n places significand : Nat} {exponent : Int} (hp : Proper significand exponent)
    (hq : (Interval.of significand exponent).Holds (n * 10 ^ (-places : Int))) : places ≤ 2048 + n.log2 := by
  by_contra h
  have ten : (10 : ℚ) ^ (-places : Int) ≤ 2 ^ (-places : Int) := by
    rw [zpow_neg, zpow_neg, zpow_natCast, zpow_natCast]
    exact inv_anti₀ (by positivity) (pow_le_pow_left₀ (by norm_num) (by norm_num) _)
  have two : (n : ℚ) < 2 ^ (n.log2 + 1 : Int) := by exact_mod_cast Nat.lt_log2_self (n := n)
  have below : (n * 10 ^ (-places : Int) : ℚ) < 2 ^ (-1075 : Int) :=
    calc (n * 10 ^ (-places : Int) : ℚ) ≤ n * 2 ^ (-places : Int) := mul_le_mul_of_nonneg_left ten (by positivity)
      _ < 2 ^ (n.log2 + 1 : Int) * 2 ^ (-places : Int) := mul_lt_mul_of_pos_right two (by positivity)
      _ = 2 ^ (n.log2 + 1 - places : Int) := by rw [← zpow_add₀ two_ne_zero, sub_eq_add_neg]
      _ ≤ 2 ^ (-1075 : Int) := zpow_le_zpow_right₀ (by norm_num) (by omega)
  exact absurd (two_zpow_le_of_holds hp hq) (not_le.mpr below)

/-- A decimal with a point is read as the double in whose interval it lies. -/
theorem unpack_ofScientific {n places significand : Nat} {exponent : Int} (hp : Proper significand exponent) (hn : 0 < n)
    (hpl : 0 < places) (hq : (Interval.of significand exponent).Holds (n * 10 ^ (-places : Int))) :
    (Float.ofScientific n true places).toModel.unpack = .finite .positive significand exponent hp.pos := by
  have quotient : (n * 10 ^ (-places : Int) : ℚ) = n / 10 ^ places := by
    rw [zpow_neg, zpow_natCast, div_eq_mul_inv]
  rw [Float.ofScientific]
  split
  · rename_i hfast
    have hk : places < Float.exactlyRepresentablePowersOfTen.size := Nat.lt_succ_of_le hfast.2
    obtain ⟨m₁, e₁, h₁, hu₁, hv₁⟩ := unpack_ofNat hn hfast.1
    obtain ⟨m₂, e₂, h₂, hu₂, hv₂⟩ := unpack_powerOfTen hk
    have whole : n.toUInt64.toFloat.toModel = Float.Model.ofNat n := by
      have : n.toUInt64.toNat = n := Nat.mod_eq_of_lt (hfast.1.trans (by decide))
      change Float.Model.pack (UnpackedFloat.ofNat _ n.toUInt64.toNat) = _
      rw [this, Float.Model.ofNat]
    change (Float.Model.pack (UnpackedFloat.div .binary64 n.toUInt64.toFloat.toModel.unpack
      Float.exactlyRepresentablePowersOfTen[places].toModel.unpack)).unpack = _
    rw [whole, hu₁, hu₂, div_eq h₁ h₂ hp (by rwa [hv₁, hv₂, ← quotient])]
    exact unpack_pack hp
  · have small := places_le_of_holds hp hq
    have hneg : Int.negOfNat places = -places := Int.negOfNat_eq
    change (Float.Model.pack (UnpackedFloat.ofScientific .binary64 n (Int.negOfNat places))).unpack = _
    rw [hneg, UnpackedFloat.ofScientific, dif_neg hn.ne',
      if_neg (show ¬ (-places : Int) > 2 ^ 11 by omega),
      if_neg (show ¬ (-places : Int) < -(2 ^ 11 + n.log2) by omega), if_neg (show ¬ 0 ≤ (-places : Int) by omega)]
    have hv : (n * 2 ^ (0 : Int) / ((10 ^ (-(-places : Int)).toNat : Nat) * 2 ^ (0 : Int)) : ℚ) =
        n * 10 ^ (-places : Int) := by
      rw [neg_neg, Int.toNat_natCast, zpow_zero, mul_one, mul_one, Nat.cast_pow, quotient, Nat.cast_ofNat]
    rw [div_eq hn (Nat.pow_pos (by decide)) hp (by rwa [hv])]
    exact unpack_pack hp

end MotionControl.Decimal
