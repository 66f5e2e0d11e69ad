import Mathlib
import MotionControl.Decimal.Shortest

/-! The shortest decimal of a double lies between the midpoints to its neighbours. The grids are searched from
coarse to fine, and one with a point in the interval is found before the search runs out. -/
namespace MotionControl.Decimal

theorem scaled_den_pos {b n : Nat} {e : Int} (hb : 0 < b) : 0 < (scaled b n e).2 := by
  cases e with
  | ofNat k => exact Nat.one_pos
  | negSucc k => exact Nat.pow_pos hb

theorem scaled_div (b n : Nat) (e : Int) : ((scaled b n e).1 : ℚ) / (scaled b n e).2 = n * (b : ℚ) ^ e := by
  cases e with
  | ofNat k => simp [scaled]
  | negSucc k => simp [scaled, zpow_negSucc, div_eq_mul_inv]

/-- A power of ten between powers of two: `10 ^ 3` is below `2 ^ 10`, and `10 ^ 10` above `2 ^ 33`. -/
theorem ten_zpow_le_two_zpow {a b : Int} (hn : 10 * a ≤ 3 * b) (hz : 33 * a ≤ 10 * b) :
    (10 : ℚ) ^ a ≤ 2 ^ b := by
  rcases le_total 0 a with ha | ha
  · have h : ((10 : ℚ) ^ a) ^ 3 ≤ (2 ^ b) ^ 3 := by
      calc ((10 : ℚ) ^ a) ^ 3 = 1000 ^ a := by rw [← zpow_natCast, zpow_comm]; norm_num
        _ ≤ 1024 ^ a := zpow_le_zpow_left₀ ha (by norm_num) (by norm_num)
        _ = 2 ^ (10 * a) := by rw [zpow_mul]; norm_num
        _ ≤ 2 ^ (3 * b) := zpow_le_zpow_right₀ (by norm_num) hn
        _ = (2 ^ b) ^ 3 := by rw [mul_comm, zpow_mul]; norm_cast
    exact le_of_pow_le_pow_left₀ (by norm_num) (by positivity) h
  · have h : ((10 : ℚ) ^ a) ^ 10 ≤ (2 ^ b) ^ 10 := by
      calc ((10 : ℚ) ^ a) ^ 10 = (10000000000) ^ a := by rw [← zpow_natCast, zpow_comm]; norm_num
        _ ≤ 8589934592 ^ a := by
          have hp : (8589934592 : ℚ) ^ (-a) ≤ 10000000000 ^ (-a) :=
            zpow_le_zpow_left₀ (by omega) (by norm_num) (by norm_num)
          rw [zpow_neg, zpow_neg] at hp
          exact (inv_le_inv₀ (by positivity) (by positivity)).mp hp
        _ = 2 ^ (33 * a) := by rw [zpow_mul]; norm_num
        _ ≤ 2 ^ (10 * b) := zpow_le_zpow_right₀ (by norm_num) hz
        _ = (2 ^ b) ^ 10 := by rw [mul_comm, zpow_mul]; norm_cast
    exact le_of_pow_le_pow_left₀ (by norm_num) (by positivity) h

namespace Interval
variable {i : Interval} {n significand : Nat} {e exponent : Int}

/-- A number in the unit of the interval, which is a quarter of the unit of its double. -/
def units (i : Interval) (n : Nat) : ℚ := n * 2 ^ i.exponent

/-- The interval holds what lies between its ends, and the ends themselves if it is closed. -/
def Holds (i : Interval) (q : ℚ) : Prop :=
  if i.closed then i.units i.low ≤ q ∧ q ≤ i.units i.high else i.units i.low < q ∧ q < i.units i.high

private theorem ten_eq (n : Nat) (e : Int) :
    (n * 10 ^ e : ℚ) = (n * (scaled 10 1 e).1 : Nat) / ((scaled 10 1 e).2 : Nat) := by
  rw [Nat.cast_mul, mul_div_assoc, scaled_div]
  norm_num

private theorem units_eq (i : Interval) (n : Nat) :
    i.units n = (n * (scaled 2 1 i.exponent).1 : Nat) / ((scaled 2 1 i.exponent).2 : Nat) := by
  rw [Nat.cast_mul, mul_div_assoc, scaled_div, units]
  norm_num

theorem contains_iff : i.contains n e = true ↔ i.Holds (n * 10 ^ e) := by
  have tenth : (0 : ℚ) < (scaled 10 1 e).2 := Nat.cast_pos.mpr (scaled_den_pos (by decide))
  have half : (0 : ℚ) < (scaled 2 1 i.exponent).2 := Nat.cast_pos.mpr (scaled_den_pos (by decide))
  rw [Holds, ten_eq, units_eq, units_eq, div_le_div_iff₀ half tenth, div_le_div_iff₀ tenth half,
    div_lt_div_iff₀ half tenth, div_lt_div_iff₀ tenth half]
  norm_cast
  rw [contains]
  cases i.closed <;> simp [Bool.and_eq_true]

/-- The multiple of `10 ^ e` just below the value. -/
def below (i : Interval) (e : Int) : Nat :=
  i.value * (scaled 2 1 i.exponent).1 * (scaled 10 1 e).2 / ((scaled 10 1 e).1 * (scaled 2 1 i.exponent).2)

theorem below_spec (i : Interval) (e : Int) :
    (i.below e * 10 ^ e : ℚ) ≤ i.units i.value ∧ i.units i.value < (i.below e + 1 : Nat) * 10 ^ e := by
  have tenth : 0 < (scaled 10 1 e).2 := scaled_den_pos (by decide)
  have half : 0 < (scaled 2 1 i.exponent).2 := scaled_den_pos (by decide)
  have ten : 0 < (scaled 10 1 e).1 := by
    have h : (0 : ℚ) < (scaled 10 1 e).1 / (scaled 10 1 e).2 := by
      rw [scaled_div]
      positivity
    exact_mod_cast (div_pos_iff_of_pos_right (by exact_mod_cast tenth)).mp h
  rw [ten_eq, ten_eq, units_eq, div_le_div_iff₀ (by exact_mod_cast tenth) (by exact_mod_cast half),
    div_lt_div_iff₀ (by exact_mod_cast half) (by exact_mod_cast tenth)]
  norm_cast
  rw [mul_assoc, mul_assoc (i.below e + 1), ← Nat.le_div_iff_mul_le (Nat.mul_pos ten half),
    ← Nat.div_lt_iff_lt_mul (Nat.mul_pos ten half)]
  exact ⟨le_rfl, Nat.lt_succ_self _⟩

private theorem roundDiv_eq (num den : Nat) : roundDiv num den = num / den ∨ roundDiv num den = num / den + 1 := by
  rw [roundDiv]
  split
  · exact .inl rfl
  · split
    · exact .inr rfl
    · have := Nat.mod_two_eq_zero_or_one (num / den)
      omega

private theorem multiple?_eq (i : Interval) (e : Int) :
    i.multiple? e = match i.contains (i.below e) e, i.contains (i.below e + 1) e with
      | true, true => some (roundDiv (i.value * (scaled 2 1 i.exponent).1 * (scaled 10 1 e).2)
          ((scaled 10 1 e).1 * (scaled 2 1 i.exponent).2))
      | true, false => some (i.below e)
      | false, true => some (i.below e + 1)
      | false, false => none := rfl

theorem multiple?_eq_some (h : i.multiple? e = some n) : i.contains n e = true := by
  rw [multiple?_eq] at h
  split at h
  · rename_i hb ha
    obtain rfl := Option.some.inj h
    rcases roundDiv_eq (i.value * (scaled 2 1 i.exponent).1 * (scaled 10 1 e).2)
      ((scaled 10 1 e).1 * (scaled 2 1 i.exponent).2) with hr | hr
    · rwa [hr]
    · rwa [hr]
  · rename_i hb _
    exact Option.some.inj h ▸ hb
  · rename_i _ ha
    exact Option.some.inj h ▸ ha
  · cases h

theorem multiple?_eq_none (h : i.multiple? e = none) :
    i.contains (i.below e) e = false ∧ i.contains (i.below e + 1) e = false := by
  rw [multiple?_eq] at h
  split at h
  · cases h
  · cases h
  · cases h
  · exact ⟨‹_›, ‹_›⟩

/-- A grid as fine as the distance of the upper end from the value has a point in the interval. -/
theorem multiple?_ne_none (hl : i.low < i.value) (hv : i.value < i.high)
    (he : (10 : ℚ) ^ e ≤ i.units i.high - i.units i.value) : i.multiple? e ≠ none := by
  intro h
  obtain ⟨hb, ha⟩ := multiple?_eq_none h
  obtain ⟨below, above⟩ := below_spec i e
  have unit : (0 : ℚ) < 2 ^ i.exponent := by positivity
  have low : i.units i.low < i.units i.value := mul_lt_mul_of_pos_right (by exact_mod_cast hl) unit
  have high : i.units i.value < i.units i.high := mul_lt_mul_of_pos_right (by exact_mod_cast hv) unit
  have next : ((i.below e + 1 : Nat) * 10 ^ e : ℚ) = i.below e * 10 ^ e + 10 ^ e := by
    push_cast
    ring
  rcases below.lt_or_eq with hlt | heq
  · refine Bool.false_ne_true (ha.symm.trans (contains_iff.mpr ?_))
    rw [Holds]
    split
    · constructor <;> linarith
    · constructor <;> linarith
  · refine Bool.false_ne_true (hb.symm.trans (contains_iff.mpr ?_))
    rw [Holds, heq]
    split
    · exact ⟨low.le, high.le⟩
    · exact ⟨low, high⟩

/-- The search ends at a point of the interval as soon as one of its grids has one. -/
theorem contains_search {fuel : Nat} {start : Int} (h : ∃ k < fuel, i.multiple? (start - k) ≠ none) :
    i.contains (i.search fuel start).digits (i.search fuel start).exponent = true := by
  induction fuel generalizing start with
  | zero =>
    obtain ⟨k, hk, -⟩ := h
    exact absurd hk (Nat.not_lt_zero k)
  | succ fuel ih =>
    rw [search]
    split
    · exact multiple?_eq_some ‹_›
    · rename_i hn
      obtain ⟨k, hk, hm⟩ := h
      cases k with
      | zero => exact absurd hn (by simpa using hm)
      | succ k =>
        refine ih ⟨k, Nat.lt_of_succ_lt_succ hk, ?_⟩
        rwa [sub_sub, add_comm (1 : Int), ← Nat.cast_succ]

end Interval

/-- The significand and exponent of a double that is not zero. -/
structure Proper (significand : Nat) (exponent : Int) : Prop where
  pos : 0 < significand
  lt : significand < 2 * hiddenBit
  le_exponent : -1074 ≤ exponent
  exponent_le : exponent ≤ 971
  /-- Below the least exponent the leading bit is set. -/
  normal : -1074 < exponent → hiddenBit ≤ significand

theorem contains_shortest {significand : Nat} {exponent : Int} (h : Proper significand exponent) :
    (Interval.of significand exponent).Holds
      ((shortest significand exponent).digits * 10 ^ (shortest significand exponent).exponent) := by
  rw [shortest, if_neg h.pos.ne', ← Interval.contains_iff]
  have hs : significand.log2 ≤ 52 := Nat.lt_succ_iff.mp ((Nat.log2_lt h.pos.ne').mpr h.lt)
  have he := h.le_exponent
  have he' := h.exponent_le
  refine Interval.contains_search ⟨23, by decide, Interval.multiple?_ne_none ?_ ?_ ?_⟩
  · have := h.pos
    rw [Interval.of]
    dsimp only
    split <;> omega
  · exact Nat.lt_add_of_pos_right (by decide)
  · have gap : (Interval.of significand exponent).units (Interval.of significand exponent).high -
        (Interval.of significand exponent).units (Interval.of significand exponent).value = 2 ^ (exponent - 1) := by
      rw [Interval.units, Interval.units, Interval.of]
      push_cast
      rw [← sub_mul, add_sub_cancel_left, show exponent - 1 = 1 + (exponent - 2) by omega,
        zpow_add₀ (by norm_num), zpow_one]
    rw [gap]
    refine ten_zpow_le_two_zpow ?_ ?_
    · rw [leadingExponent]
      omega
    · rw [leadingExponent]
      omega

end MotionControl.Decimal
