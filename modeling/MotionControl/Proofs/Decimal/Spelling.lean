import Mathlib
import MotionControl.Proofs.Decimal.ShortestInterval

/-! The digits of a number's text: its whole part has no zero in front of other digits, and a point has digits on
both sides. -/
namespace MotionControl.Decimal

/-- Digits without a zero in front of others. -/
structure IsWhole (ds : List Char) : Prop where
  digits : ∀ c ∈ ds, c.isDigit = true
  ne_nil : ds ≠ []
  zero : ds.head? = some '0' → ds = ['0']

theorem isDigit_digitsOf {n : Nat} {c : Char} (h : c ∈ digitsOf n) : c.isDigit = true :=
  Nat.isDigit_of_mem_toDigits (by decide) (by decide) h

theorem toList_toString_natCast (n : Nat) : (toString (n : Int)).toList = digitsOf n := by
  change (toString n).toList = _
  rw [Nat.toString_eq_ofList_toDigits, String.toList_ofList]
  rfl

theorem digitsOf_head {n : Nat} (hn : 0 < n) : (digitsOf n).head? ≠ some '0' := by
  induction n using Nat.strong_induction_on with
  | _ n ih =>
    rw [digitsOf, Nat.toDigits_eq_if (by decide)]
    split
    · rename_i hl
      have small : ∀ d < 10, 0 < d → [Nat.digitChar d].head? ≠ some '0' := by decide
      exact small n hl hn
    · rw [List.head?_append_of_ne_nil _ Nat.toDigits_ne_nil]
      exact ih (n / 10) (by omega) (by omega)

theorem isWhole_digitsOf (n : Nat) : IsWhole (digitsOf n) where
  digits _ h := isDigit_digitsOf h
  ne_nil := Nat.toDigits_ne_nil
  zero h := by
    obtain rfl | hn := Nat.eq_zero_or_pos n
    · rfl
    · exact absurd h (digitsOf_head hn)

theorem isWhole_of_digitsOf {n : Nat} (hn : 0 < n) {rest : List Char} (h : ∀ c ∈ rest, c.isDigit = true) :
    IsWhole (digitsOf n ++ rest) where
  digits c hc := (List.mem_append.mp hc).elim isDigit_digitsOf (h c)
  ne_nil h := (isWhole_digitsOf n).ne_nil (List.append_eq_nil_iff.mp h).1
  zero hz := by
    rw [List.head?_append_of_ne_nil _ (isWhole_digitsOf n).ne_nil] at hz
    exact absurd hz (digitsOf_head hn)

/-- A text of `n` in units of `10 ^ -places`, with digits on both sides of its point. -/
structure Spelled (text : List Char) (n places : Nat) (whole fraction : List Char) : Prop where
  text_eq : text = whole ++ '.' :: fraction
  isWhole : IsWhole whole
  digits : ∀ c ∈ fraction, c.isDigit = true
  length : fraction.length = places
  pos : 0 < places
  value : Nat.ofDigitChars 10 (whole ++ fraction) 0 = n

theorem IsWhole.take {n k : Nat} (hn : 0 < n) (hk : 0 < k) : IsWhole ((digitsOf n).take k) where
  digits c hc := isDigit_digitsOf (List.mem_of_mem_take hc)
  ne_nil h := by
    rcases List.take_eq_nil_iff.mp h with h | h
    · exact hk.ne' h
    · exact (isWhole_digitsOf n).ne_nil h
  zero h := by
    rw [List.head?_take, if_neg hk.ne'] at h
    exact absurd h (digitsOf_head hn)

theorem exists_spelled_pointed {places n : Nat} (hp : 0 < places) :
    ∃ whole fraction, Spelled (pointed places n).toList n places whole fraction := by
  have hv : Nat.ofDigitChars 10 (digitsOf n) 0 = n := Nat.ofDigitChars_ten_toDigits
  have hl : 0 < (digitsOf n).length := Nat.length_toDigits_pos
  rcases Nat.lt_or_ge places (digitsOf n).length with hlt | hge
  · -- more digits than places: the point stands between digits of the number
    refine ⟨(digitsOf n).take ((digitsOf n).length - places), (digitsOf n).drop ((digitsOf n).length - places), ?_⟩
    have hn : 0 < n := by
      refine Nat.pos_of_ne_zero fun h => ?_
      have h1 : (digitsOf n).length = 1 := by rw [h]; rfl
      omega
    exact {
      text_eq := by
        rw [pointed, String.toList_ofList, show places + 1 - (digitsOf n).length = 0 by omega, if_neg hp.ne']
        rfl
      isWhole := .take hn (by omega)
      digits := fun c hc => isDigit_digitsOf (List.mem_of_mem_drop hc)
      length := by rw [List.length_drop]; omega
      pos := hp
      value := by rw [List.take_append_drop, hv] }
  · -- the number is padded with zeros, the first of them before the point
    refine ⟨['0'], List.replicate (places - (digitsOf n).length) '0' ++ digitsOf n, ?_⟩
    exact {
      text_eq := by
        have hk : places + 1 - (digitsOf n).length = places - (digitsOf n).length + 1 := by omega
        rw [pointed, String.toList_ofList, hk, if_neg hp.ne', List.replicate_succ, List.cons_append, List.length_cons,
          List.length_append, List.length_replicate, show places - (digitsOf n).length + (digitsOf n).length + 1 - places =
            1 by omega]
        rfl
      isWhole := isWhole_digitsOf 0
      digits := fun c hc => (List.mem_append.mp hc).elim (fun h => by rw [List.eq_of_mem_replicate h]; rfl)
        isDigit_digitsOf
      length := by rw [List.length_append, List.length_replicate]; omega
      pos := hp
      value := by
        rw [← List.append_assoc, Nat.ofDigitChars_append, ← List.replicate_one, ← List.replicate_add,
          Nat.ofDigitChars_replicate_zero, Nat.mul_zero, hv] }

/-- The positional spelling of a number, with `.0` when it is whole. -/
def Scaled.pointText (d : Scaled) : List Char := (d.positional ++ if d.isWhole then ".0" else "").toList

theorem Scaled.exists_spelled {d : Scaled} (h : d.digits = 0 → 0 ≤ d.exponent) :
    ∃ n places whole fraction, Spelled d.pointText n places whole fraction ∧
      (n : ℚ) * 10 ^ (-places : Int) = d.digits * 10 ^ d.exponent := by
  obtain ⟨digits, exponent⟩ := d
  have hv : Nat.ofDigitChars 10 (digitsOf digits) 0 = digits := Nat.ofDigitChars_ten_toDigits
  cases exponent with
  | ofNat k =>
    have hw : Scaled.isWhole ⟨digits, .ofNat k⟩ = true := by simp [Scaled.isWhole]
    let zeros := if digits = 0 then [] else List.replicate k '0'
    have hz : Nat.ofDigitChars 10 zeros digits = 10 ^ k * digits := by
      by_cases hd : digits = 0
      · simp [zeros, hd]
      · simp [zeros, hd, Nat.ofDigitChars_replicate_zero]
    refine ⟨10 * (10 ^ k * digits), 1, digitsOf digits ++ zeros, ['0'], ?_, ?_⟩
    · exact {
        text_eq := by
          rw [pointText, hw, positional, String.toList_append, String.toList_ofList]
          rfl
        isWhole := by
          by_cases hd : digits = 0
          · simp [zeros, hd, isWhole_digitsOf]
          · simp only [zeros, hd, if_false]
            exact isWhole_of_digitsOf (Nat.pos_of_ne_zero hd) fun c hc => by rw [List.eq_of_mem_replicate hc]; rfl
        digits := by simp
        length := rfl
        pos := Nat.one_pos
        value := by
          rw [Nat.ofDigitChars_append, Nat.ofDigitChars_append, hv, hz, ← List.replicate_one,
            Nat.ofDigitChars_replicate_zero, Nat.pow_one] }
    · push_cast
      rw [Int.ofNat_eq_natCast, zpow_natCast]
      norm_num
      ring
  | negSucc k =>
    have hd : digits ≠ 0 := fun hd => absurd (h hd) (by simp)
    have hw : Scaled.isWhole ⟨digits, .negSucc k⟩ = false := by simp [Scaled.isWhole, hd]
    obtain ⟨whole, fraction, hs⟩ := exists_spelled_pointed (n := digits) (Nat.succ_pos k)
    refine ⟨digits, k + 1, whole, fraction, ?_, ?_⟩
    · rw [pointText, hw, positional]
      simpa using hs
    · rw [Int.negSucc_eq]
      norm_cast

theorem digits_shortest_pos {significand : Nat} {exponent : Int} (h : Proper significand exponent) :
    0 < (shortest significand exponent).digits := by
  refine Nat.pos_of_ne_zero fun hz => ?_
  have hi := contains_shortest h
  rw [hz, Nat.cast_zero, zero_mul] at hi
  have hl : 0 < (Interval.of significand exponent).units (Interval.of significand exponent).low := by
    refine mul_pos (Nat.cast_pos.mpr ?_) (by positivity)
    have := h.pos
    rw [Interval.of]
    dsimp only
    split <;> omega
  rw [Interval.Holds] at hi
  split at hi
  · exact absurd hi.1 (not_le.mpr hl)
  · exact absurd hi.1 (not_lt.mpr hl.le)

/-- The shortest decimal of a double that is finite, zero or not, has a positional spelling. -/
theorem exists_spelled_shortest {significand : Nat} {exponent : Int}
    (h : 0 < significand → Proper significand exponent) :
    ∃ n places whole fraction, Spelled (shortest significand exponent).pointText n places whole fraction ∧
      (n : ℚ) * 10 ^ (-places : Int) =
        (shortest significand exponent).digits * 10 ^ (shortest significand exponent).exponent := by
  refine Scaled.exists_spelled fun hd => ?_
  obtain rfl | hs := Nat.eq_zero_or_pos significand
  · exact le_rfl
  · exact absurd hd (digits_shortest_pos (h hs)).ne'

end MotionControl.Decimal
