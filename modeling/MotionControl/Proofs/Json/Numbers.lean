import MotionControl.Json.Parser
import MotionControl.Json.Printer
import MotionControl.Proofs.Decimal.Doubles
import MotionControl.Proofs.Decimal.Spelling

/-! Numbers of JSON text. A finite double has a text that is read as a whole, up to where it ends, so what comes back
of it does not depend on where it stands. One that is not finite leaves nothing behind. -/
namespace MotionControl.Json
open Decimal

section
variable {c : Char} {cs ds whole fraction rest : List Char}

/-- The end of a number. -/
def EndsNumber (rest : List Char) : Prop := ∀ c ∈ rest.head?, c.isDigit = false ∧ c ≠ '.' ∧ c ≠ 'e' ∧ c ≠ 'E'

theorem digits_append (hds : ∀ c ∈ ds, c.isDigit = true) (hr : ∀ c ∈ rest.head?, c.isDigit = false) :
    digits (ds ++ rest) = (ds, rest) := by
  rw [digits, List.takeWhile_append_of_pos hds, List.dropWhile_append_of_pos hds]
  cases rest with
  | nil => simp
  | cons c rest => simp [hr c rfl]

def fractionText : List Char → List Char
  | [] => []
  | fraction => '.' :: fraction

def exponentText : Option Int → List Char
  | none => []
  | some e => 'e' :: (if e < 0 then '-' else '+') :: digitsOf e.natAbs

theorem exponent?_append (hr : EndsNumber rest) (e : Int) :
    exponent? ((if e < 0 then '-' else '+') :: (digitsOf e.natAbs ++ rest)) = some (e, rest) := by
  have hd : digits (digitsOf e.natAbs ++ rest) = (digitsOf e.natAbs, rest) :=
    digits_append (fun _ hc => isDigit_digitsOf hc) fun c hc => (hr c hc).1
  have hv : Nat.ofDigitChars 10 (digitsOf e.natAbs) 0 = e.natAbs := Nat.ofDigitChars_ten_toDigits
  obtain ⟨d, ds, hds⟩ := List.exists_cons_of_ne_nil (isWhole_digitsOf e.natAbs).ne_nil
  rw [hds] at hd hv ⊢
  by_cases he : e < 0
  · rw [if_pos he, exponent?]
    dsimp only
    rw [hd]
    dsimp only
    rw [hv, if_pos rfl]
    congr 2
    omega
  · rw [if_neg he, exponent?]
    dsimp only
    rw [hd]
    dsimp only
    rw [hv, if_neg Bool.false_ne_true]
    congr 2
    omega

/-! Each part of a number is read up to where the next one starts. -/

theorem sign_append (hw : IsWhole whole) (negative : Bool) :
    sign ((if negative then ['-'] else []) ++ (whole ++ rest)) = (negative, whole ++ rest) := by
  cases negative with
  | true => rfl
  | false =>
    obtain ⟨d, ds, hd⟩ := List.exists_cons_of_ne_nil hw.ne_nil
    have digit := hw.digits d (hd ▸ List.mem_cons_self ..)
    rw [hd]
    refine sign.eq_2 _ fun r h => ?_
    rw [(List.cons.inj h).1] at digit
    cases digit

theorem whole?_append (hw : IsWhole whole) (hr : ∀ c ∈ rest.head?, c.isDigit = false) :
    whole? (whole ++ rest) = some (whole, rest) := by
  rw [whole?, digits_append hw.digits hr]
  split
  · rename_i h
    exact absurd (Prod.mk.inj h).1 hw.ne_nil
  · rename_i h
    have hz := (Prod.mk.inj h).1
    have alone := hw.zero (by rw [hz]; rfl)
    rw [hz] at alone
    cases alone
  · rename_i h
    cases h
    rfl

theorem fraction?_append (hf : ∀ c ∈ fraction, c.isDigit = true)
    (hr : ∀ c ∈ rest.head?, c.isDigit = false ∧ c ≠ '.') :
    fraction? (fractionText fraction ++ rest) = some (if fraction.isEmpty then none else some fraction, rest) := by
  cases fraction with
  | nil => exact fraction?.eq_2 _ fun r h => (hr '.' (congrArg List.head? h)).2 rfl
  | cons f fs =>
    refine (fraction?.eq_1 (f :: fs ++ rest)).trans ?_
    rw [digits_append hf fun c hc => (hr c hc).1]
    rfl

theorem power?_append (hr : EndsNumber rest) (exponent : Option Int) :
    power? (exponentText exponent ++ rest) = some (exponent, rest) := by
  cases exponent with
  | none =>
    refine power?.eq_3 _ (fun r h => ?_) fun r h => ?_
    · exact (hr 'e' (congrArg List.head? h)).2.2.1 rfl
    · exact (hr 'E' (congrArg List.head? h)).2.2.2 rfl
  | some e =>
    change (exponent? ((if e < 0 then '-' else '+') :: (digitsOf e.natAbs ++ rest))).map _ = _
    rw [exponent?_append hr]
    rfl

theorem literal?_append (hw : IsWhole whole) (hf : ∀ c ∈ fraction, c.isDigit = true) (hr : EndsNumber rest)
    (negative : Bool) (exponent : Option Int) :
    literal? ((if negative then ['-'] else []) ++
        (whole ++ (fractionText fraction ++ (exponentText exponent ++ rest)))) =
      some (⟨negative, whole, fraction, !fraction.isEmpty || exponent.isSome, exponent.getD 0⟩, rest) := by
  have powerEnds : ∀ c ∈ (exponentText exponent ++ rest).head?, c.isDigit = false ∧ c ≠ '.' := by
    intro c hc
    cases exponent with
    | none => exact ⟨(hr c hc).1, (hr c hc).2.1⟩
    | some e =>
      obtain rfl := Option.some.inj hc
      exact ⟨rfl, by decide⟩
  have wholeEnds : ∀ c ∈ (fractionText fraction ++ (exponentText exponent ++ rest)).head?, c.isDigit = false := by
    intro c hc
    cases fraction with
    | nil => exact (powerEnds c hc).1
    | cons f fs =>
      obtain rfl := Option.some.inj hc
      rfl
  rw [literal?, sign_append hw]
  refine Option.bind_eq_some_iff.mpr ⟨_, whole?_append hw wholeEnds, Option.bind_eq_some_iff.mpr
    ⟨_, fraction?_append hf powerEnds, Option.bind_eq_some_iff.mpr ⟨_, power?_append hr exponent, ?_⟩⟩⟩
  cases fraction <;> rfl

theorem literal?_eq_none (hd : c.isDigit = false) (hm : c ≠ '-') (cs : List Char) : literal? (c :: cs) = none := by
  have hsign : sign (c :: cs) = (false, c :: cs) := sign.eq_2 _ fun r h => hm (List.cons.inj h).1
  have hdigits : digits (c :: cs) = ([], c :: cs) := by rw [digits, List.takeWhile_cons, List.dropWhile_cons, hd]; rfl
  rw [literal?, hsign]
  dsimp only
  rw [whole?, hdigits]
  rfl

theorem value?_of_literal? {l : Literal} (h : literal? cs = some (l, rest)) (fuel : Nat) :
    value? (fuel + 1) cs = some (l.value, rest) := by
  have first : ∀ {c t}, c.isDigit = false → c ≠ '-' → cs ≠ c :: t := by
    rintro c t hd hm rfl
    rw [literal?_eq_none hd hm] at h
    cases h
  have blanks : skipBlanks cs = cs := by
    cases cs with
    | nil => rfl
    | cons c cs =>
      rw [skipBlanks, List.dropWhile_cons]
      split
      · rename_i hb
        simp only [isBlank, Bool.or_eq_true, beq_iff_eq] at hb
        obtain ((rfl | rfl) | rfl) | rfl := hb <;> exact absurd rfl (first rfl (by decide))
      · rfl
  rw [value?, blanks]
  split
  · exact absurd rfl (first rfl (by decide))
  · exact absurd rfl (first rfl (by decide))
  · exact absurd rfl (first rfl (by decide))
  · exact absurd rfl (first rfl (by decide))
  · exact absurd rfl (first rfl (by decide))
  · exact absurd rfl (first rfl (by decide))
  · rw [h]
    rfl

end

section
variable {x : Float}

/-- One digit, the others after a point, and a power of ten. -/
theorem exists_scientific (d : Scaled) : ∃ whole fraction, IsWhole whole ∧ (∀ c ∈ fraction, c.isDigit = true) ∧
    d.scientific.toList = whole ++ (fractionText fraction ++ exponentText (some d.leading)) := by
  have power : ("e" ++ (if d.leading < 0 then "-" else "+") ++ toString d.leading.natAbs).toList =
      exponentText (some d.leading) := by
    by_cases h : d.leading < 0 <;> simp [exponentText, h, digitsOf]
  have digit : ∀ c ∈ digitsOf d.digits, c.isDigit = true := fun c hc => isDigit_digitsOf hc
  rw [Scaled.scientific, String.append_assoc, String.append_assoc, String.toList_append, ← String.append_assoc, power,
    String.toList_ofList]
  split
  · rename_i first second rest h
    rw [h, List.forall_mem_cons] at digit
    exact ⟨[first], second :: rest, ⟨by simpa using digit.1, List.cons_ne_nil first [], fun hz => by simpa using hz⟩,
      digit.2, rfl⟩
  · exact ⟨_, [], isWhole_digitsOf d.digits, by rintro _ ⟨⟩, rfl⟩

theorem exists_numberText (h : x.isFinite = true) : ∃ negative whole fraction exponent, IsWhole whole ∧
    (∀ c ∈ fraction, c.isDigit = true) ∧ (numberText x).toList =
      (if negative = true then ['-'] else []) ++ (whole ++ (fractionText fraction ++ exponentText exponent)) := by
  obtain ⟨negative, significand, exponent, hx⟩ := Binary.isFinite_iff.mp h
  have text : (numberText x).toList = (if negative = true then ['-'] else []) ++
      (if numberStyle.positional (shortest significand exponent).leading = true then
        (shortest significand exponent).pointText else (shortest significand exponent).scientific.toList) := by
    rw [numberText, if_pos h, Decimal.NumberStyle.write, hx]
    dsimp only
    rw [String.toList_append]
    congr 1
    · cases negative <;> rfl
    · split <;> rfl
  rw [text]
  by_cases hp : numberStyle.positional (shortest significand exponent).leading = true
  · obtain ⟨n, places, whole, fraction, hs, -⟩ := exists_spelled_shortest (Binary.proper_of_ofFloat hx)
    refine ⟨negative, whole, fraction, none, hs.isWhole, hs.digits, ?_⟩
    obtain ⟨f, fs, rfl⟩ := List.exists_cons_of_ne_nil (List.ne_nil_of_length_pos (hs.length ▸ hs.pos))
    rw [if_pos hp, hs.text_eq, exponentText, List.append_nil]
    rfl
  · obtain ⟨whole, fraction, hw, hf, ht⟩ := exists_scientific (shortest significand exponent)
    exact ⟨negative, whole, fraction, some _, hw, hf, by rw [if_neg hp, ht]⟩

/-- What the text of a number is read as. -/
def numberDocument (x : Float) : Document := (parse? (numberText x)).getD .unreadable

/-- A number is read as the same document wherever its text stands. -/
theorem value?_numberText (x : Float) {rest : List Char} (hr : EndsNumber rest) (fuel : Nat) :
    value? (fuel + 1) ((numberText x).toList ++ rest) = some (numberDocument x, rest) := by
  by_cases h : x.isFinite = true
  · obtain ⟨negative, whole, fraction, exponent, hw, hf, ht⟩ := exists_numberText h
    have read := fun rest (hr : EndsNumber rest) fuel => value?_of_literal? (literal?_append hw hf hr negative exponent) fuel
    have alone : parse? (numberText x) = some (Literal.value ⟨negative, whole, fraction,
        !fraction.isEmpty || exponent.isSome, exponent.getD 0⟩) := by
      have whole := read [] (by rintro _ ⟨⟩) (numberText x).length
      rw [List.append_nil] at whole
      rw [parse?, ht, whole]
      rfl
    rw [numberDocument, alone, ht, Option.getD_some]
    simpa only [List.append_assoc] using read rest hr fuel
  · have hn : numberText x = "null" := if_neg h
    rw [numberDocument, hn]
    rfl

/-- No text is left of a number that is not finite. -/
theorem numberDocument_of_not_finite (h : x.isFinite = false) : numberDocument x = .null := by
  have hn : numberText x = "null" := if_neg (Bool.eq_false_iff.mp h)
  rw [numberDocument, hn]
  rfl

end

/-! Whole numbers that fit a word. -/

section
variable {n : Nat}

theorem accumulate_eq {ds : List Char} {k : Nat} (h : Nat.ofDigitChars 10 ds k < 0x10000000000000000) :
    accumulate k ds = (Nat.ofDigitChars 10 ds k, []) := by
  induction ds generalizing k with
  | nil => rfl
  | cons d ds ih =>
    rw [Nat.ofDigitChars_cons] at h ⊢
    have next : 10 * k + (d.toNat - '0'.toNat) < 0x10000000000000000 := by
      refine lt_of_le_of_lt ?_ h
      rw [Nat.ofDigitChars_eq_ofDigitChars_zero]
      exact (Nat.le_mul_of_pos_left _ (by positivity)).trans (Nat.le_add_right ..)
    rw [accumulate, if_pos next, ih h]

theorem value?_natCast (hn : n < 0x10000000000000000) {rest : List Char} (hr : EndsNumber rest) (fuel : Nat) :
    value? (fuel + 1) ((toString (n : Int)).toList ++ rest) = some (.integer n, rest) := by
  have literal := @literal?_append (digitsOf n) [] rest (isWhole_digitsOf n) (by rintro _ ⟨⟩) hr false none
  have hv : Nat.ofDigitChars 10 (digitsOf n) 0 = n := Nat.ofDigitChars_ten_toDigits
  have value : Literal.value ⟨false, digitsOf n, [], false, 0⟩ = .integer n := by
    rw [Literal.value, accumulate_eq (by rw [hv]; exact hn), hv]
    rfl
  rw [toList_toString_natCast, ← value]
  exact value?_of_literal? literal fuel

end

end MotionControl.Json
