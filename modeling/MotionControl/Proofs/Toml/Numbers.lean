import MotionControl.Proofs.Decimal.NearestDouble
import MotionControl.Proofs.Decimal.Spelling
import MotionControl.Toml.Parser
import MotionControl.Toml.Printer

/-! Numbers of TOML text: every double, whole numbers included, is read back as itself. -/
namespace MotionControl.Toml
open Decimal Float.Model Float.Model.UnpackedFloat

section
variable {ds rest : List Char} {c : Char}

/-- The end of a run of digits. -/
def EndsDigits (rest : List Char) : Prop := ∀ c ∈ rest.head?, c.isDigit = false ∧ c ≠ '_'

theorem ne_underscore_of_isDigit (h : c.isDigit = true) : c ≠ '_' := by
  rintro rfl
  exact absurd h (by decide)

theorem digitRun_of_ends (h : EndsDigits rest) : digitRun Char.isDigit rest = ([], rest) := by
  cases rest with
  | nil => rfl
  | cons c rest =>
    obtain ⟨hd, hu⟩ := h c rfl
    rw [digitRun]
    · rw [hd]
      rfl
    · rintro c' rest' rfl
      exact absurd rfl hu

theorem digitRun_append (hds : ∀ c ∈ ds, c.isDigit = true) (h : EndsDigits rest) :
    digitRun Char.isDigit (ds ++ rest) = (ds, rest) := by
  induction ds with
  | nil => exact digitRun_of_ends h
  | cons d ds ih =>
    rw [List.forall_mem_cons] at hds
    have hd : d ≠ '_' := ne_underscore_of_isDigit hds.1
    rw [List.cons_append, digitRun, hds.1, if_pos rfl, ih hds.2]
    rintro c' rest' rfl
    exact absurd rfl hd

theorem digits?_append (hds : ∀ c ∈ ds, c.isDigit = true) (hne : ds ≠ []) (h : EndsDigits rest) :
    digits? Char.isDigit (ds ++ rest) = some (ds, rest) := by
  rw [digits?, digitRun_append hds h]
  cases ds with
  | nil => exact absurd rfl hne
  | cons d ds =>
    have hd : d ≠ '_' := ne_underscore_of_isDigit (List.forall_mem_cons.mp hds).1
    simp [hd]

theorem whole?_append (hw : IsWhole ds) (h : EndsDigits rest) : whole? (ds ++ rest) = some (ds, rest) := by
  by_cases hz : ds.head? = some '0'
  · rw [hw.zero hz]
    rfl
  · rw [whole?, digits?_append hw.digits hw.ne_nil h]
    rintro rest' he
    cases ds with
    | nil => exact hw.ne_nil rfl
    | cons d ds =>
      rw [List.cons_append, List.cons.injEq] at he
      exact hz (congrArg some he.1)

end

/-! The digits of a number are read as the double in whose interval it lies. -/

theorem ofDigitChars_dropWhile_zero (ds : List Char) :
    Nat.ofDigitChars 10 (ds.dropWhile (· == '0')) 0 = Nat.ofDigitChars 10 ds 0 := by
  induction ds with
  | nil => rfl
  | cons d ds ih =>
    rw [List.dropWhile_cons]
    split
    · rename_i hd
      obtain rfl := beq_iff_eq.mp hd
      rw [ih]
      rfl
    · rfl

theorem ofDigitChars_lt {ds : List Char} (h : ∀ c ∈ ds, c.isDigit = true) :
    Nat.ofDigitChars 10 ds 0 < 10 ^ ds.length := by
  induction ds with
  | nil => exact Nat.one_pos
  | cons d ds ih =>
    rw [List.forall_mem_cons] at h
    have hd : d.toNat - '0'.toNat ≤ 9 := by
      have := h.1
      simp only [Char.isDigit, Bool.and_eq_true, decide_eq_true_eq] at this
      have h9 : d.toNat ≤ 57 := this.2
      change d.toNat - 48 ≤ 9
      omega
    rw [Nat.ofDigitChars_cons, Nat.ofDigitChars_eq_ofDigitChars_zero, List.length_cons, pow_succ]
    have := ih h.2
    nlinarith

theorem pow_le_ofDigitChars {ds : List Char} (h : ∀ c ∈ ds, c.isDigit = true) (hz : ds.head? ≠ some '0')
    (hne : ds ≠ []) : 10 ^ (ds.length - 1) ≤ Nat.ofDigitChars 10 ds 0 := by
  cases ds with
  | nil => exact absurd rfl hne
  | cons d ds =>
    have hd : 1 ≤ d.toNat - '0'.toNat := by
      have := (List.forall_mem_cons.mp h).1
      simp only [Char.isDigit, Bool.and_eq_true, decide_eq_true_eq] at this
      have h0 : 48 ≤ d.toNat := this.1
      have hn : d.toNat ≠ 48 := fun he => hz (by
        rw [List.head?_cons, ← Char.ofNat_toNat d, he])
      change 1 ≤ d.toNat - 48
      omega
    rw [Nat.ofDigitChars_cons, Nat.ofDigitChars_eq_ofDigitChars_zero, List.length_cons, Nat.add_sub_cancel]
    exact (Nat.le_mul_of_pos_right _ (by omega)).trans (Nat.le_add_right ..)

/-- The digits from the first that is no zero on bound the number that they stand for. -/
theorem dropWhile_zero_bounds {ds : List Char} (hd : ∀ c ∈ ds, c.isDigit = true) (hn : Nat.ofDigitChars 10 ds 0 ≠ 0) :
    0 < (ds.dropWhile (· == '0')).length ∧
      10 ^ ((ds.dropWhile (· == '0')).length - 1) ≤ Nat.ofDigitChars 10 ds 0 ∧
      Nat.ofDigitChars 10 ds 0 < 10 ^ (ds.dropWhile (· == '0')).length := by
  have head : (ds.dropWhile (· == '0')).head? ≠ some '0' := fun h => by
    have := List.head?_dropWhile_not (· == '0') ds
    rw [h] at this
    simp at this
  have digits : ∀ c ∈ ds.dropWhile (· == '0'), c.isDigit = true := fun c hc =>
    hd c ((List.dropWhile_sublist _).subset hc)
  rw [← ofDigitChars_dropWhile_zero] at hn ⊢
  generalize ds.dropWhile (· == '0') = leading at *
  have hne : leading ≠ [] := by
    rintro rfl
    exact hn rfl
  exact ⟨List.length_pos_iff.mpr hne, pow_le_ofDigitChars digits head hne, ofDigitChars_lt digits⟩

/-- The digits of a number in the interval of a double are neither too many nor too few for a double. -/
theorem leading_bounds {places significand : Nat} {exponent : Int} {ds : List Char} (hp : Proper significand exponent)
    (hd : ∀ c ∈ ds, c.isDigit = true)
    (hq : (Interval.of significand exponent).Holds (Nat.ofDigitChars 10 ds 0 * 10 ^ (-places : Int))) :
    -324 < (-places : Int) + (ds.dropWhile (· == '0')).length ∧
      (-places : Int) + (ds.dropWhile (· == '0')).length ≤ 309 := by
  have low := two_zpow_le_of_holds hp hq
  have high := lt_two_zpow_of_holds hp hq
  have hn : Nat.ofDigitChars 10 ds 0 ≠ 0 := fun hz => by
    rw [hz, Nat.cast_zero, zero_mul] at low
    exact absurd low (not_le.mpr (by positivity))
  obtain ⟨hl, first, next⟩ := dropWhile_zero_bounds hd hn
  generalize (ds.dropWhile (· == '0')).length = count at *
  generalize Nat.ofDigitChars 10 ds 0 = n at *
  have first : ((10 : ℚ) ^ (count - 1 : Int)) ≤ n := by
    rw [← Nat.cast_pred hl, zpow_natCast]
    exact_mod_cast first
  have next : (n : ℚ) < 10 ^ (count : Int) := by exact_mod_cast next
  have ten : (0 : ℚ) < 10 ^ (-places : Int) := by positivity
  constructor
  · have : (10 : ℚ) ^ (-324 : Int) < 10 ^ (-places + count : Int) :=
      calc (10 : ℚ) ^ (-324 : Int) < 2 ^ (-1075 : Int) := by
            have : (2 : Nat) ^ 1075 < 10 ^ 324 := by decide +kernel
            rw [zpow_neg, zpow_neg]
            exact inv_strictAnti₀ (by positivity) (by exact_mod_cast this)
        _ ≤ n * 10 ^ (-places : Int) := low
        _ < 10 ^ (count : Int) * 10 ^ (-places : Int) := mul_lt_mul_of_pos_right next ten
        _ = 10 ^ (-places + count : Int) := by rw [← zpow_add₀ (by norm_num), add_comm]
    exact (zpow_lt_zpow_iff_right₀ (by norm_num)).mp this
  · have : (10 : ℚ) ^ (-places + count - 1 : Int) < 10 ^ (309 : Int) :=
      calc (10 : ℚ) ^ (-places + count - 1 : Int) = 10 ^ (count - 1 : Int) * 10 ^ (-places : Int) := by
            rw [← zpow_add₀ (by norm_num)]
            congr 1
            omega
        _ ≤ n * 10 ^ (-places : Int) := mul_le_mul_of_nonneg_right first ten.le
        _ < 2 ^ (1024 : Int) := high
        _ < 10 ^ (309 : Int) := by
            have : (2 : Nat) ^ 1024 < 10 ^ 309 := by decide +kernel
            exact_mod_cast this
    have := (zpow_lt_zpow_iff_right₀ (by norm_num)).mp this
    omega

section
variable {text whole fraction rest : List Char} {n places significand : Nat} {exponent : Int} {x : Float}

theorem Spelled.allDigits (hs : Spelled text n places whole fraction) : ∀ c ∈ whole ++ fraction, c.isDigit = true :=
  fun c hc => (List.mem_append.mp hc).elim (hs.isWhole.digits c) (hs.digits c)

theorem nearest_spelled (hs : Spelled text n places whole fraction) (hp : Proper significand exponent)
    (hq : (Interval.of significand exponent).Holds (n * 10 ^ (-places : Int))) :
    (nearest (whole ++ fraction) (-fraction.length)).toModel.unpack = .finite .positive significand exponent hp.pos := by
  have hn : 0 < n := by
    refine Nat.pos_of_ne_zero fun hz => ?_
    have low := two_zpow_le_of_holds hp hq
    rw [hz, Nat.cast_zero, zero_mul] at low
    exact absurd low (not_le.mpr (by positivity))
  obtain ⟨low, high⟩ := leading_bounds hp (Spelled.allDigits hs) (by rwa [hs.value])
  obtain ⟨k, rfl⟩ := Nat.exists_eq_succ_of_ne_zero hs.pos.ne'
  have he : (-fraction.length : Int) = .negSucc k := by rw [hs.length, Int.negSucc_eq]; rfl
  rw [nearest.eq_def, he, hs.value, if_neg hn.ne', if_neg, if_neg]
  · exact unpack_ofScientific hp hn hs.pos hq
  · rw [Int.negSucc_eq]
    push_cast at low high
    omega
  · rw [Int.negSucc_eq]
    push_cast at low high
    omega

theorem nearest_spelled_zero (hs : Spelled text 0 places whole fraction) (e : Int) :
    nearest (whole ++ fraction) e = 0.0 := by
  rw [nearest.eq_def, hs.value]
  rfl

/-- The shortest digits of a finite double are read as that double without its sign. -/
theorem ofFloat_nearest {negative : Bool} (hs : Spelled text n places whole fraction)
    (h : Binary.ofFloat x = .finite negative significand exponent)
    (hv : (n : ℚ) * 10 ^ (-places : Int) =
      (shortest significand exponent).digits * 10 ^ (shortest significand exponent).exponent) :
    Binary.ofFloat (nearest (whole ++ fraction) (-fraction.length)) = .finite false significand exponent := by
  obtain rfl | hpos := Nat.eq_zero_or_pos significand
  · obtain rfl : n = 0 := by
      rw [show shortest 0 exponent = ⟨0, 0⟩ from rfl, Nat.cast_zero, zero_mul, mul_eq_zero, Nat.cast_eq_zero] at hv
      exact hv.resolve_right (by positivity)
    rw [nearest_spelled_zero hs, Binary.exponent_of_zero h]
    rfl
  · have hp := Binary.proper_of_ofFloat h hpos
    rw [Binary.ofFloat_eq, nearest_spelled hs hp (by rw [hv]; exact contains_shortest hp)]
    rfl

theorem sign_whole {ds : List Char} (hw : IsWhole ds) (cs : List Char) : sign (ds ++ cs) = (false, ds ++ cs) := by
  obtain ⟨d, ds, rfl⟩ := List.exists_cons_of_ne_nil hw.ne_nil
  have hd : d.isDigit = true := hw.digits d (List.mem_cons_self ..)
  rw [List.cons_append, sign]
  · rintro _ h
    obtain rfl := (List.cons.inj h).1
    exact absurd hd (by decide)
  · rintro _ h
    obtain rfl := (List.cons.inj h).1
    exact absurd hd (by decide)

theorem decimal?_spelled (hs : Spelled text n places whole fraction) (negative : Bool)
    (hinf : (nearest (whole ++ fraction) (-fraction.length)).isInf = false) (rest : List Char) :
    decimal? ((if negative then ['-'] else []) ++ text ++ '\n' :: rest) =
      some (if negative then -nearest (whole ++ fraction) (-fraction.length)
        else nearest (whole ++ fraction) (-fraction.length), '\n' :: rest) := by
  have ends : ∀ {c cs}, c.isDigit = false → c ≠ '_' → EndsDigits (c :: cs) := by
    rintro c cs hc hu _ ⟨⟩
    exact ⟨hc, hu⟩
  have hsign : sign ((if negative then ['-'] else []) ++ text ++ '\n' :: rest) = (negative, text ++ '\n' :: rest) := by
    cases negative with
    | false =>
      rw [hs.text_eq, List.append_assoc, List.append_assoc]
      exact sign_whole hs.isWhole _
    | true => rfl
  have hwhole : whole? (text ++ '\n' :: rest) = some (whole, '.' :: (fraction ++ '\n' :: rest)) := by
    rw [hs.text_eq, List.append_assoc]
    exact whole?_append hs.isWhole (ends rfl (by decide))
  have hfraction : digits? Char.isDigit (fraction ++ '\n' :: rest) = some (fraction, '\n' :: rest) :=
    digits?_append hs.digits (List.ne_nil_of_length_pos (hs.length ▸ hs.pos)) (ends rfl (by decide))
  have hpower : power? ('\n' :: rest) = none := rfl
  rw [decimal?, hsign]
  simp [hwhole, hfraction, hpower, hinf]

end

/-! A number is no string, no date and no time of day. -/

section
variable {ds rest : List Char} {c sep : Char}

theorem string?_eq_none (hd : c ≠ '\x22') (hs : c ≠ '\x27') (cs : List Char) : string? (c :: cs) = none := by
  rw [string?]
  · rfl
  · exact fun _ h => hd (List.cons.inj h).1
  · exact fun _ h => hd (List.cons.inj h).1
  · exact fun _ h => hs (List.cons.inj h).1
  · exact fun _ h => hs (List.cons.inj h).1

theorem string?_whole (hw : IsWhole ds) (cs : List Char) : string? (ds ++ cs) = none := by
  obtain ⟨d, ds, rfl⟩ := List.exists_cons_of_ne_nil hw.ne_nil
  have hd : d.isDigit = true := hw.digits d (List.mem_cons_self ..)
  exact string?_eq_none (by rintro rfl; cases hd) (by rintro rfl; cases hd) _

/-- Digits that run on, or end at another character, are no part of a date or of a time. -/
theorem after?_fixedDigits? {count n : Nat} {cs : List Char} (hds : ∀ d ∈ ds, d.isDigit = true)
    (hc : c.isDigit = false) (hne : c ≠ sep) (hsep : sep.isDigit = false)
    (h : fixedDigits? count (ds ++ c :: rest) = some (n, cs)) : after? sep cs = none := by
  rw [fixedDigits?] at h
  split at h
  · rename_i hall
    obtain ⟨-, rfl⟩ := Prod.mk.inj (Option.some.inj h)
    have hl : count ≤ ds.length := by
      by_contra hl
      have hm : c ∈ (ds ++ c :: rest).take count := by
        obtain ⟨k, hk⟩ : ∃ k, count = ds.length + (k + 1) := ⟨count - ds.length - 1, by omega⟩
        rw [hk, List.take_length_add_append, List.take_succ_cons]
        simp
      rw [List.all_eq_true.mp hall.2 c hm] at hc
      cases hc
    rw [List.drop_append_of_le_length hl]
    cases hd : ds.drop count with
    | nil => exact if_neg hne
    | cons d ds' =>
      refine if_neg fun he => ?_
      have := hds d (List.mem_of_mem_drop (hd ▸ List.mem_cons_self ..))
      rw [he, hsep] at this
      cases this
  · cases h

theorem moment?_eq_none (hds : ∀ d ∈ ds, d.isDigit = true) (hc : c.isDigit = false) (hdash : c ≠ '-')
    (hcolon : c ≠ ':') : moment? (ds ++ c :: rest) = none := by
  have date : date? (ds ++ c :: rest) = none := by
    cases h : fixedDigits? 4 (ds ++ c :: rest) with
    | none => simp [date?, h]
    | some found => simp [date?, h, after?_fixedDigits? hds hc hdash rfl h]
  have time : time? (ds ++ c :: rest) = none := by
    cases h : fixedDigits? 2 (ds ++ c :: rest) with
    | none => simp [time?, hoursMinutes?, h]
    | some found => simp [time?, hoursMinutes?, h, after?_fixedDigits? hds hc hcolon rfl h]
  rw [moment?, date]
  exact time

theorem moment?_cons_eq_none (hc : c.isDigit = false) (cs : List Char) : moment? (c :: cs) = none := by
  have fixed : ∀ count, fixedDigits? (count + 1) (c :: cs) = none := fun count => by
    rw [fixedDigits?, List.take_succ_cons, List.all_cons, hc]
    exact if_neg fun h => absurd h.2 (by simp)
  simp [moment?, date?, time?, hoursMinutes?, fixed]

theorem scalar?_bool (value : Bool) (rest : List Char) :
    scalar? ((if value then "true" else "false").toList ++ '\n' :: rest) = some (.bool value, '\n' :: rest) := by
  cases value <;> rfl

theorem special?_whole (hw : IsWhole ds) (cs : List Char) : special? (ds ++ cs) = none := by
  rw [special?, sign_whole hw]
  obtain ⟨d, ds, rfl⟩ := List.exists_cons_of_ne_nil hw.ne_nil
  have hd : d.isDigit = true := hw.digits d (List.mem_cons_self ..)
  dsimp only
  split
  · rename_i h
    obtain rfl := (List.cons.inj h).1
    cases hd
  · rename_i h
    obtain rfl := (List.cons.inj h).1
    cases hd
  · rfl

theorem integer?_digitsOf {n : Nat} (hn : n < 2 ^ 63) (rest : List Char) :
    integer? (digitsOf n ++ '\n' :: rest) = some ((n : Int), '\n' :: rest) := by
  have hw := isWhole_digitsOf n
  have hv : Nat.ofDigitChars 10 (digitsOf n) 0 = n := Nat.ofDigitChars_ten_toDigits
  have range : -0x8000000000000000 ≤ (n : Int) ∧ (n : Int) < 0x8000000000000000 := by omega
  have second : ∀ {b : Char} {cs : List Char}, b.isDigit = false → b ≠ '\n' →
      digitsOf n ++ '\n' :: rest ≠ '0' :: b :: cs := by
    intro b cs hb hn he
    obtain ⟨d, ds, hd⟩ := List.exists_cons_of_ne_nil hw.ne_nil
    rw [hd] at he
    cases ds with
    | nil => exact hn (List.cons.inj (List.cons.inj he).2).1.symm
    | cons d' ds =>
      have := hw.digits d' (by simp [hd])
      rw [(List.cons.inj (List.cons.inj he).2).1, hb] at this
      cases this
  rw [integer?]
  · rw [sign_whole hw]
    refine Option.bind_eq_some_iff.mpr ⟨_, whole?_append hw (by rintro _ ⟨⟩; exact ⟨rfl, by decide⟩), ?_⟩
    dsimp only
    rw [hv, if_neg Bool.false_ne_true, pure_bind, if_pos range]
  · exact fun _ h => second rfl (by decide) h
  · exact fun _ h => second rfl (by decide) h
  · exact fun _ h => second rfl (by decide) h

theorem scalar?_integer {n : Nat} (hn : n < 2 ^ 63) (rest : List Char) :
    scalar? ((toString (n : Int)).toList ++ '\n' :: rest) = some (.integer n, '\n' :: rest) := by
  have hw := isWhole_digitsOf n
  have moment : moment? (digitsOf n ++ '\n' :: rest) = none :=
    moment?_eq_none hw.digits rfl (by decide) (by decide)
  have decimal : decimal? (digitsOf n ++ '\n' :: rest) = none := by
    have whole : whole? (digitsOf n ++ '\n' :: rest) = some (digitsOf n, '\n' :: rest) :=
      whole?_append hw (by rintro _ ⟨⟩; exact ⟨rfl, by decide⟩)
    have power : power? ('\n' :: rest) = none := rfl
    rw [decimal?, sign_whole hw]
    simp [whole, power]
  rw [toList_toString_natCast, scalar?.eq_def, string?_whole hw, moment, decimal, special?_whole hw,
    integer?_digitsOf hn]

theorem scalar?_finite {x : Float} {negative : Bool} {significand : Nat} {exponent : Int}
    (h : Binary.ofFloat x = .finite negative significand exponent) (rest : List Char) :
    scalar? ((numberStyle.write x).toList ++ '\n' :: rest) = some (.float x, '\n' :: rest) := by
  have plain : (numberStyle.write x).toList =
      (if negative then ['-'] else []) ++ (shortest significand exponent).pointText := by
    rw [NumberStyle.write, h]
    cases negative <;> simp [signText, Scaled.pointText, numberStyle]
  obtain ⟨n, places, whole, fraction, hs, hv⟩ := exists_spelled_shortest (Binary.proper_of_ofFloat h)
  have magnitude := ofFloat_nearest hs h hv
  have finite : (nearest (whole ++ fraction) (-fraction.length)).isInf = false :=
    Binary.isInf_of_ofFloat magnitude
  have value : (if negative then -nearest (whole ++ fraction) (-fraction.length)
      else nearest (whole ++ fraction) (-fraction.length)) = x := by
    cases negative with
    | false => exact Binary.ofFloat_injective (magnitude.trans h.symm)
    | true => exact Binary.ofFloat_injective ((Binary.ofFloat_neg magnitude).trans h.symm)
  have decimal := decimal?_spelled hs negative finite rest
  rw [value] at decimal
  have string : string? ((if negative then ['-'] else []) ++ (shortest significand exponent).pointText ++ '\n' :: rest) =
      none := by
    cases negative with
    | true => exact string?_eq_none (by decide) (by decide) _
    | false =>
      rw [hs.text_eq, List.append_assoc, List.append_assoc]
      exact string?_whole hs.isWhole _
  have moment : moment? ((if negative then ['-'] else []) ++ (shortest significand exponent).pointText ++ '\n' :: rest) =
      none := by
    cases negative with
    | true => exact moment?_cons_eq_none rfl _
    | false =>
      rw [hs.text_eq, List.append_assoc, List.append_assoc]
      exact moment?_eq_none hs.isWhole.digits rfl (by decide) (by decide)
  rw [plain, scalar?.eq_def, string, moment, decimal]

/-- A double is read back as itself, whole or not, infinite or not a number. -/
theorem scalar?_float (x : Float) (rest : List Char) :
    scalar? ((numberStyle.write x).toList ++ '\n' :: rest) = some (.float x, '\n' :: rest) := by
  cases h : Binary.ofFloat x with
  | finite negative significand exponent => exact scalar?_finite h rest
  | nan =>
    have hx : x = 0.0 / 0.0 := Binary.ofFloat_injective h
    rw [NumberStyle.write, h, hx]
    rfl
  | infinite negative =>
    have hx : x = if negative then -(1.0 / 0.0) else 1.0 / 0.0 :=
      Binary.ofFloat_injective (h.trans (by cases negative <;> rfl))
    rw [NumberStyle.write, h, hx]
    cases negative <;> rfl

end

end MotionControl.Toml
