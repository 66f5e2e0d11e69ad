import Mathlib
import MotionControl.Toml.Parser
import MotionControl.Toml.Printer

/-! Strings and names of TOML text. Whatever form a text takes, it is read back character by character: what its
form cannot hold is escaped, and of the quotes that could end it too early one is escaped or none is there. -/
namespace MotionControl.Toml
open Json (hexDigits hex?)

section
variable {lines : Bool} {c : Char} {cs rest : List Char}

theorem isTextChar_of_not_isControl (h : isControl c = false) (hn : c ≠ '\n') : isTextChar c = true := by
  simp only [isControl, Bool.or_eq_false_iff, Bool.and_eq_false_iff, decide_eq_false_iff_not, bne_eq_false_iff_eq,
    beq_eq_false_iff_ne] at h
  simp only [isTextChar, Bool.or_eq_true, beq_iff_eq, Bool.and_eq_true, decide_eq_true_eq, bne_iff_ne]
  obtain ⟨(h | h) | h, hd⟩ := h
  · exact .inr ⟨by omega, hd⟩
  · exact .inl h
  · exact absurd h hn

theorem escape?_code (h : isControl c = true) (rest : List Char) :
    escape? ('u' :: ((hexDigits 4 c.toNat).map Char.toUpper ++ rest)) = some (c, rest) := by
  have codes : ∀ n < 0x80, isControl (Char.ofNat n) = true →
      ((hexDigits 4 n).map Char.toUpper).length = 4 ∧ hex? ((hexDigits 4 n).map Char.toUpper) = some n ∧
        character? n = some (Char.ofNat n) := by decide +kernel
  have small : c.toNat < 0x80 := by
    simp only [isControl, Bool.or_eq_true, Bool.and_eq_true, decide_eq_true_eq, beq_iff_eq] at h
    obtain ⟨⟨h, -⟩, -⟩ | rfl := h
    · omega
    · decide
  obtain ⟨hl, hx, hc⟩ := codes c.toNat small (by rwa [Char.ofNat_toNat])
  rw [Char.ofNat_toNat] at hc
  obtain ⟨a, b, d, e, hd⟩ := List.length_eq_four.mp hl
  rw [hd] at hx ⊢
  simp [escape?, hx, hc]

/-- A character other than a quote is escaped by a backslash, or stands for itself. -/
theorem escape_cases (lines : Bool) (c : Char) :
    (∃ first tail, escape lines c = '\\' :: first :: tail ∧ isBlank first = false ∧ first ≠ '\n' ∧ first ≠ '\r' ∧
      ∀ rest, escape? (first :: (tail ++ rest)) = some (c, rest)) ∨
    escape lines c = [c] ∧ c ≠ '\\' ∧ (isTextChar c = true ∨ lines = true ∧ c = '\n') := by
  rw [escape.eq_def]
  split
  · exact .inl ⟨'b', [], rfl, rfl, by decide, by decide, fun _ => rfl⟩
  · exact .inl ⟨'t', [], rfl, rfl, by decide, by decide, fun _ => rfl⟩
  · cases lines with
    | true => exact .inr ⟨rfl, by decide, .inr ⟨rfl, rfl⟩⟩
    | false => exact .inl ⟨'n', [], rfl, rfl, by decide, by decide, fun _ => rfl⟩
  · exact .inl ⟨'f', [], rfl, rfl, by decide, by decide, fun _ => rfl⟩
  · exact .inl ⟨'r', [], rfl, rfl, by decide, by decide, fun _ => rfl⟩
  · exact .inl ⟨'\\', [], rfl, rfl, by decide, by decide, fun _ => rfl⟩
  · rename_i hn _ _ hb
    cases hc : isControl c with
    | true => exact .inl ⟨'u', _, rfl, rfl, by decide, by decide, escape?_code hc⟩
    | false => exact .inr ⟨rfl, hb, .inl (isTextChar_of_not_isControl hc hn)⟩

theorem escaped_cons (hq : c ≠ '\x22') (lines : Bool) (quotes run : Nat) :
    escaped lines quotes run (c :: cs) = escape lines c ++ escaped lines quotes 0 cs := by
  rw [escaped]
  exact fun h => hq h

theorem basic?_escaped {fuel : Nat} (hf : cs.length ≤ fuel) :
    basic? fuel (escaped false 1 0 cs ++ '\x22' :: rest) = some (cs, rest) := by
  induction cs generalizing fuel with
  | nil => cases fuel <;> rfl
  | cons c cs ih =>
    obtain ⟨fuel, rfl⟩ := Nat.exists_eq_add_one.mpr (Nat.lt_of_lt_of_le (Nat.succ_pos _) hf)
    have hr := ih (Nat.le_of_succ_le_succ hf)
    by_cases hq : c = '\x22'
    · subst hq
      simp [escaped, basic?, escape?, hr]
    · rw [escaped_cons hq, List.append_assoc]
      rcases escape_cases false c with ⟨first, tail, he, -, -, -, hread⟩ | ⟨he, hb, ht⟩
      · rw [he]
        simp [basic?, hread, hr]
      · rw [he, List.singleton_append, basic?, hr]
        · rw [if_pos (ht.resolve_right fun h => Bool.false_ne_true h.1)]
          rfl
        · exact fun h => hq h
        · exact fun h => hb h

theorem length_le_escaped (lines : Bool) (quotes run : Nat) : cs.length ≤ (escaped lines quotes run cs).length := by
  induction cs generalizing run with
  | nil => exact Nat.zero_le _
  | cons c cs ih =>
    by_cases hq : c = '\x22'
    · subst hq
      rw [escaped]
      split
      · exact Nat.succ_le_succ ((ih 0).trans (Nat.le_succ _))
      · exact Nat.succ_le_succ (ih (run + 1))
    · rw [escaped_cons hq, List.length_append, List.length_cons, Nat.add_comm]
      refine Nat.add_le_add ?_ (ih 0)
      rcases escape_cases lines c with ⟨first, tail, he, -⟩ | ⟨he, -⟩
      · rw [he]
        exact Nat.succ_le_succ (Nat.zero_le _)
      · rw [he]
        exact le_rfl

theorem literal?_append (h : ∀ c ∈ cs, isTextChar c = true ∧ c ≠ '\x27') :
    literal? (cs ++ '\x27' :: rest) = some (cs, rest) := by
  induction cs with
  | nil => rfl
  | cons c cs ih =>
    rw [List.forall_mem_cons] at h
    rw [List.cons_append, literal?, ih h.2, if_pos h.1.1]
    · rfl
    · exact fun he => h.1.2 he

end

/-! Runs of a quote. -/

/-- After `run` quotes in a row no run of them in the text is longer than `limit`. -/
def RunsWithin (quote : Char) (limit : Nat) : Nat → List Char → Prop
  | _, [] => True
  | run, c :: cs => if c = quote then run + 1 ≤ limit ∧ RunsWithin quote limit (run + 1) cs
    else RunsWithin quote limit 0 cs

section
variable {quote : Char} {limit run : Nat} {cs rest : List Char}

/-- The fold that finds the longest run, within a text. -/
theorem runsWithin_of_foldl (run longest : Nat)
    (h : (cs.foldl (fun (run, longest) c =>
      let run := if c == quote then run + 1 else 0
      (run, max run longest)) (run, longest)).2 ≤ limit) :
    longest ≤ limit ∧ RunsWithin quote limit run cs := by
  induction cs generalizing run longest with
  | nil => exact ⟨h, trivial⟩
  | cons c cs ih =>
    obtain ⟨hl, hr⟩ := ih _ _ h
    rw [RunsWithin]
    by_cases hc : c = quote
    · rw [if_pos hc]
      rw [beq_iff_eq.mpr hc] at hl hr
      exact ⟨(le_max_right ..).trans hl, (le_max_left ..).trans hl, hr⟩
    · rw [if_neg hc]
      rw [beq_eq_false_iff_ne.mpr hc] at hl hr
      exact ⟨(le_max_right ..).trans hl, hr⟩

theorem runsWithin_of_longestRun (h : longestRun quote cs ≤ limit) : RunsWithin quote limit 0 cs :=
  (runsWithin_of_foldl 0 0 h).2

theorem RunsWithin.not_mem (h : RunsWithin quote 0 run cs) : quote ∉ cs := by
  induction cs generalizing run with
  | nil => exact List.not_mem_nil
  | cons c cs ih =>
    rw [RunsWithin] at h
    split at h
    · exact absurd h.1 (Nat.not_succ_le_zero _)
    · rename_i hc
      exact List.not_mem_cons_of_ne_of_not_mem (Ne.symm hc) (ih h)

/-- The quotes at the start of a text either are all of it, or few enough. -/
theorem RunsWithin.leading (h : RunsWithin quote limit run cs) (hr : run ≤ limit) :
    (∃ m, run + m ≤ limit ∧ cs = List.replicate m quote) ∨
      ∀ rest, run + ((cs ++ rest).takeWhile (· == quote)).length ≤ limit := by
  induction cs generalizing run with
  | nil => exact .inl ⟨0, hr, rfl⟩
  | cons c cs ih =>
    rw [RunsWithin] at h
    split at h
    · rename_i hc
      subst hc
      rcases ih h.2 h.1 with ⟨m, hm, rfl⟩ | hl
      · exact .inl ⟨m + 1, by omega, List.replicate_succ.symm⟩
      · refine .inr fun rest => ?_
        have := hl rest
        simp only [List.cons_append, List.takeWhile_cons, beq_self_eq_true, if_true, List.length_cons]
        omega
    · rename_i hc
      refine .inr fun rest => ?_
      rw [List.cons_append, List.takeWhile_cons, if_neg (by simpa using hc)]
      exact hr

/-- The end of a text over several lines, whose last characters may be quotes. -/
theorem closing?_replicate {m : Nat} (hm : m ≤ 2) (hr : ∀ c ∈ rest.head?, c ≠ quote) :
    closing? quote (List.replicate m quote ++ (List.replicate 3 quote ++ rest)) = some (List.replicate m quote, rest) := by
  have stop : rest.takeWhile (· == quote) = [] := by
    cases rest with
    | nil => rfl
    | cons c rest => rw [List.takeWhile_cons, if_neg (by simpa using hr c rfl)]
  have count : ((List.replicate m quote ++ (List.replicate 3 quote ++ rest)).takeWhile (· == quote)).length = m + 3 := by
    rw [← List.append_assoc, ← List.replicate_add, List.takeWhile_append_of_pos (by simp), stop]
    simp
  rw [closing?, count, if_neg (by omega), Nat.add_sub_cancel, Nat.min_eq_left hm, ← List.append_assoc,
    ← List.replicate_add]
  dsimp only
  rw [List.drop_left' List.length_replicate]

theorem closing?_eq_none (h : (cs.takeWhile (· == quote)).length ≤ 2) : closing? quote cs = none :=
  if_pos (Nat.lt_succ_of_le h)

end

section
variable {run : Nat} {c : Char} {cs rest : List Char}

theorem lineBreak?_eq_none (hn : c ≠ '\n') (hr : c ≠ '\r') : lineBreak? (c :: cs) = none := by
  rw [lineBreak?]
  · exact fun _ h => hn (List.cons.inj h).1
  · exact fun _ h => hr (List.cons.inj h).1

/-- A character that a string over several lines holds as it is. -/
def IsPlain (c : Char) : Prop := isTextChar c = true ∨ c = '\n'

theorem IsPlain.ne_return (h : IsPlain c) : c ≠ '\r' := by
  rintro rfl
  rcases h with h | h <;> exact absurd h (by decide)

theorem isPlain_of_not_isControl (h : isControl c = false) : IsPlain c := by
  by_cases hn : c = '\n'
  · exact .inr hn
  · exact .inl (isTextChar_of_not_isControl h hn)

/-! One step of the two readers over several lines. -/

theorem literalLines?_end {fuel : Nat} {read : List Char × List Char} (h : closing? '\x27' cs = some read) :
    literalLines? (fuel + 1) cs = some read := by
  rw [literalLines?.eq_def]
  simp only [h]

theorem literalLines?_cons {fuel : Nat} (h : closing? '\x27' (c :: cs) = none) (hc : IsPlain c) :
    literalLines? (fuel + 1) (c :: cs) = (literalLines? fuel cs).map fun (text, rest) => (c :: text, rest) := by
  rw [literalLines?.eq_def]
  simp only [h]
  by_cases hn : c = '\n'
  · rw [hn]
    rfl
  · simp only [lineBreak?_eq_none hn hc.ne_return, if_pos (hc.resolve_right hn)]

theorem basicLines?_end {fuel : Nat} {read : List Char × List Char} (h : closing? '\x22' cs = some read) :
    basicLines? (fuel + 1) cs = some read := by
  rw [basicLines?.eq_def]
  simp only [h]

theorem basicLines?_cons {fuel : Nat} (h : closing? '\x22' (c :: cs) = none) (hc : IsPlain c) (hb : c ≠ '\\') :
    basicLines? (fuel + 1) (c :: cs) = (basicLines? fuel cs).map fun (text, rest) => (c :: text, rest) := by
  rw [basicLines?.eq_def]
  simp only [h]
  by_cases hn : c = '\n'
  · rw [hn]
    rfl
  · simp only [lineBreak?_eq_none hn hc.ne_return, if_pos (hc.resolve_right hn)]

theorem basicLines?_escape {fuel : Nat} {first : Char} {tail : List Char} (hb : isBlank first = false)
    (hn : first ≠ '\n') (hr : first ≠ '\r') (hread : escape? (first :: tail) = some (c, cs)) :
    basicLines? (fuel + 1) ('\\' :: first :: tail) =
      (basicLines? fuel cs).map fun (text, rest) => (c :: text, rest) := by
  have hc : closing? '\x22' ('\\' :: first :: tail) = none := closing?_eq_none (by simp)
  have hs : skipBlanks (first :: tail) = first :: tail := by
    rw [skipBlanks, List.dropWhile_cons, hb]
    rfl
  rw [basicLines?.eq_def]
  simp only [hc, lineBreak?_eq_none (show '\\' ≠ '\n' by decide) (show '\\' ≠ '\r' by decide), hs,
    lineBreak?_eq_none hn hr, hread]
  cases h : basicLines? fuel cs <;> simp [h]

/-- The quotes at the start of escaped text either are all of it, or no more than two with those before them. -/
theorem escaped_leading (lines : Bool) (hrun : run ≤ 2) :
    (∃ m, run + m ≤ 2 ∧ escaped lines 3 run cs = List.replicate m '\x22' ∧ cs = List.replicate m '\x22') ∨
      ∀ rest, run + ((escaped lines 3 run cs ++ rest).takeWhile (· == '\x22')).length ≤ 2 := by
  induction cs generalizing run with
  | nil => exact .inl ⟨0, hrun, rfl, rfl⟩
  | cons c cs ih =>
    by_cases hq : c = '\x22'
    · subst hq
      rw [escaped]
      split
      · exact .inr fun rest => hrun
      · rcases @ih (run + 1) (by omega) with ⟨m, hm, he, rfl⟩ | hl
        · exact .inl ⟨m + 1, by omega, by rw [he, List.replicate_succ], List.replicate_succ.symm⟩
        · refine .inr fun rest => ?_
          have := hl rest
          simp only [List.cons_append, List.takeWhile_cons, beq_self_eq_true, if_true, List.length_cons]
          omega
    · rw [escaped_cons hq]
      refine .inr fun rest => ?_
      rcases escape_cases lines c with ⟨first, tail, he, -⟩ | ⟨he, -⟩
      · rw [he]
        exact hrun
      · rw [he, List.singleton_append, List.cons_append, List.takeWhile_cons, if_neg (by simpa using hq)]
        exact hrun

theorem basicLines?_escaped {fuel : Nat} (hrun : run ≤ 2) (hf : cs.length < fuel) (hr : ∀ c ∈ rest.head?, c ≠ '\x22') :
    basicLines? fuel (escaped true 3 run cs ++ (List.replicate 3 '\x22' ++ rest)) = some (cs, rest) := by
  induction cs generalizing run fuel with
  | nil =>
    obtain ⟨fuel, rfl⟩ := Nat.exists_eq_add_one.mpr hf
    exact basicLines?_end (closing?_replicate (m := 0) (by decide) hr)
  | cons c cs ih =>
    obtain ⟨fuel, rfl⟩ := Nat.exists_eq_add_one.mpr (Nat.lt_of_le_of_lt (Nat.zero_le _) hf)
    have hf' : cs.length < fuel := Nat.lt_of_succ_lt_succ hf
    rcases @escaped_leading run (c :: cs) true hrun with ⟨m, hm, he, hcs⟩ | hl
    · rw [he, hcs]
      exact basicLines?_end (closing?_replicate (by omega) hr)
    · have open_ := closing?_eq_none ((Nat.le_add_left ..).trans (hl (List.replicate 3 '\x22' ++ rest)))
      by_cases hq : c = '\x22'
      · subst hq
        by_cases h3 : run + 1 = 3
        · rw [escaped, if_pos h3]
          have hread : escape? ('\x22' :: (escaped true 3 0 cs ++ (List.replicate 3 '\x22' ++ rest))) =
            some ('\x22', escaped true 3 0 cs ++ (List.replicate 3 '\x22' ++ rest)) := rfl
          rw [List.cons_append, List.cons_append, basicLines?_escape rfl (by decide) (by decide) hread,
            ih (Nat.zero_le _) hf']
          rfl
        · rw [escaped, if_neg h3] at open_ ⊢
          rw [List.cons_append] at open_ ⊢
          rw [basicLines?_cons open_ (.inl rfl) (by decide), ih (by omega) hf']
          rfl
      · rw [escaped_cons hq] at open_ ⊢
        rcases escape_cases true c with ⟨first, tail, he, hb, hn, hret, hread⟩ | ⟨he, hb, ht⟩
        · rw [he, List.append_assoc, List.cons_append, List.cons_append, basicLines?_escape hb hn hret (hread _),
            ih (Nat.zero_le _) hf']
          rfl
        · rw [he, List.append_assoc, List.singleton_append] at open_ ⊢
          rw [basicLines?_cons open_ (ht.imp_right And.right) hb, ih (Nat.zero_le _) hf']
          rfl

theorem literalLines?_append {fuel : Nat} (hrun : run ≤ 2) (hruns : RunsWithin '\x27' 2 run cs)
    (h : ∀ c ∈ cs, IsPlain c) (hf : cs.length < fuel) (hr : ∀ c ∈ rest.head?, c ≠ '\x27') :
    literalLines? fuel (cs ++ (List.replicate 3 '\x27' ++ rest)) = some (cs, rest) := by
  induction cs generalizing run fuel with
  | nil =>
    obtain ⟨fuel, rfl⟩ := Nat.exists_eq_add_one.mpr hf
    exact literalLines?_end (closing?_replicate (m := 0) (by decide) hr)
  | cons c cs ih =>
    obtain ⟨fuel, rfl⟩ := Nat.exists_eq_add_one.mpr (Nat.lt_of_le_of_lt (Nat.zero_le _) hf)
    rcases hruns.leading hrun with ⟨m, hm, hcs⟩ | hl
    · rw [hcs]
      exact literalLines?_end (closing?_replicate (by omega) hr)
    · rw [List.forall_mem_cons] at h
      have hstep : ∃ run' ≤ 2, RunsWithin '\x27' 2 run' cs := by
        rw [RunsWithin] at hruns
        split at hruns
        · exact ⟨_, hruns⟩
        · exact ⟨0, Nat.zero_le _, hruns⟩
      obtain ⟨run', hrun', hruns'⟩ := hstep
      have open_ := closing?_eq_none ((Nat.le_add_left ..).trans (hl (List.replicate 3 '\x27' ++ rest)))
      rw [List.cons_append] at open_ ⊢
      rw [literalLines?_cons open_ h.1, ih hrun' hruns' h.2 (Nat.lt_of_succ_lt_succ hf)]
      rfl

/-! A whole string at the end of its line, in each of its forms. -/

theorem read_quoted (cs rest : List Char) :
    basic? (escaped false 1 0 cs ++ '\x22' :: rest).length (escaped false 1 0 cs ++ '\x22' :: rest) =
      some (cs, rest) := by
  refine basic?_escaped ?_
  rw [List.length_append]
  exact (length_le_escaped false 1 0).trans (Nat.le_add_right ..)

/-- Escaped text starts with a backslash or with a character of the text that needs no escape. -/
theorem exists_escaped_cons (lines : Bool) (quotes : Nat) (c : Char) (cs : List Char) :
    ∃ d t, escaped lines quotes 0 (c :: cs) = d :: t ∧
      (d = '\\' ∨ d = c ∧ (c = '\x22' → quotes ≠ 1) ∧ c ≠ '\r') := by
  by_cases hq : c = '\x22'
  · subst hq
    rw [escaped]
    split
    · exact ⟨_, _, rfl, .inl rfl⟩
    · rename_i h1
      exact ⟨_, _, rfl, .inr ⟨rfl, fun _ h => h1 h.symm, by decide⟩⟩
  · rw [escaped_cons hq]
    rcases escape_cases lines c with ⟨first, tail, he, -⟩ | ⟨he, -, ht⟩
    · exact ⟨_, _, by rw [he]; rfl, .inl rfl⟩
    · exact ⟨c, _, by rw [he]; rfl, .inr ⟨rfl, fun h => absurd h hq, IsPlain.ne_return (ht.imp_right And.right)⟩⟩

theorem string?_quoted (cs rest : List Char) :
    string? (quoted cs ++ '\n' :: rest) = some (String.ofList cs, '\n' :: rest) := by
  have text : quoted cs ++ '\n' :: rest = '\x22' :: (escaped false 1 0 cs ++ '\x22' :: '\n' :: rest) := by
    simp [quoted]
  have single : ∀ r, escaped false 1 0 cs ++ '\x22' :: '\n' :: rest ≠ '\x22' :: '\x22' :: r := by
    intro r h
    cases cs with
    | nil => exact absurd (List.cons.inj (List.cons.inj h).2).1 (by decide)
    | cons c cs =>
      obtain ⟨d, t, he, hd⟩ := exists_escaped_cons false 1 c cs
      rw [he] at h
      obtain rfl := (List.cons.inj h).1
      rcases hd with hd | ⟨rfl, hq, -⟩
      · exact absurd hd (by decide)
      · exact hq rfl rfl
  rw [text, string?]
  · rw [read_quoted]
    rfl
  · exact single

theorem string?_literalText (h : ∀ c ∈ cs, isTextChar c = true ∧ c ≠ '\x27') (rest : List Char) :
    string? (literalText cs ++ '\n' :: rest) = some (String.ofList cs, '\n' :: rest) := by
  have text : literalText cs ++ '\n' :: rest = '\x27' :: (cs ++ '\x27' :: '\n' :: rest) := by simp [literalText]
  rw [text, string?]
  · rw [literal?_append h]
    rfl
  · intro r he
    cases cs with
    | nil => exact absurd (List.cons.inj (List.cons.inj he).2).1 (by decide)
    | cons c cs => exact (h c (List.mem_cons_self ..)).2 (List.cons.inj he).1

/-- The line break after the opening quotes is passed over, and there is one if the text could start with one. -/
theorem skipBreak_overLines {quote : Char} {body : List Char} (hq : quote ≠ '\n' ∧ quote ≠ '\r')
    (hb : '\n' ∉ cs → ∀ c ∈ body.head?, c ≠ '\n' ∧ c ≠ '\r') (rest : List Char) :
    skipBreak ((if cs.contains '\n' then ['\n'] else []) ++ (body ++ (List.replicate 3 quote ++ rest))) =
      body ++ (List.replicate 3 quote ++ rest) := by
  by_cases hn : '\n' ∈ cs
  · rw [List.contains_iff_mem.mpr hn]
    rfl
  · have hl : lineBreak? (body ++ (List.replicate 3 quote ++ rest)) = none := by
      cases body with
      | nil => exact lineBreak?_eq_none hq.1 hq.2
      | cons c body =>
        obtain ⟨h1, h2⟩ := hb hn c rfl
        exact lineBreak?_eq_none h1 h2
    rw [if_neg (by simpa using hn), List.nil_append, skipBreak, hl]
    rfl

theorem string?_basicLines (cs rest : List Char) :
    string? (overLines '\x22' cs (escaped true 3 0 cs) ++ '\n' :: rest) = some (String.ofList cs, '\n' :: rest) := by
  have text : overLines '\x22' cs (escaped true 3 0 cs) ++ '\n' :: rest = '\x22' :: '\x22' :: '\x22' ::
      ((if cs.contains '\n' then ['\n'] else []) ++
        (escaped true 3 0 cs ++ (List.replicate 3 '\x22' ++ '\n' :: rest))) := by
    simp only [overLines, List.append_assoc]
    rfl
  have head : '\n' ∉ cs → ∀ c ∈ (escaped true 3 0 cs).head?, c ≠ '\n' ∧ c ≠ '\r' := by
    intro hn c hc
    cases cs with
    | nil => cases hc
    | cons c' cs =>
      obtain ⟨d, t, he, hd⟩ := exists_escaped_cons true 3 c' cs
      rw [he] at hc
      obtain rfl := Option.some.inj hc
      rcases hd with rfl | ⟨rfl, -, hr⟩
      · exact ⟨by decide, by decide⟩
      · exact ⟨fun h => hn (h ▸ List.mem_cons_self ..), hr⟩
  rw [text, string?, skipBreak_overLines ⟨by decide, by decide⟩ head, basicLines?_escaped (Nat.zero_le _)]
  · rfl
  · have := @length_le_escaped cs true 3 0
    simp only [List.length_append]
    omega
  · rintro c ⟨⟩
    decide

theorem string?_literalLines (h : ∀ c ∈ cs, IsPlain c) (hruns : RunsWithin '\x27' 2 0 cs) (rest : List Char) :
    string? (overLines '\x27' cs cs ++ '\n' :: rest) = some (String.ofList cs, '\n' :: rest) := by
  have text : overLines '\x27' cs cs ++ '\n' :: rest = '\x27' :: '\x27' :: '\x27' ::
      ((if cs.contains '\n' then ['\n'] else []) ++ (cs ++ (List.replicate 3 '\x27' ++ '\n' :: rest))) := by
    simp only [overLines, List.append_assoc]
    rfl
  have head : '\n' ∉ cs → ∀ c ∈ cs.head?, c ≠ '\n' ∧ c ≠ '\r' := by
    intro hn c hc
    have hm := List.mem_of_mem_head? hc
    exact ⟨fun he => hn (he ▸ hm), (h c hm).ne_return⟩
  rw [text, string?, skipBreak_overLines ⟨by decide, by decide⟩ head, literalLines?_append (Nat.zero_le _) hruns h]
  · rfl
  · simp only [List.length_append]
    omega
  · rintro c ⟨⟩
    decide

theorem isTextChar_of_literal (hc : ∀ c ∈ cs, isControl c = false) (hn : '\n' ∉ cs) (h : longestRun '\x27' cs = 0) :
    ∀ c ∈ cs, isTextChar c = true ∧ c ≠ '\x27' := by
  have quotes := (runsWithin_of_longestRun h.le).not_mem
  exact fun c hm => ⟨isTextChar_of_not_isControl (hc c hm) fun he => hn (he ▸ hm), fun he => quotes (he ▸ hm)⟩

/-- A string is read back, in whichever form it is written. -/
theorem string?_stringText (cs rest : List Char) :
    string? (stringText cs ++ '\n' :: rest) = some (String.ofList cs, '\n' :: rest) := by
  rw [stringText]
  split
  · exact string?_quoted cs rest
  · split
    · rename_i h
      simp only [Bool.and_eq_true, Bool.not_eq_true', List.any_eq_false, decide_eq_true_eq] at h
      obtain ⟨⟨hc, hs⟩, hn⟩ := h
      exact string?_literalText (isTextChar_of_literal (by simpa using hc) (by simpa using hn) hs) rest
    · split
      · exact string?_basicLines cs rest
      · split
        · rename_i h
          simp only [Bool.and_eq_true, Bool.not_eq_true', List.any_eq_false, decide_eq_true_eq] at h
          exact string?_literalLines (fun c hm => isPlain_of_not_isControl (by simpa using h.1 c hm))
            (runsWithin_of_longestRun h.2) rest
        · split
          · exact string?_basicLines cs rest
          · exact string?_quoted cs rest

/-- A name is read back where it ends, in whichever form it is written. -/
theorem name?_nameText (hr : ∀ c ∈ rest.head?, isBareChar c = false) :
    name? (nameText cs ++ rest) = some (String.ofList cs, rest) := by
  have quotedForm : name? (quoted cs ++ rest) = some (String.ofList cs, rest) := by
    have text : quoted cs ++ rest = '\x22' :: (escaped false 1 0 cs ++ '\x22' :: rest) := by simp [quoted]
    rw [text, name?, read_quoted]
    rfl
  rw [nameText]
  split
  · rename_i h
    simp only [Bool.and_eq_true, Bool.not_eq_true', List.isEmpty_eq_false_iff, List.all_eq_true] at h
    obtain ⟨hne, hbare⟩ := h
    obtain ⟨c, cs, rfl⟩ := List.exists_cons_of_ne_nil hne
    have hc := hbare c (List.mem_cons_self ..)
    have stop : rest.takeWhile isBareChar = [] ∧ rest.dropWhile isBareChar = rest := by
      cases rest with
      | nil => exact ⟨rfl, rfl⟩
      | cons d rest => simp [hr d rfl]
    rw [name?.eq_3]
    · rw [List.takeWhile_append_of_pos hbare, List.dropWhile_append_of_pos hbare, stop.1, stop.2, List.append_nil]
    · intro r h
      rw [(List.cons.inj h).1] at hc
      exact absurd hc (by decide)
    · intro r h
      rw [(List.cons.inj h).1] at hc
      exact absurd hc (by decide)
  · split
    · exact quotedForm
    · split
      · rename_i h
        simp only [Bool.and_eq_true, Bool.not_eq_true', List.any_eq_false, decide_eq_true_eq, Bool.or_eq_true,
          not_or, beq_iff_eq] at h
        have plain := isTextChar_of_literal (fun c hm => by simpa using (h.1 c hm).1) (fun hm => (h.1 _ hm).2 rfl) h.2
        have text : literalText cs ++ rest = '\x27' :: (cs ++ '\x27' :: rest) := by simp [literalText]
        rw [text, name?, literal?_append plain]
        rfl
      · exact quotedForm

end

end MotionControl.Toml
