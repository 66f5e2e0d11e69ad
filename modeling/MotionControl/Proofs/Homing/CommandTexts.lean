import Mathlib
import MotionControl.Homing.Command
import MotionControl.Proofs.Axes.Masks

/-! The texts of homing commands. White space at its ends apart, a command is empty, lists digits or lists axis
letters, and the text of a mask lists the letters of its axes. -/
namespace MotionControl

/-- The text between the white space at the ends of another one. -/
structure Trims (cs text : List Char) : Prop where
  surrounded : ∃ before after, cs = before ++ text ++ after ∧
    (∀ c ∈ before, isWhitespace c = true) ∧ ∀ c ∈ after, isWhitespace c = true
  first : ∀ c ∈ text.head?, isWhitespace c = false
  last : ∀ c ∈ text.getLast?, isWhitespace c = false

/-- A character is the letter of an axis, in upper or lower case. -/
def NamesAxis (c : Char) (axis : Nat) : Prop :=
  axis < maxAxes ∧ (c = axisName axis ∨ c = (axisName axis).toLower)

namespace HomingCommand

/-- The texts of a command, without white space at the ends. -/
inductive Written : List Char → HomingCommand → Prop where
  | all : Written [] .all
  | cycles {numbers : List Nat} (nonempty : numbers ≠ []) (digits : ∀ number ∈ numbers, number < 10) :
      Written (numbers.map Nat.digitChar) (.cycles numbers)
  | axes {letters : List Char} {mask : AxisMask} (nonempty : letters ≠ [])
      (named : ∀ c ∈ letters, ∃ axis, NamesAxis c axis)
      (contains : ∀ axis, mask.contains axis = true ↔ ∃ c ∈ letters, NamesAxis c axis) :
      Written letters (.axes mask)

end HomingCommand

section Trimming
variable {cs text : List Char}

private theorem dropWhile_eq_self {p : Char → Bool} (h : ∀ c ∈ cs.head?, p c = false) : cs.dropWhile p = cs := by
  cases cs with
  | nil => rfl
  | cons c cs => rw [List.dropWhile_cons, h c rfl, if_neg Bool.false_ne_true]

private theorem head?_dropWhile (cs : List Char) {p : Char → Bool} {c : Char} (h : c ∈ (cs.dropWhile p).head?) :
    p c = false := by
  have hd := List.head?_dropWhile_not p cs
  rw [Option.mem_def.mp h] at hd
  exact hd

theorem trims_trimmed (cs : List Char) : Trims cs (trimmed cs) := by
  have hback : trimmed cs ++ ((cs.dropWhile isWhitespace).reverse.takeWhile isWhitespace).reverse =
      cs.dropWhile isWhitespace := by
    rw [trimmed, ← List.reverse_append, List.takeWhile_append_dropWhile, List.reverse_reverse]
  have hall : cs.takeWhile isWhitespace ++ (trimmed cs ++
      ((cs.dropWhile isWhitespace).reverse.takeWhile isWhitespace).reverse) = cs := by
    rw [hback, List.takeWhile_append_dropWhile]
  refine ⟨⟨_, _, hall.symm.trans (List.append_assoc ..).symm, ?_, ?_⟩, fun c hc => ?_, fun c hc => ?_⟩
  · exact List.all_eq_true.mp List.all_takeWhile
  · simp only [List.mem_reverse]
    exact List.all_eq_true.mp List.all_takeWhile
  · refine head?_dropWhile cs ?_
    rw [← hback, List.head?_append, Option.mem_def.mp hc]
    rfl
  · rw [trimmed, List.getLast?_reverse] at hc
    exact head?_dropWhile _ hc

/-- Only one text is between the white space at the ends of another one. -/
theorem Trims.trimmed_eq (h : Trims cs text) : trimmed cs = text := by
  obtain ⟨before, after, rfl, hbefore, hafter⟩ := h.surrounded
  have hback : (text ++ after).reverse.dropWhile isWhitespace = text.reverse := by
    have hlast : ∀ c ∈ text.reverse.head?, isWhitespace c = false := by
      rw [List.head?_reverse]
      exact h.last
    rw [List.reverse_append, List.dropWhile_append_of_pos (by simpa using hafter), dropWhile_eq_self hlast]
  rw [trimmed, List.append_assoc, List.dropWhile_append_of_pos hbefore]
  cases text with
  | nil =>
    have hnil : (after ++ []).dropWhile isWhitespace = [].dropWhile isWhitespace :=
      List.dropWhile_append_of_pos hafter
    rw [List.append_nil] at hnil
    rw [List.nil_append, hnil]
    rfl
  | cons c rest =>
    have hself : (c :: rest ++ after).dropWhile isWhitespace = c :: rest ++ after := dropWhile_eq_self h.first
    rw [hself, hback, List.reverse_reverse]

theorem Trims.of_none (h : ∀ c ∈ cs, isWhitespace c = false) : Trims cs cs :=
  ⟨⟨[], [], by simp, nofun, nofun⟩, fun c hc => h c (List.mem_of_head? hc), fun c hc => h c (List.mem_of_getLast? hc)⟩

end Trimming

section Letters
variable {c : Char} {axis : Nat} {letters : List Char} {mask : AxisMask}

/-- A letter that changes in upper case is found again in lower case. -/
private theorem eq_or_eq_toLower_toUpper (c : Char) : c = c.toUpper ∨ c = c.toUpper.toLower := by
  rw [Char.toLower_toUpper_eq_toLower]
  by_cases hl : c.isLower = true
  · have hu : ¬ c.isUpper = true := Char.not_isUpper_of_isLower hl
    exact .inr (Char.toLower_eq_of_not_isUpper hu).symm
  · exact .inl (Char.toUpper_eq_of_not_isLower hl).symm

theorem findIdx?_toUpper_eq_some : axisNames.findIdx? (· == c.toUpper) = some axis ↔ NamesAxis c axis := by
  constructor
  · intro h
    obtain ⟨hl, hc, -⟩ := List.findIdx?_eq_some_iff_getElem.mp h
    have hu : c.toUpper = axisName axis := by
      rw [axisName, List.getD_eq_getElem?_getD, List.getElem?_eq_getElem hl]
      exact (beq_iff_eq.mp hc).symm
    refine ⟨hl, ?_⟩
    rw [← hu]
    exact eq_or_eq_toLower_toUpper c
  · rintro ⟨hl, rfl | rfl⟩
    · revert axis
      decide
    · revert axis
      decide

theorem NamesAxis.letter (h : NamesAxis c axis) : c.isDigit = false ∧ isWhitespace c = false := by
  obtain ⟨hl, rfl | rfl⟩ := h
  · revert axis
    decide
  · revert axis
    decide

theorem NamesAxis.unique {other : Nat} (h : NamesAxis c axis) (h' : NamesAxis c other) : axis = other := by
  rw [← findIdx?_toUpper_eq_some] at h h'
  exact Option.some.inj (h.symm.trans h')

namespace AxisMask

theorem ofLetters_cons (h : NamesAxis c axis) (letters : List Char) :
    ofLetters (c :: letters) = (ofLetters letters).map (single axis ||| ·) := by
  rw [ofLetters, findIdx?_toUpper_eq_some.mpr h]
  rfl

theorem named_of_ofLetters (h : ofLetters letters = some mask) : ∀ c ∈ letters, ∃ axis, NamesAxis c axis := by
  induction letters generalizing mask with
  | nil => nofun
  | cons c letters ih =>
    rw [ofLetters] at h
    split at h
    · rename_i axis hf
      obtain ⟨rest, hr, -⟩ := Option.map_eq_some_iff.mp h
      exact List.forall_mem_cons.mpr ⟨⟨axis, findIdx?_toUpper_eq_some.mp hf⟩, ih hr⟩
    · cases h

/-- Letters of axes are read as the mask of these axes, whatever their order and number. -/
theorem exists_ofLetters (h : ∀ c ∈ letters, ∃ axis, NamesAxis c axis) : ∃ mask,
    ofLetters letters = some mask ∧ ∀ axis, mask.contains axis = true ↔ ∃ c ∈ letters, NamesAxis c axis := by
  induction letters with
  | nil => exact ⟨none, rfl, by simp⟩
  | cons c letters ih =>
    obtain ⟨⟨axis, ha⟩, hrest⟩ := List.forall_mem_cons.mp h
    obtain ⟨rest, hr, hc⟩ := ih hrest
    refine ⟨single axis ||| rest, by rw [ofLetters_cons ha, hr]; rfl, fun other => ?_⟩
    have hl : axis < 6 := ha.1
    have hother : NamesAxis c other ↔ other = axis := ⟨fun ho => ho.unique ha, fun he => he ▸ ha⟩
    simp only [contains_or, contains_single, Bool.or_eq_true, decide_eq_true_eq, hc, List.mem_cons,
      exists_eq_or_imp, hother]
    refine or_congr_left (and_iff_left_of_imp ?_)
    omega

theorem ofLetters_eq_some : ofLetters letters = some mask ↔ (∀ c ∈ letters, ∃ axis, NamesAxis c axis) ∧
    ∀ axis, mask.contains axis = true ↔ ∃ c ∈ letters, NamesAxis c axis := by
  constructor
  · intro h
    have hnamed := named_of_ofLetters h
    obtain ⟨mask', hr, hc⟩ := exists_ofLetters hnamed
    obtain rfl : mask = mask' := Option.some.inj (h.symm.trans hr)
    exact ⟨hnamed, hc⟩
  · rintro ⟨hnamed, hmask⟩
    obtain ⟨mask', hr, hc⟩ := exists_ofLetters hnamed
    rw [hr, ext_contains fun axis => Bool.eq_iff_iff.mpr ((hc axis).trans (hmask axis).symm)]

end AxisMask

end Letters

section Digits
variable {c : Char}

theorem digitChar_of_isDigit (h : c.isDigit = true) :
    c.toNat - '0'.toNat < 10 ∧ (c.toNat - '0'.toNat).digitChar = c := by
  simp only [Char.isDigit, Bool.and_eq_true, decide_eq_true_eq, ge_iff_le, UInt32.le_iff_toNat_le] at h
  change 48 ≤ c.toNat ∧ c.toNat ≤ 57 at h
  have hl : c.toNat - '0'.toNat < 10 := by
    change c.toNat - 48 < 10
    omega
  refine ⟨hl, Char.toNat_inj.mp ?_⟩
  rw [Nat.toNat_digitChar_of_lt_ten hl]
  change 48 + (c.toNat - 48) = c.toNat
  omega

theorem map_digitChar_of_isDigit {text : List Char} (h : text.all Char.isDigit = true) :
    (text.map fun c => c.toNat - '0'.toNat).map Nat.digitChar = text := by
  rw [List.map_map]
  exact (List.map_congr_left fun c hc => (digitChar_of_isDigit (List.all_eq_true.mp h c hc)).2).trans
    (List.map_id text)

theorem map_toNat_digitChar {numbers : List Nat} (h : ∀ number ∈ numbers, number < 10) :
    (numbers.map Nat.digitChar).map (fun c => c.toNat - '0'.toNat) = numbers := by
  have hdigit : ∀ number ∈ numbers, number.digitChar.toNat - '0'.toNat = number := by
    intro number hn
    rw [Nat.toNat_digitChar_of_lt_ten (h number hn)]
    exact Nat.add_sub_cancel_left 48 number
  rw [List.map_map]
  exact (List.map_congr_left hdigit).trans (List.map_id numbers)

end Digits

namespace HomingCommand
variable {request : String} {command : HomingCommand} {text : List Char} {mask : AxisMask}

theorem parse_of_trimmed (h : trimmed request.toList = text) (hn : text ≠ []) :
    parse request = if text.all Char.isDigit then .ok (.cycles (text.map fun c => c.toNat - '0'.toNat))
      else match AxisMask.ofLetters text with
        | some mask => .ok (.axes mask)
        | none => .error (.invalidRequest request) := by
  rw [parse, h]
  cases text with
  | nil => contradiction
  | cons c text => rfl

theorem parse_eq_ok : parse request = .ok command ↔ Written (trimmed request.toList) command := by
  generalize ht : trimmed request.toList = text
  constructor
  · intro h
    by_cases hn : text = []
    · rw [parse, ht, hn] at h
      cases h
      rw [hn]
      exact .all
    · rw [parse_of_trimmed ht hn] at h
      split at h
      · rename_i hd
        cases h
        have hdigits : ∀ number ∈ text.map fun c => c.toNat - '0'.toNat, number < 10 := by
          simp only [List.forall_mem_map]
          exact fun c hc => (digitChar_of_isDigit (List.all_eq_true.mp hd c hc)).1
        have hw := Written.cycles (by simpa using hn) hdigits
        rwa [map_digitChar_of_isDigit hd] at hw
      · split at h
        · rename_i mask hm
          cases h
          obtain ⟨hnamed, hc⟩ := AxisMask.ofLetters_eq_some.mp hm
          exact .axes hn hnamed hc
        · cases h
  · intro h
    cases h with
    | all => rw [parse, ht]
    | @cycles numbers nonempty digits =>
      have hd : (numbers.map Nat.digitChar).all Char.isDigit = true := by
        simpa [Nat.isDigit_digitChar] using digits
      rw [parse_of_trimmed ht (by simpa using nonempty), if_pos hd, map_toNat_digitChar digits]
    | axes nonempty named contains =>
      have hd : ¬ text.all Char.isDigit = true := by
        obtain ⟨c, hc⟩ := List.exists_mem_of_ne_nil text nonempty
        obtain ⟨axis, ha⟩ := named c hc
        intro hall
        exact Bool.false_ne_true (ha.letter.1.symm.trans (List.all_eq_true.mp hall c hc))
      rw [parse_of_trimmed ht nonempty, if_neg hd, AxisMask.ofLetters_eq_some.mpr ⟨named, contains⟩]

theorem eq_invalidRequest_of_parse {e : HomingError} (h : parse request = .error e) : e = .invalidRequest request := by
  by_cases hn : trimmed request.toList = []
  · rw [parse, hn] at h
    cases h
  · rw [parse_of_trimmed rfl hn] at h
    split at h
    · cases h
    · split at h
      · cases h
      · exact (Except.error.inj h).symm

theorem parse_eq_error {e : HomingError} : parse request = .error e ↔
    (¬ ∃ command, Written (trimmed request.toList) command) ∧ e = .invalidRequest request := by
  constructor
  · intro h
    refine ⟨?_, eq_invalidRequest_of_parse h⟩
    rintro ⟨command, hw⟩
    rw [parse_eq_ok.mpr hw] at h
    cases h
  · rintro ⟨hn, rfl⟩
    cases h : parse request with
    | ok command => exact absurd ⟨command, parse_eq_ok.mp h⟩ hn
    | error e => rw [eq_invalidRequest_of_parse h]

theorem namesAxis_of_mem {axis : Nat} (h : axis ∈ mask.toList) : NamesAxis (axisName axis) axis :=
  ⟨((AxisMask.mem_toList ..).mp h).1, .inl rfl⟩

/-- The letters of the axes of a mask name just these axes. -/
theorem written_letters (hn : mask.isEmpty = false) (hl : ∀ axis, mask.contains axis = true → axis < maxAxes) :
    Written (mask.toList.map axisName) (.axes mask) := by
  refine .axes ?_ ?_ fun axis => ?_
  · obtain ⟨axis, ha⟩ := (AxisMask.isEmpty_eq_false_iff _).mp hn
    exact List.ne_nil_of_mem (List.mem_map_of_mem ((AxisMask.mem_toList ..).mpr ⟨hl axis ha, ha⟩))
  · simp only [List.forall_mem_map]
    exact fun axis ha => ⟨axis, namesAxis_of_mem ha⟩
  · constructor
    · intro ha
      have hm : axis ∈ mask.toList := (AxisMask.mem_toList ..).mpr ⟨hl axis ha, ha⟩
      exact ⟨_, List.mem_map_of_mem hm, namesAxis_of_mem hm⟩
    · rintro ⟨_, hc, ha⟩
      obtain ⟨axis', hm, rfl⟩ := List.mem_map.mp hc
      obtain rfl : axis = axis' := ha.unique (namesAxis_of_mem hm)
      exact ((AxisMask.mem_toList ..).mp hm).2

/-- The text of a mask of machine axes is a command for these axes. -/
theorem parse_text (hn : mask.isEmpty = false) (hl : ∀ axis, mask.contains axis = true → axis < maxAxes) :
    parse mask.text = .ok (.axes mask) := by
  have ht : mask.text.toList = mask.toList.map axisName := by
    rw [AxisMask.text, hn, if_neg Bool.false_ne_true, String.toList_ofList]
  have hletters : ∀ c ∈ mask.toList.map axisName, isWhitespace c = false := by
    simp only [List.forall_mem_map]
    exact fun axis ha => (namesAxis_of_mem ha).letter.2
  rw [parse_eq_ok, ht, Trims.trimmed_eq (.of_none hletters)]
  exact written_letters hn hl

/-- What a command stands for is decided by its text without the white space at its ends: an empty text is the
command for all cycles, digits are the numbers of cycles, letters of axes in either case are a mask of these axes.
Any other command is refused as it was given. The text of a mask of machine axes is a command for these axes. -/
theorem parse_written :
    (∀ request : String, ∃ text, Trims request.toList text ∧
      (∀ command, parse request = .ok command ↔ Written text command) ∧
      ∀ e, parse request = .error e ↔ (¬ ∃ command, Written text command) ∧ e = .invalidRequest request) ∧
    ∀ mask : AxisMask, mask.isEmpty = false → (∀ axis, mask.contains axis = true → axis < maxAxes) →
      parse mask.text = .ok (.axes mask) :=
  ⟨fun request => ⟨_, trims_trimmed request.toList, fun _ => parse_eq_ok, fun _ => parse_eq_error⟩,
    fun _ => parse_text⟩

/-- The letters of X and Z are a command for these axes, and so are the same letters out of order, twice and in
both cases, after a line feed. -/
theorem parse_letters : parse (AxisMask.text ⟨0b101⟩) = .ok (.axes ⟨0b101⟩) ∧ AxisMask.text ⟨0b101⟩ = "XZ" ∧
    parse "\nzxZ " = .ok (.axes ⟨0b101⟩) := by
  have hl : ∀ axis < 32, AxisMask.contains ⟨0b101⟩ axis = true → axis < maxAxes := by decide
  refine ⟨parse_written.2 _ rfl fun axis ha => hl axis (AxisMask.lt_of_contains ha) ha, ?_, ?_⟩
  · rfl
  · rfl

end HomingCommand

end MotionControl
