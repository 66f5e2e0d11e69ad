import Mathlib
import MotionControl.Json.Parser
import MotionControl.Json.Printer

/-! Strings of JSON text. Every character is read back, escaped or not, and none of them is half a surrogate pair. -/
namespace MotionControl.Json

section
variable {c : Char} {cs rest : List Char}

theorem hex?_hexDigits (h : c.toNat < 0x20) :
    (hexDigits 4 c.toNat).length = 4 ∧ hex? (hexDigits 4 c.toNat) = some c.toNat := by
  have codes : ∀ n < 0x20, (hexDigits 4 n).length = 4 ∧ hex? (hexDigits 4 n) = some n := by decide +kernel
  exact codes c.toNat h

theorem units?_escape (c : Char) (tail : List Char) :
    units? (escape c ++ tail) = (units? tail).map fun (units, rest) => (c.toNat :: units, rest) := by
  have short : ∀ {letter : Char} {code : Nat}, letter ≠ 'u' → escaped? letter = some code →
      units? ('\\' :: letter :: tail) = (units? tail).map fun (units, rest) => (code :: units, rest) := by
    intro letter code hu hc
    rw [units?]
    · rw [hc]
      cases units? tail <;> rfl
    · intro a b d e rest h _
      exact hu h
  rw [escape.eq_def]
  split
  · exact short (by decide) rfl
  · exact short (by decide) rfl
  · exact short (by decide) rfl
  · exact short (by decide) rfl
  · exact short (by decide) rfl
  · exact short (by decide) rfl
  · exact short (by decide) rfl
  · rename_i hq hb _ _ _ _ _
    split
    · rename_i h
      obtain ⟨hl, hx⟩ := hex?_hexDigits h
      obtain ⟨a, b, d, e, hd⟩ := List.length_eq_four.mp hl
      rw [hd] at hx ⊢
      change units? ('\\' :: 'u' :: a :: b :: d :: e :: tail) = _
      rw [units?, hx]
      cases units? tail <;> rfl
    · rename_i h
      rw [List.singleton_append, units?, if_neg h]
      · cases units? tail <;> rfl
      · exact hq
      · exact fun _ _ _ _ _ h _ => hb h
      · exact fun _ _ h _ => hb h

theorem units?_flatMap_escape (cs rest : List Char) :
    units? (cs.flatMap escape ++ '\x22' :: rest) = some (cs.map Char.toNat, rest) := by
  induction cs with
  | nil => rfl
  | cons c cs ih => rw [List.flatMap_cons, List.append_assoc, units?_escape, ih, Option.map_some, List.map_cons]

theorem not_isSurrogate (c : Char) : isHighSurrogate c.toNat = false ∧ isLowSurrogate c.toNat = false := by
  have valid : c.toNat < 0xd800 ∨ 0xdfff < c.toNat := c.valid.imp id And.left
  constructor
  · simp only [isHighSurrogate, Bool.and_eq_false_iff, decide_eq_false_iff_not]
    omega
  · simp only [isLowSurrogate, Bool.and_eq_false_iff, decide_eq_false_iff_not]
    omega

theorem characters?_map_toNat (cs : List Char) : characters? (cs.map Char.toNat) = some cs := by
  induction cs with
  | nil => rfl
  | cons c cs ih =>
    obtain ⟨high, low⟩ := not_isSurrogate c
    cases cs with
    | nil => simp [characters?, high, low, Char.ofNat_toNat]
    | cons d cs =>
      rw [List.map_cons] at ih
      rw [List.map_cons, List.map_cons, characters?, high, low, ih, Char.ofNat_toNat]
      rfl

/-- A string is read back from between its quotes. -/
theorem string?_escape (s : String) (rest : List Char) :
    string? (s.toList.flatMap escape ++ '\x22' :: rest) = some (some s, rest) := by
  rw [string?, units?_flatMap_escape, Option.map_some]
  dsimp only
  rw [characters?_map_toNat, Option.map_some, String.ofList_toList]

end

end MotionControl.Json
