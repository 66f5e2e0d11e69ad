import MotionControl.Proofs.Toml.Numbers
import MotionControl.Proofs.Toml.Strings

/-! Lines of TOML text. A path is read back name by name, and a line under a header adds its value to the table
of that header. -/
namespace MotionControl.Toml

section
variable {c : Char} {cs rest : List Char}

/-- The first character of a name, bare or quoted. -/
def OpensName (c : Char) : Prop := c = '\x22' ∨ c = '\x27' ∨ isBareChar c = true

instance (c : Char) : Decidable (OpensName c) := inferInstanceAs (Decidable (_ ∨ _ ∨ _))

theorem OpensName.ne {d : Char} (h : OpensName c) (hd : ¬OpensName d) : c ≠ d := by
  rintro rfl
  exact hd h

theorem exists_nameText_cons (cs : List Char) : ∃ c t, nameText cs = c :: t ∧ OpensName c := by
  rw [nameText]
  split
  · rename_i h
    simp only [Bool.and_eq_true, Bool.not_eq_true', List.isEmpty_eq_false_iff, List.all_eq_true] at h
    obtain ⟨c, t, rfl⟩ := List.exists_cons_of_ne_nil h.1
    exact ⟨c, t, rfl, .inr (.inr (h.2 c (List.mem_cons_self ..)))⟩
  · split
    · exact ⟨_, _, rfl, .inl rfl⟩
    · split
      · exact ⟨_, _, rfl, .inr (.inl rfl)⟩
      · exact ⟨_, _, rfl, .inl rfl⟩

theorem skipBlanks_cons (h : isBlank c = false) : skipBlanks (c :: cs) = c :: cs := by
  rw [skipBlanks, List.dropWhile_cons, h]
  rfl

theorem pathText_singleton (name : String) : (pathText [name]).toList = nameText name.toList := by
  simp [pathText]

theorem pathText_cons_cons (name next : String) (path : List String) :
    (pathText (name :: next :: path)).toList = nameText name.toList ++ '.' :: (pathText (next :: path)).toList := by
  simp [pathText, String.toList_intercalate]

theorem exists_pathText_cons {path : List String} (hp : path ≠ []) :
    ∃ c t, (pathText path).toList = c :: t ∧ OpensName c := by
  obtain ⟨name, path, rfl⟩ := List.exists_cons_of_ne_nil hp
  obtain ⟨c, t, hc, ho⟩ := exists_nameText_cons name.toList
  cases path with
  | nil => exact ⟨c, t, by rw [pathText_singleton, hc], ho⟩
  | cons next path => exact ⟨c, _, by rw [pathText_cons_cons, hc]; rfl, ho⟩

/-- A path is over where no name and no further point can follow. -/
structure EndsPath (rest : List Char) : Prop where
  name : ∀ c ∈ rest.head?, isBareChar c = false
  point : ∀ c ∈ (skipBlanks rest).head?, c ≠ '.'

theorem names?_pathText {path : List String} (hp : path ≠ []) (hr : EndsPath rest) {fuel : Nat}
    (hf : (pathText path).toList.length < fuel) :
    names? fuel ((pathText path).toList ++ rest) = some (path, skipBlanks rest) := by
  induction path generalizing fuel with
  | nil => exact absurd rfl hp
  | cons name path ih =>
    obtain ⟨fuel, rfl⟩ := Nat.exists_eq_add_one.mpr (Nat.zero_lt_of_lt hf)
    obtain ⟨c, t, hc, ho⟩ := exists_nameText_cons name.toList
    have start : ∀ tail, skipBlanks (nameText name.toList ++ tail) = nameText name.toList ++ tail := by
      intro tail
      rw [hc, List.cons_append, skipBlanks_cons]
      simpa [isBlank] using ⟨ho.ne (by decide), ho.ne (by decide)⟩
    cases path with
    | nil =>
      rw [pathText_singleton, names?, start, name?_nameText hr.name, String.ofList_toList]
      dsimp only [Option.bind_eq_bind, Option.bind_some]
      split
      · rename_i h
        exact absurd rfl (hr.point '.' (by rw [h]; rfl))
      · rfl
    | cons next path =>
      rw [pathText_cons_cons, List.length_append, List.length_cons] at hf
      have point : ∀ d ∈ ('.' :: ((pathText (next :: path)).toList ++ rest)).head?, isBareChar d = false := by
        rintro _ ⟨⟩
        decide
      rw [pathText_cons_cons, List.append_assoc, List.cons_append, names?, start, name?_nameText point,
        String.ofList_toList]
      dsimp only [Option.bind_eq_bind, Option.bind_some]
      rw [skipBlanks_cons (by decide)]
      refine Option.bind_eq_some_iff.mpr ⟨_, ih (List.cons_ne_nil next path) (by omega), rfl⟩

/-- A path is read back as a key, up to the depth of keys. -/
theorem key?_pathText {path : List String} (hp : path ≠ []) (hl : path.length < depthLimit) (hr : EndsPath rest) :
    key? ((pathText path).toList ++ rest) = some (path, skipBlanks rest) := by
  rw [key?, names?_pathText hp hr (by rw [List.length_append]; omega)]
  exact if_pos hl

end

/-! The expressions of a text, read one after the other. -/

/-- What reading has come to: the path of the header in force, and the tables so far. -/
abbrev Progress := List String × Entries

/-- Reading `text` leads from one progress to another, whatever follows. No character takes more than one step. -/
def Reads (text : String) (before after : Progress) : Prop :=
  ∀ fuel rest, text.toList.length ≤ fuel → ∃ fuel', fuel ≤ fuel' + text.toList.length ∧
    expressions? fuel before.1 before.2 (text.toList ++ rest) = expressions? fuel' after.1 after.2 rest

namespace Reads
variable {text text' : String} {p q r : Progress}

theorem refl (p : Progress) : Reads "" p p := fun fuel _ _ => ⟨fuel, Nat.le_add_right .., rfl⟩

theorem append (h : Reads text p q) (h' : Reads text' q r) : Reads (text ++ text') p r := by
  intro fuel rest hf
  rw [String.toList_append, List.length_append] at hf ⊢
  obtain ⟨fuel₁, h₁, e₁⟩ := h fuel (text'.toList ++ rest) (by omega)
  obtain ⟨fuel₂, h₂, e₂⟩ := h' fuel₁ rest (by omega)
  exact ⟨fuel₂, by omega, by rw [List.append_assoc, e₁, e₂]⟩

theorem of_step (h : text.toList ≠ []) (step : ∀ fuel rest, expressions? (fuel + 1) p.1 p.2 (text.toList ++ rest) =
    expressions? fuel q.1 q.2 rest) : Reads text p q := by
  intro fuel rest hf
  have := List.length_pos_iff.mpr h
  obtain ⟨fuel, rfl⟩ := Nat.exists_eq_add_one.mpr (this.trans_le hf)
  exact ⟨fuel, by omega, step fuel rest⟩

theorem parse? {table : List String} {entries : Entries} (h : Reads text ([], []) (table, entries))
    (hb : ∀ c ∈ text.toList.head?, c ≠ '\ufeff') :
    parse? text = some (.record (fieldsOf entries)) := by
  obtain ⟨fuel, hf, he⟩ := h (text.toList.length + 1) [] (Nat.le_succ _)
  obtain ⟨fuel, rfl⟩ := Nat.exists_eq_add_one.mpr (show 0 < fuel by omega)
  rw [List.append_nil] at he
  rw [Toml.parse?]
  split
  · rename_i h
    exact absurd rfl (hb '\ufeff' (by rw [h]; rfl))
  · rw [he]
    rfl

end Reads

section
variable {table : List String} {root root' : Entries} {d : Document}

/-- A value that is written on a line of its own, or the lack of one. -/
inductive IsLine : Document → Prop
  | null : IsLine .null
  | bool (value : Bool) : IsLine (.bool value)
  | integer {n : Nat} (h : n < 2 ^ 63) : IsLine (.integer n)
  | float (x : Float) : IsLine (.float x)
  | string (s : String) : IsLine (.string s)

theorem IsLine.scalar? (h : IsLine d) (hd : d ≠ .null) (rest : List Char) :
    scalar? ((valueText d).toList ++ '\n' :: rest) = some (d, '\n' :: rest) := by
  cases h with
  | null => exact absurd rfl hd
  | bool value => rw [valueText]; exact scalar?_bool value rest
  | integer h => rw [valueText]; exact scalar?_integer h rest
  | float x => rw [valueText]; exact scalar?_float x rest
  | string s =>
    rw [valueText, scalar?.eq_def, String.toList_ofList, string?_stringText, String.ofList_toList]

theorem scalar?_eq_none {c : Char} (hc : c ∈ [' ', '\t', '[', '\x7b']) (cs : List Char) : scalar? (c :: cs) = none := by
  simp only [List.mem_cons, List.not_mem_nil, or_false] at hc
  have hd : c.isDigit = false := by rcases hc with rfl | rfl | rfl | rfl <;> rfl
  have decimal : decimal? (c :: cs) = none := by rcases hc with rfl | rfl | rfl | rfl <;> rfl
  have special : special? (c :: cs) = none := by rcases hc with rfl | rfl | rfl | rfl <;> rfl
  have integer : integer? (c :: cs) = none := by rcases hc with rfl | rfl | rfl | rfl <;> rfl
  have string : string? (c :: cs) = none := by rcases hc with rfl | rfl | rfl | rfl <;> rfl
  rw [scalar?.eq_def, string, moment?_cons_eq_none hd, decimal, special, integer]
  rcases hc with rfl | rfl | rfl | rfl <;> rfl

theorem value?_of_scalar? {fuel depth : Nat} {cs rest : List Char} (h : scalar? cs = some (d, rest)) :
    value? (fuel + 1) (depth + 1) cs = some (d, rest) := by
  have first : ∀ c ∈ cs.head?, c ∉ [' ', '\t', '[', '\x7b'] := by
    intro c hc hm
    obtain ⟨t, rfl⟩ := List.head?_eq_some_iff.mp hc
    rw [scalar?_eq_none hm] at h
    cases h
  rw [value?]
  · exact h
  · rintro t rfl
    exact first '[' rfl (by decide)
  · rintro t rfl
    exact first '\x7b' rfl (by decide)

theorem skipBlanks_of_scalar? {cs rest : List Char} (h : scalar? cs = some (d, rest)) : skipBlanks cs = cs := by
  cases cs with
  | nil => rfl
  | cons c cs =>
    refine skipBlanks_cons ?_
    by_contra hb
    rw [Bool.not_eq_false, isBlank, Bool.or_eq_true, beq_iff_eq, beq_iff_eq] at hb
    rw [scalar?_eq_none (by rcases hb with rfl | rfl <;> decide)] at h
    cases h

theorem lineEnd?_newline (rest : List Char) : lineEnd? ('\n' :: rest) = some rest := rfl

/-- A line that starts like a name is a key with a value. -/
theorem expressions?_entry {c : Char} {cs more rest : List Char} {key : List String} (ho : OpensName c)
    (hk : key? (c :: cs) = some (key, '=' :: more))
    (hv : value? more.length.succ nestingLimit (skipBlanks more) = some (d, '\n' :: rest))
    (h : root.assignAt table key d = some root') (fuel : Nat) :
    expressions? (fuel + 1) table root (c :: cs) = expressions? fuel table root' rest := by
  have other : ∀ {b t}, ¬OpensName b → c :: cs ≠ b :: t := fun hb h => ho.ne hb (List.cons.inj h).1
  rw [expressions?, skipBlanks_cons (by simpa [isBlank] using ⟨ho.ne (by decide), ho.ne (by decide)⟩)]
  split
  · exact absurd ‹_› (List.cons_ne_nil c cs)
  · exact absurd ‹_› (other (by decide))
  · exact absurd ‹_› (other (by decide))
  · exact absurd ‹_› (other (by decide))
  · exact absurd ‹_› (other (by decide))
  · exact absurd ‹_› (other (by decide))
  · rw [hk]
    change ((value? more.length.succ nestingLimit (skipBlanks more)).bind fun _ => _) = _
    rw [hv]
    simp [h, lineEnd?_newline]

theorem reads_line {name : String} (hd : IsLine d) (hn : d ≠ .null)
    (h : root.assignAt table [name] d = some root') :
    Reads (pathText [name] ++ " = " ++ valueText d ++ "\n") (table, root) (table, root') := by
  obtain ⟨c, t, hc, ho⟩ := exists_pathText_cons (List.cons_ne_nil name [])
  refine .of_step (by simp) fun fuel rest => ?_
  have text : (pathText [name] ++ " = " ++ valueText d ++ "\n").toList ++ rest =
      (pathText [name]).toList ++ ' ' :: '=' :: ' ' :: ((valueText d).toList ++ '\n' :: rest) := by
    simp
  have ends : EndsPath (' ' :: '=' :: ' ' :: ((valueText d).toList ++ '\n' :: rest)) := by
    constructor
    · rintro _ ⟨⟩
      decide
    · rintro _ ⟨⟩
      decide
  have key := key?_pathText (List.cons_ne_nil name []) (show 1 < depthLimit by decide) ends
  have scalar := hd.scalar? hn rest
  have value : value? ((' ' :: ((valueText d).toList ++ '\n' :: rest)).length.succ) nestingLimit
      (skipBlanks (' ' :: ((valueText d).toList ++ '\n' :: rest))) = some (d, '\n' :: rest) := by
    change value? _ _ (skipBlanks ((valueText d).toList ++ '\n' :: rest)) = _
    rw [skipBlanks_of_scalar? scalar]
    exact value?_of_scalar? scalar
  rw [hc, List.cons_append] at key
  rw [text, hc, List.cons_append]
  exact expressions?_entry ho key value h fuel

theorem reads_newline (p : Progress) : Reads "\n" p p := .of_step (by simp) fun _ _ => rfl

end

end MotionControl.Toml
