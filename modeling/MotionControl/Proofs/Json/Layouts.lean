import MotionControl.Proofs.Json.Numbers
import MotionControl.Proofs.Json.Strings
import MotionControl.Proofs.Machine.Documents

/-! Documents of JSON text, on one line or on indented ones. What is written of a document is read back as that
document, each of its numbers as its own text is read. -/
namespace MotionControl.Json
open Document (rereadItems rereadFields)

/-! Blanks between the parts of a text. -/

section
variable {blanks cs rest : List Char}

theorem skipBlanks_append (hb : ∀ c ∈ blanks, isBlank c = true) (cs : List Char) :
    skipBlanks (blanks ++ cs) = skipBlanks cs := List.dropWhile_append_of_pos hb

theorem skipBlanks_skipBlanks (cs : List Char) : skipBlanks (skipBlanks cs) = skipBlanks cs :=
  List.dropWhile_idempotent _ _

theorem value?_skipBlanks (fuel : Nat) (cs : List Char) : value? fuel (skipBlanks cs) = value? fuel cs := by
  cases fuel with
  | zero => rfl
  | succ fuel => rw [value?, value?, skipBlanks_skipBlanks]

theorem items?_skipBlanks (fuel : Nat) (cs : List Char) : items? fuel (skipBlanks cs) = items? fuel cs := by
  cases fuel with
  | zero => rfl
  | succ fuel => rw [items?, items?, value?_skipBlanks]

theorem fields?_skipBlanks (fuel : Nat) (cs : List Char) : fields? fuel (skipBlanks cs) = fields? fuel cs := by
  cases fuel with
  | zero => rfl
  | succ fuel => rw [fields?, fields?, skipBlanks_skipBlanks]

theorem Layout.isBlank_newline (layout : Layout) : ∀ c ∈ layout.newline.toList, isBlank c = true := by
  cases layout with
  | line => rintro _ ⟨⟩
  | indented depth =>
    intro c hc
    simp only [newline, String.toList_append, String.toList_ofList, List.mem_append, List.mem_replicate] at hc
    rcases hc with hc | ⟨-, rfl⟩
    · obtain rfl := List.mem_singleton.mp hc
      rfl
    · rfl

/-- A number ends before the blanks of a layout and whatever closes a list or a record. -/
theorem Layout.endsNumber_newline (layout : Layout) {c : Char} (hc : c ∈ [']', '\x7d']) (rest : List Char) :
    EndsNumber (layout.newline.toList ++ c :: rest) := by
  cases layout with
  | line =>
    rintro _ ⟨⟩
    simp only [List.mem_cons, List.not_mem_nil, or_false] at hc
    rcases hc with rfl | rfl <;> decide
  | indented depth =>
    rw [newline, String.toList_append]
    rintro _ ⟨⟩
    decide

end

/-! Lists and records, whose parts are read back one by one. -/

section
variable {d : Document} {items : List Document} {fields : Fields}

/-- The text of a document is read back wherever it stands. -/
def ReadsBack (d : Document) : Prop :=
  ∀ layout fuel rest, (write layout d).toList.length < fuel → EndsNumber rest →
    value? fuel ((write layout d).toList ++ rest) = some (d.reread numberDocument true, rest)

private theorem endsNumber_comma (rest : List Char) : EndsNumber (',' :: rest) := by
  rintro _ ⟨⟩
  decide

theorem toList_intercalate_cons (line entry next : String) (entries : List String) :
    (("," ++ line).intercalate (entry :: next :: entries)).toList =
      entry.toList ++ ',' :: (line.toList ++ (("," ++ line).intercalate (next :: entries)).toList) := by
  simp [String.toList_intercalate]

theorem items?_writeItems (hne : items ≠ []) (h : ∀ d ∈ items, ReadsBack d) (layout : Layout) {fuel : Nat}
    (hf : (("," ++ layout.deeper.newline).intercalate (writeItems layout.deeper items)).toList.length + 1 < fuel)
    (rest : List Char) :
    items? fuel ((("," ++ layout.deeper.newline).intercalate (writeItems layout.deeper items)).toList ++
        (layout.newline.toList ++ ']' :: rest)) =
      some (rereadItems numberDocument true items, rest) := by
  induction items generalizing fuel with
  | nil => exact absurd rfl hne
  | cons item items ih =>
    obtain ⟨fuel, rfl⟩ := Nat.exists_eq_add_one.mpr (Nat.zero_lt_of_lt hf)
    rw [List.forall_mem_cons] at h
    cases items with
    | nil =>
      have text : (("," ++ layout.deeper.newline).intercalate (writeItems layout.deeper [item])).toList =
          (write layout.deeper item).toList := by simp [writeItems]
      rw [text] at hf ⊢
      refine Option.bind_eq_some_iff.mpr ⟨_, h.1 layout.deeper fuel _ (Nat.lt_of_succ_lt_succ hf)
        (layout.endsNumber_newline (by decide) rest), ?_⟩
      dsimp only
      rw [skipBlanks_append layout.isBlank_newline]
      rfl
    | cons next items =>
      rw [writeItems, writeItems, toList_intercalate_cons, ← writeItems] at hf ⊢
      rw [List.length_append, List.length_cons, List.length_append] at hf
      rw [List.append_assoc, List.cons_append, List.append_assoc]
      refine Option.bind_eq_some_iff.mpr ⟨_, h.1 layout.deeper fuel _ (by omega) (endsNumber_comma _), ?_⟩
      have more := ih (List.cons_ne_nil next items) h.2 (show _ + 1 < fuel by omega)
      rw [← items?_skipBlanks, ← skipBlanks_append layout.deeper.isBlank_newline, items?_skipBlanks] at more
      exact Option.bind_eq_some_iff.mpr ⟨_, more, rfl⟩

/-- A field with its name, and what its end says of further ones. -/
theorem fields?_field (h : ReadsBack d) (name : String) (layout : Layout) {fuel : Nat}
    (hf : (write layout d).toList.length < fuel) {rest : List Char} (hr : EndsNumber rest) :
    fields? (fuel + 1) ((quoted name ++ layout.colon ++ write layout d).toList ++ rest) =
      match skipBlanks rest with
      | ',' :: rest => (fields? fuel rest).map fun (fields, rest) =>
        ((some name, d.reread numberDocument true) :: fields, rest)
      | '\x7d' :: rest => some ([(some name, d.reread numberDocument true)], rest)
      | _ => none := by
  obtain ⟨gap, hc, hg⟩ : ∃ gap, layout.colon.toList = ':' :: gap ∧ ∀ c ∈ gap, isBlank c = true := by
    cases layout with
    | line => exact ⟨[], rfl, by rintro _ ⟨⟩⟩
    | indented depth => exact ⟨[' '], by simp [Layout.colon], by simp [isBlank]⟩
  have text : (quoted name ++ layout.colon ++ write layout d).toList ++ rest =
      '\x22' :: (name.toList.flatMap escape ++ '\x22' :: ':' :: (gap ++ ((write layout d).toList ++ rest))) := by
    simp [quoted, hc]
  have value : value? fuel (gap ++ ((write layout d).toList ++ rest)) = some (d.reread numberDocument true, rest) := by
    rw [← value?_skipBlanks, skipBlanks_append hg, value?_skipBlanks]
    exact h layout fuel rest hf hr
  rw [text, fields?]
  change ((string? (name.toList.flatMap escape ++ '\x22' :: ':' :: (gap ++ ((write layout d).toList ++ rest)))).bind
    fun _ => _) = _
  rw [string?_escape]
  change ((value? fuel (gap ++ ((write layout d).toList ++ rest))).bind fun _ => _) = _
  rw [value, Option.bind_some]
  dsimp only
  generalize skipBlanks rest = tail
  split
  · rename_i more
    change ((fields? fuel more).bind fun _ => _) = (fields? fuel more).map _
    cases fields? fuel more <;> rfl
  · rfl
  · grind

theorem fields?_writeFields (hne : fields ≠ []) (h : ∀ f ∈ fields, ReadsBack f.2) (layout : Layout) {fuel : Nat}
    (hf : (("," ++ layout.deeper.newline).intercalate (writeFields layout.deeper fields)).toList.length + 1 < fuel)
    (rest : List Char) :
    fields? fuel ((("," ++ layout.deeper.newline).intercalate (writeFields layout.deeper fields)).toList ++
        (layout.newline.toList ++ '\x7d' :: rest)) =
      some (fields.map fun (name, d) => (some name, d.reread numberDocument true), rest) := by
  induction fields generalizing fuel with
  | nil => exact absurd rfl hne
  | cons field fields ih =>
    obtain ⟨name, d⟩ := field
    obtain ⟨fuel, rfl⟩ := Nat.exists_eq_add_one.mpr (Nat.zero_lt_of_lt hf)
    obtain ⟨hd, hs⟩ := List.forall_mem_cons.mp h
    change ReadsBack d at hd
    cases fields with
    | nil =>
      have text : (("," ++ layout.deeper.newline).intercalate (writeFields layout.deeper [(name, d)])).toList =
          (quoted name ++ layout.deeper.colon ++ write layout.deeper d).toList := by simp [writeFields]
      rw [text] at hf ⊢
      simp only [String.toList_append, List.length_append] at hf
      rw [fields?_field hd name layout.deeper (by omega) (layout.endsNumber_newline (by decide) rest),
        skipBlanks_append layout.isBlank_newline]
      rfl
    | cons next fields =>
      obtain ⟨name', d'⟩ := next
      rw [writeFields, writeFields, toList_intercalate_cons, ← writeFields] at hf ⊢
      simp only [String.toList_append, List.length_append, List.length_cons] at hf
      rw [List.append_assoc, List.cons_append, List.append_assoc,
        fields?_field hd name layout.deeper (by omega) (endsNumber_comma _)]
      have more := ih (List.cons_ne_nil (name', d') fields) hs (show _ + 1 < fuel by omega)
      rw [← fields?_skipBlanks, ← skipBlanks_append layout.deeper.isBlank_newline, fields?_skipBlanks] at more
      change (fields? fuel _).map _ = _
      rw [more]
      rfl

theorem value?_bracket (fuel : Nat) (cs : List Char) :
    value? (fuel + 1) ('[' :: cs) =
      match skipBlanks cs with
      | ']' :: rest => some (.list [], rest)
      | rest => (items? fuel rest).map fun (items, rest) => (.list items, rest) := rfl

theorem value?_brace (fuel : Nat) (cs : List Char) :
    value? (fuel + 1) ('\x7b' :: cs) =
      match skipBlanks cs with
      | '\x7d' :: rest => some (.record [], rest)
      | rest => (fields? fuel rest).map fun (fields, rest) => (record fields, rest) := rfl

theorem value?_list {fuel : Nat} {cs rest : List Char} (h : items? fuel cs = some (items, rest)) :
    value? (fuel + 1) ('[' :: cs) = some (.list items, rest) := by
  have close : ∀ t, skipBlanks cs ≠ ']' :: t := by
    intro t ht
    rw [← items?_skipBlanks, ht] at h
    cases fuel with
    | zero => cases h
    | succ fuel =>
      have none : value? fuel (']' :: t) = none := by
        cases fuel with
        | zero => rfl
        | succ fuel => rfl
      rw [items?, none] at h
      cases h
  rw [value?_bracket]
  split
  · exact absurd ‹_› (close _)
  · rw [items?_skipBlanks, h]
    rfl

theorem value?_record {fuel : Nat} {cs rest : List Char} {fields : List (Option String × Document)}
    (h : fields? fuel cs = some (fields, rest)) : value? (fuel + 1) ('\x7b' :: cs) = some (record fields, rest) := by
  have close : ∀ t, skipBlanks cs ≠ '\x7d' :: t := by
    intro t ht
    rw [← fields?_skipBlanks, ht] at h
    cases fuel <;> cases h
  rw [value?_brace]
  split
  · exact absurd ‹_› (close _)
  · rw [fields?_skipBlanks, h]
    rfl

theorem mapM_names_reread (number : Float → Document) (fields : Fields) :
    (fields.map fun (name, d) => (some name, d.reread number true)).mapM
      (fun (name, value) => name.map (·, value)) = some (rereadFields number true fields) := by
  induction fields with
  | nil => rfl
  | cons field fields ih =>
    obtain ⟨name, d⟩ := field
    rw [List.map_cons, List.mapM_cons, ih]
    cases d <;> simp

theorem record_reread (number : Float → Document) (fields : Fields) :
    record (fields.map fun (name, d) => (some name, d.reread number true)) = .record (rereadFields number true fields) := by
  rw [record, mapM_names_reread]

/-- A text is shorter than the fuel, so some is left for its first character. -/
theorem ReadsBack.of_succ (h : ∀ layout fuel rest, (write layout d).toList.length < fuel + 1 → EndsNumber rest →
    value? (fuel + 1) ((write layout d).toList ++ rest) = some (d.reread numberDocument true, rest)) :
    ReadsBack d := by
  intro layout fuel rest hf hr
  obtain ⟨fuel, rfl⟩ := Nat.exists_eq_add_one.mpr (Nat.zero_lt_of_lt hf)
  exact h layout fuel rest hf hr

theorem ReadsBack.list (h : ∀ d ∈ items, ReadsBack d) : ReadsBack (.list items) := by
  apply of_succ
  intro layout fuel rest hf _
  cases items with
  | nil =>
    have text : (write layout (.list [])).toList = ['[', ']'] := by simp [write, writeItems, enclosed]
    rw [text]
    rfl
  | cons item items =>
    have text : (write layout (.list (item :: items))).toList = '[' :: (layout.deeper.newline.toList ++
        ((("," ++ layout.deeper.newline).intercalate (writeItems layout.deeper (item :: items))).toList ++
          (layout.newline.toList ++ [']']))) := by
      simp [write, enclosed, writeItems]
    rw [text] at hf ⊢
    simp only [List.length_cons, List.length_append] at hf
    have read := items?_writeItems (List.cons_ne_nil item items) h layout (show _ + 1 < fuel by omega) rest
    rw [← items?_skipBlanks, ← skipBlanks_append layout.deeper.isBlank_newline, items?_skipBlanks] at read
    simpa only [List.cons_append, List.append_assoc, List.nil_append, Document.reread] using value?_list read

theorem ReadsBack.record (h : ∀ f ∈ fields, ReadsBack f.2) : ReadsBack (.record fields) := by
  apply of_succ
  intro layout fuel rest hf _
  cases fields with
  | nil =>
    have text : (write layout (.record [])).toList = ['\x7b', '\x7d'] := by simp [write, writeFields, enclosed]
    rw [text]
    rfl
  | cons field fields =>
    have text : (write layout (.record (field :: fields))).toList = '\x7b' :: (layout.deeper.newline.toList ++
        ((("," ++ layout.deeper.newline).intercalate (writeFields layout.deeper (field :: fields))).toList ++
          (layout.newline.toList ++ ['\x7d']))) := by
      simp [write, enclosed, writeFields]
    rw [text] at hf ⊢
    simp only [List.length_cons, List.length_append] at hf
    have read := fields?_writeFields (List.cons_ne_nil field fields) h layout (show _ + 1 < fuel by omega) rest
    rw [← fields?_skipBlanks, ← skipBlanks_append layout.deeper.isBlank_newline, fields?_skipBlanks] at read
    have value := value?_record read
    rw [record_reread] at value
    simpa only [List.cons_append, List.append_assoc, List.nil_append, Document.reread] using value

/-- A document of which something is written: it has a value, and its whole numbers fit a word. -/
inductive Written : Document → Prop
  | null : Written .null
  | bool (value : Bool) : Written (.bool value)
  | integer {n : Nat} (h : n < 0x10000000000000000) : Written (.integer n)
  | float (x : Float) : Written (.float x)
  | string (s : String) : Written (.string s)
  | list {items : List Document} (h : ∀ d ∈ items, Written d) : Written (.list items)
  | record {fields : List (String × Document)} (h : ∀ f ∈ fields, Written f.2) : Written (.record fields)

/-- Whatever is written is read back. -/
theorem Written.readsBack (h : Written d) : ReadsBack d := by
  -- of a list or a record, the hypothesis is that its parts are read back wherever they stand
  induction h with
  | null =>
    apply ReadsBack.of_succ
    intro layout fuel rest _ hr
    rw [write]
    rfl
  | bool value =>
    apply ReadsBack.of_succ
    intro layout fuel rest _ hr
    rw [write]
    cases value <;> rfl
  | integer h =>
    apply ReadsBack.of_succ
    intro layout fuel rest _ hr
    rw [write]
    exact value?_natCast h hr fuel
  | float x =>
    apply ReadsBack.of_succ
    intro layout fuel rest _ hr
    rw [write]
    exact value?_numberText x hr fuel
  | string s =>
    apply ReadsBack.of_succ
    intro layout fuel rest _ hr
    have text : (write layout (.string s)).toList ++ rest = '\x22' :: (s.toList.flatMap escape ++ '\x22' :: rest) := by
      simp [write, quoted]
    rw [text]
    change (string? (s.toList.flatMap escape ++ '\x22' :: rest)).map _ = _
    rw [string?_escape]
    rfl
  | list _ ih => exact .list ih
  | record _ ih => exact .record ih

/-- A document is read back from its text, its numbers as their own texts are read. -/
theorem parse?_pretty (h : Written d) : parse? (pretty d) = some (d.reread numberDocument true) := by
  have read : value? ((pretty d).length + 1) (pretty d).toList = some (d.reread numberDocument true, []) := by
    have whole := h.readsBack (.indented 0) ((pretty d).length + 1) [] (Nat.lt_succ_self _) (by rintro _ ⟨⟩)
    rwa [List.append_nil] at whole
  rw [parse?, read]
  rfl

end

end MotionControl.Json
