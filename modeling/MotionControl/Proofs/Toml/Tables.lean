import MotionControl.Proofs.Machine.Documents
import MotionControl.Proofs.Toml.Lines

/-! Tables of TOML text. A header opens a table at the place where its path leads, and everything below it is added
there; so a record whose plain values come before its tables is read back as it was. -/
namespace MotionControl.Toml
open Document (depthOfFields depthOfItems depthOfFields_append rereadFields rereadItems
  rereadFields_append rereadFields_cons)

namespace Entries
variable {entries : Entries} {name : String} {node old : Node}

theorem find?_eq_none (h : name ∉ entries.map (·.1)) : entries.find? name = none := by
  rw [find?, List.lookup_eq_none_iff]
  intro e he
  exact bne_iff_ne.mpr fun hn => h (List.mem_map.mpr ⟨e, he, hn.symm⟩)

theorem find?_append_self (h : name ∉ entries.map (·.1)) : find? (entries ++ [(name, node)]) name = some node := by
  have hn : entries.lookup name = none := find?_eq_none h
  rw [find?, List.lookup_append, hn, List.lookup_cons_self]
  rfl

theorem set_of_not_mem (h : name ∉ entries.map (·.1)) : entries.set name node = entries ++ [(name, node)] := by
  induction entries with
  | nil => rfl
  | cons entry rest ih =>
    rw [List.map_cons, List.mem_cons, not_or] at h
    rw [set, if_neg (Ne.symm h.1), ih h.2, List.cons_append]

theorem set_append_self (h : name ∉ entries.map (·.1)) :
    set (entries ++ [(name, old)]) name node = entries ++ [(name, node)] := by
  induction entries with
  | nil => exact if_pos rfl
  | cons entry rest ih =>
    rw [List.map_cons, List.mem_cons, not_or] at h
    rw [List.cons_append, set, if_neg (Ne.symm h.1), ih h.2, List.cons_append]

theorem changeLast_append (f : Entries → Option Entries) (items : List Entries) (last : Entries) :
    changeLast f (items ++ [last]) = (f last).map fun last => items ++ [last] := by
  induction items with
  | nil => rfl
  | cons item items ih =>
    have ne : items ++ [last] ≠ [] := by simp
    obtain ⟨next, rest, hr⟩ := List.exists_cons_of_ne_nil ne
    rw [List.cons_append, hr, changeLast, ← hr, ih, Option.map_map]
    · rfl
    · exact fun h => ne (hr.trans h)

theorem changeAt_append (f : Entries → Option Entries) (path path' : List String) :
    changeAt f (path ++ path') = changeAt (changeAt f path') path := by
  induction path with
  | nil => rfl
  | cons name path ih =>
    funext entries
    rw [List.cons_append, changeAt, changeAt, ih]

end Entries

section
variable {path : List String} {name : String} {fill : Entries → Entries} {done : Entries} {d : Document}

/-- A place in the tables that a path leads to: what stands there is all that a change by this path changes. -/
def Place (path : List String) (fill : Entries → Entries) : Prop :=
  ∀ f inner, Entries.changeAt f path (fill inner) = (f inner).map fill

namespace Place

theorem root : Place [] id := fun f inner => by rw [Entries.changeAt, id, Option.map_id_fun, id]

theorem table (h : Place path fill) (hn : name ∉ done.map (·.1)) (origin : Origin) :
    Place (path ++ [name]) fun inner => fill (done ++ [(name, .table origin inner)]) := by
  intro f inner
  rw [Entries.changeAt_append, h, Entries.changeAt, Entries.find?_append_self hn]
  dsimp only
  rw [Entries.changeAt, Option.map_map]
  congr 1
  funext inner
  exact congrArg fill (Entries.set_append_self hn)

/-- The last of the tables of one name is the one that its path leads to. -/
theorem lastTable (h : Place path fill) (hn : name ∉ done.map (·.1)) (items : List Entries) :
    Place (path ++ [name]) fun inner => fill (done ++ [(name, .tables (items ++ [inner]))]) := by
  intro f inner
  rw [Entries.changeAt_append, h, Entries.changeAt, Entries.find?_append_self hn]
  dsimp only
  rw [Entries.changeLast_append, Entries.changeAt.eq_1, Option.map_map, Option.map_map]
  congr 1
  funext inner
  exact congrArg fill (Entries.set_append_self hn)

theorem assignAt (h : Place path fill) (hn : name ∉ done.map (·.1)) :
    Entries.assignAt path [name] d (fill done) = some (fill (done ++ [(name, .value d)])) := by
  rw [Entries.assignAt, h, Entries.assign, Entries.add, Entries.find?_eq_none hn, ← Entries.set_of_not_mem hn]
  rfl

theorem openTable (h : Place path fill) (hn : name ∉ done.map (·.1)) :
    Entries.openTable path name (fill done) = some (fill (done ++ [(name, .table .header [])])) := by
  rw [Entries.openTable, h, Entries.find?_eq_none hn, ← Entries.set_of_not_mem hn]
  rfl

end Place

/-- Entries and, after them, the tables of one more name as soon as there are any. -/
def withTables (done : Entries) (name : String) (items : List Entries) : Entries :=
  if items.isEmpty then done else done ++ [(name, .tables items)]

@[simp] theorem withTables_nil : withTables done name [] = done := rfl

theorem withTables_append (items : List Entries) (last : Entries) :
    withTables done name (items ++ [last]) = done ++ [(name, .tables (items ++ [last]))] := if_neg (by simp)

theorem Place.appendTable (h : Place path fill) (hn : name ∉ done.map (·.1)) (items : List Entries) :
    Entries.appendTable path name (fill (withTables done name items)) =
      some (fill (withTables done name (items ++ [[]]))) := by
  rw [Entries.appendTable, h, withTables_append]
  cases items with
  | nil =>
    rw [withTables_nil, Entries.find?_eq_none hn, List.nil_append, ← Entries.set_of_not_mem hn]
    rfl
  | cons item items =>
    rw [withTables, if_neg (by simp), Entries.find?_append_self hn]
    dsimp only
    rw [Entries.set_append_self hn]
    rfl

end

/-! Headers, each of them a line of its own. -/

section
variable {path : List String} {name : String} {root root' : Entries}

private theorem endsPath_bracket (rest : List Char) : EndsPath (']' :: rest) := by
  constructor <;> (rintro _ ⟨⟩; decide)

/-- A bracket with no second one after it opens the header of a table. -/
theorem expressions?_header {c : Char} {cs rest : List Char} (hc : c ≠ '[')
    (header : header? [']'] (c :: cs) = some (path ++ [name], '\n' :: rest))
    (h : root.openTable path name = some root') (fuel : Nat) (table : List String) :
    expressions? (fuel + 1) table root ('[' :: c :: cs) = expressions? fuel (path ++ [name]) root' rest := by
  have other : ∀ {b t}, '[' ≠ b → '[' :: c :: cs ≠ b :: t := fun hb h => hb (List.cons.inj h).1
  rw [expressions?, skipBlanks_cons (by decide)]
  split
  · exact absurd ‹_› (List.cons_ne_nil '[' _)
  · exact absurd ‹_› (other (by decide))
  · exact absurd ‹_› (other (by decide))
  · exact absurd ‹_› (other (by decide))
  · rename_i he
    exact absurd (List.cons.inj (List.cons.inj he).2).1 hc
  · rename_i he
    obtain rfl := (List.cons.inj he).2
    rw [header]
    simp [h, lineEnd?_newline]
  · rename_i he
    exact absurd rfl (he _)

theorem reads_header (table : List String) (hl : path.length + 1 < depthLimit) (h : root.openTable path name = some root') :
    Reads ("[" ++ pathText (path ++ [name]) ++ "]\n") (table, root) (path ++ [name], root') := by
  have hne : path ++ [name] ≠ [] := by simp
  obtain ⟨c, t, hc, ho⟩ := exists_pathText_cons hne
  refine .of_step (by simp) fun fuel rest => ?_
  have text : ("[" ++ pathText (path ++ [name]) ++ "]\n").toList ++ rest =
      '[' :: ((pathText (path ++ [name])).toList ++ ']' :: '\n' :: rest) := by simp
  have key := key?_pathText hne (by rwa [List.length_append]) (endsPath_bracket ('\n' :: rest))
  have header : header? [']'] ((pathText (path ++ [name])).toList ++ ']' :: '\n' :: rest) =
      some (path ++ [name], '\n' :: rest) := by
    rw [header?, key]
    rfl
  rw [hc, List.cons_append] at header
  rw [text, hc, List.cons_append]
  exact expressions?_header (ho.ne (by decide)) header h fuel table

theorem reads_itemHeader (table : List String) (hl : path.length + 1 < depthLimit)
    (h : root.appendTable path name = some root') :
    Reads ("[[" ++ pathText (path ++ [name]) ++ "]]\n") (table, root) (path ++ [name], root') := by
  have hne : path ++ [name] ≠ [] := by simp
  refine .of_step (by simp) fun fuel rest => ?_
  have text : ("[[" ++ pathText (path ++ [name]) ++ "]]\n").toList ++ rest =
      '[' :: '[' :: ((pathText (path ++ [name])).toList ++ ']' :: ']' :: '\n' :: rest) := by simp
  have key := key?_pathText hne (by rwa [List.length_append]) (endsPath_bracket (']' :: '\n' :: rest))
  have header : header? [']', ']'] ((pathText (path ++ [name])).toList ++ ']' :: ']' :: '\n' :: rest) =
      some (path ++ [name], '\n' :: rest) := by
    rw [header?, key]
    rfl
  rw [text, expressions?, skipBlanks_cons (by decide)]
  change ((header? [']', ']'] _).bind fun _ => _) = _
  rw [header]
  simp [h, lineEnd?_newline]

end

/-! Fields as the tables that reading their text builds up. -/

mutual

def nodeOf : Document → Node
  | .record fields => .table .header (nodesOf fields)
  | .list items => .tables (itemsOf items)
  | d => .value d

def nodesOf : List (String × Document) → Entries
  | [] => []
  | (_, .null) :: rest => nodesOf rest
  | (name, value) :: rest => (name, nodeOf value) :: nodesOf rest

def itemsOf : List Document → List Entries
  | [] => []
  | .record fields :: rest => nodesOf fields :: itemsOf rest
  | _ :: rest => itemsOf rest

end

theorem nodesOf_cons {name : String} {d : Document} (hd : d ≠ .null) (rest : Fields) :
    nodesOf ((name, d) :: rest) = (name, nodeOf d) :: nodesOf rest := nodesOf.eq_3 name d rest hd

theorem nodesOf_append (fields more : Fields) : nodesOf (fields ++ more) = nodesOf fields ++ nodesOf more := by
  induction fields with
  | nil => rfl
  | cons field rest ih =>
    obtain ⟨name, d⟩ := field
    by_cases hd : d = .null
    · rw [hd]
      exact ih
    · rw [List.cons_append, nodesOf_cons hd, nodesOf_cons hd, ih, List.cons_append]

/-- A record whose text can be read back: plain values come first, with at least one of them to keep its header
from being left out, and every table is such a record or consists of them. -/
inductive Tabular : Fields → Prop
  | intro {values tables : Fields} (lines : ∀ f ∈ values, IsLine f.2) (blocks : ∀ f ∈ tables, isTable f.2 = true)
      (names : ((values ++ tables).map (·.1)).Nodup) (headed : (∃ f ∈ values, f.2 ≠ .null) ∨ values ++ tables = [])
      (records : ∀ name fields, (name, .record fields) ∈ tables → Tabular fields)
      (lists : ∀ name items fields, (name, .list items) ∈ tables → .record fields ∈ items → Tabular fields) :
      Tabular (values ++ tables)

section
variable {path : List String} {name : String} {fill : Entries → Entries} {done : Entries} {d : Document}
  {fields rest : Fields} {items : List Document}

/-- Fields with names of their own that are not yet among the entries. -/
def Fresh (done : Entries) (fields : Fields) : Prop := (done.map (·.1) ++ fields.map (·.1)).Nodup

namespace Fresh

theorem not_mem (h : Fresh done ((name, d) :: fields)) : name ∉ done.map (·.1) := fun hm =>
  (List.nodup_append.mp h).2.2 name hm name (List.mem_cons_self ..) rfl

theorem skip (h : Fresh done ((name, d) :: fields)) : Fresh done fields :=
  h.sublist (List.Sublist.append_left (List.sublist_cons_self ..) _)

theorem add (h : Fresh done ((name, d) :: fields)) (node : Node) : Fresh (done ++ [(name, node)]) fields := by
  rw [Fresh, List.map_append, List.append_assoc]
  exact h

theorem addAll (h : Fresh done (fields ++ rest)) : Fresh (done ++ nodesOf fields) rest := by
  induction fields generalizing done with
  | nil => rwa [nodesOf, List.append_nil]
  | cons field fields ih =>
    obtain ⟨name, d⟩ := field
    by_cases hd : d = .null
    · rw [hd]
      exact ih (skip h)
    · rw [nodesOf_cons hd, List.append_cons]
      exact ih (add h _)

end Fresh

/-- The text of one field among the lines of a record. -/
def fieldText (name : String) (value : Document) : String :=
  match value with
  | .null | .timestamp | .unreadable => ""
  | value => if isTable value then "" else pathText [name] ++ " = " ++ valueText value ++ "\n"

theorem bodyText_cons : bodyText ((name, d) :: fields) = fieldText name d ++ bodyText fields := by
  rw [bodyText, List.map_cons, String.join_cons]
  rfl

theorem fieldText_of_isTable (h : isTable d = true) : fieldText name d = "" := by
  cases d with
  | list items => exact if_pos h
  | record fields => rfl
  | _ => cases h

theorem fieldText_of_isLine (h : IsLine d) (hd : d ≠ .null) :
    fieldText name d = pathText [name] ++ " = " ++ valueText d ++ "\n" := by
  cases h with
  | null => exact absurd rfl hd
  | _ => rfl

/-- The lines of a record add its values to the table of the header in force. -/
theorem reads_bodyText (hp : Place path fill) (hl : ∀ f ∈ fields, IsLine f.2) (hf : Fresh done fields) :
    Reads (bodyText fields) (path, fill done) (path, fill (done ++ nodesOf fields)) := by
  induction fields generalizing done with
  | nil =>
    rw [nodesOf, List.append_nil]
    exact .refl _
  | cons field fields ih =>
    obtain ⟨name, d⟩ := field
    rw [List.forall_mem_cons] at hl
    rw [bodyText_cons]
    by_cases hd : d = .null
    · subst hd
      exact (Reads.refl _).append (ih hl.2 hf.skip)
    · have value : nodeOf d = .value d := by cases hl.1 <;> rfl
      rw [fieldText_of_isLine hl.1 hd, nodesOf_cons hd, List.append_cons, value]
      exact (reads_line hl.1 hd (hp.assignAt hf.not_mem)).append (ih hl.2 (hf.add _))

theorem bodyText_of_tables (h : ∀ f ∈ fields, isTable f.2 = true) : bodyText fields = "" := by
  induction fields with
  | nil => rfl
  | cons field fields ih =>
    rw [List.forall_mem_cons] at h
    rw [bodyText_cons, fieldText_of_isTable h.1, ih h.2, String.append_empty]

theorem bodyText_append_tables (h : ∀ f ∈ rest, isTable f.2 = true) : bodyText (fields ++ rest) = bodyText fields := by
  induction fields with
  | nil => exact bodyText_of_tables h
  | cons field fields ih => rw [List.cons_append, bodyText_cons, bodyText_cons, ih]

theorem exists_bodyText_cons (hl : ∀ f ∈ fields, IsLine f.2) (h : ∃ f ∈ fields, f.2 ≠ .null) :
    ∃ c t, (bodyText fields).toList = c :: t ∧ OpensName c := by
  induction fields with
  | nil =>
    obtain ⟨f, hf, -⟩ := h
    cases hf
  | cons field fields ih =>
    obtain ⟨name, d⟩ := field
    rw [List.forall_mem_cons] at hl
    rw [bodyText_cons, String.toList_append]
    by_cases hd : d = .null
    · subst hd
      obtain ⟨f, hf, hn⟩ := h
      rcases List.mem_cons.mp hf with rfl | hf
      · exact absurd rfl hn
      · exact ih hl.2 ⟨f, hf, hn⟩
    · obtain ⟨c, t, hc, ho⟩ := exists_pathText_cons (List.cons_ne_nil name [])
      rw [fieldText_of_isLine hl.1 hd]
      simp only [String.toList_append, hc, List.cons_append]
      exact ⟨c, _, rfl, ho⟩

theorem tableTexts_append_lines (h : ∀ f ∈ fields, IsLine f.2) :
    tableTexts path (fields ++ rest) = tableTexts path rest := by
  induction fields with
  | nil => rfl
  | cons field fields ih =>
    obtain ⟨name, d⟩ := field
    rw [List.forall_mem_cons] at h
    rw [List.cons_append, ← ih h.2]
    cases h.1 <;> rw [tableTexts] <;> rintro _ _ ⟨⟩

/-- The text of a record is read back wherever its header stands. -/
def ReadsBack (fields : Fields) : Prop :=
  ∀ path fill, Place path fill → path.length + depthOfFields fields < depthLimit →
    ∃ table, Reads (bodyText fields ++ tableTexts path fields) (path, fill []) (table, fill (nodesOf fields))

variable (table : List String)

theorem reads_record (hb : ReadsBack fields) (hp : Place path fill) (hn : name ∉ done.map (·.1))
    (hd : path.length + (depthOfFields fields + 1) < depthLimit) :
    ∃ table', Reads ("\n[" ++ pathText (path ++ [name]) ++ "]\n" ++ bodyText fields ++
      tableTexts (path ++ [name]) fields) (table, fill done)
      (table', fill (done ++ [(name, .table .header (nodesOf fields))])) := by
  obtain ⟨table', content⟩ := hb (path ++ [name]) _ (hp.table hn .header)
    (by rw [List.length_append, List.length_singleton]; omega)
  have header := reads_header table (by omega) (hp.openTable hn)
  have text := ((reads_newline (table, fill done)).append header).append content
  have newline : "\n[" = "\n" ++ "[" := rfl
  exact ⟨table', by simpa only [newline, String.append_assoc] using text⟩

/-- The tables of one name, each with its header. -/
theorem reads_items (hp : Place path fill) (hn : name ∉ done.map (·.1)) (hr : items.all isRecord = true)
    (hb : ∀ fields, .record fields ∈ items → ReadsBack fields)
    (hd : path.length + (depthOfItems items + 1) < depthLimit) (before : List Entries) :
    ∃ table', Reads (itemTables (path ++ [name]) items) (table, fill (withTables done name before))
      (table', fill (withTables done name (before ++ itemsOf items))) := by
  -- on the tables still to be read; those in `before` have been added
  induction items generalizing before table with
  | nil =>
    rw [itemsOf, List.append_nil, itemTables]
    exact ⟨table, .refl _⟩
  | cons item items ih =>
    cases item with
    | record fields =>
      rw [List.all_cons] at hr
      rw [depthOfItems, Document.depth] at hd
      obtain ⟨table₁, content⟩ := hb fields (List.mem_cons_self ..) (path ++ [name]) _ (hp.lastTable hn before)
        (by rw [List.length_append, List.length_singleton]; omega)
      rw [← withTables_append, ← withTables_append] at content
      have header := reads_itemHeader table (by omega) (hp.appendTable hn before)
      obtain ⟨table₂, rest⟩ := ih table₁ (Bool.and_eq_true_iff.mp hr).2
        (fun fields hm => hb fields (List.mem_cons_of_mem _ hm)) (by omega) (before ++ [nodesOf fields])
      have text := (((reads_newline _).append header).append content).append rest
      have newline : "\n[[" = "\n" ++ "[[" := rfl
      refine ⟨table₂, ?_⟩
      rw [itemTables, itemsOf, List.append_cons before]
      simpa only [newline, String.append_assoc] using text
    | _ => cases hr

theorem Tabular.headed (h : Tabular fields) : ((bodyText fields).isEmpty && !fields.isEmpty) = false := by
  cases h with
  | intro lines blocks _ headed _ _ =>
    rcases headed with hv | hnil
    · obtain ⟨c, t, hc, -⟩ := exists_bodyText_cons lines hv
      rw [bodyText_append_tables blocks, Bool.and_eq_false_iff]
      refine .inl (Bool.eq_false_iff.mpr fun he => ?_)
      rw [String.isEmpty_iff.mp he] at hc
      cases hc
    · rw [hnil]
      rfl

/-- All tables of a record, one after the other. -/
theorem reads_tableTexts (hp : Place path fill) (hf : Fresh done fields) (blocks : ∀ f ∈ fields, isTable f.2 = true)
    (records : ∀ name inner, (name, .record inner) ∈ fields → Tabular inner ∧ ReadsBack inner)
    (lists : ∀ name items inner, (name, .list items) ∈ fields → .record inner ∈ items → ReadsBack inner)
    (hd : path.length + depthOfFields fields < depthLimit) :
    ∃ table', Reads (tableTexts path fields) (table, fill done) (table', fill (done ++ nodesOf fields)) := by
  -- on the fields still to be read; those in `done` have been filled in
  induction fields generalizing done table with
  | nil =>
    rw [nodesOf, List.append_nil, tableTexts]
    exact ⟨table, .refl _⟩
  | cons field fields ih =>
    obtain ⟨name, d⟩ := field
    rw [List.forall_mem_cons] at blocks
    rw [depthOfFields] at hd
    have rest := fun {done' : Entries} (hf' : Fresh done' fields) table' => ih table' hf' blocks.2
      (fun name inner hm => records name inner (List.mem_cons_of_mem _ hm))
      (fun name items inner hm => lists name items inner (List.mem_cons_of_mem _ hm)) (by omega)
    cases d with
    | record inner =>
      obtain ⟨tabular, readsBack⟩ := records name inner (List.mem_cons_self ..)
      obtain ⟨table₁, first⟩ := reads_record table readsBack hp hf.not_mem
        (by rw [Document.depth] at hd; omega)
      obtain ⟨table₂, rest⟩ := rest (hf.add (.table .header (nodesOf inner))) table₁
      refine ⟨table₂, ?_⟩
      rw [tableTexts, nodesOf_cons (by rintro ⟨⟩), nodeOf, List.append_cons done, tabular.headed,
        if_neg Bool.false_ne_true]
      exact first.append rest
    | list items =>
      cases items with
      | nil => cases blocks.1
      | cons item items =>
        rw [Document.depth] at hd
        obtain ⟨table₁, first⟩ := reads_items table hp hf.not_mem blocks.1
          (fun inner hm => lists name _ inner (List.mem_cons_self ..) hm) (by omega) []
        obtain ⟨table₂, rest⟩ := rest (hf.add (.tables (itemsOf (item :: items)))) table₁
        refine ⟨table₂, ?_⟩
        have filled : itemsOf (item :: items) ≠ [] := by
          cases item with
          | record inner => exact List.cons_ne_nil (nodesOf inner) (itemsOf items)
          | _ => cases blocks.1
        rw [List.nil_append, withTables_nil, withTables, if_neg (by simpa using filled)] at first
        rw [tableTexts, nodesOf_cons (by rintro ⟨⟩), nodeOf, List.append_cons done, if_pos blocks.1]
        exact first.append rest
    | _ => cases blocks.1

theorem Tabular.readsBack (h : Tabular fields) : ReadsBack fields := by
  induction h with
  | @intro values tables lines blocks names headed records lists ihRecords ihLists =>
    intro path fill hp hd
    have fresh : Fresh [] (values ++ tables) := names
    have first : Fresh [] values := fresh.sublist ((List.sublist_append_left values tables).map _)
    have body := reads_bodyText hp lines first
    obtain ⟨table, texts⟩ := reads_tableTexts path hp fresh.addAll blocks
      (fun name inner hm => ⟨records name inner hm, ihRecords name inner hm⟩) ihLists
      (by rw [depthOfFields_append] at hd; omega)
    refine ⟨table, ?_⟩
    rw [bodyText_append_tables blocks, tableTexts_append_lines lines, nodesOf_append]
    exact body.append texts

theorem fieldsOf_append (entries more : Entries) : fieldsOf (entries ++ more) = fieldsOf entries ++ fieldsOf more := by
  induction entries with
  | nil => rfl
  | cons entry rest ih => rw [List.cons_append, fieldsOf, fieldsOf, ih, List.cons_append]

/-! What is built up is the record that was written, without the fields that have no value. -/

theorem recordsOf_itemsOf (hr : items.all isRecord = true)
    (hi : ∀ inner, .record inner ∈ items → fieldsOf (nodesOf inner) = rereadFields .float false inner) :
    recordsOf (itemsOf items) = rereadItems .float false items := by
  induction items with
  | nil => rfl
  | cons item items ih =>
    cases item with
    | record inner =>
      rw [itemsOf, recordsOf, rereadItems, Document.reread, hi inner (List.mem_cons_self ..),
        ih (Bool.and_eq_true_iff.mp hr).2 fun inner hm => hi inner (List.mem_cons_of_mem _ hm)]
    | _ => cases hr

theorem fieldsOf_nodesOf_lines (lines : ∀ f ∈ fields, IsLine f.2) :
    fieldsOf (nodesOf fields) = rereadFields .float false fields := by
  induction fields with
  | nil => rfl
  | cons field fields ih =>
    obtain ⟨name, d⟩ := field
    rw [List.forall_mem_cons] at lines
    cases lines.1 <;> simp [nodesOf, fieldsOf, nodeOf, Node.toDocument, ih lines.2]

theorem fieldsOf_nodesOf_tables (blocks : ∀ f ∈ fields, isTable f.2 = true)
    (records : ∀ name inner, (name, .record inner) ∈ fields →
      fieldsOf (nodesOf inner) = rereadFields .float false inner)
    (lists : ∀ name items inner, (name, .list items) ∈ fields → .record inner ∈ items →
      fieldsOf (nodesOf inner) = rereadFields .float false inner) :
    fieldsOf (nodesOf fields) = rereadFields .float false fields := by
  induction fields with
  | nil => rfl
  | cons field fields ih =>
    obtain ⟨name, d⟩ := field
    rw [List.forall_mem_cons] at blocks
    have rest := ih blocks.2 (fun name inner hm => records name inner (List.mem_cons_of_mem _ hm))
      (fun name items inner hm => lists name items inner (List.mem_cons_of_mem _ hm))
    cases d with
    | record inner =>
      have first := records name inner (List.mem_cons_self ..)
      simp [nodesOf, fieldsOf, nodeOf, Node.toDocument, rest, first]
    | list ds =>
      cases ds with
      | nil => cases blocks.1
      | cons item ds =>
        have first := recordsOf_itemsOf blocks.1 fun inner hm => lists name (item :: ds) inner (List.mem_cons_self ..) hm
        rw [nodesOf_cons (by rintro ⟨⟩), fieldsOf, nodeOf, Node.toDocument, rest, first,
          rereadFields_cons (by rintro ⟨⟩), Document.reread]
    | _ => cases blocks.1

theorem Tabular.fieldsOf_nodesOf (h : Tabular fields) : fieldsOf (nodesOf fields) = rereadFields .float false fields := by
  induction h with
  | intro lines blocks _ _ _ _ ihRecords ihLists =>
    rw [nodesOf_append, fieldsOf_append, rereadFields_append, fieldsOf_nodesOf_lines lines,
      fieldsOf_nodesOf_tables blocks ihRecords ihLists]

/-- A record is read back from its text, but for the fields without a value. -/
theorem parse?_print (h : Tabular fields) (hd : depthOfFields fields < depthLimit) :
    parse? (print fields) = some (.record (rereadFields .float false fields)) := by
  obtain ⟨table, text⟩ := h.readsBack [] id .root (by simpa using hd)
  rw [id, id] at text
  rw [← h.fieldsOf_nodesOf]
  cases h with
  | @intro values tables lines blocks _ headed _ _ =>
    rcases headed with hv | hnil
    · obtain ⟨c, t, hc, ho⟩ := exists_bodyText_cons lines hv
      rw [← bodyText_append_tables blocks] at hc
      have hne : (bodyText (values ++ tables)).isEmpty = false := Bool.eq_false_iff.mpr fun he => by
        rw [String.isEmpty_iff.mp he] at hc
        cases hc
      rw [print, if_neg (Bool.eq_false_iff.mp hne)]
      refine text.parse? fun d hm => ?_
      rw [String.toList_append, hc] at hm
      obtain rfl := Option.some.inj hm
      exact ho.ne (by decide)
    · have empty : print [] = "" := by simp [print, bodyText, tableTexts]
      rw [hnil, empty]
      exact (Reads.refl ([], [])).parse? (by rintro _ ⟨⟩)

end

end MotionControl.Toml
