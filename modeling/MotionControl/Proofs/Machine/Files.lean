import MotionControl.Machine.File
import MotionControl.Proofs.Machine.Codecs
import MotionControl.Proofs.Machine.Documents
import MotionControl.Proofs.Outcomes

/-! Machine descriptions saved to files and loaded from them again. -/
namespace MotionControl

/-! In TOML every part of a description is a table, with its plain values first. -/

section
open Toml (IsLine Tabular)
variable {fields : Fields}

theorem Toml.Tabular.of_lines (lines : ∀ f ∈ fields, IsLine f.2) (names : (fields.map (·.1)).Nodup)
    (headed : (∃ f ∈ fields, f.2 ≠ .null) ∨ fields = []) : Tabular fields := by
  have table : Tabular (fields ++ []) :=
    .intro lines (by rintro _ ⟨⟩) (by rwa [List.append_nil]) (by rwa [List.append_nil]) (by rintro _ _ ⟨⟩)
      (by rintro _ _ _ ⟨⟩)
  rwa [List.append_nil] at table

theorem AxisHoming.tabular {h : AxisHoming Float} (he : h.toDocument = .record fields) : Tabular fields := by
  obtain rfl := Document.record.inj he
  have cycle : h.cycle.toNat < 2 ^ 63 := h.cycle.toNat_lt.trans (by decide)
  refine .of_lines ?_ (by simp) (.inl ⟨_, List.mem_cons_self .., by rintro ⟨⟩⟩)
  simp [IsLine.integer cycle, IsLine.bool, IsLine.float]

/-- A homing group stands below the values of its axis; its absence is one of them. -/
theorem AxisSettings.tabular {a : AxisSettings Float} (he : a.toDocument = .record fields) : Tabular fields := by
  obtain rfl := Document.record.inj he
  obtain ⟨name, maxTravel, softLimits, ganged, homing⟩ := a
  cases homing with
  | none =>
    refine .of_lines ?_ (by simp) (.inl ⟨_, List.mem_cons_self .., by rintro ⟨⟩⟩)
    simp [IsLine.string, IsLine.float, IsLine.bool, IsLine.null]
  | some h =>
    refine @Tabular.intro [_, _, _, _] [_] ?_ ?_ (by simp) (.inl ⟨_, List.mem_cons_self .., by rintro ⟨⟩⟩) ?_ ?_
    · simp [IsLine.string, IsLine.float, IsLine.bool]
    · simp [AxisHoming.toDocument, Toml.isTable]
    · intro name fields hm
      obtain ⟨rfl, he⟩ := Prod.mk.inj (List.mem_singleton.mp hm)
      exact AxisHoming.tabular he.symm
    · intro name items fields hm
      cases (Prod.mk.inj (List.mem_singleton.mp hm)).2

theorem MotionSettings.tabular {m : MotionSettings Float} (he : m.toDocument = .record fields) : Tabular fields := by
  obtain rfl := Document.record.inj he
  have depth : m.maxSegmentDepth.toNat < 2 ^ 63 := m.maxSegmentDepth.toNat_lt.trans (by decide)
  refine .of_lines ?_ (by simp) (.inl ⟨_, List.mem_cons_self .., by rintro ⟨⟩⟩)
  simp [IsLine.integer depth, IsLine.float]

theorem NameTable.tabular (params : NameTable Float) : Tabular (params.toList.map fun (n, x) => (n, .float x)) := by
  refine .of_lines ?_ ?_ ?_
  · rw [List.forall_mem_map]
    exact fun _ _ => .float _
  · rw [List.map_map]
    exact (List.pairwise_map.mpr params.sorted).imp (R := (· < ·)) fun h => (String.ne_of_lt h)
  · cases params.toList with
    | nil => exact .inr rfl
    | cons entry rest => exact .inl ⟨_, List.mem_cons_self .., by rintro ⟨⟩⟩

theorem KinematicsSettings.tabular {k : KinematicsSettings Float} (he : k.toDocument = .record fields) :
    Tabular fields := by
  obtain rfl := Document.record.inj he
  cases k with
  | custom name params =>
    refine @Tabular.intro [_, _] [_] ?_ ?_ (by simp) (.inl ⟨_, List.mem_cons_self .., by rintro ⟨⟩⟩) ?_ ?_
    · simp [IsLine.string]
    · simp [Toml.isTable]
    · intro name fields hm
      obtain ⟨rfl, he⟩ := Prod.mk.inj (List.mem_singleton.mp hm)
      obtain rfl := Document.record.inj he
      exact params.tabular
    · intro name items fields hm
      cases (Prod.mk.inj (List.mem_singleton.mp hm)).2
  | _ =>
    refine .of_lines ?_ (by simp [fields]) (.inl ⟨_, List.mem_cons_self .., by rintro ⟨⟩⟩)
    simp [fields, IsLine.string, IsLine.float]

theorem MachineDescription.tabular {m : MachineDescription Float} (h : m.axes ≠ []) : Tabular m.fields := by
  refine @Tabular.intro [_] [_, _, _] ?_ ?_ (by simp) (.inl ⟨_, List.mem_cons_self .., by rintro ⟨⟩⟩) ?_ ?_
  · simp [IsLine.string]
  · obtain ⟨a, axes, ha⟩ := List.exists_cons_of_ne_nil h
    simp [ha, KinematicsSettings.toDocument, MotionSettings.toDocument, AxisSettings.toDocument, Toml.isTable,
      Toml.isRecord]
  · intro name fields hm
    simp only [List.mem_cons, List.not_mem_nil, or_false, Prod.mk.injEq] at hm
    obtain ⟨-, hk⟩ | ⟨-, ha⟩ | ⟨-, hm⟩ := hm
    · exact KinematicsSettings.tabular hk.symm
    · cases ha
    · exact MotionSettings.tabular hm.symm
  · intro name items fields hm hi
    simp only [List.mem_cons, List.not_mem_nil, or_false, Prod.mk.injEq] at hm
    obtain ⟨-, hk⟩ | ⟨-, ha⟩ | ⟨-, hm⟩ := hm
    · cases hk
    · obtain rfl := Document.list.inj ha
      obtain ⟨a, -, ha⟩ := List.mem_map.mp hi
      exact AxisSettings.tabular ha
    · cases hm

theorem KinematicsSettings.depth_le (k : KinematicsSettings Float) : k.toDocument.depth ≤ 2 := by
  cases k with
  | custom name params =>
    have flat : Document.depthOfFields (params.toList.map fun (n, x) => (n, .float x)) = 0 :=
      Document.depthOfFields_of_flat (List.forall_mem_map.mpr fun _ _ => rfl)
    simp [toDocument, fields, Document.depth, Document.depthOfFields, flat]
  | _ => simp [toDocument, fields, Document.depth, Document.depthOfFields]

theorem AxisSettings.depth_le (a : AxisSettings Float) : a.toDocument.depth ≤ 2 := by
  obtain ⟨name, maxTravel, softLimits, ganged, homing⟩ := a
  cases homing <;> simp [toDocument, AxisHoming.toDocument, Document.depth, Document.depthOfFields]

/-- Nothing in a description is nested deeper than the homing group of an axis. -/
theorem MachineDescription.depthOfFields_le (m : MachineDescription Float) : Document.depthOfFields m.fields ≤ 3 := by
  have axes : Document.depthOfItems (m.axes.map AxisSettings.toDocument) ≤ 2 := by
    induction m.axes with
    | nil => exact Nat.zero_le _
    | cons a axes ih => exact Nat.max_le.mpr ⟨a.depth_le, ih⟩
  have kinematics := m.kinematics.depth_le
  simp only [fields, Document.depthOfFields, Document.depth, MotionSettings.toDocument]
  omega

/-- A description that has axes is read back from its TOML text, its numbers finite or not. -/
theorem TextCodecs.machine?_toml {codecs : TextCodecs} {m : MachineDescription Float} {text : String}
    (ht : codecs.toml.IsToml) (h : m.axes ≠ []) (hw : codecs.toml.write? m.toDocument = some text) :
    codecs.machine? .toml text = some m := by
  have shallow : Document.depthOfFields m.fields < Toml.depthLimit :=
    m.depthOfFields_le.trans_lt (by decide)
  have read : codecs.toml.read? text = some (m.toDocument.reread .float false) :=
    ht.read_write (MachineDescription.tabular h) shallow hw
  rw [machine?, ofFormat, read]
  exact (MachineDescription.ofDocument_reread m).mpr fun _ _ => rfl

end

/-! In JSON every document can be written, but not every number comes back from its text. -/

section
open Json (Written)

theorem AxisHoming.written (h : AxisHoming Float) : Written h.toDocument := by
  have cycle : h.cycle.toNat < 0x10000000000000000 := h.cycle.toNat_lt.trans (by decide)
  exact .record (by simp [Written.integer cycle, Written.bool, Written.float])

theorem AxisSettings.written (a : AxisSettings Float) : Written a.toDocument := by
  obtain ⟨name, maxTravel, softLimits, ganged, homing⟩ := a
  cases homing with
  | none => exact .record (by simp [Written.string, Written.float, Written.bool, Written.null])
  | some h => exact .record (by simp [Written.string, Written.float, Written.bool, h.written])

theorem MotionSettings.written (m : MotionSettings Float) : Written m.toDocument := by
  have depth : m.maxSegmentDepth.toNat < 0x10000000000000000 := m.maxSegmentDepth.toNat_lt.trans (by decide)
  exact .record (by simp [Written.integer depth, Written.float])

theorem KinematicsSettings.written (k : KinematicsSettings Float) : Written k.toDocument := by
  cases k with
  | custom name params =>
    have table : Written (.record (params.toList.map fun (n, x) => (n, .float x))) :=
      .record (List.forall_mem_map.mpr fun _ _ => .float _)
    exact .record (by simp [fields, Written.string, table])
  | _ => exact .record (by simp [fields, Written.string, Written.float])

theorem MachineDescription.written (m : MachineDescription Float) : Written m.toDocument := by
  have axes : Written (.list (m.axes.map AxisSettings.toDocument)) :=
    .list (List.forall_mem_map.mpr fun a _ => a.written)
  exact .record (by simp [fields, Written.string, m.kinematics.written, axes, m.motion.written])

namespace TextCodecs
variable {codecs : TextCodecs} {m : MachineDescription Float} {number : Float → Document} {text : String}

theorem machine?_json (hj : codecs.json.IsJson number) (hw : codecs.json.write? m.toDocument = some text) :
    codecs.machine? .json text = MachineDescription.ofDocument .json (m.toDocument.reread number true) := by
  have shallow : m.toDocument.depth < 128 :=
    Nat.lt_of_le_of_lt (Nat.succ_le_succ m.depthOfFields_le) (by decide)
  rw [machine?, ofFormat, hj.read_write m.written shallow hw]
  rfl

/-- A description is read back from its JSON text exactly when each of its numbers is. -/
theorem machine?_json_eq_some (hj : codecs.json.IsJson number) (hw : codecs.json.write? m.toDocument = some text) :
    codecs.machine? .json text = some m ↔ ∀ x ∈ m.numbers, Document.Restores number x := by
  rw [machine?_json hj hw]
  exact m.ofDocument_reread

/-- No description is read from the JSON text of one with a number that is not finite. -/
theorem machine?_json_eq_none (hj : codecs.json.IsJson number) (hw : codecs.json.write? m.toDocument = some text)
    (h : ∃ x ∈ m.numbers, x.isFinite = false) : codecs.machine? .json text = none := by
  obtain ⟨x, hx, hf⟩ := h
  rw [machine?_json hj hw]
  cases hr : MachineDescription.ofDocument .json (m.toDocument.reread number true) with
  | none => rfl
  | some m' =>
    obtain ⟨y, hy⟩ := MachineDescription.isNumber_of_ofDocument hr x hx
    rw [hj.not_finite hf] at hy
    cases hy

end TextCodecs

end

/-- What is reported of a text that is not read. -/
def FileFormat.malformed : FileFormat → SettingsError
  | json => .json
  | toml => .toml

theorem MachineDescription.axes_ne_nil_of_validate {m : MachineDescription Float} (h : m.validate = .ok ()) :
    m.axes ≠ [] := by
  rintro he
  rw [validate, he] at h
  cases h

namespace TextCodecs
variable {codecs : TextCodecs} {m : MachineDescription Float} {number : Float → Document} {path text : String}
  {format : FileFormat}

theorem save_eq_ok (hf : FileFormat.ofPath? path = some format) : codecs.save m path = .ok text ↔
    m.validate = .ok () ∧ (codecs.ofFormat format).write? m.toDocument = some text := by
  have written {written? : Option String} {e : SettingsError} :
      written?.elim (.error e) .ok = (.ok text : Except SettingsError String) ↔ written? = some text := by
    cases written? <;> simp
  rw [save, Outcome.bind_eq_ok, hf]
  cases format <;> exact ⟨fun ⟨_, hv, h⟩ => ⟨hv, written.mp h⟩, fun ⟨hv, h⟩ => ⟨(), hv, written.mpr h⟩⟩

theorem load_toUTF8 (hf : FileFormat.ofPath? path = some format) : codecs.load path (.ok text.toUTF8) =
    (codecs.machine? format text).elim (.error format.malformed) .ok >>=
      fun machine => machine.validate >>= fun _ => pure machine := by
  have utf8 : String.fromUTF8? text.toUTF8 = some text := by
    rw [String.toUTF8_eq_toByteArray, String.fromUTF8?, dif_pos text.isValidUTF8]
    rfl
  simp only [load, Except.mapError, bind, Except.bind, utf8, hf]
  cases format <;> rfl

theorem load_eq_ok_iff_machine? (hf : FileFormat.ofPath? path = some format) (hv : m.validate = .ok ()) :
    codecs.load path (.ok text.toUTF8) = .ok m ↔ codecs.machine? format text = some m := by
  rw [load_toUTF8 hf]
  cases codecs.machine? format text with
  | none => exact ⟨nofun, nofun⟩
  | some machine =>
    rw [Option.elim_some, Outcome.bind_eq_ok, Option.some.injEq]
    constructor
    · rintro ⟨_, ⟨⟩, h⟩
      obtain ⟨_, -, h⟩ := Outcome.bind_eq_ok.mp h
      cases h
      rfl
    · rintro rfl
      exact ⟨machine, rfl, Outcome.bind_eq_ok.mpr ⟨(), hv, rfl⟩⟩

theorem ofPath?_toml (h : Path.extension? path = some "toml") : FileFormat.ofPath? path = some .toml := by
  rw [FileFormat.ofPath?, h]
  rfl

theorem ofPath?_json (h : Path.extension? path = some "json") : FileFormat.ofPath? path = some .json := by
  rw [FileFormat.ofPath?, h]
  rfl

/-- Whatever is saved as TOML is loaded as it was: every number, NaN and the infinities among them, every name
and every part that is missing. -/
theorem load_of_save_toml (ht : codecs.toml.IsToml) (hf : Path.extension? path = some "toml")
    (hs : codecs.save m path = .ok text) : codecs.load path (.ok text.toUTF8) = .ok m := by
  obtain ⟨hv, hw⟩ := (save_eq_ok (ofPath?_toml hf)).mp hs
  exact (load_eq_ok_iff_machine? (ofPath?_toml hf) hv).mpr (machine?_toml ht (m.axes_ne_nil_of_validate hv) hw)

/-- A gantry with parameters that are not finite, of which one axis has a home switch out of reach and the other
has none. -/
def openGantry : MachineDescription Float where
  name := "Open gantry"
  kinematics := .custom "gantry" ⟨[("reach", 1.0 / 0.0), ("skew", 0.0 / 0.0)], by decide⟩
  axes := [⟨"X", 300.0, true, true, some { (default : AxisHoming Float) with homePosition := 1.0 / 0.0 }⟩,
    ⟨"y", 250.5, false, false, none⟩]
  motion := default

theorem openGantry_loaded_from_toml :
    standard.toml.IsToml ∧ Path.extension? "machine.toml" = some "toml" ∧
      standard.save openGantry "machine.toml" = .ok (Toml.print openGantry.fields) ∧
      standard.load "machine.toml" (.ok (Toml.print openGantry.fields).toUTF8) = .ok openGantry := by
  have extension : Path.extension? "machine.toml" = some "toml" := by decide +kernel
  have saved : standard.save openGantry "machine.toml" = .ok (Toml.print openGantry.fields) :=
    (save_eq_ok (ofPath?_toml extension)).mpr ⟨by decide +kernel, rfl⟩
  exact ⟨Toml.isToml_codec, extension, saved, load_of_save_toml Toml.isToml_codec extension saved⟩

/-- What is saved as JSON is loaded as it was exactly when all its numbers are finite, provided that those which
are come back as themselves. A number that is not finite is in range all the same, but leaves a text from which
nothing is loaded. -/
theorem load_of_save_json (hj : codecs.json.IsJson number)
    (hn : ∀ x ∈ m.numbers, x.isFinite = true → Document.Restores number x)
    (hf : Path.extension? path = some "json") (hs : codecs.save m path = .ok text) :
    (codecs.load path (.ok text.toUTF8) = .ok m ↔ ∀ x ∈ m.numbers, x.isFinite = true) ∧
      ((∃ x ∈ m.numbers, x.isFinite = false) → codecs.load path (.ok text.toUTF8) = .error .json) := by
  obtain ⟨hv, hw⟩ := (save_eq_ok (ofPath?_json hf)).mp hs
  have lost (h : ∃ x ∈ m.numbers, x.isFinite = false) : codecs.load path (.ok text.toUTF8) = .error .json := by
    rw [load_toUTF8 (ofPath?_json hf), machine?_json_eq_none hj hw h]
    rfl
  refine ⟨⟨fun h x hx => ?_, fun h => ?_⟩, lost⟩
  · by_contra hx'
    rw [lost ⟨x, hx, Bool.eq_false_iff.mpr hx'⟩] at h
    cases h
  · exact (load_eq_ok_iff_machine? (ofPath?_json hf) hv).mpr
      ((machine?_json_eq_some hj hw).mpr fun x hx => hn x hx (h x hx))

theorem default_loaded_from_json :
    standard.json.IsJson Json.numberDocument ∧
      (∀ x ∈ (default : MachineDescription Float).numbers, x.isFinite = true → Document.Restores Json.numberDocument x) ∧
      Path.extension? "machine.json" = some "json" ∧
      standard.save default "machine.json" = .ok (Json.pretty (default : MachineDescription Float).toDocument) ∧
      standard.load "machine.json" (.ok (Json.pretty (default : MachineDescription Float).toDocument).toUTF8) =
        .ok default := by
  have restored : ∀ x ∈ (default : MachineDescription Float).numbers,
      x.isFinite = true → Document.Restores Json.numberDocument x := by decide +kernel
  have extension : Path.extension? "machine.json" = some "json" := by decide +kernel
  have saved : standard.save default "machine.json" =
      .ok (Json.pretty (default : MachineDescription Float).toDocument) :=
    (save_eq_ok (ofPath?_json extension)).mpr ⟨by decide +kernel, rfl⟩
  exact ⟨Json.isJson_codec, restored, extension, saved,
    (load_of_save_json Json.isJson_codec restored extension saved).1.mpr (by decide +kernel)⟩

/-- A machine with its home switch out of reach. -/
def farSwitch : MachineDescription Float :=
  { (default : MachineDescription Float) with
    axes := [⟨"X", 300.0, false, false, some { (default : AxisHoming Float) with homePosition := 1.0 / 0.0 }⟩] }

/-- The machine is in range and saved, but not loaded again. -/
theorem farSwitch_lost_in_json :
    Path.extension? "machine.json" = some "json" ∧
      standard.save farSwitch "machine.json" = .ok (Json.pretty farSwitch.toDocument) ∧
      standard.load "machine.json" (.ok (Json.pretty farSwitch.toDocument).toUTF8) = .error .json := by
  have extension : Path.extension? "machine.json" = some "json" := by decide +kernel
  have written : standard.json.write? farSwitch.toDocument = some (Json.pretty farSwitch.toDocument) := rfl
  have unread : standard.machine? .json (Json.pretty farSwitch.toDocument) = none :=
    machine?_json_eq_none Json.isJson_codec written ⟨1.0 / 0.0, .tail _ (.head _), by decide +kernel⟩
  refine ⟨extension, (save_eq_ok (ofPath?_json extension)).mpr ⟨by decide +kernel, written⟩, ?_⟩
  rw [load_toUTF8 (ofPath?_json extension), unread]
  rfl

end TextCodecs

end MotionControl
