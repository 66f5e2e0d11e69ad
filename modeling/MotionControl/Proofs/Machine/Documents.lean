import Mathlib
import MotionControl.Machine.Decoding
import MotionControl.Machine.Encoding

/-! Machine descriptions read back from the documents they were written as. A text format may give back a number
as something else, and may leave a field without a value out; whatever it does to the numbers, a description
comes back exactly when each of its numbers does. -/
namespace MotionControl

namespace Document
variable {d : Document} {x : Float}

mutual

/-- A document as its text gives it back. Numbers come back as `number` says, and fields without a value only
if they are kept. -/
def reread (number : Float → Document) (keepsNull : Bool) : Document → Document
  | .float x => number x
  | .list items => .list (rereadItems number keepsNull items)
  | .record fields => .record (rereadFields number keepsNull fields)
  | d => d

def rereadItems (number : Float → Document) (keepsNull : Bool) : List Document → List Document
  | [] => []
  | item :: rest => item.reread number keepsNull :: rereadItems number keepsNull rest

def rereadFields (number : Float → Document) (keepsNull : Bool) :
    List (String × Document) → List (String × Document)
  | [] => []
  | (name, .null) :: rest =>
    if keepsNull then (name, .null) :: rereadFields number keepsNull rest else rereadFields number keepsNull rest
  | (name, value) :: rest => (name, value.reread number keepsNull) :: rereadFields number keepsNull rest

end

attribute [simp] reread rereadItems rereadFields

theorem rereadItems_eq_map (number : Float → Document) (keepsNull : Bool) (items : List Document) :
    rereadItems number keepsNull items = items.map (reread number keepsNull) := by
  induction items with
  | nil => rfl
  | cons item rest ih => rw [rereadItems, ih, List.map_cons]

theorem rereadFields_cons {name : String} {value : Document} (h : value ≠ .null) (number : Float → Document)
    (keepsNull : Bool) (rest : List (String × Document)) :
    rereadFields number keepsNull ((name, value) :: rest) =
      (name, value.reread number keepsNull) :: rereadFields number keepsNull rest :=
  rereadFields.eq_3 _ _ name value rest h

theorem rereadFields_append (number : Float → Document) (keepsNull : Bool) (fields more : List (String × Document)) :
    rereadFields number keepsNull (fields ++ more) =
      rereadFields number keepsNull fields ++ rereadFields number keepsNull more := by
  induction fields with
  | nil => rfl
  | cons field rest ih =>
    obtain ⟨name, value⟩ := field
    cases value <;> cases keepsNull <;> simp [ih]

theorem depthOfFields_append (fields more : List (String × Document)) :
    depthOfFields (fields ++ more) = max (depthOfFields fields) (depthOfFields more) := by
  induction fields with
  | nil => exact (Nat.zero_max _).symm
  | cons field rest ih => rw [List.cons_append, depthOfFields, depthOfFields, ih, Nat.max_assoc]

theorem rereadFields_of_floats (number : Float → Document) (keepsNull : Bool) (entries : List (String × Float)) :
    rereadFields number keepsNull (entries.map fun (n, x) => (n, .float x)) =
      entries.map fun (n, x) => (n, number x) := by
  induction entries with
  | nil => rfl
  | cons entry rest ih => simp [ih]

theorem flat_of_float? (h : d.float? = some x) : d.depth = 0 ∧ d.isReadable = true := by
  cases d <;> first | exact ⟨rfl, rfl⟩ | cases h

theorem fields?_record {fields : List (String × Document)} (h : (fields.map (·.1)).Nodup) (names : List String)
    (surplus : Bool) : (record fields).fields? names surplus = some fields := by
  refine if_pos (List.all_eq_true.mpr fun name _ => decide_eq_true ?_)
  have hc := List.nodup_iff_count_le_one.mp h name
  rwa [List.count, List.countP_map] at hc

@[simp] theorem nat?_natCast (bound n : Nat) : nat? bound (.integer n) = if n < bound then some n else none := rfl

theorem depthOfFields_of_flat {fields : List (String × Document)} (h : ∀ f ∈ fields, f.2.depth = 0) :
    depthOfFields fields = 0 := by
  induction fields with
  | nil => rfl
  | cons field rest ih =>
    rw [List.forall_mem_cons] at h
    rw [depthOfFields, h.1, ih h.2, Nat.max_self]

theorem fieldsReadable_of_forall {fields : List (String × Document)} (h : ∀ f ∈ fields, f.2.isReadable = true) :
    fieldsReadable fields = true := by
  induction fields with
  | nil => rfl
  | cons field rest ih =>
    rw [List.forall_mem_cons] at h
    rw [fieldsReadable, h.1, ih h.2, Bool.and_self]

end Document

namespace Fields
variable {β : Type} {fields : Fields} {name other : String} {value : Document} {read : Document → Option β}
  {default : Option β}

@[simp] theorem get_nil : get [] name read default = default := rfl

@[simp] theorem get_cons_self : get ((name, value) :: fields) name read default = read value := by
  rw [get, List.lookup_cons_self]

@[simp] theorem get_cons_of_ne (h : name ≠ other) :
    get ((other, value) :: fields) name read default = get fields name read default := by
  rw [get, List.lookup_cons, beq_eq_false_iff_ne.mpr h, get]

end Fields

namespace NameTable
variable {β : Type}

theorem insertEntry_of_forall_lt {name : String} {value : β} {entries : List (String × β)}
    (h : ∀ e ∈ entries, e.1 < name) : insertEntry name value entries = entries ++ [(name, value)] := by
  induction entries with
  | nil => rfl
  | cons entry rest ih =>
    rw [List.forall_mem_cons] at h
    rw [insertEntry, if_neg (String.lt_asymm h.1), if_pos h.1, ih h.2, List.cons_append]

theorem toList_foldl_insert {todo : List (String × β)} {t : NameTable β}
    (h : (t.toList ++ todo).Pairwise (·.1 < ·.1)) :
    (todo.foldl (fun t e => t.insert e.1 e.2) t).toList = t.toList ++ todo := by
  induction todo generalizing t with
  | nil => exact (List.append_nil _).symm
  | cons e todo ih =>
    have he : (t.insert e.1 e.2).toList = t.toList ++ [e] :=
      insertEntry_of_forall_lt fun e' he' => (List.pairwise_append.mp h).2.2 e' he' e (List.mem_cons_self ..)
    rw [List.foldl_cons, ih (by rwa [he, List.append_assoc]), he, List.append_assoc, List.singleton_append]

theorem toList_ofList {entries : List (String × β)} (h : entries.Pairwise (·.1 < ·.1)) :
    (ofList entries).toList = entries :=
  toList_foldl_insert (t := ∅) h

end NameTable

private theorem mapM_map_eq_some_self {β δ : Type} {write : β → δ} {read : δ → Option β} {items : List β} :
    (items.map write).mapM read = some items ↔ ∀ item ∈ items, read (write item) = some item := by
  induction items with
  | nil => simp
  | cons item rest ih =>
    rw [List.map_cons, List.mapM_cons, List.forall_mem_cons, ← ih]
    simp only [Option.bind_eq_bind, Option.pure_def, Option.bind_eq_some_iff, Option.some.injEq, List.cons.injEq]
    constructor
    · rintro ⟨a, ha, rest', hr, rfl, rfl⟩
      exact ⟨ha, hr⟩
    · rintro ⟨ha, hr⟩
      exact ⟨item, ha, rest, hr, rfl, rfl⟩

private theorem exists_of_mapM {β δ : Type} {read : β → Option δ} {items : List β} {results : List δ}
    (h : items.mapM read = some results) : ∀ item ∈ items, ∃ result, read item = some result := by
  induction items generalizing results with
  | nil => rintro _ ⟨⟩
  | cons item rest ih =>
    rw [List.mapM_cons] at h
    obtain ⟨result, hi, h⟩ := Option.bind_eq_some_iff.mp h
    obtain ⟨results', hr, -⟩ := Option.bind_eq_some_iff.mp h
    exact List.forall_mem_cons.mpr ⟨⟨result, hi⟩, ih hr⟩

/-! The numbers of a description, in the order in which they are written. -/

def KinematicsSettings.numbers {α : Type} : KinematicsSettings α → List α
  | cartesian => []
  | coreXY xScaler => [xScaler]
  | parallelDelta g =>
    [g.crank, g.baseTriangle, g.arm, g.effectorTriangle, g.minAngle, g.maxAngle, g.homingAngle]
  | custom _ params => params.toList.map (·.2)

def AxisHoming.numbers {α : Type} (h : AxisHoming α) : List α := [h.homePosition, h.seekRate, h.feedRate]

def AxisSettings.numbers {α : Type} (a : AxisSettings α) : List α :=
  a.maxTravel :: (a.homing.map AxisHoming.numbers).getD []

def MotionSettings.numbers {α : Type} (m : MotionSettings α) : List α := [m.segmentTolerance, m.arcTolerance]

def MachineDescription.numbers {α : Type} (m : MachineDescription α) : List α :=
  m.kinematics.numbers ++ m.axes.flatMap AxisSettings.numbers ++ m.motion.numbers

/-- A number comes back as some number. -/
def Document.IsNumber (d : Document) : Prop := ∃ x, d.float? = some x

/-- A number comes back as itself. -/
def Document.Restores (number : Float → Document) (x : Float) : Prop := (number x).float? = some x

instance (number : Float → Document) (x : Float) : Decidable (Document.Restores number x) :=
  inferInstanceAs (Decidable (_ = _))

section
open Document (Restores)
variable {format : FileFormat} {number : Float → Document} {keepsNull : Bool}

private theorem names_of_mapM {entries read : List (String × Float)}
    (h : (entries.map fun (n, x) => (n, number x)).mapM (fun field => field.2.float?.map (field.1, ·)) = some read) :
    read.map (·.1) = entries.map (·.1) := by
  induction entries generalizing read with
  | nil =>
    cases h
    rfl
  | cons entry rest ih =>
    rw [List.map_cons, List.mapM_cons] at h
    obtain ⟨a, ha, h⟩ := Option.bind_eq_some_iff.mp h
    obtain ⟨rest', hr, h⟩ := Option.bind_eq_some_iff.mp h
    obtain ⟨x, -, rfl⟩ := Option.map_eq_some_iff.mp ha
    cases h
    rw [List.map_cons, ih hr, List.map_cons]

private theorem mapM_reread_eq_self {entries : List (String × Float)} :
    (entries.map fun (n, x) => (n, number x)).mapM (fun field => field.2.float?.map (field.1, ·)) = some entries ↔
      ∀ x ∈ entries.map (·.2), Restores number x := by
  rw [mapM_map_eq_some_self, List.forall_mem_map]
  refine forall₂_congr fun (name, x) _ => ?_
  rw [Option.map_eq_some_iff, Restores]
  constructor
  · rintro ⟨y, hy, ⟨⟩⟩
    exact hy
  · exact fun h => ⟨x, h, rfl⟩

theorem paramTable?_reread (params : NameTable Float) :
    paramTable? (.record (params.toList.map fun (n, x) => (n, number x))) = some params ↔
      ∀ x ∈ params.toList.map (·.2), Restores number x := by
  rw [paramTable?, ← mapM_reread_eq_self, Option.map_eq_some_iff]
  constructor
  · rintro ⟨read, hr, rfl⟩
    -- the table has its names in order, so the entries that were read had them in order
    have sorted : read.Pairwise (·.1 < ·.1) := by
      rw [← List.pairwise_map (R := (· < ·)), names_of_mapM hr, List.pairwise_map]
      exact (NameTable.ofList read).sorted
    rw [NameTable.toList_ofList sorted] at hr ⊢
    exact hr
  · exact fun h => ⟨_, h, NameTable.ext (NameTable.toList_ofList params.sorted)⟩

@[simp] theorem AxisHoming.toDocument_ne_null (h : AxisHoming Float) : h.toDocument ≠ .null := nofun

@[simp] theorem KinematicsSettings.toDocument_ne_null (k : KinematicsSettings Float) : k.toDocument ≠ .null := nofun

@[simp] theorem MotionSettings.toDocument_ne_null (m : MotionSettings Float) : m.toDocument ≠ .null := nofun

theorem AxisHoming.ofDocument_reread (h : AxisHoming Float) :
    AxisHoming.ofDocument format (h.toDocument.reread number keepsNull) = some h ↔
      ∀ x ∈ h.numbers, Restores number x := by
  obtain ⟨cycle, allowSingleAxis, positiveDirection, homePosition, seekRate, feedRate⟩ := h
  have hc : cycle.toNat < UInt8.size := cycle.toNat_lt
  simp [AxisHoming.ofDocument, AxisHoming.toDocument, AxisHoming.numbers, Document.fields?_record,
    Document.bool?, hc, Option.bind_eq_some_iff, Restores]

theorem homing?_reread (h : AxisHoming Float) :
    homing? format (h.toDocument.reread number keepsNull) = some (some h) ↔
      ∀ x ∈ h.numbers, Restores number x := by
  rw [← @AxisHoming.ofDocument_reread format number keepsNull]
  exact Option.map_eq_some_iff.trans (by simp)

theorem AxisSettings.ofDocument_reread (a : AxisSettings Float) :
    AxisSettings.ofDocument format (a.toDocument.reread number keepsNull) = some a ↔
      ∀ x ∈ a.numbers, Restores number x := by
  obtain ⟨name, maxTravel, softLimits, ganged, homing⟩ := a
  cases homing with
  | none =>
    cases keepsNull <;>
      simp [AxisSettings.ofDocument, AxisSettings.toDocument, AxisSettings.numbers, Document.fields?_record,
        Document.bool?, Document.string?, homing?, Option.bind_eq_some_iff, Restores]
  | some h =>
    simp [AxisSettings.ofDocument, AxisSettings.toDocument, AxisSettings.numbers, Document.fields?_record,
      Document.bool?, Document.string?, homing?_reread, Option.bind_eq_some_iff, Restores]

theorem MotionSettings.ofDocument_reread (m : MotionSettings Float) :
    MotionSettings.ofDocument format (m.toDocument.reread number keepsNull) = some m ↔
      ∀ x ∈ m.numbers, Restores number x := by
  obtain ⟨segmentTolerance, maxSegmentDepth, arcTolerance⟩ := m
  have hd : maxSegmentDepth.toNat < UInt32.size := maxSegmentDepth.toNat_lt
  simp [MotionSettings.ofDocument, MotionSettings.toDocument, MotionSettings.numbers, Document.fields?_record,
    hd, Option.bind_eq_some_iff, Restores]

theorem axes?_reread (axes : List (AxisSettings Float)) :
    axes? format (.list (Document.rereadItems number keepsNull (axes.map AxisSettings.toDocument))) = some axes ↔
      ∀ x ∈ axes.flatMap AxisSettings.numbers, Restores number x := by
  rw [Document.rereadItems_eq_map, List.map_map, axes?, mapM_map_eq_some_self, List.forall_mem_flatMap]
  exact forall₂_congr fun a _ => a.ofDocument_reread

namespace KinematicsSettings

theorem tagged?_record {tag : String} {fields : List (String × Document)} (h : ∀ f ∈ fields, f.1 ≠ "type") :
    tagged? (.record (("type", .string tag) :: fields)) = some (tag, .record fields) := by
  have hc : fields.countP (·.1 == "type") = 0 := List.countP_eq_zero.mpr fun f hf => by simpa using h f hf
  have hf : fields.filter (·.1 != "type") = fields := List.filter_eq_self.mpr fun f hf => by simpa using h f hf
  rw [tagged?, List.countP_cons, hc, List.lookup_cons_self, List.filter_cons, hf]
  rfl

theorem tagged?_reread (k : KinematicsSettings Float) :
    tagged? (k.toDocument.reread number keepsNull) =
      some (k.tag, .record (Document.rereadFields number keepsNull k.fields)) := by
  refine tagged?_record fun f hf => ?_
  cases k <;> simp only [fields, Document.rereadFields] at hf <;> revert hf f <;> simp

theorem ofTagged_reread (k : KinematicsSettings Float) :
    ofTagged k.tag (.record (Document.rereadFields number keepsNull k.fields)) = some k ↔
      ∀ x ∈ k.numbers, Restores number x := by
  cases k with
  | cartesian => simp [ofTagged, tag, numbers]
  | coreXY xScaler =>
    simp [ofTagged, tag, fields, numbers, Document.fields?_record, Option.bind_eq_some_iff, Restores]
  | parallelDelta g =>
    obtain ⟨crank, baseTriangle, arm, effectorTriangle, minAngle, maxAngle, homingAngle⟩ := g
    simp [ofTagged, tag, fields, numbers, Document.fields?_record, DeltaSettings.ofFields, Option.bind_eq_some_iff,
      Restores]
  | custom name params =>
    simp [ofTagged, tag, fields, numbers, Document.fields?_record, Option.bind_eq_some_iff, paramTable?_reread,
      Document.rereadFields_of_floats, Document.string?]

/-- Numbers that are read are no deeper than the lists and records that hold them, and none of them is missing. -/
theorem flat_reread (k : KinematicsSettings Float) (h : ∀ x ∈ k.numbers, Restores number x) :
    (k.toDocument.reread number keepsNull).isReadable = true ∧
      (k.toDocument.reread number keepsNull).depth ≤ 2 := by
  have flat : ∀ x ∈ k.numbers, (number x).depth = 0 ∧ (number x).isReadable = true :=
    fun x hx => Document.flat_of_float? (h x hx)
  cases k with
  | cartesian => exact ⟨rfl, Nat.le_succ 1⟩
  | coreXY xScaler =>
    simp only [numbers, List.forall_mem_singleton] at flat
    simp [toDocument, fields, tag, Document.isReadable, Document.fieldsReadable, Document.depth,
      Document.depthOfFields, flat]
  | parallelDelta g =>
    simp only [numbers, List.forall_mem_cons] at flat
    simp [toDocument, fields, tag, Document.isReadable, Document.fieldsReadable, Document.depth,
      Document.depthOfFields, flat]
  | custom name params =>
    simp only [numbers, List.forall_mem_map] at flat
    have hr : Document.fieldsReadable (params.toList.map fun (n, x) => (n, number x)) = true :=
      Document.fieldsReadable_of_forall (List.forall_mem_map.mpr fun e he => (flat e he).2)
    have hd : Document.depthOfFields (params.toList.map fun (n, x) => (n, number x)) = 0 :=
      Document.depthOfFields_of_flat (List.forall_mem_map.mpr fun e he => (flat e he).1)
    simp [toDocument, fields, tag, Document.isReadable, Document.fieldsReadable, Document.depth,
      Document.depthOfFields, Document.rereadFields_of_floats, hr, hd]

/-- Kinematics are read whatever their kind, as soon as each of their numbers is. -/
theorem ofDocument_reread (k : KinematicsSettings Float) :
    ofDocument format (k.toDocument.reread number keepsNull) = some k ↔ ∀ x ∈ k.numbers, Restores number x := by
  rw [ofDocument, tagged?_reread, ← @ofTagged_reread number keepsNull]
  dsimp only [Option.bind_eq_bind, Option.bind_some]
  refine ⟨fun h => ?_, fun h => ?_⟩
  · split at h
    · exact h
    · cases h
  · obtain ⟨hr, hd⟩ := @flat_reread number keepsNull k (ofTagged_reread k |>.mp h)
    have hl : format.depthLimit.all ((k.toDocument.reread number keepsNull).depth ≤ ·) = true := by
      cases format with
      | json => exact decide_eq_true (hd.trans (by decide))
      | toml => rfl
    rw [hr, hl]
    exact h

end KinematicsSettings

/-- A description comes back as it was exactly when each of its numbers does. -/
theorem MachineDescription.ofDocument_reread (m : MachineDescription Float) :
    MachineDescription.ofDocument format (m.toDocument.reread number keepsNull) = some m ↔
      ∀ x ∈ m.numbers, Restores number x := by
  have parts : MachineDescription.ofDocument format (m.toDocument.reread number keepsNull) = some m ↔
      KinematicsSettings.ofDocument format (m.kinematics.toDocument.reread number keepsNull) = some m.kinematics ∧
        axes? format (.list (Document.rereadItems number keepsNull (m.axes.map AxisSettings.toDocument))) =
          some m.axes ∧
        MotionSettings.ofDocument format (m.motion.toDocument.reread number keepsNull) = some m.motion := by
    obtain ⟨name, kinematics, axes, motion⟩ := m
    simp [MachineDescription.ofDocument, MachineDescription.toDocument, MachineDescription.fields,
      Document.fields?_record, Document.string?,
      Option.bind_eq_some_iff]
  rw [parts, KinematicsSettings.ofDocument_reread, axes?_reread, MotionSettings.ofDocument_reread,
    MachineDescription.numbers, List.forall_mem_append, List.forall_mem_append, and_assoc]

end

section
open Document (IsNumber)
variable {format : FileFormat} {number : Float → Document} {keepsNull : Bool}

theorem AxisHoming.isNumber_of_ofDocument {h h' : AxisHoming Float}
    (he : AxisHoming.ofDocument format (h.toDocument.reread number keepsNull) = some h') :
    ∀ x ∈ h.numbers, IsNumber (number x) := by
  obtain ⟨cycle, allowSingleAxis, positiveDirection, homePosition, seekRate, feedRate⟩ := h
  have hc : cycle.toNat < UInt8.size := cycle.toNat_lt
  obtain ⟨x, hx, y, hy, z, hz, -⟩ : ∃ x, (number homePosition).float? = some x ∧ ∃ y, (number seekRate).float? = some y ∧
      ∃ z, (number feedRate).float? = some z ∧ _ = h' := by
    simpa [AxisHoming.ofDocument, AxisHoming.toDocument, Document.fields?_record, Document.bool?, hc,
      Option.bind_eq_some_iff] using he
  simp [AxisHoming.numbers, IsNumber, hx, hy, hz]

theorem AxisSettings.isNumber_of_ofDocument {a a' : AxisSettings Float}
    (he : AxisSettings.ofDocument format (a.toDocument.reread number keepsNull) = some a') :
    ∀ x ∈ a.numbers, IsNumber (number x) := by
  obtain ⟨name, maxTravel, softLimits, ganged, homing⟩ := a
  cases homing with
  | none =>
    cases keepsNull <;>
      simp [AxisSettings.ofDocument, AxisSettings.toDocument, Document.fields?_record,
        Document.bool?, Document.string?, homing?, Option.bind_eq_some_iff] at he <;>
      obtain ⟨x, hx, -⟩ := he <;> simp [AxisSettings.numbers, IsNumber, hx]
  | some h =>
    simp [AxisSettings.ofDocument, AxisSettings.toDocument, Document.fields?_record,
      Document.bool?, Document.string?, Option.bind_eq_some_iff] at he
    obtain ⟨x, hx, h', hh, -⟩ := he
    obtain ⟨_, hh, -⟩ := Option.map_eq_some_iff.mp hh
    simpa [AxisSettings.numbers, IsNumber, hx] using AxisHoming.isNumber_of_ofDocument hh

theorem MotionSettings.isNumber_of_ofDocument {m m' : MotionSettings Float}
    (he : MotionSettings.ofDocument format (m.toDocument.reread number keepsNull) = some m') :
    ∀ x ∈ m.numbers, IsNumber (number x) := by
  obtain ⟨segmentTolerance, maxSegmentDepth, arcTolerance⟩ := m
  have hd : maxSegmentDepth.toNat < UInt32.size := maxSegmentDepth.toNat_lt
  obtain ⟨x, hx, y, hy, -⟩ : ∃ x, (number segmentTolerance).float? = some x ∧
      ∃ y, (number arcTolerance).float? = some y ∧ _ = m' := by
    simpa [MotionSettings.ofDocument, MotionSettings.toDocument, Document.fields?_record, hd,
      Option.bind_eq_some_iff] using he
  simp [MotionSettings.numbers, IsNumber, hx, hy]

theorem isNumber_of_paramTable? {entries : List (String × Float)} {params : NameTable Float}
    (he : paramTable? (.record (entries.map fun (n, x) => (n, number x))) = some params) :
    ∀ x ∈ entries.map (·.2), IsNumber (number x) := by
  obtain ⟨read, hr, -⟩ := Option.map_eq_some_iff.mp he
  rw [List.forall_mem_map]
  intro entry hm
  obtain ⟨_, hx⟩ := exists_of_mapM hr _ (List.mem_map_of_mem hm)
  obtain ⟨x, hx, -⟩ := Option.map_eq_some_iff.mp hx
  exact ⟨x, hx⟩

theorem KinematicsSettings.isNumber_of_ofDocument {k k' : KinematicsSettings Float}
    (he : ofDocument format (k.toDocument.reread number keepsNull) = some k') :
    ∀ x ∈ k.numbers, IsNumber (number x) := by
  rw [ofDocument, tagged?_reread] at he
  dsimp only [Option.bind_eq_bind, Option.bind_some] at he
  split at he
  · cases k with
    | cartesian => rintro _ ⟨⟩
    | coreXY xScaler =>
      obtain ⟨x, hx, -⟩ : ∃ x, (number xScaler).float? = some x ∧ _ = k' := by
        simpa [ofTagged, tag, fields, Document.fields?_record, Option.bind_eq_some_iff] using he
      simp [numbers, IsNumber, hx]
    | parallelDelta g =>
      simp [ofTagged, tag, fields, Document.fields?_record, DeltaSettings.ofFields, Option.bind_eq_some_iff] at he
      obtain ⟨_, _, _, _, _, _, _, ⟨h₁, h₂, h₃, h₄, h₅, h₆, h₇⟩, -⟩ := he
      simp [numbers, IsNumber, h₁, h₂, h₃, h₄, h₅, h₆, h₇]
    | custom name params =>
      obtain ⟨params', hp, -⟩ : ∃ params', paramTable? (.record (params.toList.map fun (n, x) => (n, number x))) =
          some params' ∧ custom name params' = k' := by
        simpa [ofTagged, tag, fields, Document.fields?_record, Option.bind_eq_some_iff,
          Document.rereadFields_of_floats, Document.string?] using he
      exact isNumber_of_paramTable? hp
  · cases he

/-- No description is read at all unless each of its numbers is read as some number. -/
theorem MachineDescription.isNumber_of_ofDocument {m m' : MachineDescription Float}
    (he : MachineDescription.ofDocument format (m.toDocument.reread number keepsNull) = some m') :
    ∀ x ∈ m.numbers, IsNumber (number x) := by
  obtain ⟨name, kinematics, axes, motion⟩ := m
  simp [MachineDescription.ofDocument, MachineDescription.toDocument, MachineDescription.fields,
    Document.fields?_record, Document.string?,
    Option.bind_eq_some_iff] at he
  obtain ⟨k', hk', axes', ha, motion', hmo, -⟩ := he
  have each : ∀ a ∈ axes, ∀ x ∈ a.numbers, IsNumber (number x) := by
    rw [Document.rereadItems_eq_map, List.map_map, axes?] at ha
    intro a hm
    obtain ⟨a', ha'⟩ := exists_of_mapM ha _ (List.mem_map_of_mem hm)
    exact AxisSettings.isNumber_of_ofDocument ha'
  simp only [numbers, List.forall_mem_append, List.forall_mem_flatMap]
  exact ⟨⟨KinematicsSettings.isNumber_of_ofDocument hk', each⟩, MotionSettings.isNumber_of_ofDocument hmo⟩

end

end MotionControl
