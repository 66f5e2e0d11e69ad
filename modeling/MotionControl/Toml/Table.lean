import MotionControl.Document

/-! Tables as the expressions of a TOML text build them up. -/
namespace MotionControl.Toml

/-- How a table came about. Only a table opened by its own header is closed to other headers,
and only one made by dotted keys takes more dotted keys. -/
inductive Origin where
  | header
  | passedThrough
  | dotted
  deriving DecidableEq, Repr

/-- An entry of a table under construction. -/
inductive Node where
  | value (document : Document)
  | table (origin : Origin) (entries : List (String × Node))
  /-- Tables of one name; headers and keys reach the last of them. -/
  | tables (items : List (List (String × Node)))
  deriving Inhabited

abbrev Entries := List (String × Node)

namespace Entries

def find? (entries : Entries) (name : String) : Option Node := entries.lookup name

/-- The entries with one replaced in place, or added at the end. -/
def set : Entries → String → Node → Entries
  | [], name, node => [(name, node)]
  | (n, old) :: rest, name, node =>
    if n = name then (name, node) :: rest else (n, old) :: set rest name node

/-- The last of the tables changed. -/
def changeLast (f : Entries → Option Entries) : List Entries → Option (List Entries)
  | [] => none
  | [last] => (f last).map ([·])
  | first :: rest => (changeLast f rest).map (first :: ·)

/-- A change of the table that a header path leads to. Missing tables are made on the way. -/
def changeAt (f : Entries → Option Entries) : List String → Entries → Option Entries
  | [], entries => f entries
  | name :: path, entries =>
    match entries.find? name with
    | none => (changeAt f path []).map fun inner => entries.set name (.table .passedThrough inner)
    | some (.table origin inner) =>
      (changeAt f path inner).map fun inner => entries.set name (.table origin inner)
    | some (.tables items) =>
      (changeLast (changeAt f path) items).map fun items => entries.set name (.tables items)
    | some (.value _) => none

/-- A header of one table, which must not have had one before. -/
def openTable (path : List String) (name : String) (entries : Entries) : Option Entries :=
  changeAt (fun parent =>
    match parent.find? name with
    | none => some (parent.set name (.table .header []))
    | some (.table .passedThrough inner) => some (parent.set name (.table .header inner))
    | some _ => none) path entries

/-- A header of one more table of the same name. -/
def appendTable (path : List String) (name : String) (entries : Entries) : Option Entries :=
  changeAt (fun parent =>
    match parent.find? name with
    | none => some (parent.set name (.tables [[]]))
    | some (.tables items) => some (parent.set name (.tables (items ++ [[]])))
    | some _ => none) path entries

/-- A value under a name that is still free. -/
def add (name : String) (document : Document) (entries : Entries) : Option Entries :=
  match entries.find? name with
  | none => some (entries.set name (.value document))
  | some _ => none

/-- A value under a dotted key. The tables on the way must not have headers of their own, and
the one that takes the value must be made by dotted keys alone. -/
def assign (document : Document) : List String → Entries → Option Entries
  | [], _ => none
  | [name], entries => entries.add name document
  | name :: next :: path, entries =>
    let last := path.isEmpty
    match entries.find? name with
    | none =>
      (assign document (next :: path) []).map fun inner => entries.set name (.table .dotted inner)
    | some (.table origin inner) =>
      if origin = .header ∨ (last ∧ origin ≠ .dotted) then none
      else (assign document (next :: path) inner).map fun inner =>
        entries.set name (.table origin inner)
    | some (.tables items) =>
      if last then none
      else (changeLast (assign document (next :: path)) items).map fun items =>
        entries.set name (.tables items)
    | some (.value _) => none

/-- A value under a dotted key, in the table that a header opened. -/
def assignAt (table key : List String) (document : Document) (entries : Entries) :
    Option Entries :=
  changeAt (assign document key) table entries

end Entries

mutual

def Node.toDocument : Node → Document
  | .value document => document
  | .table _ entries => .record (fieldsOf entries)
  | .tables items => .list (recordsOf items)

def fieldsOf : List (String × Node) → List (String × Document)
  | [] => []
  | (name, node) :: rest => (name, node.toDocument) :: fieldsOf rest

def recordsOf : List (List (String × Node)) → List Document
  | [] => []
  | entries :: rest => .record (fieldsOf entries) :: recordsOf rest

end

end MotionControl.Toml
