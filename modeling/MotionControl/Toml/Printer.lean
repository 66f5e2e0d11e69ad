import MotionControl.Json.Printer
import MotionControl.Toml.Literal

/-! Writing TOML text. Values come before tables, and text takes the plainest form that needs no
escapes. -/
namespace MotionControl.Toml
open Json (hexDigits)

/-- Whole numbers carry `.0`, and no number has an exponent. -/
def numberStyle : Decimal.NumberStyle := ⟨"nan", true, fun _ => true⟩

/-- A character that needs an escape whatever the form of its string. -/
def isControl (c : Char) : Bool := (c.toNat < 0x20 && c != '\t' && c != '\n') || c == '\x7f'

/-- The longest run of a character in a text. -/
def longestRun (quote : Char) (cs : List Char) : Nat :=
  (cs.foldl (fun (run, longest) c =>
    let run := if c == quote then run + 1 else 0
    (run, max run longest)) (0, 0)).2

/-- A character escaped in a quoted string; a line break stands for itself between lines. -/
def escape (lines : Bool) (c : Char) : List Char :=
  match c with
  | '\x08' => ['\\', 'b']
  | '\t' => ['\\', 't']
  | '\n' => if lines then ['\n'] else ['\\', 'n']
  | '\x0c' => ['\\', 'f']
  | '\r' => ['\\', 'r']
  | '\\' => ['\\', '\\']
  | c => if isControl c then '\\' :: 'u' :: (hexDigits 4 c.toNat).map Char.toUpper else [c]

/-- Quoted text. Of `quotes` quotes in a row the last one is escaped. -/
def escaped (lines : Bool) (quotes : Nat) : Nat → List Char → List Char
  | _, [] => []
  | run, '\x22' :: rest =>
    if run + 1 = quotes then '\\' :: '\x22' :: escaped lines quotes 0 rest
    else '\x22' :: escaped lines quotes (run + 1) rest
  | _, c :: rest => escape lines c ++ escaped lines quotes 0 rest

/-- A string between its delimiters. -/
def quoted (cs : List Char) : List Char := '\x22' :: escaped false 1 0 cs ++ ['\x22']

def literalText (cs : List Char) : List Char := '\x27' :: cs ++ ['\x27']

/-- Text over several lines starts on a line of its own. -/
def overLines (quote : Char) (cs body : List Char) : List Char :=
  let delimiter := List.replicate 3 quote
  delimiter ++ (if cs.contains '\n' then ['\n'] else []) ++ body ++ delimiter

/-- A string in the first of these forms that fits: quoted without escapes, literal, quoted over
lines without escapes, literal over lines, quoted with escapes. -/
def stringText (cs : List Char) : List Char :=
  let controls := cs.any isControl
  let backslash := cs.contains '\\'
  let lines := cs.contains '\n'
  let double := longestRun '\x22' cs
  let single := longestRun '\x27' cs
  if !controls && !backslash && double = 0 && !lines then quoted cs
  else if !controls && single = 0 && !lines then literalText cs
  else if !controls && !backslash && double ≤ 2 then overLines '\x22' cs (escaped true 3 0 cs)
  else if !controls && single ≤ 2 then overLines '\x27' cs cs
  else if lines then overLines '\x22' cs (escaped true 3 0 cs)
  else quoted cs

/-- A name, bare where its characters allow it. -/
def nameText (cs : List Char) : List Char :=
  let controls := cs.any fun c => isControl c || c == '\n'
  if !cs.isEmpty && cs.all isBareChar then cs
  else if !controls && !cs.contains '\\' && longestRun '\x22' cs = 0 then quoted cs
  else if !controls && longestRun '\x27' cs = 0 then literalText cs
  else quoted cs

def pathText (path : List String) : String :=
  ".".intercalate (path.map fun name => String.ofList (nameText name.toList))

mutual

/-- A value on one line. -/
def valueText : Document → String
  | .bool value => if value then "true" else "false"
  | .integer n => toString n
  | .float x => numberStyle.write x
  | .string s => String.ofList (stringText s.toList)
  | .list items => "[" ++ ", ".intercalate (itemTexts items) ++ "]"
  | .record fields => "\x7b " ++ ", ".intercalate (pairTexts fields) ++ " \x7d"
  | .null | .timestamp | .unreadable => ""

def itemTexts : List Document → List String
  | [] => []
  | item :: rest => valueText item :: itemTexts rest

def pairTexts : List (String × Document) → List String
  | [] => []
  | (name, value) :: rest => (pathText [name] ++ " = " ++ valueText value) :: pairTexts rest

end

def isRecord : Document → Bool
  | .record _ => true
  | _ => false

/-- Whether a field has a header, rather than a line in the table it belongs to. -/
def isTable : Document → Bool
  | .record _ => true
  | .list (item :: rest) => (item :: rest).all isRecord
  | _ => false

/-- The lines of the fields that are no tables. A field without a value is left out. -/
def bodyText (fields : List (String × Document)) : String :=
  String.join (fields.map fun (name, value) =>
    match value with
    | .null | .timestamp | .unreadable => ""
    | value => if isTable value then "" else pathText [name] ++ " = " ++ valueText value ++ "\n")

mutual

/-- The tables of a record below `path`, each after an empty line. -/
def tableTexts (path : List String) : List (String × Document) → String
  | [] => ""
  | (name, .record fields) :: rest =>
    let here := path ++ [name]
    let body := bodyText fields
    (if body.isEmpty && !fields.isEmpty then "" else "\n[" ++ pathText here ++ "]\n" ++ body) ++
      tableTexts here fields ++ tableTexts path rest
  | (name, .list items) :: rest =>
    (if isTable (.list items) then itemTables (path ++ [name]) items else "") ++
      tableTexts path rest
  | _ :: rest => tableTexts path rest

/-- The tables of one name. -/
def itemTables (path : List String) : List Document → String
  | [] => ""
  | .record fields :: rest =>
    "\n[[" ++ pathText path ++ "]]\n" ++ bodyText fields ++ tableTexts path fields ++
      itemTables path rest
  | _ :: rest => itemTables path rest

end

/-- The text of a record. Nothing stands before a header on the first line. -/
def print (fields : List (String × Document)) : String :=
  let body := bodyText fields
  let tables := tableTexts [] fields
  if body.isEmpty then String.ofList (tables.toList.drop 1) else body ++ tables

end MotionControl.Toml
