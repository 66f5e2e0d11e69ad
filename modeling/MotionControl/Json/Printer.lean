import MotionControl.Json.Number

/-! Writing JSON text. -/
namespace MotionControl.Json

def hexDigits (width n : Nat) : List Char :=
  let digits := Nat.toDigits 16 n
  List.replicate (width - digits.length) '0' ++ digits

/-- Quotes, backslashes and control characters are escaped. -/
def escape (c : Char) : List Char :=
  match c with
  | '\x22' => ['\\', '\x22']
  | '\\' => ['\\', '\\']
  | '\x08' => ['\\', 'b']
  | '\x0c' => ['\\', 'f']
  | '\n' => ['\\', 'n']
  | '\r' => ['\\', 'r']
  | '\t' => ['\\', 't']
  | c => if c.toNat < 0x20 then '\\' :: 'u' :: hexDigits 4 c.toNat else [c]

def quoted (s : String) : String :=
  String.ofList ('\x22' :: s.toList.flatMap escape ++ ['\x22'])

/-- How a document is laid out: on one line, or on indented lines from a given depth on. -/
inductive Layout where
  | line
  | indented (depth : Nat)

namespace Layout

def deeper : Layout → Layout
  | line => line
  | indented depth => indented (depth + 1)

def colon : Layout → String
  | line => ":"
  | indented _ => ": "

def newline : Layout → String
  | line => ""
  | indented depth => "\n" ++ String.ofList (List.replicate (2 * depth) ' ')

end Layout

/-- Entries between brackets, each on a line of its own where the layout has lines. -/
def enclosed (layout : Layout) (opening closing : String) (entries : List String) : String :=
  if entries.isEmpty then opening ++ closing
  else
    let line := layout.deeper.newline
    opening ++ line ++ ("," ++ line).intercalate entries ++ layout.newline ++ closing

mutual

def write (layout : Layout) : Document → String
  | .null | .timestamp | .unreadable => "null"
  | .bool value => if value then "true" else "false"
  | .integer n => toString n
  | .float x => numberText x
  | .string s => quoted s
  | .list items => enclosed layout "[" "]" (writeItems layout.deeper items)
  | .record fields => enclosed layout "\x7b" "\x7d" (writeFields layout.deeper fields)

def writeItems (layout : Layout) : List Document → List String
  | [] => []
  | item :: rest => write layout item :: writeItems layout rest

def writeFields (layout : Layout) : List (String × Document) → List String
  | [] => []
  | (name, value) :: rest =>
    (quoted name ++ layout.colon ++ write layout value) :: writeFields layout rest

end

def compact : Document → String := write .line

def pretty : Document → String := write (.indented 0)

end MotionControl.Json
