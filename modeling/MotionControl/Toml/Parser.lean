import MotionControl.Toml.Literal
import MotionControl.Toml.Table

/-! Reading TOML text. -/
namespace MotionControl.Toml

mutual

/-- A value and the text after it. The fuel bounds the characters read, `depth` the nesting. -/
def value? : Nat → Nat → List Char → Option (Document × List Char)
  | 0, _, _ => none
  | _ + 1, 0, cs => scalar? cs
  | fuel + 1, depth + 1, cs =>
    match cs with
    | '[' :: rest =>
      match skipLines false rest with
      | ']' :: rest => some (.list [], rest)
      | rest => (items? fuel depth rest).map fun (items, rest) => (.list items, rest)
    | '{' :: rest =>
      match skipBlanks rest with
      | '}' :: rest => some (.record [], rest)
      | rest =>
        (pairs? fuel depth [] rest).map fun (entries, rest) => (.record (fieldsOf entries), rest)
    | cs => scalar? cs

/-- The items of an array and the text after its bracket. -/
def items? : Nat → Nat → List Char → Option (List Document × List Char)
  | 0, _, _ => none
  | fuel + 1, depth, cs => do
    let (item, rest) ← value? fuel depth cs
    match skipLines false rest with
    | ',' :: rest =>
      match skipLines false rest with
      | ']' :: rest => return ([item], rest)
      | rest =>
        let (items, rest) ← items? fuel depth rest
        return (item :: items, rest)
    | ']' :: rest => return ([item], rest)
    | _ => none

/-- The entries of an inline table and the text after its brace. -/
def pairs? : Nat → Nat → Entries → List Char → Option (Entries × List Char)
  | 0, _, _, _ => none
  | fuel + 1, depth, entries, cs => do
    let (key, rest) ← key? cs
    match rest with
    | '=' :: rest =>
      let (document, rest) ← value? fuel depth (skipBlanks rest)
      let entries ← entries.assign document key
      match skipBlanks rest with
      | ',' :: rest => pairs? fuel depth entries rest
      | '}' :: rest => return (entries, rest)
      | _ => none
    | _ => none

end

/-- Lists and inline tables may be nested in a value this deep. -/
def nestingLimit : Nat := depthLimit - 1

/-- The names of a header and the text after its closing brackets. -/
def header? (closing : List Char) (cs : List Char) : Option (List String × List Char) := do
  let (names, rest) ← key? cs
  if closing.isPrefixOf rest then some (names, rest.drop closing.length) else none

/-- The expressions of a text, one a line, added to the tables read so far. `table` is the path
of the header in force. -/
def expressions? : Nat → List String → Entries → List Char → Option Entries
  | 0, _, _, _ => none
  | fuel + 1, table, root, cs =>
    match skipBlanks cs with
    | [] => some root
    | '#' :: rest => do expressions? fuel table root (← lineEnd? ('#' :: rest))
    | '\n' :: rest => expressions? fuel table root rest
    | '\r' :: '\n' :: rest => expressions? fuel table root rest
    | '[' :: '[' :: rest => do
      let (names, rest) ← header? [']', ']'] rest
      let root ← root.appendTable names.dropLast (names.getLastD "")
      expressions? fuel names root (← lineEnd? rest)
    | '[' :: rest => do
      let (names, rest) ← header? [']'] rest
      let root ← root.openTable names.dropLast (names.getLastD "")
      expressions? fuel names root (← lineEnd? rest)
    | cs => do
      let (key, rest) ← key? cs
      match rest with
      | '=' :: rest =>
        let (document, rest) ← value? rest.length.succ nestingLimit (skipBlanks rest)
        let root ← root.assignAt table key document
        expressions? fuel table root (← lineEnd? rest)
      | _ => none

/-- The document of a whole text, with or without a byte order mark. -/
def parse? (text : String) : Option Document :=
  let cs := match text.toList with
    | '\ufeff' :: rest => rest
    | cs => cs
  (expressions? (cs.length + 1) [] [] cs).map fun entries => .record (fieldsOf entries)

end MotionControl.Toml
