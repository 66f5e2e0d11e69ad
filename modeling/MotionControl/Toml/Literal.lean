import MotionControl.Json.Parser

/-! Keys, strings, numbers and times of TOML text. Each reader gives what it read and the text
after it. -/
namespace MotionControl.Toml
open Json (hexDigit? hex?)

abbrev Reader (α : Type) := List Char → Option (α × List Char)

def isBlank (c : Char) : Bool := c == ' ' || c == '\t'

def skipBlanks (cs : List Char) : List Char := cs.dropWhile isBlank

/-- The characters of a comment, and those that a string holds as they are, its delimiters and
escapes apart. -/
def isTextChar (c : Char) : Bool := c == '\t' || (0x20 ≤ c.toNat && c != '\x7f')

/-- The text after a line break. -/
def lineBreak? : List Char → Option (List Char)
  | '\n' :: rest => some rest
  | '\r' :: '\n' :: rest => some rest
  | _ => none

/-- Blanks, comments and line breaks passed over between the parts of an array. The flag is set
inside a comment. -/
def skipLines : Bool → List Char → List Char
  | _, '\n' :: rest => skipLines false rest
  | _, '\r' :: '\n' :: rest => skipLines false rest
  | true, c :: rest => if isTextChar c then skipLines true rest else c :: rest
  | false, '#' :: rest => skipLines true rest
  | false, c :: rest => if isBlank c then skipLines false rest else c :: rest
  | _, [] => []

/-- What may follow an expression on its line: blanks, a comment and the line break. -/
def lineEnd? (cs : List Char) : Option (List Char) :=
  let cs := match skipBlanks cs with
    | '#' :: rest => rest.dropWhile isTextChar
    | cs => cs
  if cs.isEmpty then some [] else lineBreak? cs

/-- Blanks and line breaks after a backslash at the end of a line. -/
def skipFolded : List Char → List Char
  | '\n' :: rest => skipFolded rest
  | '\r' :: '\n' :: rest => skipFolded rest
  | c :: rest => if isBlank c then skipFolded rest else c :: rest
  | [] => []

/-- The character with a code point. -/
def character? (code : Nat) : Option Char :=
  if code < 0xd800 ∨ (0xe000 ≤ code ∧ code < 0x110000) then some (Char.ofNat code) else none

/-- The character of an escape after its backslash. -/
def escape? : Reader Char
  | 'b' :: rest => some ('\x08', rest)
  | 't' :: rest => some ('\t', rest)
  | 'n' :: rest => some ('\n', rest)
  | 'f' :: rest => some ('\x0c', rest)
  | 'r' :: rest => some ('\r', rest)
  | '\x22' :: rest => some ('\x22', rest)
  | '\\' :: rest => some ('\\', rest)
  | 'u' :: a :: b :: c :: d :: rest => do
    let code ← hex? [a, b, c, d]
    return (← character? code, rest)
  | 'U' :: a :: b :: c :: d :: e :: f :: g :: h :: rest => do
    let code ← hex? [a, b, c, d, e, f, g, h]
    return (← character? code, rest)
  | _ => none

/-- The rest of a quoted string on one line. The fuel bounds the characters read. -/
def basic? : Nat → Reader (List Char)
  | _, '\x22' :: rest => some ([], rest)
  | fuel + 1, '\\' :: rest => do
    let (c, rest) ← escape? rest
    let (text, rest) ← basic? fuel rest
    return (c :: text, rest)
  | fuel + 1, c :: rest =>
    if isTextChar c then (basic? fuel rest).map fun (text, rest) => (c :: text, rest) else none
  | _, _ => none

/-- The rest of a literal string on one line. -/
def literal? : Reader (List Char)
  | '\x27' :: rest => some ([], rest)
  | c :: rest =>
    if isTextChar c then (literal? rest).map fun (text, rest) => (c :: text, rest) else none
  | [] => none

/-- The end of a string over several lines: three quotes, before them up to two of its text. -/
def closing? (quote : Char) (cs : List Char) : Option (List Char × List Char) :=
  let quotes := (cs.takeWhile (· == quote)).length
  if quotes < 3 then none
  else
    let inside := min (quotes - 3) 2
    some (List.replicate inside quote, cs.drop (inside + 3))

/-- The rest of a quoted string over several lines. The fuel bounds the characters read. -/
def basicLines? : Nat → Reader (List Char)
  | 0, _ => none
  | fuel + 1, cs =>
    match closing? '\x22' cs with
    | some end_ => some end_
    | none =>
      match lineBreak? cs, cs with
      | some rest, _ => (basicLines? fuel rest).map fun (text, rest) => ('\n' :: text, rest)
      | none, '\\' :: rest =>
        match lineBreak? (skipBlanks rest) with
        | some rest => basicLines? fuel (skipFolded rest)
        | none => do
          let (c, rest) ← escape? rest
          let (text, rest) ← basicLines? fuel rest
          return (c :: text, rest)
      | none, c :: rest =>
        if isTextChar c then
          (basicLines? fuel rest).map fun (text, rest) => (c :: text, rest)
        else none
      | none, [] => none

/-- The rest of a literal string over several lines. The fuel bounds the characters read. -/
def literalLines? : Nat → Reader (List Char)
  | 0, _ => none
  | fuel + 1, cs =>
    match closing? '\x27' cs with
    | some end_ => some end_
    | none =>
      match lineBreak? cs, cs with
      | some rest, _ => (literalLines? fuel rest).map fun (text, rest) => ('\n' :: text, rest)
      | none, c :: rest =>
        if isTextChar c then
          (literalLines? fuel rest).map fun (text, rest) => (c :: text, rest)
        else none
      | none, [] => none

/-- A line break right after the opening quotes is no part of the text. -/
def skipBreak (cs : List Char) : List Char := (lineBreak? cs).getD cs

/-- A string in any of its four forms. -/
def string? (cs : List Char) : Option (String × List Char) :=
  let chars := match cs with
    | '\x22' :: '\x22' :: '\x22' :: rest => basicLines? (rest.length + 1) (skipBreak rest)
    | '\x22' :: rest => basic? rest.length rest
    | '\x27' :: '\x27' :: '\x27' :: rest => literalLines? (rest.length + 1) (skipBreak rest)
    | '\x27' :: rest => literal? rest
    | _ => none
  chars.map fun (chars, rest) => (String.ofList chars, rest)

def isBareChar (c : Char) : Bool := c.isAlphanum || c == '_' || c == '-'

/-- A bare or quoted name. Names do not span lines. -/
def name? (cs : List Char) : Option (String × List Char) :=
  match cs with
  | '\x22' :: rest => (basic? rest.length rest).map fun (chars, rest) => (String.ofList chars, rest)
  | '\x27' :: rest => (literal? rest).map fun (chars, rest) => (String.ofList chars, rest)
  | cs =>
    match cs.takeWhile isBareChar with
    | [] => none
    | bare => some (String.ofList bare, cs.dropWhile isBareChar)

/-- Names joined by points, with blanks around each of them. -/
def names? : Nat → Reader (List String)
  | 0, _ => none
  | fuel + 1, cs => do
    let (name, rest) ← name? (skipBlanks cs)
    match skipBlanks rest with
    | '.' :: rest =>
      let (names, rest) ← names? fuel rest
      return (name :: names, rest)
    | rest => return ([name], rest)

/-- Nothing is nested as deep as this, in keys or in values. -/
def depthLimit : Nat := 80

def key? (cs : List Char) : Option (List String × List Char) := do
  let (names, rest) ← names? (cs.length + 1) cs
  if names.length < depthLimit then some (names, rest) else none

/-- Digits with single underscores between them. -/
def digitRun (isDigit : Char → Bool) : List Char → List Char × List Char
  | '_' :: c :: rest =>
    if isDigit c then
      let (ds, rest) := digitRun isDigit rest
      (c :: ds, rest)
    else ([], '_' :: c :: rest)
  | c :: rest =>
    if isDigit c then
      let (ds, rest) := digitRun isDigit rest
      (c :: ds, rest)
    else ([], c :: rest)
  | [] => ([], [])

/-- Digits that start with a digit. -/
def digits? (isDigit : Char → Bool) (cs : List Char) : Option (List Char × List Char) :=
  match digitRun isDigit cs with
  | ([], _) => none
  | (ds, rest) => if cs.head? == some '_' then none else some (ds, rest)

def sign : List Char → Bool × List Char
  | '-' :: rest => (true, rest)
  | '+' :: rest => (false, rest)
  | cs => (false, cs)

/-- The digits of a decimal whole number: a zero alone, or digits that start with another one. -/
def whole? : Reader (List Char)
  | '0' :: rest => some (['0'], rest)
  | cs => digits? Char.isDigit cs

/-- The double nearest to `n · 10 ^ e`. Beyond these powers it is infinite or zero. -/
def nearest (digits : List Char) (e : Int) : Float :=
  let n := Nat.ofDigitChars 10 digits 0
  let leading := e + (digits.dropWhile (· == '0')).length
  if n = 0 then 0.0
  else if 310 < leading then 1.0 / 0.0
  else if leading < -330 then 0.0
  else match e with
    | .ofNat e => Float.ofScientific n false e
    | .negSucc e => Float.ofScientific n true (e + 1)

/-- The power of ten after an exponent mark. -/
def power? : Reader Int
  | 'e' :: rest | 'E' :: rest => do
    let (negative, rest) := sign rest
    let (ds, rest) ← digits? Char.isDigit rest
    let n := Nat.ofDigitChars 10 ds 0
    return (if negative then -(n : Int) else n, rest)
  | _ => none

/-- A number with a fraction, an exponent or both. One that is too large for a double is
refused, unless it is negative. -/
def decimal? (cs : List Char) : Option (Float × List Char) := do
  let (negative, cs) := sign cs
  let (whole, cs) ← whole? cs
  let (fraction, cs) ← match cs with
    | '.' :: rest => (digits? Char.isDigit rest).map fun (ds, rest) => (some ds, rest)
    | cs => some (none, cs)
  let (power, cs) := match power? cs with
    | some (e, rest) => (some e, rest)
    | none => (none, cs)
  if fraction.isNone && power.isNone then none
  else
    let fraction := fraction.getD []
    let x := nearest (whole ++ fraction) (power.getD 0 - fraction.length)
    if x.isInf && !negative then none else some (if negative then -x else x, cs)

def special? (cs : List Char) : Option (Float × List Char) :=
  let (negative, cs) := sign cs
  let signed (x : Float) := if negative then -x else x
  match cs with
  | 'i' :: 'n' :: 'f' :: rest => some (signed (1.0 / 0.0), rest)
  | 'n' :: 'a' :: 'n' :: rest => some (signed (0.0 / 0.0), rest)
  | _ => none

def isHexDigit (c : Char) : Bool := (hexDigit? c).isSome
def isOctalDigit (c : Char) : Bool := '0' ≤ c && c ≤ '7'
def isBinaryDigit (c : Char) : Bool := c == '0' || c == '1'

/-- A whole number without a sign in a base that is a power of two. -/
def based? (base : Nat) (isDigit : Char → Bool) (cs : List Char) : Option (Int × List Char) :=
  (digits? isDigit cs).map fun (ds, rest) =>
    (ds.foldl (fun n c => base * n + (hexDigit? c).getD 0) 0, rest)

/-- A whole number of 64 bits. -/
def integer? (cs : List Char) : Option (Int × List Char) := do
  let (n, rest) ← match cs with
    | '0' :: 'x' :: rest => based? 16 isHexDigit rest
    | '0' :: 'o' :: rest => based? 8 isOctalDigit rest
    | '0' :: 'b' :: rest => based? 2 isBinaryDigit rest
    | cs => do
      let (negative, cs) := sign cs
      let (ds, rest) ← whole? cs
      let n := Nat.ofDigitChars 10 ds 0
      pure (if negative then -(n : Int) else n, rest)
  if -0x8000000000000000 ≤ n ∧ n < 0x8000000000000000 then some (n, rest) else none

/-- A number of exactly `count` digits. -/
def fixedDigits? (count : Nat) (cs : List Char) : Option (Nat × List Char) :=
  let ds := cs.take count
  if ds.length = count ∧ ds.all Char.isDigit then some (Nat.ofDigitChars 10 ds 0, cs.drop count)
  else none

def daysInMonth (year month : Nat) : Nat :=
  if month = 2 then
    if year % 4 = 0 ∧ (year % 100 ≠ 0 ∨ year % 400 = 0) then 29 else 28
  else if month = 4 ∨ month = 6 ∨ month = 9 ∨ month = 11 then 30 else 31

/-- The text after one given character. -/
def after? (expected : Char) : List Char → Option (List Char)
  | c :: rest => if c = expected then some rest else none
  | [] => none

/-- The text after a calendar date. -/
def date? (cs : List Char) : Option (List Char) := do
  let (year, cs) ← fixedDigits? 4 cs
  let cs ← after? '-' cs
  let (month, cs) ← fixedDigits? 2 cs
  let cs ← after? '-' cs
  let (day, cs) ← fixedDigits? 2 cs
  if 1 ≤ month ∧ month ≤ 12 ∧ 1 ≤ day ∧ day ≤ daysInMonth year month then some cs else none

/-- The text after hours and minutes. -/
def hoursMinutes? (cs : List Char) : Option (List Char) := do
  let (hour, cs) ← fixedDigits? 2 cs
  let cs ← after? ':' cs
  let (minute, cs) ← fixedDigits? 2 cs
  if hour ≤ 23 ∧ minute ≤ 59 then some cs else none

/-- The text after a time of day. -/
def time? (cs : List Char) : Option (List Char) := do
  let cs ← hoursMinutes? cs
  let cs ← after? ':' cs
  let (second, cs) ← fixedDigits? 2 cs
  if second ≤ 60 then
    match cs with
    | '.' :: c :: rest => if c.isDigit then some (rest.dropWhile Char.isDigit) else some cs
    | cs => some cs
  else none

/-- The text after a zone offset. -/
def offset? : List Char → Option (List Char)
  | 'Z' :: rest | 'z' :: rest => some rest
  | '+' :: rest | '-' :: rest => hoursMinutes? rest
  | _ => none

/-- The text after a date, a time or both. -/
def moment? (cs : List Char) : Option (List Char) :=
  match date? cs with
  | some rest =>
    match rest with
    | 'T' :: time | 't' :: time | ' ' :: time =>
      match time? time with
      | some rest => some ((offset? rest).getD rest)
      | none => some rest
    | rest => some rest
  | none => time? cs

/-- A value that is no list and no table. -/
def scalar? (cs : List Char) : Option (Document × List Char) :=
  match string? cs with
  | some (s, rest) => some (.string s, rest)
  | none =>
    match moment? cs with
    | some rest => some (.timestamp, rest)
    | none =>
      match decimal? cs with
      | some (x, rest) => some (.float x, rest)
      | none =>
        match special? cs with
        | some (x, rest) => some (.float x, rest)
        | none =>
          match integer? cs with
          | some (n, rest) => some (.integer n, rest)
          | none =>
            match cs with
            | 't' :: 'r' :: 'u' :: 'e' :: rest => some (.bool true, rest)
            | 'f' :: 'a' :: 'l' :: 's' :: 'e' :: rest => some (.bool false, rest)
            | _ => none

end MotionControl.Toml
