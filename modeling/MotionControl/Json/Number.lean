import MotionControl.Document
import MotionControl.Decimal.Shortest

/-! Numbers of JSON text. The digits that fit a word are read as a whole number, which is then
scaled by a power of ten, each step rounding to the nearest double. -/
namespace MotionControl.Json

/-- The parts of a number's text. -/
structure Literal where
  negative : Bool
  whole : List Char
  fraction : List Char
  /-- Whether there is a point or an exponent. -/
  isFloat : Bool
  exponent : Int

/-- The leading digits of a text. -/
def digits (cs : List Char) : List Char × List Char :=
  (cs.takeWhile Char.isDigit, cs.dropWhile Char.isDigit)

/-- A signed exponent with its digits. -/
def exponent? : List Char → Option (Int × List Char)
  | cs =>
    let (negative, cs) := match cs with
      | '-' :: rest => (true, rest)
      | '+' :: rest => (false, rest)
      | _ => (false, cs)
    match digits cs with
    | ([], _) => none
    | (ds, rest) =>
      let n := Nat.ofDigitChars 10 ds 0
      some (if negative then -(n : Int) else n, rest)

/-- Whether a number starts with a minus sign, and the text after it. -/
def sign : List Char → Bool × List Char
  | '-' :: rest => (true, rest)
  | cs => (false, cs)

/-- A whole part without leading zeros. -/
def whole? (cs : List Char) : Option (List Char × List Char) :=
  match digits cs with
  | ([], _) => none
  | ('0' :: _ :: _, _) => none
  | (ds, rest) => some (ds, rest)

/-- The digits after a point, if there is one. -/
def fraction? : List Char → Option (Option (List Char) × List Char)
  | '.' :: rest => match digits rest with
    | ([], _) => none
    | (ds, rest) => some (some ds, rest)
  | cs => some (none, cs)

/-- The power of ten after an exponent mark, if there is one. -/
def power? : List Char → Option (Option Int × List Char)
  | 'e' :: rest | 'E' :: rest => (exponent? rest).map fun (e, rest) => (some e, rest)
  | cs => some (none, cs)

/-- A whole part without leading zeros, then a fraction and an exponent that need digits. -/
def literal? (cs : List Char) : Option (Literal × List Char) := do
  let (negative, cs) := sign cs
  let (whole, cs) ← whole? cs
  let (fraction, cs) ← fraction? cs
  let (exponent, cs) ← power? cs
  return (⟨negative, whole, fraction.getD [], fraction.isSome || exponent.isSome,
    exponent.getD 0⟩, cs)

/-- Digits appended to a number for as long as it fits 64 bits, and the digits left over. -/
def accumulate : Nat → List Char → Nat × List Char
  | n, [] => (n, [])
  | n, c :: rest =>
    let next := 10 * n + (c.toNat - '0'.toNat)
    if next < 0x10000000000000000 then accumulate next rest else (n, c :: rest)

def powerOfTen (e : Nat) : Float := Float.ofScientific 1 false e

/-- Division by `10 ^ e` in steps that a double can hold. -/
def divided (x : Float) (e : Nat) : Float :=
  if e ≤ 308 then x / powerOfTen e
  else if x == 0.0 then x
  else divided (x / powerOfTen 308) (e - 308)
termination_by e

/-- The number times a power of ten, unless it is beyond the doubles. -/
def scaleBy (x : Float) : Int → Option Float
  | .ofNat e =>
    if e ≤ 308 then
      let y := x * powerOfTen e
      if y.isInf then none else some y
    else if x == 0.0 then some x else none
  | .negSucc e => some (divided x (e + 1))

/-- The largest power of ten that is scaled by; a larger one only ever gives zero or nothing. -/
def exponentBound : Nat := 0x80000000

/-- The value of a number. -/
def Literal.value (l : Literal) : Document :=
  let (n, dropped) := accumulate 0 l.whole
  if !l.isFloat && dropped.isEmpty && (!l.negative || (0 < n && n ≤ 0x8000000000000000)) then
    .integer (if l.negative then -(n : Int) else n)
  else
    let (n, unused) := accumulate n l.fraction
    let shift : Int := dropped.length - (l.fraction.length - unused.length : Nat)
    let x := Float.ofNat n
    let scaled := if exponentBound ≤ l.exponent.natAbs then
        if 0 < n && 0 < l.exponent then none else some 0.0
      else scaleBy x (shift + l.exponent)
    match scaled with
    | some y => .float (if l.negative then -y else y)
    | none => .unreadable

/-- Large and small numbers are written with an exponent, whole ones with a point. -/
def numberStyle : Decimal.NumberStyle where
  nan := "null"
  pointZero := true
  positional leading := -5 ≤ leading && leading < 16

/-- JSON has no text for a number that is not finite. -/
def numberText (x : Float) : String := if x.isFinite then numberStyle.write x else "null"

end MotionControl.Json
