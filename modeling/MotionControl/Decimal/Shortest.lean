import MotionControl.Decimal.Rounding

/-! The shortest decimal that reads back as a double, and its plain and scientific spellings. -/
namespace MotionControl.Decimal

/-- The number `digits · 10 ^ exponent`. -/
structure Scaled where
  digits : Nat
  exponent : Int
  deriving DecidableEq, Repr

/-- The interval of reals that round to `significand · 2 ^ exponent`, in quarters of its unit.
Below a power of two the gap is half as wide; the ends belong to it when the significand is even. -/
structure Interval where
  low : Nat
  value : Nat
  high : Nat
  closed : Bool
  exponent : Int

def Interval.of (significand : Nat) (exponent : Int) : Interval where
  low := 4 * significand - if significand = hiddenBit ∧ -1074 < exponent then 1 else 2
  value := 4 * significand
  high := 4 * significand + 2
  closed := significand % 2 = 0
  exponent := exponent - 2

/-- Whether `n · 10 ^ e` lies in the interval. -/
def Interval.contains (i : Interval) (n : Nat) (e : Int) : Bool :=
  let (ten, tenth) := scaled 10 1 e
  let (two, half) := scaled 2 1 i.exponent
  let here := n * ten * half
  let low := i.low * two * tenth
  let high := i.high * two * tenth
  if i.closed then low ≤ here && here ≤ high else low < here && here < high

/-- The multiple of `10 ^ e` next to the value that lies in the interval, the nearer of two. -/
def Interval.multiple? (i : Interval) (e : Int) : Option Nat :=
  let (ten, tenth) := scaled 10 1 e
  let (two, half) := scaled 2 1 i.exponent
  let num := i.value * two * tenth
  let den := ten * half
  let below := num / den
  match i.contains below e, i.contains (below + 1) e with
  | true, true => some (roundDiv num den)
  | true, false => some below
  | false, true => some (below + 1)
  | false, false => none

/-- The first grid, from coarse to fine, with a point in the interval. -/
def Interval.search (i : Interval) : Nat → Int → Scaled
  | 0, e => ⟨0, e⟩
  | fuel + 1, e =>
    match i.multiple? e with
    | some n => ⟨n, e⟩
    | none => i.search fuel (e - 1)

/-- An exponent of ten that is at least that of the leading digit. -/
def leadingExponent (significand : Nat) (exponent : Int) : Int :=
  (significand.log2 + exponent + 1) * 1233 / 4096 + 1

/-- Seventeen digits always read back, so twenty-four grids are enough. -/
def shortest (significand : Nat) (exponent : Int) : Scaled :=
  if significand = 0 then ⟨0, 0⟩
  else (Interval.of significand exponent).search 24 (leadingExponent significand exponent)

/-- Positional spelling without a point on whole numbers. -/
def Scaled.positional (d : Scaled) : String :=
  match d.exponent with
  | .ofNat k =>
    String.ofList (digitsOf d.digits ++ if d.digits = 0 then [] else List.replicate k '0')
  | .negSucc k => pointed (k + 1) d.digits

def Scaled.isWhole (d : Scaled) : Bool := d.digits = 0 || 0 ≤ d.exponent

/-- The power of ten of the leading digit. -/
def Scaled.leading (d : Scaled) : Int := d.exponent + (digitsOf d.digits).length - 1

/-- One digit, a point, the other digits and a signed power of ten. -/
def Scaled.scientific (d : Scaled) : String :=
  let mantissa := match digitsOf d.digits with
    | first :: second :: rest => first :: '.' :: second :: rest
    | digits => digits
  let power := if d.leading < 0 then "-" else "+"
  String.ofList mantissa ++ "e" ++ power ++ toString d.leading.natAbs

/-- How a format spells numbers. -/
structure NumberStyle where
  nan : String
  /-- Whole numbers carry `.0`. -/
  pointZero : Bool
  /-- The leading powers of ten written positionally. -/
  positional : Int → Bool

def NumberStyle.write (n : NumberStyle) (x : Float) : String :=
  match Binary.ofFloat x with
  | .nan => n.nan
  | .infinite negative => signText negative ++ "inf"
  | .finite negative significand exponent =>
    let d := shortest significand exponent
    signText negative ++
      if n.positional d.leading then
        d.positional ++ if n.pointZero && d.isWhole then ".0" else ""
      else d.scientific

/-- Messages write every number positionally. -/
def plain : NumberStyle := ⟨"NaN", false, fun _ => true⟩

end MotionControl.Decimal
