import MotionControl.Decimal.Binary

/-! Doubles written with a fixed number of decimals, rounded from the exact value. -/
namespace MotionControl.Decimal

/-- The quotient to the nearest whole number; a tie goes to the even neighbour. -/
def roundDiv (num den : Nat) : Nat :=
  let q := num / den
  let r := 2 * (num % den)
  if r < den then q else if den < r then q + 1 else q + q % 2

/-- `significand · 2 ^ exponent` in units of `10 ^ -places`. -/
def units (places significand : Nat) (exponent : Int) : Nat :=
  let (num, den) := scaled 2 (significand * Nat.pow 10 places) exponent
  roundDiv num den

def digitsOf (n : Nat) : List Char := Nat.toDigits 10 n

/-- The digits of `n` in units of `10 ^ -places`, with a point before the last `places`. -/
def pointed (places n : Nat) : String :=
  let digits := digitsOf n
  let digits := List.replicate (places + 1 - digits.length) '0' ++ digits
  let whole := digits.length - places
  String.ofList (digits.take whole ++ if places = 0 then [] else '.' :: digits.drop whole)

def signText (negative : Bool) : String := if negative then "-" else ""

/-- A negative number keeps its sign even when it rounds to zero. -/
def fixed (places : Nat) (x : Float) : String :=
  match Binary.ofFloat x with
  | .nan => "NaN"
  | .infinite negative => signText negative ++ "inf"
  | .finite negative significand exponent =>
    signText negative ++ pointed places (units places significand exponent)

/-- The double nearest to the value rounded to `places` decimals; zero loses its sign. -/
def rounded (places : Nat) (x : Float) : Float :=
  match Binary.ofFloat x with
  | .finite negative significand exponent =>
    match units places significand exponent with
    | 0 => 0.0
    | n => if negative then -Float.ofScientific n true places else Float.ofScientific n true places
  | _ => x

end MotionControl.Decimal
