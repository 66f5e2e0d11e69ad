/-! The exact value of a double: sign, significand and power of two. -/
namespace MotionControl.Decimal

/-- What a double stands for. -/
inductive Binary where
  | nan
  | infinite (negative : Bool)
  /-- The number `± significand · 2 ^ exponent`. -/
  | finite (negative : Bool) (significand : Nat) (exponent : Int)
  deriving DecidableEq, Repr

/-- The leading bit of a normal double, which its bits do not show. -/
def hiddenBit : Nat := 0x10000000000000

/-- Subnormal doubles have no hidden bit and share the exponent of the smallest normal ones. -/
def Binary.ofBits (bits : UInt64) : Binary :=
  let negative := bits >>> 63 == 1
  let biased := ((bits >>> 52) &&& 0x7ff).toNat
  let fraction := (bits &&& 0xfffffffffffff).toNat
  if biased = 0x7ff then
    if fraction = 0 then .infinite negative else .nan
  else if biased = 0 then .finite negative fraction (-1074)
  else .finite negative (fraction + hiddenBit) (biased - 1075)

def Binary.ofFloat (x : Float) : Binary := .ofBits x.toBits

/-- Numerator and denominator of `n · b ^ e`. -/
def scaled (b n : Nat) (e : Int) : Nat × Nat :=
  match e with
  | .ofNat k => (n * Nat.pow b k, 1)
  | .negSucc k => (n, Nat.pow b (k + 1))

end MotionControl.Decimal
