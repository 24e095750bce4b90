/-!
# Binary floating point

Numbers in the binary formats of 32 and 64 bits, as their bits.  A number that a format cannot hold
goes to the nearest one it can, and of two equally near to the one whose last bit is zero.
-/

namespace ForeignCall.Ieee

/-- A binary format: a sign bit, exponent bits and fraction bits. -/
structure Format where
  exponentBits : Nat
  fractionBits : Nat
  deriving DecidableEq, Repr

/-- The format of 32 bits. -/
def binary32 : Format where
  exponentBits := 8
  fractionBits := 23

/-- The format of 64 bits. -/
def binary64 : Format where
  exponentBits := 11
  fractionBits := 52

/-- What the bits of a format say.  A finite number is `mantissa * 2 ^ exponent`. -/
inductive Number
  | finite (negative : Bool) (mantissa : Nat) (exponent : Int)
  | infinite (negative : Bool)
  | nan (negative : Bool) (fraction : Nat)
  deriving DecidableEq, Repr

/-- A power of two. -/
def pow2 (n : Nat) : Nat := Nat.pow 2 n

namespace Format

/-- The exponent of the last place of the smallest numbers. -/
def leastExponent (f : Format) : Int :=
  2 - pow2 (f.exponentBits - 1) - f.fractionBits

/-- The bits of the infinity without a sign. -/
def infinity (f : Format) : Nat := (pow2 f.exponentBits - 1) * pow2 f.fractionBits

/-- The sign bit, if there is a sign. -/
def signBit (f : Format) (negative : Bool) : Nat :=
  if negative then pow2 (f.exponentBits + f.fractionBits) else 0

/-- Reads the bits of a format. -/
def read (f : Format) (bits : Nat) : Number :=
  let negative := bits / pow2 (f.exponentBits + f.fractionBits) % 2 == 1
  let exponent := bits / pow2 f.fractionBits % pow2 f.exponentBits
  let fraction := bits % pow2 f.fractionBits
  if exponent = 0 then .finite negative fraction f.leastExponent
  else if exponent = pow2 f.exponentBits - 1 then
    if fraction = 0 then .infinite negative else .nan negative fraction
  else .finite negative (pow2 f.fractionBits + fraction) (f.leastExponent + (exponent - 1 : Nat))

end Format

/-- The quotient of `n` by `2 ^ shift`, to the nearest integer, ties to the even one. -/
def shiftToNearest (n shift : Nat) : Nat :=
  let quotient := n / pow2 shift
  let twice := 2 * (n % pow2 shift)
  if twice < pow2 shift then quotient
  else if twice = pow2 shift then quotient + quotient % 2
  else quotient + 1

namespace Format

/-- The bits of the number nearest to `mantissa * 2 ^ exponent`, without a sign.  The last place is
the one that leaves a full mantissa, or the least of the format; adding the mantissa to the field
of the exponent carries a full mantissa, and one that rounding lengthened, into the exponent. -/
def nearest (f : Format) (mantissa : Nat) (exponent : Int) : Nat :=
  if mantissa = 0 then 0
  else
    let place := max (exponent + mantissa.log2 - f.fractionBits) f.leastExponent
    let rounded :=
      if place ≤ exponent then mantissa * pow2 (exponent - place).toNat
      else shiftToNearest mantissa (place - exponent).toNat
    min ((place - f.leastExponent).toNat * pow2 f.fractionBits + rounded) f.infinity

/-- The bits of a number in a format.  A number that is none keeps its sign and the high bits of
its fraction, which is `width` bits long, and becomes quiet. -/
def write (f : Format) (width : Nat) : Number → Nat
  | .finite negative mantissa exponent => f.signBit negative + f.nearest mantissa exponent
  | .infinite negative => f.signBit negative + f.infinity
  | .nan negative fraction =>
    f.signBit negative +
      (f.infinity ||| pow2 (f.fractionBits - 1) |||
        fraction * pow2 f.fractionBits / pow2 width)

end Format

/-- The bits of 64 that are nearest to an integer. -/
def ofInt64 (value : Int64) : UInt64 :=
  let n := value.toInt
  UInt64.ofNat (binary64.write 52 (.finite (decide (n < 0)) n.natAbs 0))

/-- Narrows 64 bits to the nearest 32. -/
def narrow (bits : UInt64) : UInt32 :=
  UInt32.ofNat (binary32.write 52 (binary64.read bits.toNat))

/-- Widens 32 bits to the same number in 64. -/
def widen (bits : UInt32) : UInt64 :=
  UInt64.ofNat (binary64.write 23 (binary32.read bits.toNat))

end ForeignCall.Ieee
