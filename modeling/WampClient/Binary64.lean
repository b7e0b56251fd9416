/-! Double precision numbers as their sixty-four bits. A finite number is a whole number of at most
fifty-three bits times a power of two; arithmetic here is exact on such pairs and rounds once, to
the nearest number and of two equally near to the even one. -/
namespace WampClient

/-- The bits of a double precision number. -/
structure Binary64 where
  bits : UInt64
  deriving DecidableEq, Repr, Inhabited

namespace Binary64

/-- Sixty-four bits, from their value as a whole number. -/
def ofNatBits (n : Nat) : Binary64 := ⟨UInt64.ofNat n⟩

def signBit (x : Binary64) : Bool := 0x8000000000000000 ≤ x.bits.toNat

/-- The bits below the sign. -/
def magnitude (x : Binary64) : Nat := x.bits.toNat % 0x8000000000000000

def infiniteMagnitude : Nat := 0x7FF0000000000000

/-- The leading bit of a significand, which is not written; what stands above it is the scale. -/
def hiddenBit : Nat := 0x10000000000000

def isNaN (x : Binary64) : Bool := infiniteMagnitude < x.magnitude

def isFinite (x : Binary64) : Bool := x.magnitude < infiniteMagnitude

def isZero (x : Binary64) : Bool := x.magnitude == 0

/-- Equality of numbers: the zeros are equal, and what is not a number equals nothing. -/
def same (x y : Binary64) : Bool :=
  !x.isNaN && !y.isNaN && (x.bits == y.bits || (x.isZero && y.isZero))

def nan : Binary64 := ofNatBits 0x7FF8000000000000

/-- The whole number of a finite magnitude. -/
def significand (x : Binary64) : Nat :=
  if x.magnitude < hiddenBit then x.magnitude else x.magnitude % hiddenBit + hiddenBit

/-- The power of two of a finite magnitude, less the least one, -1074. -/
def scale (x : Binary64) : Nat := x.magnitude / hiddenBit - 1

/-- A finite magnitude as a fraction. -/
def ratio (x : Binary64) : Nat × Nat := (x.significand <<< x.scale, 1 <<< 1074)

/-- The nearest whole number to a fraction, a half going to the even neighbour. -/
def roundHalfEven (num den : Nat) : Nat :=
  let below := num / den
  let twice := 2 * (num % den)
  if twice < den then below
  else if den < twice then below + 1
  else below + below % 2

/-- The place of the leading bit of a positive fraction `num / den`, plus 1074, or zero if that
is less. -/
def leadingPlace (num den : Nat) : Nat :=
  let guess := num.log2 + 1075 - den.log2
  let guess := guess - 1
  if num <<< 1074 < den <<< guess then guess - 1 else guess

/-- The magnitude nearest to a fraction. A significand that rounds up to the next power of two
carries into the scale by itself, for the two stand side by side. -/
def roundMagnitude (num den : Nat) : Nat :=
  if num = 0 then 0
  else
    let scale := leadingPlace num den - 52
    Nat.min (scale * hiddenBit + roundHalfEven (num <<< 1074) (den <<< scale)) infiniteMagnitude

def withSign (negative : Bool) (magnitude : Nat) : Binary64 :=
  ofNatBits (if negative then 0x8000000000000000 + magnitude else magnitude)

def ofRatio (negative : Bool) (num den : Nat) : Binary64 :=
  withSign negative (roundMagnitude num den)

def ofNat (n : Nat) : Binary64 := ofRatio false n 1

/-- The power of ten, rounded where it has more than fifty-three bits. -/
def tenPow (k : Nat) : Binary64 := ofNat (Nat.pow 10 k)

def negate (x : Binary64) : Binary64 := withSign (!x.signBit) x.magnitude

/-- The product of two finite positive numbers. -/
def mulMagnitudes (x y : Binary64) : Binary64 :=
  ofRatio false (x.ratio.1 * y.ratio.1) (x.ratio.2 * y.ratio.2)

/-- The quotient of a finite number that is not negative and a finite positive one. -/
def divMagnitudes (x y : Binary64) : Binary64 :=
  ofRatio false (x.ratio.1 * y.ratio.2) (x.ratio.2 * y.ratio.1)

/-- A single precision number, from its thirty-two bits. Every one is also a double precision
number; what is not a number becomes a quiet one with the same sign and the same leading bits. -/
def ofBinary32 (bits : UInt32) : Binary64 :=
  let n := bits.toNat
  let negative : Bool := 0x80000000 ≤ n
  let exponent := n / 0x800000 % 0x100
  let fraction := n % 0x800000
  if exponent = 0xFF then
    withSign negative
      (if fraction = 0 then infiniteMagnitude
       else infiniteMagnitude + 0x8000000000000 + (fraction <<< 29) % 0x8000000000000)
  else if exponent = 0 then ofRatio negative fraction (1 <<< 149)
  else ofRatio negative ((fraction + 0x800000) <<< (exponent - 1)) (1 <<< 149)

end Binary64

end WampClient
