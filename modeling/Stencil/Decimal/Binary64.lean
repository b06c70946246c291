/-!
# Binary floating-point numbers

Numbers of 64 bits in the binary interchange format: a sign, an exponent of 11 bits and a fraction
of 52 bits. They are kept as their bits, so that all that is done with them is exact arithmetic on
naturals and integers.
-/

namespace Stencil

/-- A 64-bit binary floating-point number, as its bits. -/
structure Binary64 where
  /-- Sign, exponent and fraction, most significant first. -/
  bits : UInt64
deriving DecidableEq, Repr

namespace Binary64

/-- What the bits mean. -/
inductive Meaning where
  /-- No number. -/
  | nan
  /-- An infinity. -/
  | infinite (negative : Bool)
  /-- The number `± mantissa · 2 ^ exponent`. -/
  | finite (negative : Bool) (mantissa : Nat) (exponent : Int)

/-- Whether the sign bit is set. -/
def negative (x : Binary64) : Bool := x.bits.toNat >>> 63 == 1

/-- The exponent as stored. -/
def biased (x : Binary64) : Nat := (x.bits.toNat >>> 52) % 2048

/-- The fraction as stored. -/
def fraction (x : Binary64) : Nat := x.bits.toNat % (1 <<< 52)

/-- What a number's bits mean. -/
def meaning (x : Binary64) : Meaning :=
  if x.biased = 2047 then
    if x.fraction = 0 then .infinite x.negative else .nan
  else if x.biased = 0 then .finite x.negative x.fraction (-1074)
  else .finite x.negative ((1 <<< 52) + x.fraction) (x.biased - 1075)

/-- Whether it is no number. -/
def isNaN (x : Binary64) : Bool := x.biased = 2047 && x.fraction ≠ 0

/-- Whether it is neither an infinity nor no number. -/
def isFinite (x : Binary64) : Bool := x.biased ≠ 2047

/-- Equality of numbers: what is no number equals nothing, and the two zeros are equal. -/
def equal (x y : Binary64) : Bool :=
  !x.isNaN && !y.isNaN && (x.bits == y.bits || (x.bits ||| y.bits) <<< 1 == 0)

/-- The quotient of two naturals, rounded to the nearest natural; a half goes to the even one. -/
def roundDiv (numerator denominator : Nat) : Nat :=
  let quotient := numerator / denominator
  let rest := numerator % denominator
  if 2 * rest > denominator || (2 * rest = denominator && quotient % 2 = 1) then quotient + 1
  else quotient

/-- The bits of the number nearest to a natural below `2 ^ 1023`, where a half goes to the even
neighbour. A carry out of the fraction runs into the exponent, as it should. -/
def magnitude (n : Nat) : Nat :=
  if n = 0 then 0
  else
    let top := n.log2
    let fraction := if top ≤ 52 then n <<< (52 - top) else roundDiv n (1 <<< (top - 52))
    ((top + 1023) <<< 52) + fraction - (1 <<< 52)

/-- The number nearest to an integer of absolute value below `2 ^ 1023`. -/
def ofInt (n : Int) : Binary64 :=
  ⟨.ofNat ((if n < 0 then 1 <<< 63 else 0) + magnitude n.natAbs)⟩

/-- The integer part, cut to the range of a 64-bit integer; what is no number gives 0. -/
def toInt64 (x : Binary64) : Int64 :=
  match x.meaning with
  | .nan => 0
  | .infinite negative => if negative then Int64.minValue else Int64.maxValue
  | .finite negative mantissa exponent =>
    let whole : Nat :=
      if 0 ≤ exponent then mantissa <<< exponent.toNat else mantissa >>> (-exponent).toNat
    if negative then if whole ≥ 1 <<< 63 then Int64.minValue else Int64.ofInt (-whole)
    else if whole ≥ 1 <<< 63 then Int64.maxValue else Int64.ofNat whole

end Binary64

end Stencil
