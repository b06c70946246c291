import Stencil.Decimal.Positional

/-!
# Compact decimal texts

The shortest decimal of a number, written so that it shows that the number is a floating-point one:
with at least one place, and with an exponent where the positional text would be long.
-/

namespace Stencil.Decimal

/-- The same number with as few digits as possible. -/
def Scaled.normalize (x : Scaled) : Scaled :=
  let (digits, left) := trimZeros x.digits 17
  ⟨digits, x.exponent + (17 - left : Nat)⟩

/-- A point after the first of several digits. -/
def withPoint : List Char → List Char
  | first :: second :: rest => first :: '.' :: second :: rest
  | digits => digits

/-- The compact text of a number other than zero: positional from a hundred-thousandth on and below
ten to the sixteenth, and with an exponent elsewhere. -/
def Scaled.compact (x : Scaled) : String :=
  let x := x.normalize
  let digits := Nat.toDigits 10 x.digits
  let position := digits.length + x.exponent
  if position ≤ -5 ∨ 16 < position then
    String.ofList (withPoint digits) ++ "e" ++ toString (position - 1)
  else if 0 ≤ x.exponent then withPlaces (x.digits * Nat.pow 10 x.exponent.toNat) 0 ++ ".0"
  else withPlaces x.digits (-x.exponent).toNat

/-- The compact text that identifies a number. -/
def compact (x : Binary64) : String :=
  match x.meaning with
  | .nan => nanText
  | .infinite negative => signed negative infinityText
  | .finite negative mantissa exponent =>
    signed negative
      (if mantissa = 0 then "0.0" else (shortestScaled (interval mantissa exponent)).compact)

end Stencil.Decimal
