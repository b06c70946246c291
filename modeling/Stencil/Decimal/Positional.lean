import Stencil.Decimal.Binary64

/-!
# Decimal texts of floating-point numbers

Two texts of a number, both positional, without an exponent.

* `shortest` has the fewest digits that still identify the number among all 64-bit numbers. Of two
  such decimals the one nearer to the number is taken, and of two equally near ones the greater.
* `fixed` has a given number of places. The exact value is rounded; a half goes to the even digit.
-/

namespace Stencil.Decimal

/-- A natural number scaled by a power of ten. -/
structure Scaled where
  /-- The digits. -/
  digits : Nat
  /-- The power of ten. -/
  exponent : Int

/-- A positive rational `value / unit` and the ends of the interval around it, over the same unit,
in which every decimal identifies it. -/
structure Interval where
  low : Nat
  value : Nat
  high : Nat
  unit : Nat
  /-- Whether the ends belong to the interval. -/
  closed : Bool

/-- The decimals that identify `mantissa · 2 ^ exponent`: those nearer to it than to the numbers
beside it. The gap below a power of two is half as wide as the one above. -/
def interval (mantissa : Nat) (exponent : Int) : Interval :=
  let below := if mantissa = 1 <<< 52 && exponent > -1074 then 1 else 2
  let scale := 1 <<< (exponent - 2).toNat
  { low := (4 * mantissa - below) * scale
    value := 4 * mantissa * scale
    high := (4 * mantissa + 2) * scale
    unit := 1 <<< (2 - exponent).toNat
    closed := mantissa % 2 = 0 }

/-- The least `k`, from `start` on, for which `value / unit < 10 ^ k`; `tries` bounds the search. -/
def leastPower (value unit : Nat) (start : Int) : Nat → Int
  | 0 => start
  | tries + 1 =>
    if value * Nat.pow 10 (-start).toNat < unit * Nat.pow 10 start.toNat then start
    else leastPower value unit (start + 1) tries

/-- The number of digits before the point of `value / unit`, negative for zeros after it. The
binary logarithms bound the decimal one from both sides closely enough for four tries. -/
def position (value unit : Nat) : Int :=
  leastPower value unit (((value.log2 : Int) - unit.log2 - 1) * 30103 / 100000) 4

/-- The decimal with the given exponent that identifies the number, if there is one. -/
def onGrid (i : Interval) (exponent : Int) : Option Scaled :=
  let up := Nat.pow 10 (-exponent).toNat
  let unit := i.unit * Nat.pow 10 exponent.toNat
  let value := i.value * up
  let floor := value / unit
  let inside (n : Nat) : Bool :=
    (i.low * up < n * unit && n * unit < i.high * up) ||
      (i.closed && (n * unit = i.low * up || n * unit = i.high * up))
  let pick (n : Nat) : Option Scaled := some ⟨n, exponent⟩
  match inside floor, inside (floor + 1) with
  | true, true => pick (if 2 * (value % unit) ≥ unit then floor + 1 else floor)
  | true, false => pick floor
  | false, true => pick (floor + 1)
  | false, false => none

/-- The shortest decimal that identifies the number. Seventeen digits always suffice. -/
def shortestScaled (i : Interval) : Scaled :=
  let k := position i.value i.unit
  ((List.range 17).findSome? fun (n : Nat) => onGrid i (k - n - 1)).getD ⟨0, 0⟩

/-- Takes zeros off the end, at most as many as there are places. -/
def trimZeros (digits : Nat) : Nat → Nat × Nat
  | 0 => (digits, 0)
  | places + 1 => if digits % 10 = 0 then trimZeros (digits / 10) places else (digits, places + 1)

/-- `digits / 10 ^ places` with exactly that many places. -/
def withPlaces (digits places : Nat) : String :=
  let text := Nat.toDigits 10 digits
  let text := List.replicate (places + 1 - text.length) '0' ++ text
  let whole := text.take (text.length - places)
  if places = 0 then String.ofList whole
  else String.ofList (whole ++ '.' :: text.drop (text.length - places))

/-- The text of a scaled number, without zeros at the end of its places. -/
def Scaled.text (x : Scaled) : String :=
  let (digits, places) := trimZeros (x.digits * Nat.pow 10 x.exponent.toNat) (-x.exponent).toNat
  withPlaces digits places

/-- The text of what is no number. -/
def nanText : String := "NaN"

/-- The text of an infinity without its sign. -/
def infinityText : String := "inf"

/-- Puts the minus sign of a negative number in front. -/
def signed (negative : Bool) (text : String) : String := if negative then "-" ++ text else text

/-- The shortest decimal text that identifies the number. -/
def shortest (x : Binary64) : String :=
  match x.meaning with
  | .nan => nanText
  | .infinite negative => signed negative infinityText
  | .finite negative mantissa exponent =>
    signed negative
      (if mantissa = 0 then "0" else (shortestScaled (interval mantissa exponent)).text)

/-- The number rounded to `places` decimal places. -/
def fixed (places : Nat) (x : Binary64) : String :=
  match x.meaning with
  | .nan => nanText
  | .infinite negative => signed negative infinityText
  | .finite negative mantissa exponent =>
    signed negative (withPlaces
      (Binary64.roundDiv ((mantissa <<< exponent.toNat) * Nat.pow 10 places)
        (1 <<< (-exponent).toNat))
      places)

end Stencil.Decimal
