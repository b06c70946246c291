import Stencil.Decimal.Positional
import Stencil.Value.Basic

/-!
# Number directives

A number format holds one directive: a percent sign, flags, a width, a precision after a point and
a letter that says how the number is written. The text around the directive is kept.

Widths and precisions are 64-bit numbers. A numeral that does not fit is not the mistake of a format
that is reported: it ends the program, whatever comes after it.
-/

namespace Stencil.Format

/-- How a number is written. -/
inductive Conversion where
  /-- As a decimal integer; a float loses its fraction. -/
  | decimal
  /-- As the hexadecimal digits of its two's complement. -/
  | hex
  /-- The same with capital letters. -/
  | upperHex
  /-- As the octal digits of its two's complement. -/
  | octal
  /-- With a fixed number of decimal places. -/
  | fixed
  /-- As it is shown without a format. -/
  | plain
deriving DecidableEq, Repr

/-- The conversion with a given letter. -/
def Conversion.ofChar? : Char → Option Conversion
  | 'd' => some .decimal
  | 'x' => some .hex
  | 'X' => some .upperHex
  | 'o' => some .octal
  | 'f' => some .fixed
  | 's' => some .plain
  | _ => none

/-- A directive and the text around it. -/
structure Directive where
  /-- The text before the percent sign. -/
  lead : List Char
  /-- Whether to fill up with zeros. -/
  zero : Bool
  /-- Whether to fill up on the right. -/
  left : Bool
  /-- Whether to write a plus sign. -/
  plus : Bool
  /-- The least number of characters. -/
  width : Nat
  /-- The number of decimal places, if it is given. -/
  precision : Option Nat
  /-- How the number is written. -/
  conversion : Conversion
  /-- The text after the letter. -/
  trail : List Char
deriving DecidableEq, Repr

/-- The end of the program at a number that does not fit into 64 bits. -/
structure Overflow
deriving DecidableEq, Repr

/-- A number, if it fits into 64 bits. -/
def checked (number : Nat) : Except Overflow Nat :=
  if number < UInt64.size then .ok number else .error {}

/-- The number with the given digits, which is checked after each of them. -/
def numeral (digits : List Char) : Except Overflow Nat :=
  digits.foldlM (fun number digit => checked (number * 10 + (digit.toNat - 48))) 0

/-- Whether a character is a flag. -/
def isFlag (c : Char) : Bool := c == '0' || c == '-' || c == '+'

namespace Directive

/-- Reads a precision, if there is a point, and hands out the rest. -/
def readPrecision : List Char → Except Overflow (Option Nat × List Char)
  | '.' :: rest => do
    let precision ← numeral (rest.takeWhile Char.isDigit)
    return (some precision, rest.dropWhile Char.isDigit)
  | rest => return (none, rest)

/-- Reads the first directive of a format, if there is one. The numerals are read first. -/
def parse (format : String) : Except Overflow (Option Directive) := do
  let (lead, rest) := format.toList.span (· != '%')
  let (flags, rest) := rest.tail.span isFlag
  let (digits, rest) := rest.span Char.isDigit
  let width ← numeral digits
  let (precision, rest) ← readPrecision rest
  return do
    let letter ← rest.head?
    let conversion ← Conversion.ofChar? letter
    return {
      lead, width, precision, conversion
      zero := flags.contains '0'
      left := flags.contains '-'
      plus := flags.contains '+'
      trail := rest.tail }

/-- The sign and the digits that are written for a number's text. -/
def signOf (directive : Directive) (body : List Char) : List Char × List Char :=
  match body with
  | '-' :: digits => (['-'], digits)
  | digits => (if directive.plus && directive.conversion ≠ .plain then ['+'] else [], digits)

/-- Fills a number's text up to the width. -/
def pad (directive : Directive) (body : List Char) : List Char :=
  let (sign, digits) := directive.signOf body
  let fill := directive.width - (sign.length + digits.length)
  if directive.left then sign ++ digits ++ List.replicate fill ' '
  else if directive.zero && directive.conversion ≠ .plain then
    sign ++ List.replicate fill '0' ++ digits
  else List.replicate fill ' ' ++ sign ++ digits

/-- The digits of a 64-bit integer's two's complement. -/
def complementDigits (base : Nat) (number : Int64) : List Char :=
  Nat.toDigits base number.toUInt64.toNat

/-- The text of a number under the directive's conversion, or nothing if the conversion is not for
it. A plain text is supplied by the caller. -/
def body? (directive : Directive) (scalar : Scalar) : Option String :=
  let places := directive.precision.getD 6
  match directive.conversion, scalar with
  | .decimal, .int number => some (toString number.toInt)
  | .decimal, .float number => some (toString number.toInt64.toInt)
  | .hex, .int number => some (.ofList (complementDigits 16 number))
  | .upperHex, .int number => some (.ofList ((complementDigits 16 number).map Char.toUpper))
  | .octal, .int number => some (.ofList (complementDigits 8 number))
  | .fixed, .int number => some (Decimal.fixed places (.ofInt number.toInt))
  | .fixed, .float number => some (Decimal.fixed places number)
  | _, _ => none

/-- The whole text for a number's text. -/
def text (directive : Directive) (body : String) : String :=
  .ofList (directive.lead ++ directive.pad body.toList ++ directive.trail)

end Directive

end Stencil.Format
