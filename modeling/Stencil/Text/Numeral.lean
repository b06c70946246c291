/-!
# Numerals

Natural numbers read from their digits, in bases up to sixteen. Letters of either case count as
digits above nine.
-/

namespace Stencil.Text

/-- The value of a digit. -/
def digitValue? (c : Char) : Option Nat :=
  if '0' ≤ c ∧ c ≤ '9' then some (c.toNat - 48)
  else if 'a' ≤ c ∧ c ≤ 'f' then some (c.toNat - 87)
  else if 'A' ≤ c ∧ c ≤ 'F' then some (c.toNat - 55)
  else none

/-- The number with the given digits; there has to be a digit, and each has to be below the base. -/
def numeral? (base : Nat) (digits : List Char) : Option Nat :=
  if digits.isEmpty then none
  else digits.foldlM (fun number c => do
    let digit ← digitValue? c
    if digit < base then some (base * number + digit) else none) 0

end Stencil.Text
