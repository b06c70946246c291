import Stencil.Decimal.Compact
import Stencil.Value.Basic

/-!
# Plain data as values

Data that comes from outside, such as a document, becomes a value: lists become lists, objects
become mappings without a fallback, and what stands for nothing becomes absent.
-/

namespace Stencil

/-- Plain data. The names of an object's fields are data too. -/
inductive Data where
  | null
  | bool (truth : Bool)
  | integer (number : Int)
  | float (number : Binary64)
  | string (text : String)
  | list (items : List Data)
  | object (fields : List (Data × Data))

namespace Data

/-- Why data cannot name a field. -/
inductive Failure where
  | keyMustBeString
  | keyMustBeFinite
deriving DecidableEq, Repr

/-- The wording of a failure. -/
def Failure.message : Failure → String
  | .keyMustBeString => "key must be a string"
  | .keyMustBeFinite => "float key must be finite (got NaN or +/-inf)"

/-- The name that data gives to a field: texts, numbers and truth values can name one. -/
def fieldName : Data → Except Failure String
  | .string text => .ok text
  | .float number =>
    if number.isFinite then .ok (Decimal.compact number) else .error .keyMustBeFinite
  | .integer number => .ok (toString number)
  | .bool truth => .ok (if truth then "true" else "false")
  | _ => .error .keyMustBeString

/-- An integer as a scalar: one that does not fit 64 bits with a sign is rounded to a float. -/
def ofInteger (number : Int) : Scalar :=
  if Int64.minValue.toInt ≤ number ∧ number ≤ Int64.maxValue.toInt then .int (.ofInt number)
  else .float (.ofInt number)

mutual

/-- The value of data. A float that is no finite number becomes absent. -/
def toValue : Data → Except Failure Value
  | .null => .ok .absent
  | .bool truth => .ok (.bool truth)
  | .integer number => .ok (.scalar (ofInteger number))
  | .float number => .ok (if number.isFinite then .scalar (.float number) else .absent)
  | .string text => .ok (.string text)
  | .list items => return .list (← toValues items)
  | .object fields => return .mapping { entries := (Table.insertAll {} (← toEntries fields)) }

/-- The values of a list of data. -/
def toValues : List Data → Except Failure (List Value)
  | [] => .ok []
  | item :: rest => return (← item.toValue) :: (← toValues rest)

/-- The names and values of the fields of an object. -/
def toEntries : List (Data × Data) → Except Failure (List (String × Value))
  | [] => .ok []
  | (name, item) :: rest => return (← name.fieldName, ← item.toValue) :: (← toEntries rest)

end

end Data

end Stencil
