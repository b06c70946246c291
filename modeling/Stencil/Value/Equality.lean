import Stencil.Value.Basic

/-!
# Equality of values

Two values are equal when they have the same shape and equal parts. Floating-point numbers are
compared as numbers, so that what is no number equals nothing, itself included; objects and
iterators are compared by identity; mappings are equal when they have equal entries under the same
names, in whatever order, and equal fallbacks.
-/

namespace Stencil

/-- Equality of scalars. -/
def Scalar.equal : Scalar → Scalar → Bool
  | .float x, .float y => x.equal y
  | x, y => x = y

mutual

/-- Equality of values. -/
def Value.equal : Value → Value → Bool
  | .absent, .absent => true
  | .scalar x, .scalar y => x.equal y
  | .list xs, .list ys => Value.equalLists xs ys
  | .mapping ⟨⟨entries⟩, fallback⟩, .mapping other =>
    entries.length == other.entries.size && Value.equalEntries entries other.entries &&
      Value.equalFallbacks fallback other.fallback
  | .template x, .template y => x = y
  | .iterator x, .iterator y => x = y
  | _, _ => false

/-- Equality of lists, item by item. -/
def Value.equalLists : List Value → List Value → Bool
  | [], [] => true
  | x :: xs, y :: ys => x.equal y && Value.equalLists xs ys
  | _, _ => false

/-- Whether each entry of a list has an equal one in a table. -/
def Value.equalEntries : List (String × Value) → Table Value → Bool
  | [], _ => true
  | (name, x) :: rest, other =>
    (match other.get? name with
      | some y => x.equal y
      | none => false) && Value.equalEntries rest other

/-- Equality of the fallbacks of two mappings. -/
def Value.equalFallbacks : Option (Fallback Value) → Option (Fallback Value) → Bool
  | none, none => true
  | some .key, some .key => true
  | some (.value x), some (.value y) => x.equal y
  | _, _ => false

end

end Stencil
