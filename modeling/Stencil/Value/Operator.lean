import Stencil.Value.Store

/-!
# Elements of values

Lists are made of values in two ways. A list operator works on the elements of a value, and an
assignment or a concatenation collects what values contribute.

The operators look at the shape of a value only. Lists, iterators and mappings are collections;
the elements of a mapping are its names. Any other value counts as its own only element, except
that an absent value has none.
-/

namespace Stencil

/-- The list operators. -/
inductive Operator where
  | first
  | rest
  | last
  | length
  | strip
  | trunc
  | reverse
deriving DecidableEq, Repr

namespace Value

/-- The elements of a collection; an iterator is used up by this. -/
def elements? (value : Value) : StateM Store (Option (List Value)) :=
  match value with
  | .list items => pure (some items)
  | .iterator cursor => some <$> Store.drain cursor
  | .mapping entries => pure (some entries.keyValues)
  | _ => pure none

/-- What a value contributes to a list that is put together: a list or an iterator its elements,
any other value itself. An iterator is used up by this. -/
def contribution (value : Value) : StateM Store (List Value) :=
  match value with
  | .list items => pure items
  | .iterator cursor => Store.drain cursor
  | other => pure [other]

/-- The list of items, or nothing if there are none. -/
def ofNonempty (items : List Value) : Value := if items.isEmpty then .absent else .list items

/-- Drops the absent elements. -/
def present (items : List Value) : List Value := items.filter fun item => !item.isAbsent

/-- A list without its absent elements; any other value as it is. -/
def stripped : Value → Value
  | .list items => .list (present items)
  | value => value

end Value

namespace Operator

/-- An operator on the elements of a collection. -/
def onElements (operator : Operator) (items : List Value) : Value :=
  match operator with
  | .first => items.headD .absent
  | .rest => .ofNonempty items.tail
  | .last => items.getLastD .absent
  | .length => .count items.length
  | .strip => .list ((Value.present items).map Value.stripped)
  | .trunc => .ofNonempty items.dropLast
  | .reverse => .list items.reverse

/-- An operator on a value that is no collection. -/
def onSingle (operator : Operator) (value : Value) : Value :=
  match operator with
  | .rest | .trunc => .absent
  | .length => .count (if value.isAbsent then 0 else 1)
  | .first | .last | .strip | .reverse => value

/-- An operator on a value. The first element of an iterator is taken from it alone; every other
operator uses an iterator up. -/
def apply (operator : Operator) (value : Value) : StateM Store Value := do
  if let (.first, .iterator cursor) := (operator, value) then
    return ((← Store.next cursor).getD .absent)
  match ← value.elements? with
  | some items => return operator.onElements items
  | none => return operator.onSingle value

end Operator

end Stencil
