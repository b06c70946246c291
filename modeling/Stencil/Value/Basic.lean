import Stencil.Decimal.Binary64
import Stencil.Handle
import Stencil.Table

/-!
# Values

A value is what an attribute holds, what an expression yields and what an application walks over:
nothing at all, a scalar, a list, a mapping, an instance of a template, or an iterator that can be
walked once.
-/

namespace Stencil

/-- What a mapping answers for a name without an entry. -/
inductive Fallback (α : Type) where
  /-- The name itself. -/
  | key
  /-- The same value for every name. -/
  | value (value : α)

/-- Entries under names, with an answer for the other names if there is one. -/
structure Mapping (α : Type) where
  /-- The entries, in the order of insertion. -/
  entries : Table α := {}
  /-- The answer for names without an entry. -/
  fallback : Option (Fallback α) := none

/-- A value that is no collection. -/
inductive Scalar where
  | string (text : String)
  /-- A signed integer of 64 bits. -/
  | int (number : Int64)
  | float (number : Binary64)
  | bool (truth : Bool)
  /-- An object of the caller; the store knows more about it. -/
  | object (id : ObjectId)
deriving DecidableEq

/-- A value. -/
inductive Value where
  | absent
  | scalar (scalar : Scalar)
  | list (items : List Value)
  | mapping (mapping : Mapping Value)
  /-- An instance of a template. -/
  | template (id : InstanceId)
  /-- An iterator; its copies share one cursor. -/
  | iterator (cursor : CursorId)

instance : Inhabited Value := ⟨.absent⟩

/-- The types that scalars have and renderers are registered for. -/
inductive ScalarType where
  | string
  | int
  | float
  | bool
  /-- Objects with this type name. -/
  | object (name : String)
deriving DecidableEq, Repr

/-- The name of a scalar type. -/
def ScalarType.name : ScalarType → String
  | .string => "string"
  | .int => "int"
  | .float => "float"
  | .bool => "bool"
  | .object name => name

namespace Value

/-- A text as a value. -/
def string (text : String) : Value := .scalar (.string text)

/-- A truth value as a value. -/
def bool (truth : Bool) : Value := .scalar (.bool truth)

/-- An unsigned number as a value; it is reduced to 64 bits and read as a signed one. -/
def count (number : Nat) : Value := .scalar (.int (.ofNat number))

/-- Whether the value is absent. -/
def isAbsent : Value → Bool
  | .absent => true
  | _ => false

/-- The text of a string value. -/
def text? : Value → Option String
  | .scalar (.string text) => some text
  | _ => none

end Value

namespace Mapping

/-- The names with an entry, as values. -/
def keyValues (mapping : Mapping Value) : List Value := mapping.entries.keys.map Value.string

/-- Adds an entry; a name that has one already keeps its place. -/
def insert {α : Type} (mapping : Mapping α) (name : String) (value : α) : Mapping α :=
  { mapping with entries := mapping.entries.insert name value }

/-- What a mapping answers for a name: its entry; else, for `keys` and `values`, the list of its
names or of its values; else its fallback; else nothing. -/
def lookup (mapping : Mapping Value) (name : String) : Value :=
  match mapping.entries.get? name with
  | some value => value
  | none =>
    if name = "keys" then .list mapping.keyValues
    else if name = "values" then .list mapping.entries.values
    else match mapping.fallback with
      | some .key => .string name
      | some (.value value) => value
      | none => .absent

end Mapping

end Stencil
