import Stencil.Render.Bind

/-!
# Calls and applications

A call creates an instance of a template. An application creates one for each element of a driver,
with the element bound to the template's first formal argument and to `it`; several templates take
turns. An application to several drivers walks them in step and creates an instance for each row, as
long as the longest driver has elements. In both, `i` and `i0` number the instances from one and
from zero.
-/

namespace Stencil

open Render

namespace Evaluator

variable (below : Evaluator)

/-- The definition that a call refers to. -/
def callee (scope : Scope) : Callee Expr Chunk → Render Definition
  | .inline template => inlineDefinition scope template
  | .named name => do definitionFrom (← getInstance scope.innermost).group name
  | .inherited name => do definitionFrom (← superGroup scope name) name
  | .computed expr => do
    let value ← below.eval scope expr
    let name ← below.textOf scope value
    definitionFrom (← getInstance scope.innermost).group name

/-- The instance that a call creates. -/
def call (scope : Scope) (call : Call Expr Chunk) : Render InstanceId := do
  let definition ← below.callee scope call.callee
  let id ← create scope definition
  below.bindArguments scope id definition call.arguments 0
  return id

/-- The variables that number an instance. -/
def numbering (index : Nat) : List (String × Binding) :=
  [("i", some (.count (index + 1))), ("i0", some (.count index))]

/-- Binds an element to the first formal argument, unless a named argument of the call does. -/
def bindFirst (id : InstanceId) (formals : List (Formal Expr)) (named : List (String × Expr))
    (item : Value) : Render Unit :=
  match formals with
  | [] => pure ()
  | first :: _ =>
    if named.any fun (name, _) => name = first.name then pure () else bind id first.name item

/-- The instance that a call creates for one element. -/
def applyOne (scope : Scope) (call : Call Expr Chunk) (item : Value) (index : Nat) :
    Render InstanceId := do
  let definition ← below.callee scope call.callee
  let id ← create scope definition
  let formals := definition.parameters
  failIf (definition.kind = .inline ∧ formals.length > 1)
    (.argumentMismatch definition.name formals.length 1)
  bindVariables id (("it", some item) :: numbering index)
  bindFirst id formals call.arguments.named item
  below.bindArguments scope id definition call.arguments 1
  return id

/-- The call whose turn it is. -/
def turn (first : Call Expr Chunk) (more : List (Call Expr Chunk)) (index : Nat) :
    Call Expr Chunk :=
  (first :: more)[index % (more.length + 1)]?.getD first

/-- Applies calls in turn to the elements of a collection. Absent elements stay absent and take no
turn. -/
def applyItems (scope : Scope) (first : Call Expr Chunk) (more : List (Call Expr Chunk))
    (index : Nat) : List Value → Render (List Value)
  | [] => return []
  | .absent :: rest => return .absent :: (← applyItems scope first more index rest)
  | item :: rest => do
    let id ← below.applyOne scope (turn first more index) item index
    return .template id :: (← applyItems scope first more (index + 1) rest)

/-- Applies calls in turn to a driver. -/
def apply (scope : Scope) (driver : Value) (calls : List (Call Expr Chunk)) : Render Value := do
  match calls with
  | [] => return driver
  | first :: more =>
    if driver.isAbsent then return .absent
    else
      match ← onStore driver.elements? with
      | some items => return .list (← below.applyItems scope first more 0 items)
      | none => return .template (← below.applyOne scope first driver 0)

/-- The elements that a driver contributes to the rows of a parallel application. -/
def column (driver : Value) : StateM Store (List Value) := do
  match ← driver.elements? with
  | some items => return items
  | none => return if driver.isAbsent then [] else [driver]

/-- The elements of several drivers. -/
def columns : List Value → StateM Store (List (List Value))
  | [] => return []
  | driver :: rest => do
    let items ← column driver
    return items :: (← columns rest)

/-- Binds the elements of a row, and answers the names whose driver has run out. -/
def bindRow (id : InstanceId) (index : Nat) : List (String × List Value) → Render (List String)
  | [] => return []
  | (name, items) :: rest => do
    match items[index]? with
    | some value =>
      bind id name value
      bindRow id index rest
    | none => return name :: (← bindRow id index rest)

/-- The instance of one row. Reading a name whose driver has run out is an error, unless the
expression that is being evaluated has a null option. -/
def applyRow (scope : Scope) (definition : Definition) (arguments : Arguments Expr)
    (cells : List (String × List Value)) (index : Nat) : Render InstanceId := do
  let id ← create scope definition
  let exhausted ← bindRow id index cells
  let lenient ← isLenient
  bindVariables id
    (numbering index ++ if lenient then [] else exhausted.map fun name => (name, none))
  below.bindArguments scope id definition arguments cells.length
  return id

/-- The instances of the rows from `index` on, of which there are `count`. -/
def applyRows (scope : Scope) (definition : Definition) (arguments : Arguments Expr)
    (cells : List (String × List Value)) (index : Nat) : (count : Nat) → Render (List Value)
  | 0 => return []
  | count + 1 => do
    let id ← below.applyRow scope definition arguments cells index
    return .template id :: (← applyRows scope definition arguments cells (index + 1) count)

/-- Applies one call to several drivers in step. -/
def applyParallel (scope : Scope) (drivers : List Value) (calls : List (Call Expr Chunk)) :
    Render Value := do
  match calls with
  | [call] =>
    let definition ← below.callee scope call.callee
    let names := definition.parameterNames
    failIf (names.length ≠ drivers.length)
      (.argumentMismatch definition.name names.length drivers.length)
    let columns ← onStore (columns drivers)
    let rows := (columns.map List.length).foldl max 0
    return .list (← below.applyRows scope definition call.arguments (names.zip columns) 0 rows)
  | calls => fail (.argumentMismatch "parallel application" 1 calls.length)

end Evaluator

end Stencil
