import Stencil.Render.Apply

/-!
# Evaluating expressions
-/

namespace Stencil

open Render

/-- Whether a value is a list or an iterator, which makes a list of what it is put together
with. -/
def Value.isSequence : Value → Bool
  | .list _ | .iterator _ => true
  | _ => false

/-- What values that are put together as a list consist of: the elements of lists and iterators,
and other values themselves unless they are absent. -/
def Value.spliced : List Value → StateM Store (List Value)
  | [] => return []
  | .absent :: rest => spliced rest
  | value :: rest => do
    let items ← value.contribution
    return items ++ (← spliced rest)

namespace Evaluator

variable (below : Evaluator)

/-- The values of some expressions, in order. -/
def evalAll (scope : Scope) : List Expr → Render (List Value)
  | [] => return []
  | expr :: rest => do
    let value ← below.eval scope expr
    return value :: (← evalAll scope rest)

/-- The texts of some values, joined. -/
def textOfAll (scope : Scope) : List Value → Render String
  | [] => return ""
  | value :: rest => do
    let text ← below.textOf scope value
    return text ++ (← textOfAll scope rest)

/-- Values put together: as a list if one of them is a list or an iterator, else as text. -/
def concat (scope : Scope) (values : List Value) : Render Value := do
  if values.any Value.isSequence then return .list (← onStore (Value.spliced values))
  else return .string (← below.textOfAll scope values)

/-- Whether the value of an expression counts as true. -/
def holds (scope : Scope) (expr : Expr) : Render Bool := do
  truthy (← below.eval scope expr)

/-- The value of an expression. -/
def evalExpr (scope : Scope) : Expr → Render Value
  | .attribute name => below.resolve scope name
  | .string text => return .string text
  | .bool truth => return .bool truth
  | .property target name => do property (← below.eval scope target) name
  | .computedProperty target name => do
    let target ← below.eval scope target
    let name ← below.eval scope name
    property target (← below.textOf scope name)
  | .call call => return .template (← below.call scope call)
  | .apply drivers calls => do
    match drivers with
    | [driver] => below.apply scope (← below.eval scope driver) calls
    | drivers => below.applyParallel scope (← below.evalAll scope drivers) calls
  | .inline template => return .template (← create scope (← inlineDefinition scope template))
  | .mapping literal => return .mapping (← below.evalMapping scope literal)
  | .concat items => do below.concat scope (← below.evalAll scope items)
  | .operator operator operand => do
    let value ← below.eval scope operand
    onStore (operator.apply value)
  | .rendered inner => return .string (← below.textOf scope (← below.eval scope inner))
  | .not inner => return .bool (!(← below.holds scope inner))
  | .and left right => do
    if ← below.holds scope left then return .bool (← below.holds scope right)
    else return .bool false
  | .or left right => do
    if ← below.holds scope left then return .bool true
    else return .bool (← below.holds scope right)

end Evaluator

end Stencil
