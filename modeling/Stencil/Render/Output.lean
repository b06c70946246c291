import Stencil.Render.Basic

/-!
# Writing values

A scalar is written as the text that its renderer gives, an instance is written by rendering it,
and of a collection the elements are written one after the other, with the separator between them.
Absent values are written as the null text, or are passed over if there is none.
-/

namespace Stencil.Render

/-- The renderer for a type: of the innermost instance that has one, else of the groups on the
chain from which lookups start, else of those on the chain of the definition's group, else a
built-in one. -/
def findRenderer? (groups : Groups) (instances : Array Instance) (scope : Scope)
    (type : ScalarType) : Option Renderer :=
  let ofInstances := scope.frames.findSome? fun id =>
    (instances[id.index]?).bind fun data => data.renderers.find? type
  let ofGroups := (instances[scope.innermost.index]?).bind fun data =>
    groups.findRenderer data.group type <|> groups.findRenderer data.nativeGroup type
  ofInstances <|> ofGroups <|> Renderers.builtin.find? type

/-- The text of a scalar under a format. -/
def scalarText (scope : Scope) (scalar : Scalar) (format : Option String) : Render String := do
  let run ← get
  match findRenderer? (← read).groups run.instances scope (run.store.scalarType scalar) with
  | some renderer => rendering (renderer.format scalar format)
  | none => rendering (Format.shown scalar)

/-- The elements that are written: absent ones give way to the null text, or vanish. -/
def survivors (null : Option String) (items : List Value) : List Value :=
  items.filterMap fun
    | .absent => null.map Value.string
    | item => some item

/-- Writes the separator, if there is one. -/
def writeSeparator (options : WriteOptions) : Render Nat := do
  match options.separator with
  | some separator => writing (Writer.write separator)
  | none => return 0

/-- Writes the wrap text, if there is one, where not even one more column fits on the line. -/
def writeWrap (options : WriteOptions) : Render Nat := do
  match options.wrap with
  | some wrap => writing (Writer.wrap wrap 1)
  | none => return 0

end Render

open Render

namespace Evaluator

variable (below : Evaluator)

/-- Writes elements, each after a separator. -/
def writeFurther (scope : Scope) (options : WriteOptions) : List Value → Render Nat
  | [] => return 0
  | item :: rest => do
    let separator ← writeSeparator options
    let count ← below.value scope options item
    return separator + count + (← writeFurther scope options rest)

/-- Writes elements with separators between them. -/
def writeElements (scope : Scope) (options : WriteOptions) (items : List Value) : Render Nat := do
  match survivors options.null items with
  | [] => return 0
  | item :: rest =>
    let count ← below.value scope options item
    return count + (← below.writeFurther scope options rest)

/-- Writes a value. -/
def writeValue (scope : Scope) (options : WriteOptions) : Value → Render Nat
  | .absent =>
    match options.null with
    | some null => writing (Writer.writeToken null options.wrap)
    | none => return 0
  | .scalar scalar => do
    let text ← scalarText scope scalar options.format
    writing (Writer.writeToken text options.wrap)
  | .template id => do
    let lead ← writeWrap options
    return lead + (← below.exec scope.frames id)
  | .list items => below.writeElements scope options items
  | .iterator cursor => do below.writeElements scope options (← onStore (Store.drain cursor))
  | .mapping entries => below.writeElements scope options entries.keyValues

/-- The text of a value. -/
def textOf (scope : Scope) (value : Value) : Render String :=
  if value.isAbsent then return "" else capture (below.value scope {} value)

/-- The text of an option. -/
def optionText (scope : Scope) : Option Expr → Render (Option String)
  | none => return none
  | some expr => do
    let value ← below.eval scope expr
    return some (← below.textOf scope value)

/-- Evaluates the options of an expression. -/
def evalOptions (scope : Scope) (options : Options Expr) : Render WriteOptions := do
  let separator ← below.optionText scope options.separator
  let wrap ← below.optionText scope options.wrap
  let null ← below.optionText scope options.null
  let format ← below.optionText scope options.format
  return { separator, wrap, null, format }

/-- Writes an expression with its options. The options are evaluated after the expression. -/
def writeExpression (scope : Scope) (expr : Expr) (options : Options Expr) : Render Nat := do
  let value ← leniently options.null.isSome (below.eval scope expr)
  let evaluated ← below.evalOptions scope options
  anchored options.anchor (below.value scope evaluated value)

end Evaluator

end Stencil
