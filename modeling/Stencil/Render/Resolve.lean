import Stencil.Render.Create
import Stencil.Render.Output

/-!
# Names

A name is looked up in the instances of the scope, from the inside out. In each of them a variable
of the application that created it comes first, then an attribute, then a formal argument; a formal
argument that is not set has the value of its default, or none, and ends the search. What no
instance declares is looked up among the dictionaries.
-/

namespace Stencil

open Render

namespace Render

/-- Stops because nothing declares a name. -/
def noSuchAttribute {α : Type} (scope : Scope) (name : String) : Render α := do
  let data ← getInstance scope.innermost
  fail (.noSuchAttribute name data.definition.name)

/-- The value that an argument default was found to have. -/
def knownDefault? (id : InstanceId) (name : String) : Render (Option Value) := do
  return (← get).defaults.lookup (id, name)

/-- Notes the value of an argument default. -/
def noteDefault (id : InstanceId) (name : String) (value : Value) : Render Unit :=
  modify fun run => { run with defaults := ((id, name), value) :: run.defaults }

/-- The nearest dictionary of a name from a group on, if there is one. -/
def dictionary? (start : GroupId) (name : String) : Render (Option (MapLiteral Expr)) := do
  return (← read).groups.findDictionary start name

/-- A property of an object. No other value has any that is looked up here. -/
def ownProperty (value : Value) (name : String) : Render Value := do
  let store := (← get).store
  match store.property? value name with
  | some found => return found
  | none => fail (.noSuchProperty name (store.typeName value))

/-- A property of a value. A property that a mapping or an instance does not have is absent. -/
def property (value : Value) (name : String) : Render Value := do
  match value with
  | .absent => return .absent
  | .mapping entries => return entries.lookup name
  | .template id =>
    match (← getInstance id).attributes.get? name with
    | some found =>
      noteRead id name
      return found
    | none => return .absent
  | value => ownProperty value name

end Render

namespace Evaluator

variable (below : Evaluator)

/-- The named values of a mapping that is written down. -/
def evalEntries (scope : Scope) : List (String × Expr) → Render (List (String × Value))
  | [] => return []
  | (name, expr) :: rest => do
    let value ← below.eval scope expr
    return (name, value) :: (← evalEntries scope rest)

/-- The fallback of a mapping that is written down. -/
def evalFallback (scope : Scope) : Option (Fallback Expr) → Render (Option (Fallback Value))
  | none => return none
  | some .key => return some .key
  | some (.value expr) => return some (.value (← below.eval scope expr))

/-- The mapping that is written down. -/
def evalMapping (scope : Scope) (literal : MapLiteral Expr) : Render (Mapping Value) := do
  let entries ← below.evalEntries scope literal.entries
  let fallback ← below.evalFallback scope literal.fallback
  return { entries := Table.insertAll {} entries, fallback }

/-- The value of the expression of an argument default. A template that is nothing but a text is
written at once. -/
def defaultValue (scope : Scope) (default : Expr) : Render Value :=
  match default with
  | .inline template =>
    if template.isText then do
      let id ← create scope (← inlineDefinition scope template)
      return .string (← capture (below.exec scope.frames id))
    else below.eval scope default
  | default => below.eval scope default

/-- The value of an argument default, in the scope of the instance that has the argument. It is
evaluated once; until it has a value it counts as absent. -/
def evalDefault (scope : Scope) (name : String) (default : Expr) : Render Value := do
  match ← knownDefault? scope.innermost name with
  | some value => return value
  | none =>
    noteDefault scope.innermost name .absent
    let value ← below.defaultValue scope default
    noteDefault scope.innermost name value
    return value

/-- The nearest dictionary of a name, as a mapping. -/
def evalDictionary (scope : Scope) (name : String) : Render Value := do
  match ← dictionary? (← getInstance scope.innermost).nativeGroup name with
  | some literal => return .mapping (← below.evalMapping scope literal)
  | none => noSuchAttribute scope name

/-- The value of a name, looked for in some instances of a scope. -/
def resolveIn (scope : Scope) (name : String) : List InstanceId → Render Value
  | [] => below.evalDictionary scope name
  | id :: outer => do
    let data ← getInstance id
    match data.iteration.lookup name with
    | some (some value) => return value
    | some none => noSuchAttribute scope name
    | none =>
      match data.attributes.get? name with
      | some value =>
        noteRead id name
        return value
      | none =>
        match data.definition.formal? name with
        | none => resolveIn scope name outer
        | some formal =>
          match formal.default with
          | some default => below.evalDefault ⟨id, outer⟩ name default
          | none => return .absent

/-- The value of a name. -/
def resolve (scope : Scope) (name : String) : Render Value :=
  below.resolveIn scope name scope.frames

end Evaluator

end Stencil
