import Stencil.Engine.Aggregate
import Stencil.Engine.Basic

/-!
# Instances

Callers create instances of templates, assign attributes to them and ask for what they hold.

The first value that is assigned to an attribute is kept as it is. Each further one makes the
attribute a list, to which lists and iterators contribute their elements.
-/

namespace Stencil

namespace Engine

/-- The instance of a number. -/
def getInstance (id : InstanceId) : Action Instance := do
  match (← get).instance? id with
  | some data => return data
  | none => throw (.invalidInstance id.index)

/-- Does something with the store. -/
def onStore {α : Type} (action : StateM Store α) : Action α := do
  let (result, store) := action.run (← get).store
  modify fun engine => { engine with store }
  return result

/-- Creates an instance of the template that a name stands for in a group. -/
def instanceOf (group : GroupId) (name : String) : Action InstanceId := do
  let engine ← get
  if (engine.group? group).isNone then throw (.invalidGroup group.index)
  match engine.groups.findTemplate group name with
  | none => throw (.noSuchTemplate name)
  | some (definition, found) =>
    let created : Instance :=
      { definition, group, nativeGroup := definition.group.getD found }
    set { engine with instances := engine.instances.push created }
    return ⟨engine.instances.size⟩

/-- Notes that an instance is assigned to another one. -/
def adopt (id : InstanceId) (value : Value) : Action Unit := do
  match value with
  | .template child =>
    let _ ← getInstance child
    if child ≠ id then
      modify fun engine =>
        engine.modifyInstance child fun data => { data with enclosing := some id }
  | _ => return ()

/-- What an attribute holds after a further assignment. -/
def combine (current : Option Value) (value : Value) : StateM Store Value := do
  match current with
  | none => return value
  | some current =>
    let items ← current.contribution
    return .list (items ++ (← value.contribution))

/-- Assigns a value to an attribute. -/
def assign (id : InstanceId) (name : String) (value : Value) : Action Unit := do
  if name.toList.contains '.' then throw (.invalidAttributeName name)
  adopt id value
  let data ← getInstance id
  if !data.definition.accepts name then throw (.noSuchAttribute name data.definition.name)
  let value ← onStore (combine (data.attributes.get? name) value)
  modify fun engine => engine.modifyInstance id fun data =>
    { data with attributes := data.attributes.insert name value }

/-- Assigns a mapping with one value for each entry that a specification names. -/
def assignAggregate (id : InstanceId) (spec : String) (values : List Value) : Action Unit := do
  match Aggregate.parse? spec with
  | none => throw (.malformedAggregate spec)
  | some aggregate =>
    if aggregate.entries.length ≠ values.length then throw (.malformedAggregate spec)
    let entries := Table.insertAll {} (aggregate.entries.zip values)
    assign id aggregate.name (.mapping { entries })

/-- Takes an attribute away and answers its value. -/
def remove (id : InstanceId) (name : String) : Action (Option Value) := do
  let data ← getInstance id
  modify fun engine => engine.modifyInstance id fun data =>
    { data with attributes := data.attributes.erase name }
  return data.attributes.get? name

/-- Registers a renderer for an instance and all that is written inside it. -/
def registerInstanceRenderer (id : InstanceId) (type : ScalarType) (renderer : Renderer) :
    Action Unit := do
  let _ ← getInstance id
  modify fun engine => engine.modifyInstance id fun data =>
    { data with renderers := data.renderers.register type renderer }

end Engine

end Stencil
