import Stencil.Render.Basic

/-!
# Creating instances

Calls create instances while a render lasts. Such an instance starts its lookups from the same
group as its creator, so that a template which a subgroup overrides is overridden for everything
inside. Its native group is the one that has its definition, which decides where an inherited
definition is looked for; a template that is written in place is native where its creator is.
-/

namespace Stencil.Render

/-- Creates an instance within a scope. -/
def create (scope : Scope) (definition : Definition) : Render InstanceId := do
  let creator ← getInstance scope.innermost
  let run ← get
  let created : Instance :=
    { definition
      group := creator.group
      nativeGroup := definition.group.getD creator.nativeGroup
      enclosing := some scope.innermost }
  set { run with instances := run.instances.push created }
  return ⟨run.instances.size⟩

/-- The definition of a template that is written in place. The regions it mentions are those of the
template in which it is met first. -/
def inlineDefinition (scope : Scope) (template : Inline Expr Chunk) : Render Definition := do
  let data ← getInstance scope.innermost
  return .inline template
    (← onStore (Store.inlineOwner template.label data.definition.regionOwner))

/-- The super-group of a group. The name is what is looked for. -/
def above (group : GroupId) (name : String) : Render GroupId := do
  match (← read).groups.find? group with
  | none => fail (.invalidGroup group.index)
  | some data =>
    match data.superGroup with
    | some above => return above
    | none => fail (.noSuperGroup data.name name)

/-- The super-group of the native group of the innermost instance. The name is what is looked
for. -/
def superGroup (scope : Scope) (name : String) : Render GroupId := do
  above (← getInstance scope.innermost).nativeGroup name

/-- The nearest definition of a name from a group on, if there is one. -/
def lookup (start : GroupId) (name : String) : Render (Option Definition) := do
  return ((← read).groups.findTemplate start name).map Prod.fst

/-- The definition of a name, looked up from a group on. -/
def definitionFrom (start : GroupId) (name : String) : Render Definition := do
  match ← lookup start name with
  | some definition => return definition
  | none => fail (.noSuchTemplate name)

end Stencil.Render
