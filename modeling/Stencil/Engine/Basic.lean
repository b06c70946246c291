import Stencil.Config.Basic
import Stencil.Error
import Stencil.Group
import Stencil.Value.Store

/-!
# Engines

An engine owns groups and instances of templates. Callers refer to both by the numbers under which
they were issued.
-/

namespace Stencil

/-- A variable that an application binds; without a value the sequence it walks over has run out. -/
abbrev Binding := Option Value

/-- An instance of a template. -/
structure Instance where
  definition : Definition
  /-- The group that its own lookups start from. -/
  group : GroupId
  /-- The group that the definition belongs to. Dictionaries and super-groups are looked up from
  there. -/
  nativeGroup : GroupId
  attributes : Table Value := {}
  /-- The instance that it was assigned to, or that created it. -/
  enclosing : Option InstanceId := none
  renderers : Renderers := {}
  /-- The variables of the application that created it. -/
  iteration : List (String × Binding) := []

/-- An engine. -/
structure Engine where
  config : Config := {}
  groups : Groups := #[]
  instances : Array Instance := #[]
  /-- What the values of this engine share. -/
  store : Store := {}

namespace Engine

/-- A call on an engine that may fail. What it changed before it failed stays changed. -/
abbrev Action (α : Type) := ExceptT RenderError (StateM Engine) α

/-- The group of a number. -/
def group? (engine : Engine) (id : GroupId) : Option Group := engine.groups.find? id

/-- The instance of a number. -/
def instance? (engine : Engine) (id : InstanceId) : Option Instance :=
  engine.instances[id.index]?

/-- The engine with one group changed. -/
def setGroup (engine : Engine) (id : GroupId) (group : Group) : Engine :=
  { engine with groups := engine.groups.setIfInBounds id.index group }

/-- The engine with one instance changed. -/
def modifyInstance (engine : Engine) (id : InstanceId) (change : Instance → Instance) : Engine :=
  { engine with instances := engine.instances.modify id.index change }

end Engine

end Stencil
