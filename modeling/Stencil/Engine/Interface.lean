import Stencil.Engine.Basic

/-!
# Interfaces

A group satisfies an interface if each template that the interface asks for is visible from the
group with exactly the arguments that it asks for. An optional template may be missing, but if it
is there its arguments count all the same.
-/

namespace Stencil

/-- What is wrong with a template that an interface of a group asks for. -/
def Signature.violation? (groups : Groups) (id : GroupId) (group interface : String)
    (signature : Signature) : Option DefinitionError :=
  match groups.findTemplate id signature.name with
  | none =>
    if signature.optional then none else some (.missingTemplate group interface signature.name)
  | some (definition, _) =>
    if definition.parameterNames = signature.arguments then none
    else some (.mismatchedArguments group interface signature.name signature.arguments
      definition.parameterNames)

/-- What is wrong with the interfaces of a group, in the order in which they were registered. -/
def Groups.violations (groups : Groups) (id : GroupId) (group : Group) : List DefinitionError :=
  group.interfaces.flatMap fun interface =>
    interface.signatures.filterMap fun signature =>
      signature.violation? groups id group.name interface.name

/-- Whether a group satisfies its interfaces, with a report of everything that is wrong. -/
def Engine.checkInterfaces (engine : Engine) (id : GroupId) : Bool × List DefinitionError :=
  match engine.group? id with
  | none => (false, [.unknownGroup id.index])
  | some group =>
    let violations := engine.groups.violations id group
    (violations.isEmpty, violations)

end Stencil
