/-!
# Errors

Three kinds of trouble are told apart. A `RenderError` ends the call in which it arises. A
`DefinitionError` is reported, and the definition goes on without what caused it. A `Warning` is
reported after a render and has no influence on it.
-/

namespace Stencil

/-- What ends a call. -/
inductive RenderError where
  /-- A name was read in `template` that nothing in scope declares. -/
  | noSuchAttribute (name template : String)
  /-- No group of the chain has the template. -/
  | noSuchTemplate (name : String)
  /-- The super-group was asked for `name` in a group that has none. -/
  | noSuperGroup (group name : String)
  /-- The name of an attribute holds a dot. -/
  | invalidAttributeName (name : String)
  /-- A call supplied the wrong number of arguments. -/
  | argumentMismatch (template : String) (expected found : Nat)
  /-- A value does not have the property. -/
  | noSuchProperty (property typeName : String)
  /-- An instance was reached from itself, or instances were nested too deep. -/
  | infiniteRecursion (trace : List String)
  /-- A renderer does not know the format. -/
  | unsupportedFormat (format typeName : String)
  /-- The names of an aggregate cannot be read, or do not match its values. -/
  | malformedAggregate (spec : String)
  /-- There is no such instance. -/
  | invalidInstance (index : Nat)
  /-- There is no such group. -/
  | invalidGroup (index : Nat)
  /-- The sink refused to take text. -/
  | writeRefused
deriving DecidableEq, Repr

/-- The wording of an error. -/
def RenderError.message : RenderError → String
  | .noSuchAttribute name template =>
    "no such attribute: " ++ name ++ " (referenced in " ++ template ++ ")"
  | .noSuchTemplate name => "no such template: " ++ name
  | .noSuperGroup group name =>
    "super." ++ name ++ " referenced from group " ++ group ++ ", which has no super-group"
  | .invalidAttributeName name => "invalid attribute name: " ++ name
  | .argumentMismatch template expected found =>
    template ++ " expects " ++ toString expected ++ " argument(s) but was given " ++
      toString found
  | .noSuchProperty property typeName => "no such property: " ++ property ++ " on " ++ typeName
  | .infiniteRecursion [] => "infinite recursion"
  | .infiniteRecursion trace => "infinite recursion through " ++ " -> ".intercalate trace
  | .unsupportedFormat format typeName =>
    "unsupported format name '" ++ format ++ "' for " ++ typeName
  | .malformedAggregate spec => "malformed aggregate: " ++ spec
  | .invalidInstance index => "invalid template instance #" ++ toString index
  | .invalidGroup index => "invalid group #" ++ toString index
  | .writeRefused => "write failed: an error occurred when formatting an argument"

/-- What is reported while groups and templates are defined. -/
inductive DefinitionError where
  /-- The group has a template of that name already. -/
  | templateRedefinition (group template : String)
  /-- The group has a body for that region already. -/
  | regionRedefinition (group template region : String)
  /-- The template is not there, or does not have that region. -/
  | unknownRegion (template region : String)
  /-- An interface asks for a template that is not there. -/
  | missingTemplate (group interface template : String)
  /-- A template that an interface asks for has other arguments. -/
  | mismatchedArguments (group interface template : String) (expected found : List String)
  /-- The link would lead from a group back to itself. -/
  | superGroupCycle (group superGroup : String)
  /-- There is no such group. -/
  | unknownGroup (index : Nat)
deriving DecidableEq, Repr

/-- The wording of a report. -/
def DefinitionError.message : DefinitionError → String
  | .templateRedefinition group template =>
    "template " ++ template ++ " redefined in group " ++ group
  | .regionRedefinition group template region =>
    "region @" ++ template ++ "." ++ region ++ " redefined in group " ++ group
  | .unknownRegion template region =>
    "template " ++ template ++ " has no region named " ++ region
  | .missingTemplate group interface template =>
    "group " ++ group ++ " does not satisfy interface " ++ interface ++ ": missing template " ++
      template
  | .mismatchedArguments group interface template expected found =>
    "group " ++ group ++ " does not satisfy interface " ++ interface ++ ": " ++ template ++
      " has arguments (" ++ ", ".intercalate found ++ ") but the interface requires (" ++
      ", ".intercalate expected ++ ")"
  | .superGroupCycle group superGroup =>
    "making " ++ superGroup ++ " the super-group of " ++ group ++ " would create a cycle"
  | .unknownGroup index => "unknown group #" ++ toString index

/-- What a render gives notice of. -/
inductive Warning where
  /-- The attribute was set on an instance, but not read while the instance was rendered. -/
  | unusedAttribute (template name : String)
deriving DecidableEq, Repr

/-- The wording of a warning. -/
def Warning.message : Warning → String
  | .unusedAttribute template name =>
    "attribute " ++ name ++ " set on " ++ template ++ " was never used"

end Stencil
