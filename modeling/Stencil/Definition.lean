import Stencil.Body.Node
import Stencil.Body.Region
import Stencil.Handle

/-!
# Definitions

A definition is a body with a name and formal arguments. Besides the templates that a group is
given there are two kinds: the bodies of regions, which a group keeps under a name made from the
template and the region, and templates that are written in place.
-/

namespace Stencil

/-- How the body of a region came about. -/
inductive RegionKind where
  /-- The region was only mentioned; its body is empty. -/
  | implicit
  /-- The body was written where the region is mentioned. -/
  | embedded
  /-- The body was defined by itself. -/
  | explicit
deriving DecidableEq, Repr

/-- Whether the region was given a body. -/
def RegionKind.hasBody : RegionKind → Bool
  | .implicit => false
  | .embedded | .explicit => true

/-- What a definition defines. -/
inductive DefinitionKind where
  | template
  | region (kind : RegionKind)
  /-- A template that is written in place. -/
  | inline
deriving DecidableEq, Repr

/-- A definition. -/
structure Definition where
  name : String
  /-- The formal arguments; without a list of them any attribute is accepted. -/
  formals : Option (List (Formal Expr))
  body : List Chunk
  /-- The template whose regions the body mentions. -/
  regionOwner : String
  kind : DefinitionKind
  /-- The group that has the definition. -/
  group : Option GroupId := none

namespace Definition

/-- A template with a name of its own. -/
def template (name : String) (formals : Option (List (Formal Expr))) (body : List Chunk) :
    Definition :=
  { name, formals, body, regionOwner := name, kind := .template }

/-- The body of a region. It has no arguments. -/
def region (template region : String) (body : List Chunk) (kind : RegionKind) : Definition :=
  { name := Region.key template region
    formals := some []
    body
    regionOwner := template
    kind := .region kind }

/-- A template written in place, whose regions are those of `owner`. -/
def inline (template : Inline Expr Chunk) (owner : String) : Definition :=
  { name := "anonymous"
    formals := some template.formals
    body := template.body
    regionOwner := owner
    kind := .inline }

/-- The formal arguments; none if there is no list of them. -/
def parameters (definition : Definition) : List (Formal Expr) := definition.formals.getD []

/-- The names of the formal arguments. -/
def parameterNames (definition : Definition) : List String :=
  definition.parameters.map Formal.name

/-- The first formal argument of a name. -/
def formal? (definition : Definition) (name : String) : Option (Formal Expr) :=
  definition.parameters.find? fun formal => formal.name = name

/-- Whether instances accept an attribute of that name. -/
def accepts (definition : Definition) (name : String) : Bool :=
  definition.formals.isNone || (definition.formal? name).isSome

/-- The names of the regions that the body mentions. -/
def regions (definition : Definition) : List String :=
  (Region.ofBody definition.body).map Prod.fst

/-- The nodes that are written for the body. -/
def nodes (definition : Definition) : List Node := Node.ofBody definition.body

/-- How the body came about, for the body of a region. -/
def regionKind? (definition : Definition) : Option RegionKind :=
  match definition.kind with
  | .region kind => some kind
  | _ => none

end Definition

end Stencil
