import Stencil.Definition
import Stencil.Format.Renderer

/-!
# Groups

A group holds templates, dictionaries, renderers and interfaces under a name, and may be linked to
a super-group. What a group does not have is looked up in its super-group, in the super-group of
that one, and so on: along its chain.
-/

namespace Stencil

/-- The delimiters that a group's templates are written with. They are only kept. -/
inductive DelimiterStyle where
  | angle
  | dollar
deriving DecidableEq, Repr

/-- A template that an interface asks for. -/
structure Signature where
  name : String
  /-- The names of the arguments, in order. -/
  arguments : List String
  /-- Whether the template may be missing. -/
  optional : Bool := false
deriving DecidableEq, Repr

/-- Templates that a group promises to have. -/
structure Interface where
  name : String
  signatures : List Signature
deriving DecidableEq, Repr

/-- A group. -/
structure Group where
  name : String
  style : DelimiterStyle := .angle
  /-- Templates and bodies of regions. -/
  templates : Table Definition := {}
  superGroup : Option GroupId := none
  interfaces : List Interface := []
  renderers : Renderers := {}
  dictionaries : Table (MapLiteral Expr) := {}

/-- The groups of an engine, each at its own number. -/
abbrev Groups := Array Group

namespace Groups

/-- The group of a number. -/
def find? (groups : Groups) (id : GroupId) : Option Group := groups[id.index]?

/-- The first `fuel` groups of the chain that starts at a group. -/
def chainFrom (groups : Groups) : Nat → GroupId → List GroupId
  | 0, _ => []
  | fuel + 1, id =>
    match groups.find? id with
    | none => []
    | some group =>
      id :: match group.superGroup with
        | none => []
        | some above => groups.chainFrom fuel above

/-- A group, its super-group, and so on. No group of a chain occurs twice, so a chain is no longer
than there are groups. -/
def chain (groups : Groups) (start : GroupId) : List GroupId := groups.chainFrom groups.size start

/-- Every group of a chain is a group of the engine. -/
theorem find?_isSome_of_mem_chainFrom {groups : Groups} {fuel : Nat} {start id : GroupId}
    (h : id ∈ groups.chainFrom fuel start) : (groups.find? id).isSome := by
  induction fuel generalizing start with
  | zero => cases h
  | succ fuel ih =>
    rw [chainFrom] at h
    split at h
    · cases h
    · rename_i found
      rcases List.mem_cons.1 h with rfl | h
      · simp [found]
      · split at h
        · cases h
        · exact ih h

/-- The groups of the chain that starts at a group. -/
def chainGroups (groups : Groups) (start : GroupId) : List (GroupId × Group) :=
  (groups.chain start).filterMap fun id => (groups.find? id).map fun group => (id, group)

/-- The nearest definition of a name on a chain, with the group that has it. -/
def findTemplate (groups : Groups) (start : GroupId) (name : String) :
    Option (Definition × GroupId) :=
  (groups.chainGroups start).findSome? fun (id, group) =>
    (group.templates.get? name).map fun definition => (definition, id)

/-- The nearest dictionary of a name on a chain. -/
def findDictionary (groups : Groups) (start : GroupId) (name : String) :
    Option (MapLiteral Expr) :=
  (groups.chainGroups start).findSome? fun (_, group) => group.dictionaries.get? name

/-- The nearest renderer for a type on a chain. -/
def findRenderer (groups : Groups) (start : GroupId) (type : ScalarType) : Option Renderer :=
  (groups.chainGroups start).findSome? fun (_, group) => group.renderers.find? type

end Groups

end Stencil
