import Stencil.Engine.Basic

/-!
# Defining groups and templates

Calls that define something do not fail. What they cannot do they leave undone, and report it: each
call answers the engine after it and its reports in order.

The first definition of a template counts. Together with a template the group is given its regions:
a body that the template holds for a region, or an empty one where the group has none. A region can
be given one body in a group; only an empty one can be replaced.
-/

namespace Stencil

/-- Adds a region that a template of the group mentions. -/
def Group.addRegion (id : GroupId) (template : String) (group : Group) (mention : Mention) :
    Group × List DefinitionError :=
  let (region, body) := mention
  let key := Region.key template region
  let add (body : List Chunk) (kind : RegionKind) : Group :=
    let definition := { Definition.region template region body kind with group := some id }
    { group with templates := group.templates.insert key definition }
  match body, (group.templates.get? key).bind Definition.regionKind? with
  | some body, existing =>
    if existing.any RegionKind.hasBody then
      (group, [.regionRedefinition group.name template region])
    else (add body .embedded, [])
  | none, some _ => (group, [])
  | none, none => (add [] .implicit, [])

/-- Adds the regions that a template of the group mentions. -/
def Group.addRegions (id : GroupId) (template : String) (group : Group) :
    List Mention → Group × List DefinitionError
  | [] => (group, [])
  | mention :: rest =>
    let (group, reports) := group.addRegion id template mention
    let (group, more) := group.addRegions id template rest
    (group, reports ++ more)

namespace Engine

/-- Adds an empty group and answers its number. -/
def defineGroup (engine : Engine) (name : String) (style : DelimiterStyle) : GroupId × Engine :=
  (⟨engine.groups.size⟩, { engine with groups := engine.groups.push { name, style } })

/-- The first group of a name. -/
def findGroup? (engine : Engine) (name : String) : Option GroupId :=
  (engine.groups.findIdx? fun group => group.name = name).map GroupId.mk

/-- Changes a group, or reports that there is none. -/
def changeGroup (engine : Engine) (id : GroupId)
    (change : Group → Group × List DefinitionError) : Engine × List DefinitionError :=
  match engine.group? id with
  | none => (engine, [.unknownGroup id.index])
  | some group =>
    let (group, reports) := change group
    (engine.setGroup id group, reports)

/-- Links a group to a super-group, in place of an earlier link. A link that would lead from the
group back to itself is not made. -/
def setSuperGroup (engine : Engine) (id above : GroupId) : Engine × List DefinitionError :=
  match engine.group? id, engine.group? above with
  | none, _ => (engine, [.unknownGroup id.index])
  | some _, none => (engine, [.unknownGroup above.index])
  | some group, some superGroup =>
    if id ∈ engine.groups.chain above then
      (engine, [.superGroupCycle group.name superGroup.name])
    else (engine.setGroup id { group with superGroup := some above }, [])

/-- Adds a template to a group, unless the group has one of that name. -/
def defineTemplate (engine : Engine) (id : GroupId) (definition : Definition) :
    Engine × List DefinitionError :=
  engine.changeGroup id fun group =>
    if group.templates.contains definition.name then
      (group, [.templateRedefinition group.name definition.name])
    else
      let (group, reports) :=
        group.addRegions id definition.name (Region.ofBody definition.body)
      let definition := { definition with group := some id }
      ({ group with templates := group.templates.insert definition.name definition }, reports)

/-- Gives a region of a template a body in a group. The template has to be visible from the group
and to mention the region. -/
def defineRegion (engine : Engine) (id : GroupId) (template region : String) (body : List Chunk) :
    Engine × List DefinitionError :=
  engine.changeGroup id fun group =>
    let declared := match engine.groups.findTemplate id template with
      | some (definition, _) => region ∈ definition.regions
      | none => false
    let key := Region.key template region
    let existing := (group.templates.get? key).bind Definition.regionKind?
    if !declared then (group, [.unknownRegion template region])
    else if existing.any RegionKind.hasBody then
      (group, [.regionRedefinition group.name template region])
    else
      let definition :=
        { Definition.region template region body .explicit with group := some id }
      ({ group with templates := group.templates.insert key definition }, [])

/-- Gives a group a dictionary, in place of an earlier one of that name. -/
def defineDictionary (engine : Engine) (id : GroupId) (name : String)
    (dictionary : MapLiteral Expr) : Engine × List DefinitionError :=
  engine.changeGroup id fun group =>
    ({ group with dictionaries := group.dictionaries.insert name dictionary }, [])

/-- Gives a group a renderer for a type, in place of an earlier one. -/
def registerRenderer (engine : Engine) (id : GroupId) (type : ScalarType) (renderer : Renderer) :
    Engine × List DefinitionError :=
  engine.changeGroup id fun group =>
    ({ group with renderers := group.renderers.register type renderer }, [])

/-- Gives a group a further interface. -/
def registerInterface (engine : Engine) (id : GroupId) (interface : Interface) :
    Engine × List DefinitionError :=
  engine.changeGroup id fun group =>
    ({ group with interfaces := group.interfaces ++ [interface] }, [])

end Engine

end Stencil
