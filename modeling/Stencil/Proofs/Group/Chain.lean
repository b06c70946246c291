import Stencil.Group

/-!
# What look-ups find

What is looked up from a group on is found in a group of its chain, and it is found in no other way.
-/

namespace Stencil.Groups

/-- A definition that some group has under a name. -/
def Stored (groups : Groups) (name : String) (definition : Definition) : Prop :=
  ∃ id group, groups.find? id = some group ∧ group.templates.get? name = some definition

variable {groups : Groups} {start id : GroupId} {group : Group}

/-- The groups on the way up from a group are those that are there under the numbers of the
chain. -/
theorem mem_chainGroups :
    (id, group) ∈ groups.chainGroups start ↔
      id ∈ groups.chain start ∧ groups.find? id = some group := by
  unfold chainGroups
  rw [List.mem_filterMap]
  constructor
  · rintro ⟨other, hother, hfind⟩
    obtain ⟨found, hfound, heq⟩ := Option.map_eq_some_iff.mp hfind
    cases heq
    exact ⟨hother, hfound⟩
  · rintro ⟨hmem, hfind⟩
    exact ⟨id, hmem, by rw [hfind]; rfl⟩

/-- A definition is found in a group of the chain that has it. -/
theorem findTemplate_eq_some {name : String} {definition : Definition}
    (h : groups.findTemplate start name = some (definition, id)) :
    id ∈ groups.chain start ∧
      ∃ group, groups.find? id = some group ∧ group.templates.get? name = some definition := by
  obtain ⟨⟨other, group⟩, hmem, hfound⟩ := List.exists_of_findSome?_eq_some h
  obtain ⟨found, hget, heq⟩ := Option.map_eq_some_iff.mp hfound
  cases heq
  obtain ⟨hchain, hfind⟩ := mem_chainGroups.mp hmem
  exact ⟨hchain, group, hfind, hget⟩

/-- A template that is found on the way up is stored under its name in some group. -/
theorem stored_of_findTemplate {name : String} {definition : Definition}
    (h : (groups.findTemplate start name).map Prod.fst = some definition) :
    groups.Stored name definition := by
  obtain ⟨⟨found, id⟩, hfind, rfl⟩ := Option.map_eq_some_iff.mp h
  obtain ⟨-, group, hgroup, hget⟩ := findTemplate_eq_some hfind
  exact ⟨id, group, hgroup, hget⟩

/-- A dictionary is found in a group of the chain that has it. -/
theorem findDictionary_eq_some {name : String} {literal : MapLiteral Expr}
    (h : groups.findDictionary start name = some literal) :
    ∃ id ∈ groups.chain start, ∃ group, groups.find? id = some group ∧
      group.dictionaries.get? name = some literal := by
  obtain ⟨⟨id, group⟩, hmem, hfound⟩ := List.exists_of_findSome?_eq_some h
  obtain ⟨hchain, hfind⟩ := mem_chainGroups.mp hmem
  exact ⟨id, hchain, group, hfind, hfound⟩

/-- A renderer is found in a group of the chain that has it. -/
theorem findRenderer_eq_some {type : ScalarType} {renderer : Renderer}
    (h : groups.findRenderer start type = some renderer) :
    ∃ id ∈ groups.chain start, ∃ group, groups.find? id = some group ∧
      group.renderers.find? type = some renderer := by
  obtain ⟨⟨id, group⟩, hmem, hfound⟩ := List.exists_of_findSome?_eq_some h
  obtain ⟨hchain, hfind⟩ := mem_chainGroups.mp hmem
  exact ⟨id, hchain, group, hfind, hfound⟩

end Stencil.Groups
