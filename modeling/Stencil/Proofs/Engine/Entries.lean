import Stencil.Proofs.Engine.Reachable
import Stencil.Proofs.Group.Regions

/-!
# What a group has under a name

A definition call is accepted or refused. One that is refused leaves the engine as it was, and is
reported once. One that is accepted changes what a single group has: under the name of the template
and under the keys of its regions, or under the key of one region.
-/

namespace Stencil.Engine

/-- What a group itself has under a name. -/
def held? (engine : Engine) (id : GroupId) (name : String) : Option Definition :=
  (engine.group? id).bind fun group => group.templates.get? name

/-- Whether a template is visible from a group and mentions a region. -/
def declares (engine : Engine) (id : GroupId) (template region : String) : Bool :=
  match engine.groups.findTemplate id template with
  | some (definition, _) => region ∈ definition.regions
  | none => false

/-- A template is accepted by a group that has nothing under its name. -/
def Accepts (engine : Engine) (id : GroupId) (definition : Definition) : Prop :=
  (engine.group? id).isSome ∧ engine.held? id definition.name = none

variable {engine : Engine} {id other : GroupId} {group : Group} {name : String}

/-- A template is accepted by a group that is there and has nothing under its name. -/
theorem Accepts.exists_group {definition : Definition} (h : engine.Accepts id definition) :
    ∃ group, engine.group? id = some group ∧ engine.held? id definition.name = none := by
  obtain ⟨hknown, hnew⟩ := h
  obtain ⟨group, hgroup⟩ := Option.isSome_iff_exists.mp hknown
  exact ⟨group, hgroup, hnew⟩

/-- What a group has under a name is looked up among its templates. -/
theorem held?_eq (hgroup : engine.group? id = some group) (name : String) :
    engine.held? id name = group.templates.get? name := by
  rw [held?, hgroup, Option.bind_some]

/-- What is found among the templates of a group is what the group has. -/
theorem held?_of_get? {definition : Definition} (hgroup : engine.groups.find? id = some group)
    (hget : group.templates.get? name = some definition) :
    engine.held? id name = some definition :=
  (held?_eq hgroup name).trans hget

/-- A look-up from a group finds first what the group itself has. -/
theorem findTemplate_of_held {definition : Definition}
    (h : engine.held? id name = some definition) :
    engine.groups.findTemplate id name = some (definition, id) := by
  obtain ⟨group, hgroup, hget⟩ := Option.bind_eq_some_iff.mp h
  have hgroup : engine.groups.find? id = some group := hgroup
  have hpos : 0 < engine.groups.size := Nat.zero_lt_of_lt (Array.getElem?_eq_some_iff.mp hgroup).1
  obtain ⟨fuel, hfuel⟩ := Nat.exists_eq_succ_of_ne_zero hpos.ne'
  rw [Groups.findTemplate, Groups.chainGroups, Groups.chain, hfuel, Groups.chainFrom]
  simp [hgroup, hget]

/-- Look-ups find something only from groups that there are. -/
theorem group?_isSome_of_findTemplate {found : Definition × GroupId}
    (h : engine.groups.findTemplate id name = some found) : (engine.group? id).isSome := by
  obtain ⟨hmem, -⟩ := Groups.findTemplate_eq_some h
  cases hgroup : engine.groups.find? id with
  | some group => exact Option.isSome_iff_exists.mpr ⟨group, hgroup⟩
  | none =>
    unfold Groups.chain at hmem
    cases hsize : engine.groups.size with
    | zero =>
      rw [hsize] at hmem
      cases hmem
    | succ fuel =>
      rw [hsize, Groups.chainFrom, hgroup] at hmem
      cases hmem

/-! ### Changes of one group -/

/-- Replacing a group by itself changes nothing. -/
theorem setGroup_self (hgroup : engine.group? id = some group) :
    engine.setGroup id group = engine := by
  obtain ⟨hlt, hget⟩ := Array.getElem?_eq_some_iff.mp hgroup
  have hsame : engine.groups.setIfInBounds id.index group = engine.groups := by
    rw [Array.setIfInBounds, dif_pos hlt, ← hget, Array.set_getElem_self]
  rw [setGroup, hsame]

/-- A group that is not there is reported and not changed. -/
theorem changeGroup_none (h : engine.group? id = none)
    (change : Group → Group × List DefinitionError) :
    engine.changeGroup id change = (engine, [.unknownGroup id.index]) := by
  rw [changeGroup, h]

/-- A group that is there is replaced by the changed one. -/
theorem changeGroup_some (hgroup : engine.group? id = some group)
    (change : Group → Group × List DefinitionError) :
    engine.changeGroup id change = (engine.setGroup id (change group).1, (change group).2) := by
  rw [changeGroup, hgroup]

/-- A change that gives back the group gives back the engine. -/
theorem changeGroup_refused (hgroup : engine.group? id = some group)
    {change : Group → Group × List DefinitionError} {reports : List DefinitionError}
    (h : change group = (group, reports)) :
    engine.changeGroup id change = (engine, reports) := by
  rw [changeGroup_some hgroup, h, setGroup_self hgroup]

/-- A group that is replaced has what the new one has. -/
theorem held?_setGroup_self (hgroup : engine.group? id = some group) (next : Group)
    (name : String) : (engine.setGroup id next).held? id name = next.templates.get? name :=
  held?_eq (engine.find?_setGroup_self hgroup next) name

/-- Other groups have what they had. -/
theorem held?_setGroup_of_ne (h : other ≠ id) (next : Group) (name : String) :
    (engine.setGroup id next).held? other name = engine.held? other name := by
  rw [held?, group?, engine.find?_setGroup_of_ne h, held?, group?]

/-- So do they when a group is changed. -/
theorem held?_changeGroup_of_ne (h : other ≠ id)
    (change : Group → Group × List DefinitionError) (name : String) :
    (engine.changeGroup id change).1.held? other name = engine.held? other name := by
  cases hgroup : engine.group? id with
  | none => rw [changeGroup_none hgroup]
  | some group => rw [changeGroup_some hgroup, held?_setGroup_of_ne h]

/-- A change that leaves the templates of the group alone is not seen in what groups have. -/
theorem held?_changeGroup {change : Group → Group × List DefinitionError}
    (h : ∀ group, (change group).1.templates = group.templates) (other : GroupId)
    (name : String) :
    (engine.changeGroup id change).1.held? other name = engine.held? other name := by
  by_cases hother : other = id
  · subst hother
    cases hgroup : engine.group? other with
    | none => rw [changeGroup_none hgroup]
    | some group => rw [changeGroup_some hgroup, held?_setGroup_self hgroup, h, held?_eq hgroup]
  · exact held?_changeGroup_of_ne hother change name

/-! ### Templates -/

variable {definition : Definition}

/-- A template for a group that is not there is refused. -/
theorem defineTemplate_unknown (h : engine.group? id = none) (definition : Definition) :
    engine.defineTemplate id definition = (engine, [.unknownGroup id.index]) :=
  changeGroup_none h _

/-- The first template of a name counts. -/
theorem defineTemplate_refused (hgroup : engine.group? id = some group)
    (h : (engine.held? id definition.name).isSome) :
    engine.defineTemplate id definition =
      (engine, [.templateRedefinition group.name definition.name]) := by
  apply changeGroup_refused hgroup
  rw [held?_eq hgroup] at h
  exact if_pos h

variable (hgroup : engine.group? id = some group) (hnew : engine.held? id definition.name = none)
include hgroup hnew

/-- A template of a new name is added together with its regions. -/
theorem defineTemplate_accepted :
    let regions := group.addRegions id definition.name (Region.ofBody definition.body)
    engine.defineTemplate id definition =
      (engine.setGroup id { regions.1 with
        templates := regions.1.templates.insert definition.name
          { definition with group := some id } }, regions.2) := by
  rw [held?_eq hgroup] at hnew
  have hcontains : ¬ group.templates.contains definition.name = true := by
    rw [Table.contains, hnew]
    exact Bool.false_ne_true
  rw [defineTemplate, changeGroup_some hgroup, if_neg hcontains]

/-- An accepted template is reported for the regions that it gives once more, and for nothing
else. -/
theorem defineTemplate_reports :
    (engine.defineTemplate id definition).2 =
      ((Region.ofBody definition.body).filter (group.repeats definition.name)).map
        (group.repetition definition.name) := by
  rw [defineTemplate_accepted hgroup hnew]
  exact group.addRegions_reports id (Region.nodup_keys _ _)

/-- The template itself is what the group then has under its name. -/
theorem held?_defineTemplate_self :
    (engine.defineTemplate id definition).1.held? id definition.name =
      some { definition with group := some id } := by
  rw [defineTemplate_accepted hgroup hnew, held?_setGroup_self hgroup]
  exact Table.get?_insert_self _ _ _

/-- Each region is settled by what the group had for it before. -/
theorem held?_defineTemplate_key {mention : Mention}
    (h : mention ∈ Region.ofBody definition.body) :
    (engine.defineTemplate id definition).1.held? id
        (Region.key definition.name mention.1) =
      Definition.settled id definition.name mention
        (engine.held? id (Region.key definition.name mention.1)) := by
  rw [defineTemplate_accepted hgroup hnew, held?_setGroup_self hgroup, held?_eq hgroup]
  exact (Table.get?_insert_of_ne _ _ (Region.key_ne _ _)).trans
    (group.addRegions_get?_key id (Region.nodup_keys _ _) h)

/-- What the group has under other names stays. -/
theorem held?_defineTemplate_of_ne (hname : name ≠ definition.name)
    (h : ∀ mention ∈ Region.ofBody definition.body, name ≠ Region.key definition.name mention.1) :
    (engine.defineTemplate id definition).1.held? id name = engine.held? id name := by
  rw [defineTemplate_accepted hgroup hnew, held?_setGroup_self hgroup, held?_eq hgroup]
  exact (Table.get?_insert_of_ne _ _ hname).trans (group.addRegions_get?_of_ne id h)

omit hnew

/-! ### Regions -/

variable {template region : String} (body : List Chunk)

omit hgroup in
/-- A region is declared for a template that is visible and mentions it. -/
theorem declares_iff : engine.declares id template region = true ↔
    ∃ definition owner, engine.groups.findTemplate id template = some (definition, owner) ∧
      region ∈ definition.regions := by
  unfold declares
  cases engine.groups.findTemplate id template with
  | none => simp
  | some found =>
    obtain ⟨definition, owner⟩ := found
    simp

omit hgroup in
/-- A region for a group that is not there is refused. -/
theorem defineRegion_unknown (h : engine.group? id = none) (template region : String) :
    engine.defineRegion id template region body = (engine, [.unknownGroup id.index]) :=
  changeGroup_none h _

/-- What the call does in a group that there is. -/
theorem defineRegion_some : engine.defineRegion id template region body =
    if engine.declares id template region = false then
      (engine, [.unknownRegion template region])
    else if (engine.held? id (Region.key template region)).any Definition.isBody then
      (engine, [.regionRedefinition group.name template region])
    else
      (engine.setGroup id { group with
        templates := group.templates.insert (Region.key template region)
          (Definition.regionIn id template region body .explicit) }, []) := by
  have hcall : engine.defineRegion id template region body = engine.changeGroup id fun group =>
      if !engine.declares id template region then (group, [.unknownRegion template region])
      else if ((group.templates.get? (Region.key template region)).bind
          Definition.regionKind?).any RegionKind.hasBody then
        (group, [.regionRedefinition group.name template region])
      else ({ group with
        templates := group.templates.insert (Region.key template region)
          (Definition.regionIn id template region body .explicit) }, []) := rfl
  rw [hcall, changeGroup_some hgroup, held?_eq hgroup, Group.any_isBody]
  cases engine.declares id template region with
  | false => simp [setGroup_self hgroup]
  | true =>
    simp only [Bool.not_true, Bool.true_eq_false, if_false, Bool.false_eq_true]
    split
    · rw [setGroup_self hgroup]
    · rfl

omit hgroup

/-! ### All calls -/

/-- What a group may have under a name after a call, when it had `kept` before. -/
inductive Change.Leaves (id : GroupId) (name : String) (kept : Option Definition) :
    Change → Option Definition → Prop where
  | same (change : Change) : Leaves id name kept change kept
  /-- A template is added. -/
  | template (formals : Option (List (Formal Expr))) (body : List Chunk) (hnew : kept = none) :
    Leaves id name kept (.declare id (.template name formals body))
      (some { Definition.template name formals body with group := some id })
  /-- A region comes with its template. -/
  | mention {template : String} (formals : Option (List (Formal Expr))) {body : List Chunk}
    {mention : Mention} (hmem : mention ∈ Region.ofBody body)
    (hkey : name = Region.key template mention.1) :
    Leaves id name kept (.declare id (.template template formals body))
      (Definition.settled id template mention kept)
  /-- A region is defined by itself. -/
  | region {template region : String} (body : List Chunk)
    (hkey : name = Region.key template region) (hbody : ¬ kept.any Definition.isBody) :
    Leaves id name kept (.declare id (.region template region body))
      (some (Definition.regionIn id template region body .explicit))

/-- An added template is found under its name, and its regions under their keys. -/
theorem leaves_accepted (hgroup : engine.group? id = some group) {template : String}
    (hnew : engine.held? id template = none) (formals : Option (List (Formal Expr)))
    (body : List Chunk) (name : String) :
    Change.Leaves id name (engine.held? id name) (.declare id (.template template formals body))
      ((engine.defineTemplate id (.template template formals body)).1.held? id name) := by
  let definition := Definition.template template formals body
  have hnew : engine.held? id definition.name = none := hnew
  by_cases hname : name = template
  · subst hname
    have hself : (engine.defineTemplate id definition).1.held? id name =
        some { definition with group := some id } := held?_defineTemplate_self hgroup hnew
    rw [hself]
    exact .template formals body hnew
  · by_cases hkey : ∀ mention ∈ Region.ofBody body, name ≠ Region.key template mention.1
    · rw [held?_defineTemplate_of_ne hgroup hnew hname hkey]
      exact .same _
    · push Not at hkey
      obtain ⟨mention, hmem, rfl⟩ := hkey
      have hsettled : (engine.defineTemplate id definition).1.held? id
          (Region.key template mention.1) = Definition.settled id template mention
            (engine.held? id (Region.key template mention.1)) :=
        held?_defineTemplate_key hgroup hnew hmem
      rw [hsettled]
      exact .mention formals hmem rfl

variable (engine) (id name)

/-- A definition of a template leaves what the rules say under each name. -/
theorem leaves_defineTemplate (owner : GroupId) (template : String)
    (formals : Option (List (Formal Expr))) (body : List Chunk) :
    Change.Leaves id name (engine.held? id name) (.declare owner (.template template formals body))
      ((engine.declare owner (.template template formals body)).held? id name) := by
  rw [declare]
  by_cases howner : id = owner
  · subst howner
    cases hgroup : engine.group? id with
    | none =>
      rw [defineTemplate_unknown hgroup]
      exact .same _
    | some group =>
      cases hentry : engine.held? id template with
      | some old =>
        rw [defineTemplate_refused hgroup (by rw [Definition.template, hentry]; rfl)]
        exact .same _
      | none => exact leaves_accepted hgroup hentry formals body name
  · rw [defineTemplate, held?_changeGroup_of_ne howner]
    exact .same _

/-- So does a definition of a region. -/
theorem leaves_defineRegion (owner : GroupId) (template region : String) (body : List Chunk) :
    Change.Leaves id name (engine.held? id name) (.declare owner (.region template region body))
      ((engine.declare owner (.region template region body)).held? id name) := by
  rw [declare]
  by_cases howner : id = owner
  · subst howner
    cases hgroup : engine.group? id with
    | none =>
      rw [defineRegion_unknown _ hgroup]
      exact .same _
    | some group =>
      rw [defineRegion_some hgroup]
      split
      · exact .same _
      · split
        · exact .same _
        · next hbody =>
          rw [held?_setGroup_self hgroup]
          by_cases hname : name = Region.key template region
          · subst hname
            rw [Table.get?_insert_self]
            exact .region body rfl hbody
          · rw [Table.get?_insert_of_ne _ _ hname, ← held?_eq hgroup]
            exact .same _
  · rw [defineRegion, held?_changeGroup_of_ne howner]
    exact .same _

/-- A new group has nothing, and others keep what they have. -/
theorem held?_defineGroup (group : String) (style : DelimiterStyle) :
    (engine.defineGroup group style).2.held? id name = engine.held? id name := by
  unfold held? group?
  rcases engine.find?_defineGroup group style id with hsame | ⟨hnone, hnew⟩
  · rw [hsame]
  · rw [hnone, hnew]
    rfl

/-- A link to a super-group changes what no group has. -/
theorem held?_setSuperGroup (owner above : GroupId) :
    (engine.setSuperGroup owner above).1.held? id name = engine.held? id name := by
  unfold setSuperGroup
  split
  · rfl
  · rfl
  · next group superGroup hgroup _ =>
    split
    · rfl
    · by_cases howner : id = owner
      · subst howner
        rw [held?_setGroup_self hgroup, held?_eq hgroup]
      · exact held?_setGroup_of_ne howner _ _

variable {engine id name}

/-- What groups have depends on the groups alone. -/
theorem held?_of_groups {after : Engine} (h : after.groups = engine.groups) (id : GroupId)
    (name : String) : after.held? id name = engine.held? id name := by
  rw [held?, group?, h, held?, group?]

/-- What a call may do to what a group has under a name. -/
theorem leaves_apply (engine : Engine) (change : Change) (id : GroupId) (name : String) :
    change.Leaves id name (engine.held? id name) ((change.apply engine).held? id name) := by
  have hsame {after : Engine} (h : after.held? id name = engine.held? id name) :
      change.Leaves id name (engine.held? id name) (after.held? id name) := h ▸ .same change
  obtain hgroups | ⟨group, style, rfl⟩ | ⟨owner, above, rfl⟩ | ⟨owner, declaration, rfl⟩ |
    ⟨owner, interface, rfl⟩ := change.groups_cases engine
  · exact hsame (held?_of_groups hgroups id name)
  · exact hsame (engine.held?_defineGroup id name group style)
  · exact hsame (engine.held?_setSuperGroup id name owner above)
  · cases declaration with
    | template template formals body => exact engine.leaves_defineTemplate id name _ _ _ _
    | region template region body => exact engine.leaves_defineRegion id name _ _ _ _
    | dictionary key dictionary => exact hsame (held?_changeGroup (fun _ => rfl) id name)
    | renderer type renderer => exact hsame (held?_changeGroup (fun _ => rfl) id name)
  · exact hsame (held?_changeGroup (fun _ => rfl) id name)

end Stencil.Engine
