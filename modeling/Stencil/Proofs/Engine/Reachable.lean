import Stencil.Engine.Define
import Stencil.Engine.Instances
import Stencil.Proofs.Engine.Undisturbed
import Stencil.Proofs.Group.Reach

/-!
# Engines that can be reached

An engine is reached from a new one by the calls of its caller. Each definition that a group of such
an engine has says that this group has it, so that what is found on the chain of a group leads to no
groups but those of the chain.
-/

namespace Stencil

/-- Something that a group is given. -/
inductive Declaration where
  | template (name : String) (formals : Option (List (Formal Expr))) (body : List Chunk)
  | region (template region : String) (body : List Chunk)
  | dictionary (name : String) (dictionary : MapLiteral Expr)
  | renderer (type : ScalarType) (renderer : Renderer)

namespace Engine

/-- The engine after a group is given something. -/
def declare (engine : Engine) (id : GroupId) : Declaration → Engine
  | .template name formals body =>
    (engine.defineTemplate id (Definition.template name formals body)).1
  | .region template region body => (engine.defineRegion id template region body).1
  | .dictionary name dictionary => (engine.defineDictionary id name dictionary).1
  | .renderer type renderer => (engine.registerRenderer id type renderer).1

/-- A call by which a caller changes an engine. -/
inductive Change where
  | defineGroup (name : String) (style : DelimiterStyle)
  | setSuperGroup (id above : GroupId)
  | declare (id : GroupId) (declaration : Declaration)
  | registerInterface (id : GroupId) (interface : Interface)
  | instanceOf (group : GroupId) (name : String)
  | assign (id : InstanceId) (name : String) (value : Value)
  | assignAggregate (id : InstanceId) (spec : String) (values : List Value)
  | remove (id : InstanceId) (name : String)
  | registerInstanceRenderer (id : InstanceId) (type : ScalarType) (renderer : Renderer)
  | write (id : InstanceId) (out : Writer)
  | configure (config : Config)
  /-- Iterators and objects are made, and items are taken from iterators. -/
  | supply (change : Store → Store)

/-- The engine after a call. A call that fails may have changed it all the same. -/
def Change.apply (engine : Engine) : Change → Engine
  | .defineGroup name style => (engine.defineGroup name style).2
  | .setSuperGroup id above => (engine.setSuperGroup id above).1
  | .declare id declaration => engine.declare id declaration
  | .registerInterface id interface => (engine.registerInterface id interface).1
  | .instanceOf group name => (Engine.instanceOf group name engine).2
  | .assign id name value => (Engine.assign id name value engine).2
  | .assignAggregate id spec values => (Engine.assignAggregate id spec values engine).2
  | .remove id name => (Engine.remove id name engine).2
  | .registerInstanceRenderer id type renderer =>
    (Engine.registerInstanceRenderer id type renderer engine).2
  | .write id out => (engine.write id out).engine
  | .configure config => { engine with config }
  | .supply change => { engine with store := change engine.store }

/-- The engines that calls lead to. -/
inductive Reachable : Engine → Prop where
  | new (config : Config) : Reachable { config }
  | change {engine : Engine} (h : Reachable engine) (change : Change) :
    Reachable (change.apply engine)

/-- The engine after some calls. -/
def after (engine : Engine) (changes : List Change) : Engine := changes.foldl Change.apply engine

/-- Calls on an engine that can be reached lead to engines that can. -/
theorem Reachable.after {engine : Engine} (h : engine.Reachable) (changes : List Change) :
    (engine.after changes).Reachable := by
  induction changes generalizing engine with
  | nil => exact h
  | cons change rest ih => exact ih (h.change change)

/-! ### Calls on instances -/

/-- The second call takes place only if the first one does not fail. -/
theorem bind_apply {α β : Type} (action : Action α) (next : α → Action β) (engine : Engine) :
    (action >>= next) engine = match action engine with
      | (.ok value, after) => next value after
      | (.error error, after) => (.error error, after) := by
  change (match action engine with | (result, after) => ExceptT.bindCont next result after) = _
  rcases action engine with ⟨_ | _, _⟩ <;> rfl

/-- A new instance has no attributes. -/
theorem instanceOf_engine (engine : Engine) (group : GroupId) (name : String) :
    (instanceOf group name engine).2 = engine ∨ ∃ created : Instance, created.attributes = {} ∧
      (instanceOf group name engine).2 =
        { engine with instances := engine.instances.push created } := by
  have hget {next : Engine → Action InstanceId} :
      ((get : Action Engine) >>= next) engine = next engine engine := rfl
  simp only [instanceOf, hget]
  split
  · exact Or.inl rfl
  · cases engine.groups.findTemplate group name with
    | none => exact Or.inl rfl
    | some found => exact Or.inr ⟨_, rfl, rfl⟩

/-- A call that leaves the groups alone. -/
def KeepsGroups {α : Type} (action : Action α) : Prop :=
  ∀ engine, (action engine).2.groups = engine.groups

namespace KeepsGroups

variable {α β : Type}

/-- An answer keeps the groups. -/
theorem pure (value : α) : KeepsGroups (Pure.pure value : Action α) := fun _ => rfl

/-- So does an error. -/
theorem throw (error : RenderError) : KeepsGroups (MonadExcept.throw error : Action α) :=
  fun _ => rfl

/-- So do calls after each other. -/
theorem bind {action : Action α} {next : α → Action β} (h : KeepsGroups action)
    (hnext : ∀ value, KeepsGroups (next value)) : KeepsGroups (action >>= next) := by
  intro engine
  have hfirst := h engine
  rw [bind_apply]
  rcases hout : action engine with ⟨_ | value, after⟩ <;> rw [hout] at hfirst
  · exact hfirst
  · exact (hnext value after).trans hfirst

/-- Looking at the engine keeps the groups. -/
theorem getting : KeepsGroups (get : Action Engine) := fun _ => rfl

/-- So does a change of anything else. -/
theorem changing {change : Engine → Engine} (h : ∀ engine, (change engine).groups = engine.groups) :
    KeepsGroups (modify change : Action PUnit) := h

/-- Actions on the store keep the groups. -/
theorem onStore (action : StateM Store α) : KeepsGroups (Engine.onStore action) := fun _ => rfl

/-- Looking up an instance keeps them. -/
theorem getInstance (id : InstanceId) : KeepsGroups (Engine.getInstance id) := by
  apply KeepsGroups.bind .getting
  intro engine
  split
  · exact .pure _
  · exact .throw _

/-- Creating an instance keeps them. -/
theorem instanceOf (group : GroupId) (name : String) :
    KeepsGroups (Engine.instanceOf group name) := by
  intro engine
  obtain hsame | ⟨created, -, hsame⟩ := instanceOf_engine engine group name <;> rw [hsame]

/-- Noting that an instance is enclosed by another one keeps them. -/
theorem adopt (id : InstanceId) (value : Value) : KeepsGroups (Engine.adopt id value) := by
  unfold Engine.adopt
  split
  · apply KeepsGroups.bind (.getInstance _)
    intro _
    split
    · exact .changing fun _ => rfl
    · exact .pure _
  · exact .pure _

/-- Nothing follows an error. -/
theorem throwThen (error : RenderError) (next : α → Action β) :
    KeepsGroups (MonadExcept.throw error >>= next) := fun _ => rfl

/-- An assignment keeps them. -/
theorem assign (id : InstanceId) (name : String) (value : Value) :
    KeepsGroups (Engine.assign id name value) := by
  unfold Engine.assign
  split
  · exact .throwThen _ _
  · refine .bind (.adopt id value) fun _ => .bind (.getInstance id) fun data => ?_
    split
    · exact .throwThen _ _
    · exact .bind (.onStore _) fun value => .changing fun _ => rfl

/-- So does the assignment of an aggregate. -/
theorem assignAggregate (id : InstanceId) (spec : String) (values : List Value) :
    KeepsGroups (Engine.assignAggregate id spec values) := by
  unfold Engine.assignAggregate
  split
  · exact .throw _
  · simp only
    split
    · exact .throwThen _ _
    · exact .assign id _ _

/-- So does the removal of an attribute. -/
theorem remove (id : InstanceId) (name : String) : KeepsGroups (Engine.remove id name) :=
  .bind (.getInstance id) fun _ => .bind (.changing fun _ => rfl) fun _ => .pure _

/-- So does a renderer for an instance. -/
theorem registerInstanceRenderer (id : InstanceId) (type : ScalarType) (renderer : Renderer) :
    KeepsGroups (Engine.registerInstanceRenderer id type renderer) :=
  .bind (.getInstance id) fun _ => .changing fun _ => rfl

end KeepsGroups

end Engine

/-! ### Definitions and their groups -/

/-- Each definition that a group has says that the group has it. -/
def Group.OwnedBy (id : GroupId) (group : Group) : Prop :=
  ∀ name definition, group.templates.get? name = some definition → definition.group = some id

/-- Each definition that one of the groups has says which group has it. -/
def Groups.Owned (groups : Groups) : Prop :=
  ∀ id group, groups.find? id = some group → group.OwnedBy id

namespace Group.OwnedBy

variable {id : GroupId} {group : Group}

/-- A template that is put into a group says that the group has it. -/
theorem insert (h : group.OwnedBy id) (name : String) (definition : Definition) :
    OwnedBy id { group with
      templates := group.templates.insert name { definition with group := some id } } := by
  intro other found hfound
  by_cases hname : other = name
  · rw [hname, Table.get?_insert_self] at hfound
    cases hfound
    rfl
  · rw [Table.get?_insert_of_ne _ _ hname] at hfound
    exact h other found hfound

/-- So does the template of a region. -/
theorem addRegion (h : group.OwnedBy id) (template : String) (mention : Mention) :
    OwnedBy id (group.addRegion id template mention).1 := by
  obtain ⟨region, body⟩ := mention
  unfold Group.addRegion
  simp only
  split
  · split
    · exact h
    · exact h.insert _ _
  · exact h
  · exact h.insert _ _

/-- So do the templates of several regions. -/
theorem addRegions (h : group.OwnedBy id) (template : String) (mentions : List Mention) :
    OwnedBy id (group.addRegions id template mentions).1 := by
  induction mentions generalizing group with
  | nil => exact h
  | cons mention rest ih => exact ih (h.addRegion template mention)

end Group.OwnedBy

/-- How a group is linked does not depend on the regions that it is given. -/
theorem Group.superGroup_addRegions (id : GroupId) (template : String) (group : Group)
    (mentions : List Mention) :
    (group.addRegions id template mentions).1.superGroup = group.superGroup := by
  induction mentions generalizing group with
  | nil => rfl
  | cons mention rest ih =>
    refine (ih (group.addRegion id template mention).1).trans ?_
    unfold Group.addRegion
    simp only
    split
    · split <;> rfl
    · rfl
    · rfl

namespace Engine

/-- After a group is replaced its number leads to the new one, and other numbers lead where they
did. -/
theorem find?_setGroup (engine : Engine) {id other : GroupId} {group found : Group}
    (h : (engine.setGroup id group).groups.find? other = some found) :
    other = id ∧ found = group ∨ engine.groups.find? other = some found := by
  unfold setGroup Groups.find? at h
  rw [Array.getElem?_setIfInBounds] at h
  split at h
  · next heq =>
    split at h
    · cases h
      have hid : other = id := by
        cases id
        cases other
        exact congrArg _ heq.symm
      exact Or.inl ⟨hid, rfl⟩
    · cases h
  · exact Or.inr h

/-- Other numbers lead where they did. -/
theorem find?_setGroup_of_ne (engine : Engine) {id other : GroupId} (h : other ≠ id)
    (group : Group) :
    (engine.setGroup id group).groups.find? other = engine.groups.find? other := by
  apply Array.getElem?_setIfInBounds_ne
  intro heq
  apply h
  cases id
  cases other
  exact congrArg _ heq.symm

/-- The number of a group that is replaced leads to the new one. -/
theorem find?_setGroup_self (engine : Engine) {id : GroupId} {old : Group}
    (h : engine.groups.find? id = some old) (group : Group) :
    (engine.setGroup id group).groups.find? id = some group :=
  Array.getElem?_setIfInBounds_self_of_lt (Array.getElem?_eq_some_iff.mp h).1

/-- A new group has a number that no group had, and the others stay. -/
theorem find?_defineGroup (engine : Engine) (name : String) (style : DelimiterStyle)
    (id : GroupId) :
    (engine.defineGroup name style).2.groups.find? id = engine.groups.find? id ∨
      engine.groups.find? id = none ∧
        (engine.defineGroup name style).2.groups.find? id = some { name, style } := by
  unfold defineGroup Groups.find?
  rw [Array.getElem?_push]
  split
  · next hlast => exact Or.inr ⟨hlast ▸ Array.getElem?_eq_none (Nat.le_refl _), rfl⟩
  · exact Or.inl rfl

/-- Changing a group keeps definitions owned if the change does. -/
theorem owned_changeGroup {engine : Engine} (h : engine.groups.Owned) (id : GroupId)
    {change : Group → Group × List DefinitionError}
    (hchange : ∀ group : Group, group.OwnedBy id → (change group).1.OwnedBy id) :
    (engine.changeGroup id change).1.groups.Owned := by
  unfold changeGroup
  split
  · exact h
  · next group hgroup =>
    intro other found hfound
    rcases engine.find?_setGroup hfound with ⟨rfl, rfl⟩ | hfound
    · exact hchange group (h other group hgroup)
    · exact h other found hfound

/-- What a group is given says that the group has it. -/
theorem owned_declare {engine : Engine} (h : engine.groups.Owned) (id : GroupId)
    (declaration : Declaration) : (engine.declare id declaration).groups.Owned := by
  cases declaration with
  | template name formals body =>
    apply owned_changeGroup h id
    intro group hgroup
    split
    · exact hgroup
    · exact (hgroup.addRegions _ _).insert _ _
  | region template region body =>
    apply owned_changeGroup h id
    intro group hgroup
    cases engine.groups.findTemplate id template with
    | none => exact hgroup
    | some found =>
      simp only
      split
      · exact hgroup
      · split
        · exact hgroup
        · exact hgroup.insert _ _
  | dictionary name dictionary => exact owned_changeGroup h id fun group hgroup => hgroup
  | renderer type renderer => exact owned_changeGroup h id fun group hgroup => hgroup

/-- A new group has nothing that could say anything else. -/
theorem owned_defineGroup {engine : Engine} (h : engine.groups.Owned) (name : String)
    (style : DelimiterStyle) : (engine.defineGroup name style).2.groups.Owned := by
  intro id found hfound
  rcases engine.find?_defineGroup name style id with hsame | ⟨-, hnew⟩
  · exact h id found (hsame.symm.trans hfound)
  · cases hnew.symm.trans hfound
    exact fun other definition hget => by cases hget

/-- A link to a super-group changes no template. -/
theorem owned_setSuperGroup {engine : Engine} (h : engine.groups.Owned) (id above : GroupId) :
    (engine.setSuperGroup id above).1.groups.Owned := by
  unfold setSuperGroup
  split
  · exact h
  · exact h
  · next group superGroup hgroup _ =>
    split
    · exact h
    · intro other found hfound
      rcases engine.find?_setGroup hfound with ⟨rfl, rfl⟩ | hfound
      · exact h other group hgroup
      · exact h other found hfound

/-- Only four kinds of calls touch the groups. -/
theorem Change.groups_cases (change : Change) (engine : Engine) :
    (change.apply engine).groups = engine.groups ∨
      (∃ name style, change = .defineGroup name style) ∨
      (∃ id above, change = .setSuperGroup id above) ∨
      (∃ id declaration, change = .declare id declaration) ∨
      ∃ id interface, change = .registerInterface id interface := by
  cases change with
  | defineGroup name style => exact Or.inr (Or.inl ⟨name, style, rfl⟩)
  | setSuperGroup id above => exact Or.inr (Or.inr (Or.inl ⟨id, above, rfl⟩))
  | declare id declaration => exact Or.inr (Or.inr (Or.inr (Or.inl ⟨id, declaration, rfl⟩)))
  | registerInterface id interface =>
    exact Or.inr (Or.inr (Or.inr (Or.inr ⟨id, interface, rfl⟩)))
  | instanceOf group name => exact Or.inl (KeepsGroups.instanceOf group name engine)
  | assign id name value => exact Or.inl (KeepsGroups.assign id name value engine)
  | assignAggregate id spec values =>
    exact Or.inl (KeepsGroups.assignAggregate id spec values engine)
  | remove id name => exact Or.inl (KeepsGroups.remove id name engine)
  | registerInstanceRenderer id type renderer =>
    exact Or.inl (KeepsGroups.registerInstanceRenderer id type renderer engine)
  | write id out => exact Or.inl (undisturbed_writeWithin fuel engine id out).groups
  | configure _ | supply _ => exact Or.inl rfl

/-- So in no call do templates come to stand in groups that they do not name. -/
theorem owned_change {engine : Engine} (h : engine.groups.Owned) (change : Change) :
    (change.apply engine).groups.Owned := by
  obtain hgroups | ⟨name, style, rfl⟩ | ⟨id, above, rfl⟩ | ⟨id, declaration, rfl⟩ |
    ⟨id, interface, rfl⟩ := change.groups_cases engine
  · exact hgroups.symm ▸ h
  · exact owned_defineGroup h name style
  · exact owned_setSuperGroup h id above
  · exact owned_declare h id declaration
  · exact owned_changeGroup h id fun group hgroup => hgroup

/-- In an engine that calls lead to, each definition says which group has it. -/
theorem Reachable.owned {engine : Engine} (h : engine.Reachable) : engine.groups.Owned := by
  induction h with
  | new config => exact fun id group hgroup => by simp [Groups.find?] at hgroup
  | change _ change ih => exact owned_change ih change

/-! ### What a group is given -/

/-- A change of a group changes nothing but the groups. -/
theorem changeGroup_engine (engine : Engine) (id : GroupId)
    (change : Group → Group × List DefinitionError) :
    (engine.changeGroup id change).1 =
      { engine with groups := (engine.changeGroup id change).1.groups } := by
  unfold changeGroup
  split <;> rfl

/-- So does an interface. -/
theorem registerInterface_engine (engine : Engine) (id : GroupId) (interface : Interface) :
    (engine.registerInterface id interface).1 =
      { engine with groups := (engine.registerInterface id interface).1.groups } :=
  changeGroup_engine engine id _

/-- So does a link to a super-group. -/
theorem setSuperGroup_engine (engine : Engine) (id above : GroupId) :
    (engine.setSuperGroup id above).1 =
      { engine with groups := (engine.setSuperGroup id above).1.groups } := by
  unfold setSuperGroup
  split
  · rfl
  · rfl
  · split <;> rfl

/-- Changing a group changes no other one, and no links if the change leaves its link alone. -/
theorem changeGroup_alike (engine : Engine) (id : GroupId)
    {change : Group → Group × List DefinitionError}
    (hchange : ∀ group : Group, (change group).1.superGroup = group.superGroup) :
    Groups.AlikeExcept id engine.groups (engine.changeGroup id change).1.groups := by
  unfold changeGroup
  split
  · exact ⟨rfl, fun _ _ => rfl, fun _ => rfl⟩
  · next group hgroup =>
    have hother (other : GroupId) (hne : other ≠ id) :=
      engine.find?_setGroup_of_ne hne (change group).1
    refine ⟨Array.size_setIfInBounds, hother, fun other => ?_⟩
    by_cases hne : other = id
    · subst hne
      have hgroup : engine.groups.find? other = some group := hgroup
      rw [Groups.superGroup?, Groups.superGroup?, engine.find?_setGroup_self hgroup, hgroup,
        Option.bind_some, Option.bind_some, hchange]
    · rw [Groups.superGroup?, Groups.superGroup?, hother other hne]

/-- So does what a group is given. -/
theorem declare_engine (engine : Engine) (id : GroupId) (declaration : Declaration) :
    engine.declare id declaration =
      { engine with groups := (engine.declare id declaration).groups } := by
  cases declaration <;> exact changeGroup_engine engine id _

/-- The configuration stays the same when a group is given something. -/
@[simp] theorem declare_config (engine : Engine) (id : GroupId) (declaration : Declaration) :
    (engine.declare id declaration).config = engine.config := by
  rw [declare_engine]

/-- So do the instances. -/
@[simp] theorem declare_instances (engine : Engine) (id : GroupId) (declaration : Declaration) :
    (engine.declare id declaration).instances = engine.instances := by
  rw [declare_engine]

/-- So does the store. -/
@[simp] theorem declare_store (engine : Engine) (id : GroupId) (declaration : Declaration) :
    (engine.declare id declaration).store = engine.store := by
  rw [declare_engine]

/-- What a group is given changes nothing but what that group has. -/
theorem declare_alike (engine : Engine) (id : GroupId) (declaration : Declaration) :
    Groups.AlikeExcept id engine.groups (engine.declare id declaration).groups := by
  cases declaration with
  | template name formals body =>
    apply changeGroup_alike engine id
    intro group
    split
    · rfl
    · exact Group.superGroup_addRegions _ _ group _
  | region template region body =>
    apply changeGroup_alike engine id
    intro group
    cases engine.groups.findTemplate id template with
    | none => rfl
    | some found =>
      simp only
      split
      · rfl
      · split <;> rfl
  | dictionary name dictionary => exact changeGroup_alike engine id fun _ => rfl
  | renderer type renderer => exact changeGroup_alike engine id fun _ => rfl

/-- Only five kinds of calls touch the instances. -/
theorem Change.instances_cases (change : Change) (engine : Engine) :
    (change.apply engine).instances = engine.instances ∨
      (∃ group name, change = .instanceOf group name) ∨
      (∃ id name value, change = .assign id name value) ∨
      (∃ id spec values, change = .assignAggregate id spec values) ∨
      (∃ id name, change = .remove id name) ∨
      ∃ id type renderer, change = .registerInstanceRenderer id type renderer := by
  cases change with
  | instanceOf group name => exact Or.inr (Or.inl ⟨group, name, rfl⟩)
  | assign id name value => exact Or.inr (Or.inr (Or.inl ⟨id, name, value, rfl⟩))
  | assignAggregate id spec values =>
    exact Or.inr (Or.inr (Or.inr (Or.inl ⟨id, spec, values, rfl⟩)))
  | remove id name => exact Or.inr (Or.inr (Or.inr (Or.inr (Or.inl ⟨id, name, rfl⟩))))
  | registerInstanceRenderer id type renderer =>
    exact Or.inr (Or.inr (Or.inr (Or.inr (Or.inr ⟨id, type, renderer, rfl⟩))))
  | defineGroup _ _ | configure _ | supply _ => exact Or.inl rfl
  | setSuperGroup id above =>
    have hengine := setSuperGroup_engine engine id above
    exact Or.inl (congrArg Engine.instances hengine :)
  | declare id declaration => exact Or.inl (declare_instances engine id declaration)
  | registerInterface id interface =>
    have hengine := registerInterface_engine engine id interface
    exact Or.inl (congrArg Engine.instances hengine :)
  | write id out => exact Or.inl (undisturbed_writeWithin fuel engine id out).instances

end Engine

end Stencil
