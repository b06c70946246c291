import Stencil.Proofs.Engine.Agreement
import Stencil.Proofs.Engine.Reachable
import Stencil.Proofs.Render.Comparison

/-!
# Groups that a render does not see

A render looks up names along the chains of the groups that the instances it writes belong to. What
is given to a group on none of these chains does not change the render. So an override in a
sub-group changes nothing for the instances of the group that it is a sub-group of.
-/

namespace Stencil.Engine

variable {engine : Engine} {id : GroupId}

/-- A group is on no chain from which the instances that are written look up names: neither on that
of the group that an instance was created from nor on that of the group that its template is of. -/
def Unseen (engine : Engine) (id : GroupId) (frame : InstanceId) (out : Writer) : Prop :=
  ∀ other ∈ engine.executed frame out, ∀ data, engine.instance? other = some data →
    id ∉ engine.groups.chain data.group ∧ id ∉ engine.groups.chain data.nativeGroup

/-- The groups from which a group cannot be reached by super-group links. -/
def Avoids (engine : Engine) (id start : GroupId) : Prop := ¬ engine.groups.Reaches start id

/-- The instances of an engine from which a group cannot be reached, and those that a render of the
engine creates. -/
def Apart (engine : Engine) (id : GroupId) (frame : InstanceId) : Prop :=
  ∀ data, engine.instance? frame = some data →
    engine.Avoids id data.group ∧ engine.Avoids id data.nativeGroup

/-- An engine before and after a group is given something, compared as long as the instances that
are written are apart from the group. -/
def isolation (engine : Engine) (id : GroupId) (declaration : Declaration) : Comparison where
  left := engine.setting
  right := (engine.declare id declaration).setting
  Frame := engine.Apart id
  Proper _ := True
  Start := engine.Avoids id
  Lost run := ∃ frame ∈ run.written, ¬ engine.Apart id frame
  Alike := Eq

/-- What avoids a group avoids the groups above it. -/
theorem Avoids.above {start above : GroupId} {group : Group} (h : engine.Avoids id start)
    (hgroup : engine.groups.find? start = some group) (habove : group.superGroup = some above) :
    engine.Avoids id above := by
  intro hreaches
  exact h (.head (by rw [Groups.superGroup?, hgroup]; exact habove) hreaches)

/-- A group from which another one cannot be reached has only groups like this in its chain. -/
theorem Avoids.of_mem_chain {start other : GroupId} (h : engine.Avoids id start)
    (hother : other ∈ engine.groups.chain start) : engine.Avoids id other :=
  fun hreaches => h ((Groups.reaches_of_mem_chain hother).trans hreaches)

/-- A number that was not issued belongs to no instance that leads to the group. -/
theorem apart_of_size_le {frame : InstanceId} (h : engine.instances.size ≤ frame.index) :
    engine.Apart id frame := by
  intro data hdata
  have hlt := (Array.getElem?_eq_some_iff.mp hdata).1
  omega

/-- From an avoiding group on, look-ups find the same before and after. -/
theorem Avoids.chainGroups {start : GroupId} (h : engine.Avoids id start)
    (declaration : Declaration) : (engine.declare id declaration).groups.chainGroups start =
      engine.groups.chainGroups start :=
  (engine.declare_alike id declaration).chainGroups h

/-- What a group is given cannot be told by a render that stays apart from the group. -/
theorem isolation_fair (howned : engine.groups.Owned) (declaration : Declaration) :
    (engine.isolation id declaration).Fair where
  config := engine.declare_config id declaration
  callers := congrArg Array.size (engine.declare_instances id declaration)
  closed := .trivial
  lost hgrows := fun ⟨frame, hframe, hnot⟩ => ⟨frame, hgrows.written.subset hframe, hnot⟩
  frame _ := trivial
  fresh := apart_of_size_le
  entered {run frame} _ hlost hwritten := by
    by_cases hcaller : frame.index < engine.instances.size
    · -- A caller that is written without staying apart loses the left render.
      by_contra hnot
      exact hlost ⟨frame, hwritten hcaller, hnot⟩
    · exact apart_of_size_le (Nat.le_of_not_lt hcaller)
  group {start} hstart := by
    have hne : start ≠ id := fun heq => hstart (heq ▸ Relation.ReflTransGen.refl)
    exact (engine.declare_alike id declaration).other start hne
  above := Avoids.above
  template {start name} hstart :=
    congrArg (List.findSome? _) (Avoids.chainGroups hstart declaration)
  owned hstart hfind hgroup := by
    obtain ⟨hchain, group, hgroup', hget⟩ := Groups.findTemplate_eq_some hfind
    obtain rfl := Option.some.inj (hgroup.symm.trans (howned _ group hgroup' _ _ hget))
    exact Avoids.of_mem_chain hstart hchain
  dictionary {start name} hstart :=
    congrArg (List.findSome? _) (Avoids.chainGroups hstart declaration)
  renderer {start type} hstart :=
    congrArg (List.findSome? _) (Avoids.chainGroups hstart declaration)
  inlineOwner label owner halike _ := by
    cases halike
    exact ⟨rfl, rfl⟩
  next _ halike := by
    cases halike
    exact ⟨rfl, rfl, fun _ _ => trivial⟩
  drain _ halike := by
    cases halike
    exact ⟨rfl, rfl, fun _ _ => trivial⟩
  truthy _ halike := by
    cases halike
    rfl
  scalarType _ halike := by
    cases halike
    rfl
  property _ halike := by
    cases halike
    exact ⟨rfl, fun _ _ => trivial⟩
  rendering _ _ halike := by
    cases halike
    exact ⟨rfl, rfl⟩

/-- A render begins in a state in which all instances fit. -/
theorem isolation_intact (declaration : Declaration) (out : Writer) :
    (engine.isolation id declaration).Intact (engine.start out) where
  callers := Nat.le_refl _
  fits _ data hdata :=
    { group := fun hframe => (hframe data hdata).1
      native := fun hframe => (hframe data hdata).2
      assigned := fun _ _ _ _ => trivial
      bound := fun _ _ _ _ => trivial
      known := fun _ => trivial }
  defaults _ _ h := by cases h

/-- A run that stays apart from a group is the same run after the group was given something. -/
theorem runWithin_declare (howned : engine.groups.Owned) (declaration : Declaration) (fuel : Nat)
    {frame : InstanceId} {out : Writer}
    (happart : ∀ other ∈ (engine.runWithin fuel frame out).2.written, engine.Apart id other) :
    ∃ store, (engine.declare id declaration).runWithin fuel frame out =
      ((engine.runWithin fuel frame out).1,
        { (engine.runWithin fuel frame out).2 with store }) := by
  have hstart : (engine.declare id declaration).start out = engine.start out := by
    simp only [start, declare_instances, declare_store]
  obtain ⟨store, hsame, -⟩ :=
    (engine.isolation_fair howned declaration).exec fuel trivial
      (engine.isolation_intact declaration out) rfl
      fun ⟨other, hother, hnot⟩ => hnot (happart other hother)
  rw [runWithin, hstart]
  exact ⟨store, hsame⟩

/-- To give something to a group that the engine does not have changes nothing. -/
theorem declare_of_not_isSome (hid : ¬ (engine.groups.find? id).isSome)
    (declaration : Declaration) : engine.declare id declaration = engine := by
  have hnone : engine.group? id = none := Option.not_isSome_iff_eq_none.mp hid
  cases declaration <;>
    simp only [declare, defineTemplate, defineRegion, defineDictionary, registerRenderer,
      changeGroup, hnone]

/-- Writing an instance is not changed by what a group is given that is not seen. -/
theorem write_declare (howned : engine.groups.Owned) (declaration : Declaration)
    {frame : InstanceId} {out : Writer} (hunseen : engine.Unseen id frame out) :
    (engine.write frame out).Agrees ((engine.declare id declaration).write frame out) := by
  by_cases hid : (engine.groups.find? id).isSome
  · have happart (other) (hother : other ∈ engine.executed frame out) : engine.Apart id other := by
      intro data hdata
      obtain ⟨hgroup, hnative⟩ := hunseen other hother data hdata
      exact ⟨fun h => hgroup (Groups.mem_chain_of_reaches h hid),
        fun h => hnative (Groups.mem_chain_of_reaches h hid)⟩
    have hinstance : (engine.declare id declaration).instance? frame = engine.instance? frame := by
      simp only [instance?, declare_instances]
    have hrun := engine.runWithin_declare howned declaration fuel happart
    exact agrees_writeWithin (engine.declare_config id declaration) hinstance fun _ => hrun
  · rw [declare_of_not_isSome hid]
    exact ⟨rfl, rfl, rfl⟩

/-- In an engine that calls lead to, what a group is given changes nothing for the instances that
are written without seeing the group: neither what is written, nor whether it fails and how, nor
what is reported. -/
theorem isolated_write (hreachable : engine.Reachable) (declaration : Declaration)
    (frame : InstanceId) :
    (∀ out, engine.Unseen id frame out →
      (engine.write frame out).Agrees ((engine.declare id declaration).write frame out)) ∧
      (∀ width, engine.Unseen id frame (engine.config.writer width) →
        ((engine.declare id declaration).renderWithWidth frame width).1 =
          (engine.renderWithWidth frame width).1) ∧
      (engine.Unseen id frame (engine.config.writer engine.config.lineWidth) →
        ((engine.declare id declaration).render frame).1 = (engine.render frame).1) := by
  have hwrite (out : Writer) (hunseen : engine.Unseen id frame out) :=
    write_declare hreachable.owned declaration hunseen
  have hconfig := engine.declare_config id declaration
  exact ⟨hwrite, fun width hunseen => renderWithWidth_agrees hconfig (hwrite _ hunseen),
    fun hunseen => render_agrees hconfig (hwrite _ hunseen)⟩

/-- A group with a template that writes another one, and a sub-group of it. Both have an
instance. -/
def layered : Engine :=
  ({} : Engine).after
    [.defineGroup "base" .angle, .defineGroup "sub" .angle, .setSuperGroup ⟨1⟩ ⟨0⟩,
      .declare ⟨0⟩ (.template "page" none [.expression (.call { callee := .named "title" }) {}]),
      .declare ⟨0⟩ (.template "title" none [.literal "base"]),
      .instanceOf ⟨0⟩ "page", .instanceOf ⟨1⟩ "page"]

/-- An override in the sub-group changes what is written there, but not what the group writes. -/
theorem isolated_write_layered :
    let override : Declaration := .template "title" none [.literal "sub"]
    layered.Reachable ∧ layered.Unseen ⟨1⟩ ⟨0⟩ (layered.config.writer 0) ∧
      ((layered.declare ⟨1⟩ override).render ⟨0⟩).1 = (layered.render ⟨0⟩).1 ∧
      ((layered.declare ⟨1⟩ override).render ⟨1⟩).1.toOption = some "sub" ∧
      (layered.render ⟨1⟩).1.toOption = some "base" := by
  have hreachable : layered.Reachable := (Reachable.new {}).after _
  have hunseen : layered.Unseen ⟨1⟩ ⟨0⟩ (layered.config.writer 0) := by
    have hexecuted : layered.executed ⟨0⟩ (layered.config.writer 0) = [⟨0⟩] := by decide +kernel
    have hchain : ((layered.instance? ⟨0⟩).all fun data =>
        ⟨1⟩ ∉ layered.groups.chain data.group ∧
          ⟨1⟩ ∉ layered.groups.chain data.nativeGroup) = true := by
      decide +kernel
    intro other hother data hdata
    obtain rfl := List.mem_singleton.mp (hexecuted ▸ hother)
    rw [hdata] at hchain
    exact of_decide_eq_true hchain
  exact ⟨hreachable, hunseen, (isolated_write hreachable _ _).2.2 hunseen, by decide +kernel,
    by decide +kernel⟩

end Stencil.Engine
