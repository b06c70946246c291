import Stencil.Proofs.Engine.Hierarchy
import Stencil.Proofs.Engine.Names
import Stencil.Proofs.Render.Invariant

/-!
# Where the instances of a render come from

Each instance that a render creates is created within another one. It takes over the group from
which its creator's names are looked up, so that this group is that of the caller's instance at the
beginning of the line. The native group instead is the one that has the definition; a template that
is written in place is native where its creator is.
-/

namespace Stencil.Engine

open Render

/-- An instance is one that a call creates within another instance. -/
structure Creates (engine : Engine) (creator : InstanceId) (parent data : Instance) : Prop where
  enclosing : data.enclosing = some creator
  group : data.group = parent.group
  /-- The native group has the definition. -/
  stored : data.definition.kind ≠ .inline →
    ∃ name, engine.held? data.nativeGroup name = some data.definition
  inline : data.definition.kind = .inline → data.nativeGroup = parent.nativeGroup

/-- The instances of a render of an engine: those of the engine, and others that were each created
within an earlier one. -/
structure Lineage (engine : Engine) (instances : Array Instance) : Prop where
  size : engine.instances.size ≤ instances.size
  callers : ∀ index < engine.instances.size, instances[index]? = engine.instances[index]?
  created : ∀ (id : InstanceId) (data : Instance), engine.instances.size ≤ id.index →
    instances[id.index]? = some data → ∃ creator parent, creator.index < id.index ∧
      instances[creator.index]? = some parent ∧ engine.Creates creator parent data

variable {engine : Engine} {instances : Array Instance}

/-! ### Renders keep the lineage -/

/-- What a group has says so, and is not written in place. -/
theorem Reachable.group_eq (h : engine.Reachable) {owner : GroupId} {name : String}
    {definition : Definition} (hheld : engine.held? owner name = some definition) :
    definition.group = some owner ∧ definition.kind ≠ .inline := by
  cases h.keptAs hheld with
  | template | region => exact ⟨rfl, nofun⟩

/-- An instance that is created in a scope is created by the innermost instance of it. -/
theorem creates_created (h : engine.Reachable) (creator : Instance) (scope : Scope)
    {definition : Definition} (husable : (∃ name, engine.groups.Stored name definition) ∨
      ∃ template owner, definition = Definition.inline template owner) :
    engine.Creates scope.innermost creator (Render.created creator scope definition) := by
  rcases husable with ⟨name, hstored⟩ | ⟨template, owner, rfl⟩
  · obtain ⟨owner, group, hgroup, hget⟩ := hstored
    have hheld := held?_of_get? hgroup hget
    obtain ⟨hgroup, hkind⟩ := h.group_eq hheld
    refine ⟨rfl, rfl, fun _ => ⟨name, ?_⟩, fun hinline => absurd hinline hkind⟩
    simp only [Render.created, hgroup, Option.getD_some, hheld]
  · exact ⟨rfl, rfl, fun hkind => absurd rfl hkind, fun _ => rfl⟩

/-- The native group is the only group that has the definition. -/
theorem Creates.nativeGroup_eq (hreachable : engine.Reachable) {creator : InstanceId}
    {parent data : Instance} (h : engine.Creates creator parent data) {owner : GroupId}
    {name : String} (hheld : engine.held? owner name = some data.definition) :
    data.nativeGroup = owner := by
  obtain ⟨hgroup, hkind⟩ := hreachable.group_eq hheld
  obtain ⟨other, hother⟩ := h.stored hkind
  exact Option.some.inj ((hreachable.group_eq hother).1.symm.trans hgroup)

/-- It stays so while the template and the groups of both stay the same. -/
theorem Creates.of_alike {creator : InstanceId} {parent data parent' data' : Instance}
    (h : engine.Creates creator parent data) (hparent : parent.Alike parent')
    (hdata : data.Alike data') : engine.Creates creator parent' data' where
  enclosing := hdata.enclosing.trans h.enclosing
  group := by rw [hdata.group, h.group, hparent.group]
  stored := by
    rw [hdata.definition, hdata.nativeGroup]
    exact h.stored
  inline := by
    rw [hdata.definition, hdata.nativeGroup, hparent.nativeGroup]
    exact h.inline

/-- An instance that was created may be added. -/
theorem Lineage.push (h : engine.Lineage instances) (hreachable : engine.Reachable)
    {creator : Instance} (scope : Scope) {definition : Definition}
    (hcreator : instances[scope.innermost.index]? = some creator)
    (husable : (∃ name, engine.groups.Stored name definition) ∨
      ∃ template owner, definition = Definition.inline template owner) :
    engine.Lineage (instances.push (Render.created creator scope definition)) := by
  have hold {index : Nat} {data : Instance} (hdata : instances[index]? = some data) :
      (instances.push (Render.created creator scope definition))[index]? = some data := by
    have hlt := (Array.getElem?_eq_some_iff.mp hdata).1
    rw [Array.getElem?_push, if_neg (by omega), hdata]
  refine ⟨?_, fun index hindex => ?_, fun id data hid hdata => ?_⟩
  · rw [Array.size_push]
    exact h.size.trans (Nat.le_succ _)
  · have hsize := h.size
    rw [Array.getElem?_push, if_neg (by omega), h.callers index hindex]
  · rw [Array.getElem?_push] at hdata
    split at hdata
    · next hlast =>
      cases hdata
      have hlt := (Array.getElem?_eq_some_iff.mp hcreator).1
      exact ⟨scope.innermost, creator, by omega, hold hcreator,
        creates_created hreachable creator scope husable⟩
    · obtain ⟨earlier, parent, hlt, hparent, hcreates⟩ := h.created id data hid hdata
      exact ⟨earlier, parent, hlt, hold hparent, hcreates⟩

/-- An instance may be changed if its template and its groups stay the same. -/
theorem Lineage.modify (h : engine.Lineage instances) {index : Nat} {change : Instance → Instance}
    (hindex : engine.instances.size ≤ index)
    (hchange : ∀ data : Instance, data.Alike (change data)) :
    engine.Lineage (instances.modify index change) := by
  refine ⟨by simpa using h.size, fun other hother => ?_, fun id data hid hdata => ?_⟩
  · rw [Array.getElem?_modify, if_neg (by omega), h.callers other hother]
  · have hnow {other : Nat} {old : Instance} (hother : instances[other]? = some old) :
        ∃ next, (instances.modify index change)[other]? = some next ∧ old.Alike next := by
      rw [Array.getElem?_modify, hother]
      split
      · exact ⟨change old, rfl, hchange old⟩
      · exact ⟨old, rfl, .refl old⟩
    obtain ⟨old, hold⟩ : ∃ old, instances[id.index]? = some old := by
      have hlt := (Array.getElem?_eq_some_iff.mp hdata).1
      rw [Array.size_modify] at hlt
      exact ⟨_, Array.getElem?_eq_getElem hlt⟩
    obtain ⟨next, hnext, hdata'⟩ := hnow hold
    obtain rfl : next = data := Option.some.inj (hnext.symm.trans hdata)
    obtain ⟨creator, parent, hlt, hparent, hcreates⟩ := h.created id old hid hold
    obtain ⟨parent', hnow, hparent'⟩ := hnow hparent
    exact ⟨creator, parent', hlt, hnow, hcreates.of_alike hparent' hdata'⟩

/-- The lineage of instances is an invariant of renders. -/
def lineage (hreachable : engine.Reachable) : Run.Invariant engine.setting where
  Holds := engine.Lineage
  callers h := h.size
  push scope _ h hcreator husable := h.push hreachable scope hcreator husable
  modify h hindex hchange := h.modify hindex hchange

/-- In the beginning no instance was created by another. -/
theorem lineage_start (engine : Engine) : engine.Lineage engine.instances := by
  refine ⟨Nat.le_refl _, fun _ _ => rfl, fun id data hid hdata => ?_⟩
  have hlt := (Array.getElem?_eq_some_iff.mp hdata).1
  omega

/-! ### Ancestors -/

/-- An instance of the caller is where the line of another instance begins: it is that one itself,
or the line of its creator begins there. -/
inductive Ancestor (callers : Nat) (instances : Array Instance) (root : InstanceId) :
    InstanceId → Prop where
  | caller (hcaller : root.index < callers) : Ancestor callers instances root root
  | created {id creator : InstanceId} {data : Instance} (hid : callers ≤ id.index)
    (hdata : instances[id.index]? = some data) (hcreator : data.enclosing = some creator)
    (h : Ancestor callers instances root creator) : Ancestor callers instances root id

/-- Each instance of a render has the group of the caller's instance where its line begins. -/
theorem Lineage.ancestor (h : engine.Lineage instances) {id : InstanceId} {data : Instance}
    (hdata : instances[id.index]? = some data) :
    ∃ root first, Ancestor engine.instances.size instances root id ∧
      engine.instance? root = some first ∧ data.group = first.group := by
  induction hindex : id.index using Nat.strongRecOn generalizing id data with
  | ind index ih =>
    subst hindex
    by_cases hcaller : id.index < engine.instances.size
    · exact ⟨id, data, .caller hcaller, (h.callers _ hcaller).symm.trans hdata, rfl⟩
    · obtain ⟨creator, parent, hlt, hparent, hcreates⟩ :=
        h.created id data (Nat.le_of_not_lt hcaller) hdata
      obtain ⟨root, first, hroot, hfirst, hgroup⟩ := ih creator.index hlt hparent rfl
      exact ⟨root, first,
        .created (Nat.le_of_not_lt hcaller) hdata hcreates.enclosing hroot, hfirst,
        hcreates.group.trans hgroup⟩

end Stencil.Engine
