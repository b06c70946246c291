import Stencil.Proofs.Engine.Reachable
import Stencil.Proofs.Group.Links

/-!
# Groups of engines that can be reached

A link to a super-group is made only if it does not lead back, and no other call touches a link. So
in every engine that calls lead to, no group is above itself.
-/

namespace Stencil.Engine

open Groups

variable {engine : Engine} {id above : GroupId}

/-- To define a group leaves every link alone. -/
theorem superGroup?_defineGroup (name : String) (style : DelimiterStyle) (other : GroupId) :
    (engine.defineGroup name style).2.groups.superGroup? other =
      engine.groups.superGroup? other := by
  unfold superGroup?
  rcases engine.find?_defineGroup name style other with hsame | ⟨hnone, hnew⟩
  · rw [hsame]
  · rw [hnone, hnew]
    rfl

/-- A link is made where the group is not on the chain of the proposed super-group, and it replaces
the one of this group only. -/
theorem hierarchical_setSuperGroup (h : engine.groups.Hierarchical) (id above : GroupId) :
    (engine.setSuperGroup id above).1.groups.Hierarchical := by
  unfold setSuperGroup
  split
  · exact h
  · exact h
  · next group superGroup hgroup hsuper =>
    split
    · exact h
    · next hchain =>
      have hgroup : engine.groups.find? id = some group := hgroup
      refine h.link id above (fun other hother => ?_) ?_ fun hreaches => ?_
      · rw [superGroup?, engine.find?_setGroup_of_ne hother, superGroup?]
      · rw [superGroup?, engine.find?_setGroup_self hgroup, Option.bind_some]
      · exact hchain (mem_chain_of_reaches hreaches (Option.isSome_iff_exists.mpr ⟨group, hgroup⟩))

/-- Every change leaves groups in a hierarchy. -/
theorem hierarchical_apply (h : engine.groups.Hierarchical) (change : Change) :
    (change.apply engine).groups.Hierarchical := by
  obtain hgroups | ⟨name, style, rfl⟩ | ⟨id, above, rfl⟩ | ⟨id, declaration, rfl⟩ |
    ⟨id, interface, rfl⟩ := change.groups_cases engine
  · exact hgroups.symm ▸ h
  · exact h.of_eq (superGroup?_defineGroup name style)
  · exact hierarchical_setSuperGroup h id above
  · exact h.of_eq (declare_alike engine id declaration).superGroup
  · exact h.of_eq (changeGroup_alike engine id fun _ => rfl).superGroup

/-- In an engine that calls lead to, no group is above itself. -/
theorem Reachable.hierarchical (h : engine.Reachable) : engine.groups.Hierarchical := by
  induction h with
  | new config =>
    intro id habove
    obtain ⟨_, hstep, -⟩ := Relation.TransGen.head'_iff.mp habove
    simp [superGroup?, Groups.find?] at hstep
  | change _ change ih => exact hierarchical_apply ih change

end Stencil.Engine
