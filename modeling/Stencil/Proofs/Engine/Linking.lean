import Stencil.Proofs.Engine.Hierarchy
import Stencil.Proofs.Group.Ascents

/-!
# Linking groups to super-groups

Before a group is linked, it is searched for on the way up from its future super-group. That this
search ends relies on the links made so far: they lead to groups only, and never back. Calls keep it
so, whatever numbers they are given and however often links are replaced.
-/

namespace Stencil.Engine

open Groups

variable {engine : Engine} {id above : GroupId}

/-! ### Links lead to groups -/

/-- Where a link leads to a group, it does so after a call that keeps the groups and the links. -/
theorem linked_of_eq {after : Engine} (h : engine.groups.Linked)
    (hlink : ∀ other, after.groups.superGroup? other = engine.groups.superGroup? other)
    (hgroups : ∀ other, (engine.group? other).isSome → (after.group? other).isSome) :
    after.groups.Linked :=
  fun other above hother => hgroups above (h other above ((hlink other).symm.trans hother))

/-- To set a group takes no group away. -/
theorem isSome_group?_setGroup (group : Group) {other : GroupId}
    (hother : (engine.group? other).isSome) : ((engine.setGroup id group).group? other).isSome := by
  obtain ⟨found, hfound⟩ := Option.isSome_iff_exists.mp hother
  by_cases heq : other = id
  · subst heq
    exact Option.isSome_iff_exists.mpr ⟨group, engine.find?_setGroup_self hfound group⟩
  · exact Option.isSome_iff_exists.mpr
      ⟨found, (engine.find?_setGroup_of_ne heq group).trans hfound⟩

/-- A group that is defined is not linked yet. -/
theorem linked_defineGroup (h : engine.groups.Linked) (name : String) (style : DelimiterStyle) :
    (engine.defineGroup name style).2.groups.Linked := by
  refine linked_of_eq h (superGroup?_defineGroup name style) fun other hother => ?_
  rcases engine.find?_defineGroup name style other with hsame | ⟨-, hnew⟩
  · exact (congrArg Option.isSome hsame).trans hother
  · exact Option.isSome_iff_exists.mpr ⟨_, hnew⟩

/-- Groups that are linked stay so under a further link or its refusal. -/
theorem linked_setSuperGroup (h : engine.groups.Linked) (id above : GroupId) :
    (engine.setSuperGroup id above).1.groups.Linked := by
  unfold setSuperGroup
  split
  · exact h
  · exact h
  · next group superGroup hgroup hsuper =>
    split
    · exact h
    · intro other found hfound
      have hgroup : engine.groups.find? id = some group := hgroup
      by_cases heq : other = id
      · subst heq
        rw [superGroup?_of_find? (engine.find?_setGroup_self hgroup _)] at hfound
        cases hfound
        exact isSome_group?_setGroup _ (Option.isSome_iff_exists.mpr ⟨superGroup, hsuper⟩)
      · rw [superGroup?, engine.find?_setGroup_of_ne heq] at hfound
        exact isSome_group?_setGroup _ (h other found hfound)

/-- What changes nothing but the templates of a group leaves the links alone. -/
theorem linked_of_alikeExcept {after : Engine} (h : engine.groups.Linked)
    (halike : AlikeExcept id engine.groups after.groups) : after.groups.Linked :=
  linked_of_eq h halike.superGroup fun other => (halike.find?_isSome other).mpr

/-- Every change leaves groups linked. -/
theorem linked_apply (h : engine.groups.Linked) (change : Change) :
    (change.apply engine).groups.Linked := by
  obtain hgroups | ⟨name, style, rfl⟩ | ⟨id, above, rfl⟩ | ⟨id, declaration, rfl⟩ |
    ⟨id, interface, rfl⟩ := change.groups_cases engine
  · exact hgroups.symm ▸ h
  · exact linked_defineGroup h name style
  · exact linked_setSuperGroup h id above
  · exact linked_of_alikeExcept h (declare_alike engine id declaration)
  · exact linked_of_alikeExcept h (changeGroup_alike engine id fun _ => rfl)

/-- In an engine that calls lead to, each link leads to a group. -/
theorem Reachable.linked (h : engine.Reachable) : engine.groups.Linked := by
  induction h with
  | new config => exact fun id above habove => by simp [superGroup?, Groups.find?] at habove
  | change _ change ih => exact linked_apply ih change

/-! ### New links -/

variable {group superGroup : Group}

/-- A link that would close a cycle is refused with a report. -/
theorem setSuperGroup_refused (hgroup : engine.group? id = some group)
    (hsuper : engine.group? above = some superGroup) (hmem : id ∈ engine.groups.chain above) :
    engine.setSuperGroup id above =
      (engine, [.superGroupCycle group.name superGroup.name]) := by
  simp only [setSuperGroup, hgroup, hsuper, if_pos hmem]

/-- Any other link between two groups is set. -/
theorem setSuperGroup_accepted (hgroup : engine.group? id = some group)
    (hsuper : engine.group? above = some superGroup) (hmem : id ∉ engine.groups.chain above) :
    engine.setSuperGroup id above =
      (engine.setGroup id { group with superGroup := some above }, []) := by
  simp only [setSuperGroup, hgroup, hsuper, if_neg hmem]

/-- How the groups of an engine are linked, and which further links are made. -/
structure WellLinked (engine : Engine) : Prop where
  /-- Each link leads to a group. -/
  linked : engine.groups.Linked
  /-- No links lead from a group back to itself. -/
  hierarchical : engine.groups.Hierarchical
  /-- The way up from each group ends and meets no group twice. It is what look-ups go along. -/
  ascent (start : GroupId) : (engine.group? start).isSome →
    engine.groups.Ascent start (engine.groups.chain start) ∧ (engine.groups.chain start).Nodup
  /-- The search before a link is made has an answer. -/
  search (id above : GroupId) : (engine.group? above).isSome →
    engine.groups.Search id above (decide (id ∈ engine.groups.chain above))
  /-- A link to a super-group whose chain has the group is reported and not made. -/
  refused (id above : GroupId) (group superGroup : Group) : engine.group? id = some group →
    engine.group? above = some superGroup → id ∈ engine.groups.chain above →
      engine.setSuperGroup id above =
        (engine, [.superGroupCycle group.name superGroup.name])
  /-- Any other link is made in place of an earlier one of the group. Nothing else is changed, and
  nothing is reported. -/
  accepted (id above : GroupId) (group superGroup : Group) : engine.group? id = some group →
    engine.group? above = some superGroup → id ∉ engine.groups.chain above →
      ∃ after, engine.setSuperGroup id above = (after, []) ∧
        after = { engine with groups := after.groups } ∧
        after.group? id = some { group with superGroup := some above } ∧
        ∀ other, other ≠ id → after.group? other = engine.group? other

/-- In every engine that calls lead to, links lead up and come to an end, and the search before a
new link tells exactly whether it would lead back. -/
theorem well_linked (h : engine.Reachable) : engine.WellLinked where
  linked := h.linked
  hierarchical := h.hierarchical
  ascent _ hstart := h.hierarchical.ascent_chain h.linked hstart
  search id _ habove := (h.hierarchical.ascent_chain h.linked habove).1.search id
  refused _ _ _ _ hgroup hsuper hmem := setSuperGroup_refused hgroup hsuper hmem
  accepted _ _ _ _ hgroup hsuper hmem :=
    ⟨_, setSuperGroup_accepted hgroup hsuper hmem, rfl, engine.find?_setGroup_self hgroup _,
      fun _ hother => engine.find?_setGroup_of_ne hother _⟩

/-- Three groups in a line. The lowest one was linked to each of the others, and a link from the
highest one back to it was asked for. -/
def relinked : Engine :=
  ({} : Engine).after
    [.defineGroup "base" .angle, .defineGroup "middle" .angle, .defineGroup "top" .angle,
      .setSuperGroup ⟨1⟩ ⟨0⟩, .setSuperGroup ⟨2⟩ ⟨0⟩, .setSuperGroup ⟨2⟩ ⟨1⟩,
      .setSuperGroup ⟨0⟩ ⟨2⟩, .setSuperGroup ⟨0⟩ ⟨7⟩]

/-- The second link of the lowest group replaced the first one, and the link back was not made. -/
theorem well_linked_relinked :
    relinked.Reachable ∧ relinked.WellLinked ∧
      relinked.groups.Ascent ⟨2⟩ [⟨2⟩, ⟨1⟩, ⟨0⟩] ∧ relinked.groups.Search ⟨0⟩ ⟨2⟩ true ∧
      (relinked.setSuperGroup ⟨0⟩ ⟨2⟩).2 = [.superGroupCycle "base" "top"] ∧
      (relinked.setSuperGroup ⟨2⟩ ⟨0⟩).2 = [] := by
  have hreachable : relinked.Reachable := (Reachable.new {}).after _
  have hlinked := well_linked hreachable
  have hchain : relinked.groups.chain ⟨2⟩ = [⟨2⟩, ⟨1⟩, ⟨0⟩] := by decide +kernel
  have hsearch : ⟨0⟩ ∈ relinked.groups.chain ⟨2⟩ := by decide +kernel
  refine ⟨hreachable, hlinked, ?_, ?_, by decide +kernel, by decide +kernel⟩
  · exact hchain ▸ (hlinked.ascent ⟨2⟩ (by decide +kernel)).1
  · simpa only [hsearch, decide_true] using hlinked.search ⟨0⟩ ⟨2⟩ (by decide +kernel)

end Stencil.Engine
