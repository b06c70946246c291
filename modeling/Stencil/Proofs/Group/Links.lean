import Mathlib.Data.Finset.Card
import Stencil.Proofs.Group.Reach

/-!
# Super-groups above a group

A group is above another one if a number of super-group links, at least one, leads to it. Where no
group is above itself, each link leads to a group with a shorter chain, so that no way up is longer
than the chain it starts with.
-/

namespace Stencil.Groups

variable {groups : Groups} {first second third start id : GroupId}

/-- The second group is above the first one. -/
def Above (groups : Groups) : GroupId → GroupId → Prop :=
  Relation.TransGen fun id above => groups.superGroup? id = some above

/-- No group is above itself. -/
def Hierarchical (groups : Groups) : Prop := ∀ id, ¬ groups.Above id id

/-- A group above another one is reached from it. -/
theorem Above.reaches (h : groups.Above first second) : groups.Reaches first second :=
  Relation.TransGen.to_reflTransGen h

/-- All that is reached from the super-group of a group is above the group. -/
theorem above_of_superGroup? (h : groups.superGroup? first = some second)
    (hreaches : groups.Reaches second third) : groups.Above first third :=
  .trans_left (.single h) hreaches

/-! ### New links -/

/-- Where a link was changed, what is above a group was above it already or is reached through the
new link. -/
theorem above_of_link {after : Groups} {above : GroupId}
    (hlink : ∀ other, other ≠ id → after.superGroup? other = groups.superGroup? other)
    (hid : after.superGroup? id = some above) (hreaches : ¬ groups.Reaches above id)
    (h : after.Above first second) :
    groups.Above first second ∨ groups.Reaches first id ∧ groups.Reaches above second := by
  induction h with
  | @single second hstep =>
    by_cases heq : first = id
    · subst heq
      cases hid.symm.trans hstep
      exact Or.inr ⟨.refl, .refl⟩
    · exact Or.inl (.single ((hlink first heq).symm.trans hstep))
  | @tail middle second _ hstep ih =>
    by_cases heq : middle = id
    · subst heq
      cases hid.symm.trans hstep
      rcases ih with hfirst | ⟨-, habove⟩
      · exact Or.inr ⟨hfirst.reaches, .refl⟩
      · exact absurd habove hreaches
    · have hstep := (hlink middle heq).symm.trans hstep
      rcases ih with hfirst | ⟨hfirst, habove⟩
      · exact Or.inl (hfirst.tail hstep)
      · exact Or.inr ⟨hfirst, habove.tail hstep⟩

/-- A link that does not lead back keeps every group from being above itself. -/
theorem Hierarchical.link {after : Groups} (h : groups.Hierarchical) (id above : GroupId)
    (hlink : ∀ other, other ≠ id → after.superGroup? other = groups.superGroup? other)
    (hid : after.superGroup? id = some above) (hreaches : ¬ groups.Reaches above id) :
    after.Hierarchical := by
  intro other hother
  rcases above_of_link hlink hid hreaches hother with habove | ⟨hfirst, habove⟩
  · exact h other habove
  · exact hreaches (habove.trans hfirst)

/-- Only links decide whether a group is above itself. -/
theorem Hierarchical.of_eq {after : Groups} (h : groups.Hierarchical)
    (hlink : ∀ other, after.superGroup? other = groups.superGroup? other) :
    after.Hierarchical := by
  have hlinks : (fun id above => after.superGroup? id = some above) =
      fun id above => groups.superGroup? id = some above := by
    funext id above
    rw [hlink]
  intro other hother
  unfold Above at hother
  rw [hlinks] at hother
  exact h other hother

/-! ### Ways up -/

/-- How many groups a chain has. -/
def height (groups : Groups) (id : GroupId) : Nat := (groups.chain id).toFinset.card

/-- No height is more than the length of the chain. -/
theorem height_le_length (groups : Groups) (id : GroupId) :
    groups.height id ≤ (groups.chain id).length :=
  List.toFinset_card_le _

/-- A group is on its own chain. -/
theorem mem_chain_self (hid : (groups.find? id).isSome) : id ∈ groups.chain id :=
  mem_chain_of_reaches .refl hid

/-- Every group has a height. -/
theorem height_pos (hid : (groups.find? id).isSome) : 0 < groups.height id :=
  Finset.card_pos.mpr ⟨id, List.mem_toFinset.mpr (mem_chain_self hid)⟩

/-- The chain of a group above another one is shorter. -/
theorem Hierarchical.height_lt (h : groups.Hierarchical) (habove : groups.Above first second) :
    groups.height second < groups.height first := by
  have hfirst : (groups.find? first).isSome := by
    obtain ⟨above, hstep, -⟩ := Relation.TransGen.head'_iff.mp habove
    obtain ⟨group, hgroup, -⟩ := Option.bind_eq_some_iff.mp hstep
    rw [hgroup]
    rfl
  apply Finset.card_lt_card
  refine Finset.ssubset_iff_subset_ne.mpr ⟨fun other hother => ?_, fun heq => ?_⟩
  · have hmem := List.mem_toFinset.mp hother
    have hreaches := habove.reaches.trans (reaches_of_mem_chain hmem)
    exact List.mem_toFinset.mpr
      (mem_chain_of_reaches hreaches (find?_isSome_of_mem_chainFrom hmem))
  · have hmem : first ∈ (groups.chain second).toFinset :=
      heq ▸ List.mem_toFinset.mpr (mem_chain_self hfirst)
    have hreaches := reaches_of_mem_chain (List.mem_toFinset.mp hmem)
    exact h first (Relation.TransGen.trans_left habove hreaches)

/-! ### Inherited definitions -/

/-- The definition of a name that a group inherits: what is found from its super-group on, and the
group that has it. -/
def inherited? (groups : Groups) (id : GroupId) (name : String) : Option (Definition × GroupId) :=
  (groups.superGroup? id).bind fun above => groups.findTemplate above name

/-- What a group inherits belongs to a group of its chain above it. -/
theorem above_of_inherited? {name : String} {definition : Definition} {owner : GroupId}
    (h : groups.inherited? id name = some (definition, owner)) :
    groups.Above id owner ∧ owner ∈ groups.chain id ∧
      ∃ group, groups.find? owner = some group ∧ group.templates.get? name = some definition := by
  obtain ⟨start, hstart, hfound⟩ := Option.bind_eq_some_iff.mp h
  obtain ⟨hmem, group, hgroup, hget⟩ := findTemplate_eq_some hfound
  have habove := above_of_superGroup? hstart (reaches_of_mem_chain hmem)
  exact ⟨habove, mem_chain_of_reaches habove.reaches (by rw [hgroup]; rfl), group, hgroup, hget⟩

end Stencil.Groups
