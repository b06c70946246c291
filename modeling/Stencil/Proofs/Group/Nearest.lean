import Stencil.Proofs.Group.Reach

/-!
# The nearest definition of a name

A group that has a definition of a name sees that one. A group that has none sees what its
super-group sees. A look-up finds exactly this, however the groups are linked.
-/

namespace Stencil.Groups

/-- From a group on, the definition is the nearest one of a name: the group itself has it, or the
group has none and it is the nearest one from the super-group on. -/
inductive Nearest (groups : Groups) (name : String) : GroupId → Definition → Prop where
  | own {id : GroupId} {group : Group} {definition : Definition}
    (hgroup : groups.find? id = some group)
    (hget : group.templates.get? name = some definition) : Nearest groups name id definition
  | inherited {id above : GroupId} {group : Group} {definition : Definition}
    (hgroup : groups.find? id = some group) (hget : group.templates.get? name = none)
    (habove : group.superGroup = some above) (h : Nearest groups name above definition) :
    Nearest groups name id definition

variable {groups : Groups} {name : String} {start : GroupId} {definition other : Definition}

/-- There is at most one nearest definition. -/
theorem Nearest.unique (h : groups.Nearest name start definition)
    (h' : groups.Nearest name start other) : definition = other := by
  induction h with
  | own hgroup hget =>
    cases h' with
    | own hgroup' hget' =>
      cases hgroup.symm.trans hgroup'
      exact Option.some.inj (hget.symm.trans hget')
    | inherited hgroup' hget' =>
      cases hgroup.symm.trans hgroup'
      cases hget.symm.trans hget'
  | inherited hgroup hget habove _ ih =>
    cases h' with
    | own hgroup' hget' =>
      cases hgroup.symm.trans hgroup'
      cases hget.symm.trans hget'
    | inherited hgroup' _ habove' h' =>
      cases hgroup.symm.trans hgroup'
      cases habove.symm.trans habove'
      exact ih h'

/-- A group that links lead to has the nearest definition. -/
theorem Nearest.exists_group (h : groups.Nearest name start definition) :
    ∃ id group, groups.Reaches start id ∧ groups.find? id = some group ∧
      group.templates.get? name = some definition := by
  induction h with
  | own hgroup hget => exact ⟨_, _, .refl, hgroup, hget⟩
  | @inherited id above group _ hgroup _ habove _ ih =>
    obtain ⟨found, data, hreaches, hdata⟩ := ih
    have hstep : groups.superGroup? id = some above := by
      rw [superGroup?, hgroup, Option.bind_some, habove]
    exact ⟨found, data, .head hstep hreaches, hdata⟩

/-- What is found first among the groups that links lead to is the nearest definition. -/
theorem nearest_of_findTemplate {found : Definition × GroupId}
    (h : groups.findTemplate start name = some found) : groups.Nearest name start found.1 := by
  rw [findTemplate, chainGroups, chain] at h
  -- The induction is on how far the look-up goes, which is bounded by the number of groups.
  generalize groups.size = fuel at h
  induction fuel generalizing start with
  | zero => cases h
  | succ fuel ih =>
    rw [chainFrom] at h
    cases hgroup : groups.find? start with
    | none =>
      rw [hgroup] at h
      cases h
    | some group =>
      simp only [hgroup, List.filterMap_cons, Option.map_some, List.findSome?_cons] at h
      cases hget : group.templates.get? name with
      | some definition =>
        rw [hget] at h
        cases h
        exact .own hgroup hget
      | none =>
        rw [hget] at h
        cases habove : group.superGroup with
        | none =>
          rw [habove] at h
          cases h
        | some above =>
          rw [habove] at h
          exact .inherited hgroup hget habove (ih h)

/-- A look-up finds the nearest definition, and finds something if there is one. -/
theorem nearest_iff : groups.Nearest name start definition ↔
    (groups.findTemplate start name).map Prod.fst = some definition := by
  constructor
  · intro h
    cases hfind : groups.findTemplate start name with
    | some found => exact congrArg some ((nearest_of_findTemplate hfind).unique h)
    | none =>
      obtain ⟨id, group, hreaches, hgroup, hget⟩ := h.exists_group
      have hchain : id ∈ groups.chain start :=
        mem_chain_of_reaches hreaches (by rw [hgroup, Option.isSome_some])
      rw [findTemplate, List.findSome?_eq_none_iff] at hfind
      have hnone := Option.map_eq_none_iff.mp (hfind _ (mem_chainGroups.mpr ⟨hchain, hgroup⟩))
      cases hget.symm.trans hnone
  · intro h
    obtain ⟨found, hfind, rfl⟩ := Option.map_eq_some_iff.mp h
    exact nearest_of_findTemplate hfind

/-- A look-up finds nothing just if there is no nearest definition. -/
theorem findTemplate_eq_none_iff :
    groups.findTemplate start name = none ↔
      ∀ definition, ¬groups.Nearest name start definition := by
  simp [nearest_iff, Option.eq_none_iff_forall_ne_some]

end Stencil.Groups
