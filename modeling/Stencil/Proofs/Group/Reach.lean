import Mathlib.Data.Fintype.Pigeonhole
import Mathlib.Logic.Relation
import Stencil.Proofs.Group.Chain

/-!
# Chains and super-groups

The chain of a group has exactly the groups that super-group links lead to. So a change to a group
outside the chain is not seen by any look-up along it.
-/

namespace Stencil.Groups

variable {groups : Groups} {first second start id : GroupId}

/-- The super-group of a group. -/
def superGroup? (groups : Groups) (id : GroupId) : Option GroupId :=
  (groups.find? id).bind Group.superGroup

/-- Super-group links lead from one group to another one, perhaps the same. -/
def Reaches (groups : Groups) : GroupId → GroupId → Prop :=
  Relation.ReflTransGen fun id above => groups.superGroup? id = some above

/-- Every group of a chain is reached from its start. -/
theorem reaches_of_mem_chainFrom {fuel : Nat} (h : id ∈ groups.chainFrom fuel start) :
    groups.Reaches start id := by
  induction fuel generalizing start with
  | zero => cases h
  | succ fuel ih =>
    rw [chainFrom] at h
    split at h
    · cases h
    · next group hgroup =>
      rcases List.mem_cons.mp h with rfl | h
      · exact .refl
      · split at h
        · cases h
        · next above habove =>
          exact .head (by rw [superGroup?, hgroup]; exact habove) (ih h)

/-- A chain has only groups that super-group links lead to. -/
theorem reaches_of_mem_chain (h : id ∈ groups.chain start) : groups.Reaches start id :=
  reaches_of_mem_chainFrom h

/-- The group that a number of super-group links leads to. -/
def climb (groups : Groups) : (steps : Nat) → GroupId → Option GroupId
  | 0, start => some start
  | steps + 1, start => (groups.superGroup? start).bind (groups.climb steps)

/-- A climb can be divided in two. -/
theorem climb_add (steps more : Nat) (start : GroupId) :
    groups.climb (steps + more) start = (groups.climb steps start).bind (groups.climb more) := by
  induction steps generalizing start with
  | zero => rw [Nat.zero_add, climb, Option.bind_some]
  | succ steps ih =>
    rw [Nat.succ_add, climb, climb, Option.bind_assoc]
    exact congrArg _ (funext fun above => ih above)

/-- What is reached is reached in some number of steps. -/
theorem climb_of_reaches (h : groups.Reaches start id) :
    ∃ steps, groups.climb steps start = some id := by
  induction h using Relation.ReflTransGen.head_induction_on with
  | refl => exact ⟨0, rfl⟩
  | head hstep _ ih =>
    obtain ⟨steps, hsteps⟩ := ih
    exact ⟨steps + 1, by rw [climb, hstep, Option.bind_some, hsteps]⟩

/-- A chain that is long enough has what is reached in so many steps. -/
theorem mem_chainFrom_of_climb {steps fuel : Nat} (hsteps : steps < fuel)
    (h : groups.climb steps start = some id) (hid : (groups.find? id).isSome) :
    id ∈ groups.chainFrom fuel start := by
  induction steps generalizing start fuel with
  | zero =>
    obtain ⟨fuel, rfl⟩ : ∃ n, fuel = n + 1 := ⟨fuel - 1, by omega⟩
    obtain rfl : start = id := Option.some.inj h
    obtain ⟨group, hgroup⟩ := Option.isSome_iff_exists.mp hid
    rw [chainFrom, hgroup]
    exact List.mem_cons_self
  | succ steps ih =>
    obtain ⟨fuel, rfl⟩ : ∃ n, fuel = n + 1 := ⟨fuel - 1, by omega⟩
    obtain ⟨above, habove, hclimb⟩ := Option.bind_eq_some_iff.mp h
    obtain ⟨group, hgroup, hsuper⟩ := Option.bind_eq_some_iff.mp habove
    simp only [chainFrom, hgroup, hsuper]
    exact List.mem_cons_of_mem _ (ih (by omega) hclimb)

/-- Along a climb that ends in a group there are only groups. -/
theorem exists_of_climb {steps : Nat} (h : groups.climb steps start = some id)
    (hid : (groups.find? id).isSome) (less : Nat) (hless : less ≤ steps) :
    ∃ between, groups.climb less start = some between ∧ between.index < groups.size := by
  obtain ⟨more, rfl⟩ := Nat.exists_eq_add_of_le hless
  rw [climb_add] at h
  obtain ⟨between, hbetween, hmore⟩ := Option.bind_eq_some_iff.mp h
  refine ⟨between, hbetween, ?_⟩
  have hexists : (groups.find? between).isSome := by
    cases more with
    | zero =>
      obtain rfl : between = id := Option.some.inj hmore
      exact hid
    | succ more =>
      obtain ⟨above, habove, -⟩ := Option.bind_eq_some_iff.mp hmore
      obtain ⟨group, hgroup, -⟩ := Option.bind_eq_some_iff.mp habove
      rw [hgroup]
      rfl
  obtain ⟨group, hgroup⟩ := Option.isSome_iff_exists.mp hexists
  exact (Array.getElem?_eq_some_iff.mp hgroup).1

/-- A climb that meets a group twice can leave out the links between. -/
theorem climb_shorter {steps first second : Nat} (h : groups.climb steps start = some id)
    (hle : second ≤ steps)
    (hmeet : groups.climb first start = groups.climb second start) :
    groups.climb (first + (steps - second)) start = some id := by
  rw [climb_add, hmeet, ← climb_add, Nat.add_sub_cancel' hle, h]

/-- A group that super-group links lead to is led to by fewer links than there are groups, since
the shortest climb meets no group twice. -/
theorem exists_climb_lt (h : groups.Reaches start id) (hid : (groups.find? id).isSome) :
    ∃ steps < groups.size, groups.climb steps start = some id := by
  classical
  have hsome := climb_of_reaches h
  have hshortest := Nat.find_spec hsome
  refine ⟨Nat.find hsome, ?_, hshortest⟩
  by_contra hlong
  have hbetween (less : Fin (groups.size + 1)) :=
    exists_of_climb hshortest hid less (by omega)
  choose between hclimb hexists using hbetween
  obtain ⟨first, second, hne, hsame⟩ := Fintype.exists_ne_map_eq_of_card_lt
    (fun less => (⟨(between less).index, hexists less⟩ : Fin groups.size)) (by simp)
  have hmeet : groups.climb first start = groups.climb second start := by
    rw [hclimb, hclimb]
    exact congrArg (fun index => some (GroupId.mk index)) (Fin.mk.inj hsame)
  rcases Nat.lt_or_gt_of_ne (Fin.val_ne_of_ne hne) with hlt | hlt
  · exact Nat.find_min hsome (by omega) (climb_shorter hshortest (by omega) hmeet)
  · exact Nat.find_min hsome (by omega) (climb_shorter hshortest (by omega) hmeet.symm)

/-- A chain has all groups that super-group links lead to. -/
theorem mem_chain_of_reaches (h : groups.Reaches start id) (hid : (groups.find? id).isSome) :
    id ∈ groups.chain start := by
  obtain ⟨steps, hsteps, hclimb⟩ := exists_climb_lt h hid
  exact mem_chainFrom_of_climb hsteps hclimb hid

/-- Two engines' groups differ only in what one group has, not in how groups are linked. -/
structure AlikeExcept (id : GroupId) (first second : Groups) : Prop where
  size : second.size = first.size
  other : ∀ other, other ≠ id → second.find? other = first.find? other
  superGroup : ∀ other, second.superGroup? other = first.superGroup? other

namespace AlikeExcept

variable {id start : GroupId} {first second : Groups}

/-- Groups that are alike but for the templates of one are the same ones. -/
theorem find?_isSome (h : AlikeExcept id first second) (other : GroupId) :
    (second.find? other).isSome ↔ (first.find? other).isSome := by
  unfold find?
  rw [isSome_getElem?, isSome_getElem?, h.size]

/-- They have the same chains. -/
theorem chainFrom (h : AlikeExcept id first second) (fuel : Nat) (start : GroupId) :
    second.chainFrom fuel start = first.chainFrom fuel start := by
  induction fuel generalizing start with
  | zero => rfl
  | succ fuel ih =>
    have hsuper := h.superGroup start
    have hsome := h.find?_isSome start
    cases hfirst : first.find? start with
    | none =>
      have hsecond : second.find? start = none := by simpa [hfirst] using hsome
      rw [Groups.chainFrom, Groups.chainFrom, hfirst, hsecond]
    | some group =>
      obtain ⟨group', hsecond⟩ := Option.isSome_iff_exists.mp (hsome.mpr (by rw [hfirst]; rfl))
      simp only [superGroup?, hfirst, hsecond, Option.bind_some] at hsuper
      simp only [Groups.chainFrom, hfirst, hsecond, hsuper, ih]

/-- From a group that does not lead to the one that changes, the same groups are met. -/
theorem chainGroups (h : AlikeExcept id first second) (hstart : ¬ first.Reaches start id) :
    second.chainGroups start = first.chainGroups start := by
  have hchain : second.chain start = first.chain start := by
    rw [chain, chain, h.size, h.chainFrom]
  rw [Groups.chainGroups, Groups.chainGroups, hchain]
  apply List.filterMap_congr
  intro other hother
  have hne : other ≠ id := fun heq => hstart (heq ▸ reaches_of_mem_chain hother)
  rw [h.other other hne]

end AlikeExcept

end Stencil.Groups
