import Stencil.Proofs.Group.Links

/-!
# The way up from a group

The way up leads from a group to its super-group, from there to the next one, and so on, until it
comes to a group without super-group. By itself it need not come to one. Where links lead to groups
only and no group is above itself, it does: then it meets no group twice, the chain of the group is
all of it, and a search along it has an answer.
-/

namespace Stencil.Groups

variable {groups : Groups} {start id : GroupId} {path : List GroupId}

/-- The way up from a group: all groups that are met, to the one without super-group. -/
inductive Ascent (groups : Groups) : GroupId → List GroupId → Prop where
  | top {start : GroupId} {group : Group} (hgroup : groups.find? start = some group)
    (htop : group.superGroup = none) : Ascent groups start [start]
  | up {start above : GroupId} {group : Group} {path : List GroupId}
    (hgroup : groups.find? start = some group) (habove : group.superGroup = some above)
    (h : Ascent groups above path) : Ascent groups start (start :: path)

/-- The search for a group on the way up from another one, with its answer. It stops as soon as it
meets the group, or else at the group without super-group. A search that never stops, or that comes
to a number that stands for no group, has no answer. -/
inductive Search (groups : Groups) (id : GroupId) : GroupId → Bool → Prop where
  | found : Search groups id id true
  | top {start : GroupId} {group : Group} (hne : start ≠ id)
    (hgroup : groups.find? start = some group) (htop : group.superGroup = none) :
    Search groups id start false
  | up {start above : GroupId} {group : Group} {found : Bool} (hne : start ≠ id)
    (hgroup : groups.find? start = some group) (habove : group.superGroup = some above)
    (h : Search groups id above found) : Search groups id start found

/-- Each link leads to a group. -/
def Linked (groups : Groups) : Prop :=
  ∀ id above, groups.superGroup? id = some above → (groups.find? above).isSome

/-- The super-group is found in the group. -/
theorem superGroup?_of_find? {group : Group} (hgroup : groups.find? id = some group) :
    groups.superGroup? id = group.superGroup := by
  rw [superGroup?, hgroup, Option.bind_some]

namespace Ascent

/-- Every group of an ascent is reached from its start. -/
theorem reaches (h : groups.Ascent start path) (hid : id ∈ path) : groups.Reaches start id := by
  induction h with
  | top => exact List.mem_singleton.mp hid ▸ .refl
  | up hgroup habove _ ih =>
    rcases List.mem_cons.mp hid with rfl | hid
    · exact .refl
    · exact .head ((superGroup?_of_find? hgroup).trans habove) (ih hid)

/-- Every group of an ascent is there. -/
theorem find?_isSome (h : groups.Ascent start path) (hid : id ∈ path) :
    (groups.find? id).isSome := by
  induction h with
  | top hgroup => rw [List.mem_singleton.mp hid, hgroup, Option.isSome_some]
  | up hgroup _ _ ih =>
    rcases List.mem_cons.mp hid with rfl | hid
    · rw [hgroup, Option.isSome_some]
    · exact ih hid

/-- Where no group is above itself, the way up meets no group twice. -/
theorem nodup (h : groups.Ascent start path) (hgroups : groups.Hierarchical) : path.Nodup := by
  induction h with
  | top => exact List.nodup_singleton _
  | @up start above _ _ hgroup habove hpath ih =>
    refine List.nodup_cons.mpr ⟨fun hmem => ?_, ih⟩
    have hstep := (superGroup?_of_find? hgroup).trans habove
    exact hgroups start (above_of_superGroup? hstep (hpath.reaches hmem))

/-- A way that meets no group twice is no longer than there are groups. -/
theorem length_le (h : groups.Ascent start path) (hnodup : path.Nodup) :
    path.length ≤ groups.size := by
  have hindex : (path.map GroupId.index).Nodup :=
    hnodup.map fun first second heq => by
      cases first
      cases second
      exact congrArg GroupId.mk heq
  have hsubset : (path.map GroupId.index).toFinset ⊆ Finset.range groups.size := by
    intro index hmem
    obtain ⟨id, hid, rfl⟩ := List.mem_map.mp (List.mem_toFinset.mp hmem)
    obtain ⟨group, hgroup⟩ := Option.isSome_iff_exists.mp (h.find?_isSome hid)
    exact Finset.mem_range.mpr (Array.getElem?_eq_some_iff.mp hgroup).1
  have hcard := Finset.card_le_card hsubset
  rwa [List.toFinset_card_of_nodup hindex, List.length_map, Finset.card_range] at hcard

/-- A chain that may be long enough goes all the way up. -/
theorem chainFrom_eq {fuel : Nat} (h : groups.Ascent start path) (hfuel : path.length ≤ fuel) :
    groups.chainFrom fuel start = path := by
  induction h generalizing fuel with
  | top hgroup htop =>
    obtain ⟨fuel, rfl⟩ := Nat.exists_eq_add_of_le' hfuel
    simp only [List.length_singleton, chainFrom, hgroup, htop]
  | up hgroup habove _ ih =>
    rw [List.length_cons] at hfuel
    obtain ⟨fuel, rfl⟩ : ∃ n, fuel = n + 1 := ⟨fuel - 1, by omega⟩
    simp only [chainFrom, hgroup, habove, ih (Nat.le_of_succ_le_succ hfuel)]

/-- A search along a way up finds what is on it. -/
theorem search (h : groups.Ascent start path) (id : GroupId) :
    groups.Search id start (decide (id ∈ path)) := by
  induction h with
  | @top start _ hgroup htop =>
    by_cases heq : start = id
    · subst heq
      simpa using Search.found
    · simpa [Ne.symm heq] using Search.top heq hgroup htop
  | @up start _ _ _ hgroup habove _ ih =>
    by_cases heq : start = id
    · subst heq
      simpa using Search.found
    · simpa [Ne.symm heq] using Search.up heq hgroup habove ih

end Ascent

/-- Where no group is above itself, the way up from a group ends. -/
theorem Hierarchical.exists_ascent (h : groups.Hierarchical) (hlinked : groups.Linked)
    (hstart : (groups.find? start).isSome) : ∃ path, groups.Ascent start path := by
  induction hheight : groups.height start using Nat.strongRecOn generalizing start with
  | ind height ih =>
    subst hheight
    obtain ⟨group, hgroup⟩ := Option.isSome_iff_exists.mp hstart
    cases habove : group.superGroup with
    | none => exact ⟨[start], .top hgroup habove⟩
    | some above =>
      have hstep := (superGroup?_of_find? hgroup).trans habove
      obtain ⟨path, hpath⟩ :=
        ih _ (h.height_lt (.single hstep)) (hlinked start above hstep) rfl
      exact ⟨start :: path, .up hgroup habove hpath⟩

/-- The chain of a group is all of the way up from it, and no group occurs twice in it. -/
theorem Hierarchical.ascent_chain (h : groups.Hierarchical) (hlinked : groups.Linked)
    (hstart : (groups.find? start).isSome) :
    groups.Ascent start (groups.chain start) ∧ (groups.chain start).Nodup := by
  obtain ⟨path, hpath⟩ := h.exists_ascent hlinked hstart
  have hnodup := hpath.nodup h
  have hchain : groups.chain start = path := hpath.chainFrom_eq (hpath.length_le hnodup)
  exact hchain ▸ ⟨hpath, hnodup⟩

end Stencil.Groups
