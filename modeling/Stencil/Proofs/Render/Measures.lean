import Mathlib.Data.Finset.Card
import Stencil.Proofs.Render.Evolution

/-!
# Measures of runs

Three numbers bound how deep evaluation can go: how many more instances can be put on the stack, how
many argument defaults of the scope have not been asked for, and how many cursors still have
something to deliver. None of them grows while a run evolves.
-/

namespace Stencil

/-- The cursors that still have something to deliver. -/
def Store.unfinished (store : Store) : Finset Nat :=
  {index ∈ Finset.range store.cursors.size | !(store.remaining ⟨index⟩).isEmpty}

/-- An iterator is unfinished if items of it remain. -/
theorem Store.mem_unfinished {store : Store} {index : Nat} :
    index ∈ store.unfinished ↔ store.remaining ⟨index⟩ ≠ [] := by
  simp only [unfinished, Finset.mem_filter, Finset.mem_range, Bool.not_eq_true',
    List.isEmpty_eq_false_iff, and_iff_right_iff_imp]
  intro hne
  by_contra hlt
  exact hne (by simp [remaining, Array.getElem?_eq_none (Nat.le_of_not_lt hlt)])

/-- No iterator becomes unfinished. -/
theorem Store.Evolves.unfinished_subset {before after : Store} (h : before.Evolves after) :
    after.unfinished ⊆ before.unfinished := by
  intro index hindex
  rw [Store.mem_unfinished] at hindex ⊢
  exact fun hempty => hindex (List.suffix_nil.mp (hempty ▸ h.remaining ⟨index⟩))

/-- A cursor that delivers everything is one that has something to deliver no longer. -/
theorem Store.card_unfinished_drain {store : Store} {cursor : CursorId}
    (h : store.remaining cursor ≠ []) :
    (store.drain cursor).2.unfinished.card < store.unfinished.card := by
  have hlt : cursor.index < store.cursors.size := by
    by_contra hlt
    exact h (by simp [remaining, Array.getElem?_eq_none (Nat.le_of_not_lt hlt)])
  refine Finset.card_lt_card ⟨(Store.Evolves.drain store cursor).unfinished_subset, fun hsub => ?_⟩
  have hmem := hsub (Store.mem_unfinished.mpr h)
  rw [Store.mem_unfinished] at hmem
  exact hmem (remaining_setRemaining store [] hlt)

namespace Run

/-- The formal arguments of an instance. -/
def arguments (run : Run) (id : InstanceId) : List (InstanceId × String) :=
  match run.instances[id.index]? with
  | some data => data.definition.parameterNames.map fun name => (id, name)
  | none => []

/-- The formal arguments of some instances whose defaults have not been asked for. -/
def pending (run : Run) (frames : List InstanceId) : Finset (InstanceId × String) :=
  {key ∈ (frames.flatMap run.arguments).toFinset | (run.defaults.lookup key).isNone}

/-- The instances exist. -/
def Has (run : Run) (frames : List InstanceId) : Prop :=
  ∀ id ∈ frames, id.index < run.instances.size

/-- A default is pending if no note was taken of it yet. -/
theorem mem_pending {run : Run} {frames : List InstanceId} {key : InstanceId × String} :
    key ∈ run.pending frames ↔
      (∃ id ∈ frames, key ∈ run.arguments id) ∧ run.defaults.lookup key = none := by
  simp only [pending, Finset.mem_filter, List.mem_toFinset, List.mem_flatMap,
    Option.isNone_iff_eq_none]

variable {callers : Nat} {before after : Run} {frames : List InstanceId}

/-- The frames of a scope are never taken away. -/
theorem Evolves.has (h : before.Evolves callers after) (hframes : before.Has frames) :
    after.Has frames :=
  fun id hid => Nat.lt_of_lt_of_le (hframes id hid) h.size

/-- The formal arguments of an instance stay the same. -/
theorem Evolves.arguments (h : before.Evolves callers after) {id : InstanceId}
    (hid : id.index < before.instances.size) : after.arguments id = before.arguments id := by
  obtain ⟨changed, hchanged, halike⟩ := h.instances id.index _ (Array.getElem?_eq_getElem hid)
  simp only [Run.arguments, hchanged, Array.getElem?_eq_getElem hid, halike.definition]

/-- No default becomes pending. -/
theorem Evolves.pending_subset (h : before.Evolves callers after) (hframes : before.Has frames) :
    after.pending frames ⊆ before.pending frames := by
  intro key hkey
  obtain ⟨⟨id, hid, harguments⟩, hlookup⟩ := mem_pending.mp hkey
  refine mem_pending.mpr ⟨⟨id, hid, h.arguments (hframes id hid) ▸ harguments⟩, ?_⟩
  obtain ⟨more, hmore⟩ := h.defaults
  rw [← hmore, List.lookup_append] at hlookup
  exact (Option.or_eq_none_iff.mp hlookup).2

/-- An argument default that is asked for is one that has not been asked for no longer. -/
theorem card_pending_noteDefault {run : Run} {id : InstanceId} {outer : List InstanceId}
    {data : Instance} {name : String} (hframes : id :: outer <:+ frames)
    (hdata : run.instances[id.index]? = some data) (hname : name ∈ data.definition.parameterNames)
    (hlookup : run.defaults.lookup (id, name) = none) (value : Value) :
    (Run.pending { run with defaults := ((id, name), value) :: run.defaults } (id :: outer)).card <
      (run.pending frames).card := by
  refine Finset.card_lt_card ⟨fun key hkey => ?_, fun hsub => ?_⟩
  · obtain ⟨⟨other, hother, harguments⟩, hnone⟩ := mem_pending.mp hkey
    refine mem_pending.mpr ⟨⟨other, hframes.subset hother, harguments⟩, ?_⟩
    rw [List.lookup_cons] at hnone
    split at hnone
    · cases hnone
    · exact hnone
  · have hmem : (id, name) ∈ run.pending frames := by
      refine mem_pending.mpr ⟨⟨id, hframes.subset List.mem_cons_self, ?_⟩, hlookup⟩
      simp only [Run.arguments, hdata]
      exact List.mem_map_of_mem hname
    have hknown := (mem_pending.mp (hsub hmem)).2
    simp at hknown

end Run

end Stencil
