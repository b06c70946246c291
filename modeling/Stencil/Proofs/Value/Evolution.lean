import Stencil.Value.Store

/-!
# How a store evolves

While values are walked over and shown, the store that they share changes in few ways: cursors
deliver items, objects with a tally are counted, and inline templates are met for the first time.
-/

namespace Stencil.Store

/-- The owner of an inline template is the one it has, or else the one it is met in. -/
theorem inlineOwner_fst (label : Nat) (owner : String) (store : Store) :
    (store.inlineOwner label owner).1 = (store.owners.lookup label).getD owner := by
  unfold Store.inlineOwner
  cases store.owners.lookup label <;> rfl

/-- Meeting an inline template changes nothing but owners. -/
theorem inlineOwner_snd (label : Nat) (owner : String) (store : Store) :
    (store.inlineOwner label owner).2 =
      { store with owners := (store.inlineOwner label owner).2.owners } := by
  unfold Store.inlineOwner
  cases store.owners.lookup label <;> rfl

/-- Meeting an inline template changes the owners of no other one. -/
theorem lookup_inlineOwner_of_ne (label : Nat) (owner : String) (store : Store) {other : Nat}
    (hother : other ≠ label) :
    (store.inlineOwner label owner).2.owners.lookup other = store.owners.lookup other := by
  unfold Store.inlineOwner
  split
  · rfl
  · rw [List.lookup_cons, beq_eq_false_iff_ne.mpr hother]

/-- An inline template has the owner that it was given when it was met first. -/
theorem lookup_inlineOwner (label : Nat) (owner : String) (store : Store) :
    (store.inlineOwner label owner).2.owners.lookup label =
      some (store.inlineOwner label owner).1 := by
  unfold Store.inlineOwner
  split
  · next first hfirst => exact hfirst
  · simp

/-- How a store may change. -/
structure Evolves (before after : Store) : Prop where
  cursors : after.cursors.size = before.cursors.size
  /-- What a cursor still has to deliver is the end of what it had. -/
  remaining : ∀ cursor, after.remaining cursor <:+ before.remaining cursor
  objects : after.objects.size = before.objects.size
  fixed : ∀ id object text, before.object? id = some object → object.face = .fixed text →
    after.object? id = some object
  kept : ∀ id, (after.object? id).map (fun object => (object.typeName, object.properties)) =
    (before.object? id).map fun object => (object.typeName, object.properties)
  owners : ∀ label owner, before.owners.lookup label = some owner →
    after.owners.lookup label = some owner

namespace Evolves

/-- A store evolves if nothing is done to it. -/
theorem refl (store : Store) : store.Evolves store :=
  ⟨rfl, fun _ => List.suffix_rfl, rfl, fun _ _ _ h _ => h, fun _ => rfl, fun _ _ h => h⟩

/-- A store that evolves twice evolves. -/
theorem trans {first second third : Store} (h : first.Evolves second)
    (h' : second.Evolves third) : first.Evolves third where
  cursors := h'.cursors.trans h.cursors
  remaining cursor := (h'.remaining cursor).trans (h.remaining cursor)
  objects := h'.objects.trans h.objects
  fixed id object text hobject hface :=
    h'.fixed id object text (h.fixed id object text hobject hface) hface
  kept id := (h'.kept id).trans (h.kept id)
  owners label owner howner := h'.owners label owner (h.owners label owner howner)

/-- A cursor may be left with the end of what it has. -/
theorem setRemaining (store : Store) (cursor : CursorId) {items : List Value}
    (h : items <:+ store.remaining cursor) : store.Evolves (store.setRemaining cursor items) where
  cursors := by simp [Store.setRemaining]
  remaining other := by
    by_cases hlt : cursor.index < store.cursors.size
    · by_cases hother : other = cursor
      · rw [hother, remaining_setRemaining store items hlt]
        exact h
      · simp only [remaining_setRemaining_of_ne store items hother, List.suffix_rfl]
    · have hsame : store.setRemaining cursor items = store := by
        rw [Store.setRemaining, Array.setIfInBounds_eq_of_size_le (Nat.le_of_not_lt hlt)]
      simp only [hsame, List.suffix_rfl]
  objects := rfl
  fixed _ _ _ hobject _ := hobject
  kept _ := rfl
  owners _ _ howner := howner

/-- To take an item is such a step. -/
theorem next (store : Store) (cursor : CursorId) : store.Evolves (store.next cursor).2 :=
  setRemaining store cursor (List.tail_suffix _)

/-- So is to take all that remain. -/
theorem drain (store : Store) (cursor : CursorId) : store.Evolves (store.drain cursor).2 :=
  setRemaining store cursor List.nil_suffix

/-- Showing a scalar, however often, is one of the ways to change. -/
theorem ofTallied {scalar : Scalar} {before after : Store} (h : before.Tallied scalar after) :
    before.Evolves after where
  cursors := congrArg Array.size h.cursors
  remaining cursor := by
    simp only [Store.remaining, h.cursors, List.suffix_rfl]
  objects := h.size
  fixed := h.fixed
  kept := h.kept
  owners label owner howner := by rwa [h.owners]

/-- So is to find out whom the regions of an inline template belong to. -/
theorem inlineOwner (label : Nat) (owner : String) (store : Store) :
    store.Evolves (store.inlineOwner label owner).2 := by
  have howners (other : Nat) (found : String) (hfound : store.owners.lookup other = some found) :
      (store.inlineOwner label owner).2.owners.lookup other = some found := by
    by_cases hother : other = label
    · rw [hother] at hfound
      rw [hother, lookup_inlineOwner, inlineOwner_fst, hfound, Option.getD_some]
    · rw [lookup_inlineOwner_of_ne _ _ _ hother, hfound]
  rw [inlineOwner_snd]
  exact { refl store with owners := howners }

end Evolves

end Stencil.Store
