import Stencil.Value.Operator

/-!
# What values contribute to a list

Of a list that is put together, lists and iterators contribute their items and any other value
itself. An iterator has no items left when it has contributed, and neither have its copies.
-/

namespace Stencil

/-- Whether a value is the iterator of a cursor. -/
def Value.walks (value : Value) (cursor : CursorId) : Bool :=
  match value with
  | .iterator other => other = cursor
  | _ => false

/-- What a value contributes: the items of a list, those that an iterator has left, or the value
itself. -/
def Value.items (store : Store) : Value → List Value
  | .list items => items
  | .iterator cursor => store.remaining cursor
  | value => [value]

namespace Store

/-- The store after a value has contributed. -/
def absorb (store : Store) : Value → Store
  | .iterator cursor => store.setRemaining cursor []
  | _ => store

/-- A value contributes its items, and an iterator is used up. -/
theorem contribution_apply (value : Value) (store : Store) :
    value.contribution store = (value.items store, store.absorb value) := by
  cases value <;> rfl

/-- A cursor has left what it is set to, if that is the end of what it had. -/
theorem remaining_setRemaining_of_suffix (store : Store) (cursor : CursorId) {items : List Value}
    (h : items <:+ store.remaining cursor) :
    (store.setRemaining cursor items).remaining cursor = items := by
  by_cases hissued : cursor.index < store.cursors.size
  · exact remaining_setRemaining store items hissued
  · have hnone (other : Store) (hsize : other.cursors.size = store.cursors.size) :
        other.remaining cursor = [] := by
      rw [remaining, Array.getElem?_eq_none_iff.mpr (by omega), Option.getD_none]
    rw [hnone store rfl, List.suffix_nil] at h
    rw [h, hnone _ (Array.size_setIfInBounds ..)]

/-- Of an iterator that is used up nothing remains. -/
theorem remaining_drained (store : Store) (cursor : CursorId) :
    (store.setRemaining cursor []).remaining cursor = [] :=
  remaining_setRemaining_of_suffix store cursor List.nil_suffix

/-- A value that has contributed leaves its cursor empty, and what other cursors have left is not
touched. -/
theorem remaining_absorb (store : Store) (value : Value) (cursor : CursorId) :
    (store.absorb value).remaining cursor =
      if value.walks cursor then [] else store.remaining cursor := by
  cases value with
  | absent | scalar _ | list _ | mapping _ | template _ => rfl
  | iterator other =>
    by_cases hsame : other = cursor
    · subst hsame
      simp [absorb, Value.walks, remaining_drained]
    · simp [absorb, Value.walks, hsame, remaining_setRemaining_of_ne store [] (Ne.symm hsame)]

end Store

end Stencil
