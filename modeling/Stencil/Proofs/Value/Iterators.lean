import Stencil.Proofs.Value.Contributions
import Stencil.Proofs.Value.Operators

/-!
# Iterators as lists that are used up

Copies of an iterator share a cursor, and several iterators may be used in turn. Whatever is done
with them, in whatever order: each of them answers as the list of what it has left, and what it has
handed out, followed by what it has left, is what it had at the beginning. Only to ask whether an
iterator has something left, or counts as true, leaves it as it is.
-/

namespace Stencil.Iterator

/-- What may be done with an iterator. -/
inductive Use where
  | apply (operator : Operator)
  | next
  | drain
  | hasNext
  | truthy

/-- What an iterator may answer. -/
inductive Reply where
  | value (value : Value)
  | item (item : Option Value)
  | items (items : List Value)
  | truth (truth : Bool)

namespace Use

/-- Does something with an iterator. -/
def perform (cursor : CursorId) : Use → StateM Store Reply
  | .apply operator => Reply.value <$> operator.apply (.iterator cursor)
  | .next => Reply.item <$> Store.next cursor
  | .drain => Reply.items <$> Store.drain cursor
  | .hasNext => fun store => (.truth (store.hasNext cursor), store)
  | .truthy => fun store => (.truth (store.truthy (.iterator cursor)), store)

/-- Has a cursor hand out what is needed for a use: the next item, all items, or none. -/
def handOut (cursor : CursorId) : Use → StateM Store (List Value)
  | .apply .first | .next => Option.toList <$> Store.next cursor
  | .apply _ | .drain => Store.drain cursor
  | .hasNext | .truthy => pure []

/-- What a list answers in place of an iterator, and what is left of it. -/
def onList (items : List Value) : Use → Reply × List Value
  | .apply operator => (.value (operator.answer {} (.list items)),
      if operator = .first then items.tail else [])
  | .next => (.item items.head?, items.tail)
  | .drain => (.items items, [])
  | .hasNext | .truthy => (.truth (!items.isEmpty), items)

end Use

/-! ### One use -/

variable (store : Store) (cursor : CursorId)

/-- An iterator answers an operator as the list of what it has left does. -/
theorem apply_iterator (operator : Operator) :
    operator.apply (.iterator cursor) store =
      (operator.answer store (.list (store.remaining cursor)), store.setRemaining cursor
        (if operator = .first then (store.remaining cursor).tail else [])) := by
  cases operator with
  | first =>
    rw [Operator.answer_list, Operator.onElements, List.headD_eq_head?_getD]
    rfl
  | rest | last | length | strip | trunc | reverse => rfl

namespace Use

variable (use : Use)

/-- What is done with an iterator has no other effect than that items are handed out. -/
theorem perform_snd : (use.perform cursor store).2 = (use.handOut cursor store).2 := by
  cases use with
  | apply operator => cases operator <;> rfl
  | next | drain | hasNext | truthy => rfl

/-- The answer to a use depends on the items that remain. -/
theorem perform_fst :
    (use.perform cursor store).1 = (use.onList (store.remaining cursor)).1 := by
  cases use with
  | apply operator =>
    have happly := congrArg Prod.fst (apply_iterator store cursor operator)
    rw [Operator.answer_list] at happly
    exact congrArg Reply.value (happly.trans (Operator.answer_list _ _).symm)
  | next | drain | hasNext | truthy => rfl

/-- What remains after a use is what the use leaves of these items. -/
theorem remaining_perform :
    (use.perform cursor store).2.remaining cursor = (use.onList (store.remaining cursor)).2 := by
  have hset {items : List Value} (h : items <:+ store.remaining cursor) :=
    store.remaining_setRemaining_of_suffix cursor h
  cases use with
  | apply operator =>
    change (operator.apply (.iterator cursor) store).2.remaining cursor = _
    rw [apply_iterator]
    refine hset ?_
    split
    · exact List.tail_suffix _
    · exact List.nil_suffix
  | next => exact hset (List.tail_suffix _)
  | drain => exact hset List.nil_suffix
  | hasNext | truthy => rfl

/-- What is handed out is what comes first of what was left. -/
theorem handOut_append_remaining : (use.handOut cursor store).1 ++
    (use.perform cursor store).2.remaining cursor = store.remaining cursor := by
  have hnext (items : List Value) : items.head?.toList ++ items.tail = items := by
    cases items <;> rfl
  rw [remaining_perform]
  cases use with
  | apply operator =>
    cases operator with
    | first => exact hnext _
    | rest | last | length | strip | trunc | reverse => exact List.append_nil _
  | next => exact hnext _
  | drain => exact List.append_nil _
  | hasNext | truthy => rfl

/-- A use leaves other iterators alone. -/
theorem remaining_perform_of_ne {other : CursorId} (h : other ≠ cursor) :
    (use.perform cursor store).2.remaining other = store.remaining other := by
  have hset {items : List Value} := store.remaining_setRemaining_of_ne items h
  cases use with
  | apply operator => cases operator <;> exact hset
  | next | drain => exact hset
  | hasNext | truthy => rfl

end Use

/-! ### One use after the other -/

/-- A use of an iterator. -/
structure Entry where
  cursor : CursorId
  reply : Reply
  /-- What the cursor handed out. -/
  items : List Value

/-- Uses iterators one after the other. -/
def journal : List (CursorId × Use) → Store → List Entry × Store
  | [], store => ([], store)
  | (cursor, use) :: rest, store =>
    let (reply, after) := use.perform cursor store
    let (entries, last) := journal rest after
    (⟨cursor, reply, (use.handOut cursor store).1⟩ :: entries, last)

/-- What a list answers in place of an iterator to some uses one after the other, and what is left
of it. -/
def answers : List Use → List Value → List Reply × List Value
  | [], items => ([], items)
  | use :: rest, items =>
    let (reply, left) := use.onList items
    let (replies, last) := answers rest left
    (reply :: replies, last)

/-- The entries for the iterator of a cursor. -/
def entriesOf (cursor : CursorId) (entries : List Entry) : List Entry :=
  entries.filter fun entry => entry.cursor = cursor

/-- What is done with the iterator of a cursor. -/
def usesOf (cursor : CursorId) (uses : List (CursorId × Use)) : List Use :=
  (uses.filter fun (other, _) => other = cursor).map Prod.snd

/-- Iterators that are used, some of them perhaps in turn, are used up as lists are. -/
structure UsedUp (store : Store) (uses : List (CursorId × Use)) (cursor : CursorId) : Prop where
  replies : (entriesOf cursor (journal uses store).1).map Entry.reply =
    (answers (usesOf cursor uses) (store.remaining cursor)).1
  remaining : (journal uses store).2.remaining cursor =
    (answers (usesOf cursor uses) (store.remaining cursor)).2
  /-- What was handed out and what is left is what there was, in its order. -/
  conserved : (entriesOf cursor (journal uses store).1).flatMap Entry.items ++
    (journal uses store).2.remaining cursor = store.remaining cursor

variable {store cursor}

/-- The first use is put down in front of the others. -/
theorem journal_cons (use : Use) (rest : List (CursorId × Use)) :
    journal ((cursor, use) :: rest) store =
      (⟨cursor, (use.perform cursor store).1, (use.handOut cursor store).1⟩ ::
        (journal rest (use.perform cursor store).2).1,
        (journal rest (use.perform cursor store).2).2) := rfl

/-- The first answer is in front of the others. -/
theorem answers_cons (use : Use) (rest : List Use) (items : List Value) :
    answers (use :: rest) items =
      ((use.onList items).1 :: (answers rest (use.onList items).2).1,
        (answers rest (use.onList items).2).2) := rfl

/-- One more use of an iterator that is used up. -/
theorem UsedUp.cons {use : Use} {rest : List (CursorId × Use)}
    (h : UsedUp (use.perform cursor store).2 rest cursor) :
    UsedUp store ((cursor, use) :: rest) cursor := by
  have huses : usesOf cursor ((cursor, use) :: rest) = use :: usesOf cursor rest := by
    simp [usesOf]
  have hentries (entry : Entry) (hentry : entry.cursor = cursor) (entries : List Entry) :
      entriesOf cursor (entry :: entries) = entry :: entriesOf cursor entries := by
    simp [entriesOf, hentry]
  obtain ⟨hreplies, hremaining, hconserved⟩ := h
  rw [use.remaining_perform] at hreplies hremaining
  refine ⟨?_, ?_, ?_⟩
  · rw [journal_cons, hentries _ rfl, huses, answers_cons, List.map_cons, hreplies,
      use.perform_fst]
  · rw [journal_cons, huses, answers_cons, hremaining]
  · rw [journal_cons, hentries _ rfl, List.flatMap_cons, List.append_assoc, hconserved]
    exact use.handOut_append_remaining store cursor

/-- An iterator is not touched when others are used. -/
theorem UsedUp.cons_of_ne {other : CursorId} {use : Use} {rest : List (CursorId × Use)}
    (hne : other ≠ cursor) (h : UsedUp (use.perform other store).2 rest cursor) :
    UsedUp store ((other, use) :: rest) cursor := by
  have huses : usesOf cursor ((other, use) :: rest) = usesOf cursor rest := by
    simp [usesOf, hne]
  have hentries (entry : Entry) (hentry : entry.cursor = other) (entries : List Entry) :
      entriesOf cursor (entry :: entries) = entriesOf cursor entries := by
    simp [entriesOf, hentry, hne]
  have hsame := use.remaining_perform_of_ne store other hne.symm
  obtain ⟨hreplies, hremaining, hconserved⟩ := h
  rw [hsame] at hreplies hremaining hconserved
  refine ⟨?_, ?_, ?_⟩
  · rw [journal_cons, hentries _ rfl, huses, hreplies]
  · rw [journal_cons, huses, hremaining]
  · rw [journal_cons, hentries _ rfl, hconserved]

/-- After a drain nothing is handed out any more. -/
theorem usedUp (store : Store) (uses : List (CursorId × Use)) (cursor : CursorId) :
    UsedUp store uses cursor := by
  induction uses generalizing store with
  | nil => exact ⟨rfl, rfl, rfl⟩
  | cons entry rest ih =>
    obtain ⟨other, use⟩ := entry
    by_cases hother : other = cursor
    · subst hother
      exact (ih _).cons
    · exact (ih _).cons_of_ne hother

/-- An iterator is a list that is used up. -/
structure Iterates (store : Store) (cursor : CursorId) : Prop where
  answers : ∀ operator : Operator, operator.answer store (.iterator cursor) =
    operator.answer store (.list (store.remaining cursor))
  leaves : ∀ operator : Operator, (operator.apply (.iterator cursor) store).2.remaining cursor =
    if operator = .first then (store.remaining cursor).tail else []
  /-- What an operator answers depends on nothing but what is handed out to it. -/
  handsOut : ∀ operator : Operator, operator.answer store (.iterator cursor) =
    operator.answer store (.list ((Use.apply operator).handOut cursor store).1)
  /-- Whatever is done with it, nothing else happens than that items are handed out. -/
  effect : ∀ use : Use, (use.perform cursor store).2 = (use.handOut cursor store).2
  /-- It does not matter what is done with other iterators in between, nor by which of its copies
  it is used. -/
  usedUp : ∀ uses, UsedUp store uses cursor

/-- In every store each iterator is a list that is used up. -/
theorem iterates (store : Store) (cursor : CursorId) : Iterates store cursor where
  answers operator := by rw [Operator.answer, apply_iterator]
  leaves operator := (Use.apply operator).remaining_perform store cursor
  handsOut operator := by
    cases operator with
    | first =>
      rw [Operator.answer, apply_iterator, Operator.answer_list, Operator.answer_list]
      change (store.remaining cursor).headD .absent =
        (store.remaining cursor).head?.toList.headD .absent
      cases store.remaining cursor <;> rfl
    | rest | last | length | strip | trunc | reverse => rfl
  effect use := use.perform_snd store cursor
  usedUp uses := usedUp store uses cursor

/-- The first item is taken by a copy; then another copy is asked twice how many items there are. -/
example :
    let store : Store := { cursors := #[[.string "a", .string "b", .string "c"]] }
    let uses : List (CursorId × Use) :=
      [(⟨0⟩, .hasNext), (⟨0⟩, .apply .first), (⟨0⟩, .apply .length), (⟨0⟩, .apply .length)]
    (journal uses store).1.map Entry.reply =
      [.truth true, .value (.string "a"), .value (.count 2), .value (.count 0)] := rfl

end Stencil.Iterator
