import Stencil.Proofs.Render.Turns

/-!
# Elements one after the other

Of a collection the elements that are not absent are written, and where there is a null text the
absent ones are too. A separator stands between any two of them and nowhere else, whatever they
write.
-/

namespace Stencil

open Render

namespace Render

/-- One render after another one, with the sum of their counts. -/
def andThen (first second : Render Nat) : Render Nat := do
  let count ← first
  return count + (← second)

/-- Three renders with a sum of counts can be put together in either way. -/
theorem andThen_assoc (first second third : Render Nat) :
    andThen (andThen first second) third = andThen first (andThen second third) := by
  simp only [andThen, bind_assoc, pure_bind, Nat.add_assoc]

/-- Nothing may be written in front of a render. -/
theorem zero_andThen (action : Render Nat) : andThen (pure 0) action = action := by
  simp only [andThen, pure_bind, Nat.zero_add, bind_pure]

/-- Nothing may be written after a render. -/
theorem andThen_zero (action : Render Nat) : andThen action (pure 0) = action := by
  simp only [andThen, pure_bind, Nat.add_zero, bind_pure]

/-- Renders one after the other, with the sum of their counts. -/
def inTurn : List (Render Nat) → Render Nat
  | [] => return 0
  | action :: rest => andThen action (inTurn rest)

/-- A single render needs no sum. -/
theorem inTurn_singleton (action : Render Nat) : inTurn [action] = action := andThen_zero action

/-- Renders in turn can be divided in two. -/
theorem inTurn_append (actions more : List (Render Nat)) :
    inTurn (actions ++ more) = andThen (inTurn actions) (inTurn more) := by
  induction actions with
  | nil => exact (zero_andThen _).symm
  | cons action rest ih => rw [List.cons_append, inTurn, ih, inTurn, andThen_assoc]

/-- Separators stand between two parts as they stand inside them. -/
theorem intersperse_append {α : Type} (separator : α) {items more : List α} (hitems : items ≠ [])
    (hmore : more ≠ []) : (items ++ more).intersperse separator =
      items.intersperse separator ++ separator :: more.intersperse separator := by
  obtain ⟨first, rest, rfl⟩ := List.exists_cons_of_ne_nil hitems
  obtain ⟨next, later, rfl⟩ := List.exists_cons_of_ne_nil hmore
  induction rest generalizing first with
  | nil => simp
  | cons second rest ih =>
    have hcons := ih second (List.cons_ne_nil _ _)
    simp only [List.cons_append, List.intersperse_cons_cons] at hcons ⊢
    rw [hcons]

/-- Writes a separator, if there is one. -/
def separation (separator : Option String) : Render Nat :=
  match separator with
  | some text => writing (Writer.write text)
  | none => pure 0

/-- The separator of options is written, if they have one. -/
theorem writeSeparator_eq (options : WriteOptions) :
    writeSeparator options = separation options.separator := by
  unfold writeSeparator separation
  cases options.separator <;> rfl

/-- What comes after an element: nothing, or a separator and the other elements. -/
def further (options : WriteOptions) (next : List Value → Render Nat) : List Value → Render Nat
  | [] => return 0
  | item :: rest => andThen (separation options.separator) (next (item :: rest))

/-- Whether an element is written. -/
def survives (null : Option String) (item : Value) : Bool := !item.isAbsent || null.isSome

/-- What is written for an element. -/
def standIn (null : Option String) (item : Value) : Value :=
  if item.isAbsent then .string (null.getD "") else item

/-- The elements that are written are all but the absent ones, or all of them if there is a null
text. -/
theorem survivors_eq (null : Option String) (items : List Value) :
    survivors null items = (items.filter (survives null)).map (standIn null) := by
  induction items with
  | nil => rfl
  | cons item rest ih =>
    rw [survivors] at ih ⊢
    rw [List.filterMap_cons, ih]
    cases item with
    | absent => cases null <;> rfl
    | scalar _ | list _ | mapping _ | template _ | iterator _ => rfl

/-- What is written of two lists is what is written of each. -/
theorem survivors_append (null : Option String) (items more : List Value) :
    survivors null (items ++ more) = survivors null items ++ survivors null more :=
  List.filterMap_append

end Render

namespace Evaluator

variable (below : Evaluator) (scope : Scope) (options : WriteOptions)

/-- Writes values with separators between them. -/
def joined (items : List Value) : Render Nat :=
  inTurn ((items.map (below.value scope options)).intersperse
    (separation options.separator))

/-- A single value is written without separators. -/
theorem joined_singleton (item : Value) :
    below.joined scope options [item] = below.value scope options item :=
  inTurn_singleton _

/-- Between values and others there is a separator if there are others. -/
theorem joined_append {items : List Value} (hitems : items ≠ []) (more : List Value) :
    below.joined scope options (items ++ more) = andThen (below.joined scope options items)
      (further options (below.joined scope options) more) := by
  cases more with
  | nil => rw [List.append_nil, further, andThen_zero]
  | cons item rest =>
    rw [joined, List.map_append, intersperse_append _ (mt List.map_eq_nil_iff.mp hitems)
      (mt List.map_eq_nil_iff.mp (List.cons_ne_nil _ _)), inTurn_append]
    rfl

/-- After the first value come a separator and the others, if there are any. -/
theorem joined_cons (item : Value) (rest : List Value) :
    below.joined scope options (item :: rest) = andThen (below.value scope options item)
      (further options (below.joined scope options) rest) := by
  rw [← List.singleton_append, joined_append _ _ _ (List.cons_ne_nil _ _), joined_singleton]

/-- What is written after an element is a separator and the other elements. -/
theorem writeFurther_eq (items : List Value) :
    below.writeFurther scope options items =
      further options (below.joined scope options) items := by
  induction items with
  | nil => rfl
  | cons item rest ih =>
    rw [writeFurther, further, joined_cons, ih, writeSeparator_eq]
    simp only [andThen, bind_assoc, pure_bind, Nat.add_assoc]

/-- The elements that are written are written in their order, with a separator between any two of
them. -/
theorem writeElements_eq (items : List Value) :
    below.writeElements scope options items =
      below.joined scope options (survivors options.null items) := by
  rw [writeElements]
  rcases survivors options.null items with - | ⟨item, rest⟩
  · rfl
  · rw [joined_cons, ← writeFurther_eq]
    rfl

/-- What is no collection cannot be opened, and of a collection its elements are written. -/
theorem opening_cases (value : Value) :
    value.elements? = pure none ∨ ∃ action : StateM Store (List Value),
      value.elements? = some <$> action ∧ ∀ (below : Evaluator) scope options,
        below.writeValue scope options value = onStore action >>= fun items =>
          below.joined scope options (survivors options.null items) := by
  cases value with
  | absent | scalar _ | template _ => exact Or.inl rfl
  | list items =>
    exact Or.inr ⟨pure items, rfl, fun below scope options =>
      below.writeElements_eq scope options items⟩
  | mapping entries =>
    exact Or.inr ⟨pure entries.keyValues, rfl, fun below scope options =>
      below.writeElements_eq scope options entries.keyValues⟩
  | iterator cursor =>
    exact Or.inr ⟨Store.drain cursor, rfl, fun below scope options =>
      congrArg (onStore (Store.drain cursor) >>= ·)
        (funext fun items => below.writeElements_eq scope options items)⟩

/-- A collection is opened, and its elements are written. -/
theorem writeValue_of_elements {value : Value} {store : Store} {items : List Value}
    (h : value.elementsIn store = some items) (setting : Setting) {run : Run}
    (hrun : run.store = store) :
    below.writeValue scope options value setting run =
      below.joined scope options (survivors options.null items) setting
        { run with store := (value.elements? run.store).2 } := by
  subst hrun
  cases value with
  | absent | scalar _ | template _ => cases h
  | list items =>
    cases h
    exact congrFun (congrFun (below.writeElements_eq scope options items) setting) run
  | mapping entries =>
    cases h
    exact congrFun (congrFun (below.writeElements_eq scope options entries.keyValues) setting) run
  | iterator cursor =>
    cases h
    exact congrFun (congrFun (below.writeElements_eq scope options _) setting) _

end Evaluator

end Stencil
