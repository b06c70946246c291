import Stencil.Value.Operator

/-!
# Laws of the list operators

A value that is no iterator counts as a list: a list as it is, a mapping as its names, any other
value as a list of one, and an absent value as an empty list. On these lists the operators do what
their names say. The first element and the rest make up the list, as do its front and the last
element; seen from the end they are each other. What has been stripped is not changed by being
stripped again.
-/

namespace Stencil

/-- A value as a list. What an iterator has left is not in the value, but in the store. -/
def Value.asList : Value → List Value
  | .list items => items
  | .mapping entries => entries.keyValues
  | .scalar single => [.scalar single]
  | .template id => [.template id]
  | .absent | .iterator _ => []

namespace Value

/-- A list that stands for nothing if it is empty has its elements back as a list. -/
@[simp] theorem asList_ofNonempty (items : List Value) : (ofNonempty items).asList = items := by
  cases items <;> rfl

/-! ### Stripping -/

/-- A value is absent after it is stripped if and only if it was before. -/
@[simp] theorem isAbsent_stripped (value : Value) : value.stripped.isAbsent = value.isAbsent := by
  cases value <;> rfl

/-- Absent elements are left out once. -/
@[simp] theorem present_present (items : List Value) : present (present items) = present items := by
  simp only [present, List.filter_filter, Bool.and_self]

/-- A value is stripped once. -/
@[simp] theorem stripped_stripped (value : Value) : value.stripped.stripped = value.stripped := by
  cases value with
  | list items => exact congrArg Value.list (present_present items)
  | absent | scalar _ | mapping _ | template _ | iterator _ => rfl

/-- Elements may be stripped before or after the absent ones are left out. -/
theorem present_map_stripped (items : List Value) :
    present (items.map stripped) = (present items).map stripped := by
  simp only [present, List.filter_map, Function.comp_def, isAbsent_stripped]

/-- As many elements are left as are not absent. -/
theorem length_present (items : List Value) :
    (present items).length = items.countP fun item => !item.isAbsent :=
  List.countP_eq_length_filter.symm

end Value

namespace Operator

open Value

/-- What an operator answers in a store. -/
def answer (operator : Operator) (store : Store) (value : Value) : Value :=
  (operator.apply value store).1

/-- The laws of the list operators, for one value in one store. -/
structure ListLaws (store : Store) (value : Value) : Prop where
  /-- Nothing is used up. -/
  unchanged : ∀ operator : Operator, (operator.apply value store).2 = store
  counted : length.answer store value = .count value.asList.length
  first_rest : value.asList ≠ [] →
    value.asList = first.answer store value :: (rest.answer store value).asList
  trunc_last : value.asList ≠ [] →
    value.asList = (trunc.answer store value).asList ++ [last.answer store value]
  of_empty : value.asList = [] → first.answer store value = .absent ∧
    rest.answer store value = .absent ∧ last.answer store value = .absent ∧
      trunc.answer store value = .absent
  reversed : (reverse.answer store value).asList = value.asList.reverse
  first_reverse : first.answer store (reverse.answer store value) = last.answer store value
  rest_reverse : rest.answer store (reverse.answer store value) =
    reverse.answer store (trunc.answer store value)
  strip_strip : strip.answer store (strip.answer store value) = strip.answer store value
  strip_reverse : strip.answer store (reverse.answer store value) =
    reverse.answer store (strip.answer store value)
  length_strip : length.answer store (strip.answer store value) =
    .count (value.asList.countP fun item => !item.isAbsent)

variable {store : Store}

/-- A list operator answers for a list what it makes of the elements. -/
@[simp] theorem answer_list (operator : Operator) (items : List Value) :
    operator.answer store (.list items) = operator.onElements items := by
  cases operator <;> rfl

/-! ### Collections -/

section

variable (items : List Value)

/-- A list is its first element and the rest. -/
theorem eq_first_rest (h : items ≠ []) :
    items = first.onElements items :: (rest.onElements items).asList := by
  obtain ⟨item, rest, rfl⟩ := List.exists_cons_of_ne_nil h
  exact congrArg (item :: ·) (asList_ofNonempty rest).symm

/-- A list is what is truncated and its last element. -/
theorem eq_trunc_last (h : items ≠ []) :
    items = (trunc.onElements items).asList ++ [last.onElements items] := by
  rcases List.eq_nil_or_concat items with rfl | ⟨front, item, rfl⟩
  · exact absurd rfl h
  · simp [onElements]

/-- The first element of a reversed list is the last one. -/
theorem first_onElements_reverse : first.onElements items.reverse = last.onElements items := by
  simp only [onElements, List.headD_eq_head?_getD, List.getLastD_eq_getLast?, List.head?_reverse]

/-- What is nothing stays nothing when it is reversed. -/
theorem reverse_ofNonempty :
    reverse.answer store (.ofNonempty items) = .ofNonempty items.reverse := by
  cases items with
  | nil => rfl
  | cons item rest =>
    have hne : (item :: rest).reverse.isEmpty = false := by simp
    rw [ofNonempty, ofNonempty, hne]
    rfl

/-- The rest of a reversed list is what is truncated, reversed. -/
theorem rest_onElements_reverse :
    rest.onElements items.reverse = reverse.answer store (trunc.onElements items) := by
  rw [onElements, onElements, reverse_ofNonempty, List.tail_reverse]

/-- Stripping twice is stripping. -/
theorem strip_onElements_strip :
    strip.answer store (strip.onElements items) = strip.onElements items := by
  rw [onElements, answer_list, onElements, present_map_stripped, present_present, List.map_map]
  simp only [Function.comp_def, stripped_stripped]

/-- A list may be stripped before or after it is reversed. -/
theorem strip_onElements_reverse : strip.onElements items.reverse =
    reverse.answer store (strip.onElements items) := by
  simp only [onElements, answer_list, present, List.filter_reverse, List.map_reverse]

/-- A stripped list has as many elements as were not absent. -/
theorem length_onElements_strip : length.answer store (strip.onElements items) =
    .count (items.countP fun item => !item.isAbsent) := by
  rw [onElements, answer_list, onElements, List.length_map, length_present]

end

/-- A collection obeys the laws. -/
theorem listLaws_of_elements {value : Value}
    (h : ∀ operator : Operator,
      operator.apply value store = (operator.onElements value.asList, store)) :
    ListLaws store value := by
  have hanswer (operator : Operator) :
      operator.answer store value = operator.onElements value.asList :=
    congrArg Prod.fst (h operator)
  refine
    { unchanged := fun operator => congrArg Prod.snd (h operator)
      counted := hanswer length
      first_rest := ?_
      trunc_last := ?_
      of_empty := fun hempty => ?_
      reversed := congrArg Value.asList (hanswer reverse)
      first_reverse := ?_
      rest_reverse := ?_
      strip_strip := ?_
      strip_reverse := ?_
      length_strip := ?_ }
  all_goals simp only [hanswer]
  · exact eq_first_rest _
  · exact eq_trunc_last _
  · rw [hempty]
    exact ⟨rfl, rfl, rfl, rfl⟩
  · exact (answer_list _ _).trans (first_onElements_reverse _)
  · exact (answer_list _ _).trans (rest_onElements_reverse _)
  · exact strip_onElements_strip _
  · exact (answer_list _ _).trans (strip_onElements_reverse _)
  · exact length_onElements_strip _

/-! ### Single values -/

/-- A value that is no collection obeys the laws. Most operators leave it as it is. -/
theorem listLaws_of_single {value : Value} (hlist : value.asList = [value])
    (hpresent : value.isAbsent = false)
    (h : ∀ operator : Operator, operator.apply value store = (operator.onSingle value, store)) :
    ListLaws store value := by
  have hanswer (operator : Operator) :
      operator.answer store value = operator.onSingle value := congrArg Prod.fst (h operator)
  have hfirst : first.answer store value = value := hanswer first
  have hlast : last.answer store value = value := hanswer last
  have hreverse : reverse.answer store value = value := hanswer reverse
  have hstrip : strip.answer store value = value := hanswer strip
  have hrest : rest.answer store value = .absent := hanswer rest
  have htrunc : trunc.answer store value = .absent := hanswer trunc
  have hlength : length.answer store value = .count 1 := by
    rw [hanswer, onSingle, hpresent]
    rfl
  refine
    { unchanged := fun operator => congrArg Prod.snd (h operator)
      counted := ?_
      first_rest := fun _ => ?_
      trunc_last := fun _ => ?_
      of_empty := fun hempty => ?_
      reversed := ?_
      first_reverse := ?_
      rest_reverse := ?_
      strip_strip := ?_
      strip_reverse := ?_
      length_strip := ?_ }
  · rw [hlength, hlist]
    rfl
  · rw [hfirst, hrest, hlist]
    rfl
  · rw [hlast, htrunc, hlist]
    rfl
  · rw [hlist] at hempty
    cases hempty
  · rw [hreverse, hlist]
    rfl
  · rw [hreverse, hfirst, hlast]
  · rw [hreverse, hrest, htrunc]
    rfl
  · rw [hstrip, hstrip]
  · rw [hreverse, hstrip, hreverse]
  · rw [hstrip, hlength, hlist]
    simp [hpresent]

/-- Nothing at all obeys the laws as an empty list does. -/
theorem listLaws_absent : ListLaws store .absent where
  unchanged operator := by cases operator <;> rfl
  counted := rfl
  first_rest h := absurd rfl h
  trunc_last h := absurd rfl h
  of_empty _ := ⟨rfl, rfl, rfl, rfl⟩
  reversed := rfl
  first_reverse := rfl
  rest_reverse := rfl
  strip_strip := rfl
  strip_reverse := rfl
  length_strip := rfl

/-- Every value that is no iterator obeys the laws of the list operators, in every store. -/
theorem listLaws_of_ne_iterator (store : Store) {value : Value}
    (h : ∀ cursor, value ≠ .iterator cursor) : ListLaws store value := by
  cases value with
  | list items => exact listLaws_of_elements fun operator => by cases operator <;> rfl
  | mapping entries => exact listLaws_of_elements fun operator => by cases operator <;> rfl
  | scalar single => exact listLaws_of_single rfl rfl fun operator => by cases operator <;> rfl
  | template id => exact listLaws_of_single rfl rfl fun operator => by cases operator <;> rfl
  | absent => exact listLaws_absent
  | iterator cursor => exact absurd rfl (h cursor)

/-- A list with nothing in it and in a list inside it. -/
theorem listLaws_nested :
    let nested : Value := .list [.list [.string "a", .absent], .absent, .string "b"]
    (∀ cursor, nested ≠ .iterator cursor) ∧ ListLaws {} nested ∧
      strip.answer {} nested = .list [.list [.string "a"], .string "b"] ∧
      length.answer {} (strip.answer {} nested) = .count 2 ∧
      rest.answer {} (reverse.answer {} nested) =
        .list [.absent, .list [.string "a", .absent]] :=
  ⟨nofun, listLaws_of_ne_iterator {} nofun, rfl, rfl, rfl⟩

end Operator

end Stencil
