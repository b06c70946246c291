import Stencil.Proofs.Value.Handles
import Stencil.Render.Eval

/-!
# Renaming instances

The instances inside a value may be given other numbers, everywhere at once. What is made of values
is then made of the renamed values, with the result renamed, since nothing looks at a number but to
find the instance. A store is renamed in its cursors. What objects are is known to the renderers of
the caller, so they have to be such that renaming makes no difference.
-/

namespace Stencil

variable {α β : Type}

/-- A table with other values under the same names. -/
def Table.map (change : α → β) (table : Table α) : Table β :=
  ⟨table.entries.map fun (name, value) => (name, change value)⟩

/-- A fallback with another value. -/
def Fallback.map (change : α → β) : Fallback α → Fallback β
  | .key => .key
  | .value held => .value (change held)

/-- A mapping with other values under the same names. -/
def Mapping.map (change : α → β) (mapping : Mapping α) : Mapping β :=
  { entries := mapping.entries.map change, fallback := mapping.fallback.map (Fallback.map change) }

namespace Value

variable (change : InstanceId → InstanceId)

mutual

/-- A value with other numbers for the instances inside it. -/
def rename : Value → Value
  | .absent => .absent
  | .scalar inner => .scalar inner
  | .list items => .list (renameAll items)
  | .mapping ⟨⟨entries⟩, fallback⟩ => .mapping ⟨⟨renameEntries entries⟩, renameFallback fallback⟩
  | .template id => .template (change id)
  | .iterator cursor => .iterator cursor

/-- The values of a list, renamed. -/
def renameAll : List Value → List Value
  | [] => []
  | item :: rest => item.rename :: renameAll rest

/-- The entries of a table, renamed. -/
def renameEntries : List (String × Value) → List (String × Value)
  | [] => []
  | (name, value) :: rest => (name, value.rename) :: renameEntries rest

/-- A fallback, renamed. -/
def renameFallback : Option (Fallback Value) → Option (Fallback Value)
  | none => none
  | some .key => some .key
  | some (.value value) => some (.value value.rename)

end

/-- The values of a list are renamed one by one. -/
theorem renameAll_eq (items : List Value) : renameAll change items = items.map (rename change) := by
  induction items with
  | nil => rfl
  | cons item rest ih => rw [renameAll, ih, List.map_cons]

/-- So are the values of the entries of a table, under the same names. -/
theorem renameEntries_eq (entries : List (String × Value)) :
    renameEntries change entries =
      entries.map fun (name, value) => (name, value.rename change) := by
  induction entries with
  | nil => rfl
  | cons entry rest ih =>
    obtain ⟨name, value⟩ := entry
    rw [renameEntries, ih, List.map_cons]

/-- So is the value of a fallback. -/
theorem renameFallback_eq (fallback : Option (Fallback Value)) :
    renameFallback change fallback = fallback.map (Fallback.map (rename change)) := by
  rcases fallback with _ | _ | value <;> rfl

/-- Nothing has no instances inside. -/
@[simp] theorem rename_absent : rename change .absent = .absent := rfl

/-- A scalar has no instances inside. -/
@[simp] theorem rename_scalar (scalar : Scalar) :
    rename change (.scalar scalar) = .scalar scalar := rfl

/-- A text has no instances inside. -/
@[simp] theorem rename_string (text : String) : rename change (.string text) = .string text := rfl

/-- A number has no instances inside. -/
@[simp] theorem rename_count (number : Nat) : rename change (.count number) = .count number := rfl

/-- What an iterator hands out is renamed in the store and not in the iterator. -/
@[simp] theorem rename_iterator (cursor : CursorId) :
    rename change (.iterator cursor) = .iterator cursor := rfl

/-- A list is renamed in its elements. -/
@[simp] theorem rename_list (items : List Value) :
    rename change (.list items) = .list (items.map (rename change)) := by
  rw [rename, renameAll_eq]

/-- A mapping is renamed in its values. -/
@[simp] theorem rename_mapping (mapping : Mapping Value) :
    rename change (.mapping mapping) = .mapping (mapping.map (rename change)) := by
  rw [rename, renameEntries_eq, renameFallback_eq]
  rfl

/-- Renaming makes no difference to whether a value is absent. -/
@[simp] theorem isAbsent_rename (value : Value) :
    (value.rename change).isAbsent = value.isAbsent := by
  cases value <;> rfl

/-- Nor does it to whether a value is a sequence. -/
@[simp] theorem isSequence_rename (value : Value) :
    (value.rename change).isSequence = value.isSequence := by
  cases value <;> rfl

end Value

/-! ### Tables and mappings -/

namespace Table

variable (change : α → β) (table : Table α)

/-- Under a name stands what is made of the value that stood there. -/
@[simp] theorem get?_map (name : String) :
    (table.map change).get? name = (table.get? name).map change := by
  obtain ⟨entries⟩ := table
  rw [map, get?, get?]
  induction entries with
  | nil => rfl
  | cons entry rest ih =>
    obtain ⟨other, value⟩ := entry
    rw [List.map_cons, List.lookup_cons, List.lookup_cons]
    cases name == other <;> simp [ih]

/-- A table with other values has the same names. -/
@[simp] theorem contains_map (name : String) :
    (table.map change).contains name = table.contains name := by
  rw [contains, get?_map, Option.isSome_map, contains]

/-- The names keep their order. -/
@[simp] theorem keys_map : (table.map change).keys = table.keys := by
  simp [keys, map, Function.comp_def]

/-- The values are made of those that stood in their places. -/
@[simp] theorem values_map : (table.map change).values = table.values.map change := by
  simp [values, map, Function.comp_def]

/-- A table with other values is empty if and only if the first one is. -/
@[simp] theorem isEmpty_map : (table.map change).isEmpty = table.isEmpty := by
  simp [isEmpty, map]

/-- A value may be changed before or after it is inserted. -/
@[simp] theorem map_insert (name : String) (value : α) :
    (table.insert name value).map change = (table.map change).insert name (change value) := by
  obtain ⟨entries⟩ := table
  simp only [insert, map, mk.injEq]
  induction entries with
  | nil => rfl
  | cons entry rest ih =>
    obtain ⟨other, old⟩ := entry
    by_cases h : other = name
    · simp [insertEntry, h]
    · simp [insertEntry, h, ih]

/-- So may several values that are inserted one after the other. -/
theorem map_insertAll (pairs : List (String × α)) :
    (table.insertAll pairs).map change =
      (table.map change).insertAll (pairs.map fun (name, value) => (name, change value)) := by
  induction pairs generalizing table with
  | nil => rfl
  | cons pair rest ih =>
    simp only [insertAll, List.foldl_cons, List.map_cons] at ih ⊢
    rw [ih, map_insert]

/-- A table that holds only values which do not change does not change. -/
theorem map_eq_self {change : α → α} {table : Table α}
    (h : ∀ entry ∈ table.entries, change entry.2 = entry.2) : table.map change = table := by
  have hentries : (table.map change).entries = table.entries :=
    (List.map_congr_left (g := id) fun entry hentry =>
      congrArg (Prod.mk entry.1) (h entry hentry)).trans (List.map_id _)
  exact congrArg mk hentries

end Table

namespace Mapping

variable (change : InstanceId → InstanceId) (mapping : Mapping Value)

/-- The names of a mapping are texts, which are not renamed. -/
@[simp] theorem keyValues_map :
    (mapping.map (Value.rename change)).keyValues = mapping.keyValues := by
  rw [keyValues, map, Table.keys_map, keyValues]

/-- Renaming the names of a mapping does nothing. -/
theorem rename_keyValues : mapping.keyValues.map (Value.rename change) = mapping.keyValues := by
  simp [keyValues, Function.comp_def]

/-- A look-up in a renamed mapping comes to the renamed value, lists of names and values
included. -/
theorem lookup_map (name : String) :
    (mapping.map (Value.rename change)).lookup name = (mapping.lookup name).rename change := by
  rw [lookup, lookup, map, Table.get?_map]
  cases mapping.entries.get? name with
  | some value => rfl
  | none =>
    simp only [Option.map_none]
    by_cases hkeys : name = "keys"
    · have hnames := rename_keyValues change mapping
      have hmap := keyValues_map change mapping
      rw [if_pos hkeys, if_pos hkeys, Value.rename_list, hnames]
      exact congrArg Value.list hmap
    · rw [if_neg hkeys, if_neg hkeys]
      by_cases hvalues : name = "values"
      · rw [if_pos hvalues, if_pos hvalues, Value.rename_list, Table.values_map]
      · rw [if_neg hvalues, if_neg hvalues]
        rcases mapping.fallback with _ | _ | value <;> rfl

end Mapping

/-! ### Operators -/

namespace Value

variable (change : InstanceId → InstanceId)

/-- A list that stands for nothing if it is empty does so after renaming. -/
theorem rename_ofNonempty (items : List Value) :
    (ofNonempty items).rename change = ofNonempty (items.map (rename change)) := by
  cases items <;> simp [ofNonempty]

/-- The elements that are there are the same ones after renaming. -/
theorem rename_present (items : List Value) :
    (present items).map (rename change) = present (items.map (rename change)) := by
  induction items with
  | nil => rfl
  | cons item rest ih =>
    simp only [present] at ih ⊢
    cases hitem : item.isAbsent <;> simp [hitem, ih]

/-- A value may be stripped of absent elements before or after it is renamed. -/
theorem rename_stripped (value : Value) :
    value.stripped.rename change = (value.rename change).stripped := by
  cases value with
  | list items => simp only [stripped, rename_list, rename_present]
  | absent | scalar _ | template _ | iterator _ => rfl
  | mapping entries => simp only [stripped, rename_mapping]

/-- A list operator does to renamed elements what it does to the elements. -/
theorem rename_onElements (operator : Operator) (items : List Value) :
    (operator.onElements items).rename change =
      operator.onElements (items.map (rename change)) := by
  cases operator with
  | first => cases items <;> rfl
  | rest => simp only [Operator.onElements, rename_ofNonempty, List.map_tail]
  | last =>
    rcases List.eq_nil_or_concat items with rfl | ⟨front, item, rfl⟩
    · rfl
    · simp [Operator.onElements]
  | length => simp [Operator.onElements]
  | strip =>
    simp [Operator.onElements, ← rename_present, Function.comp_def, rename_stripped]
  | trunc => simp only [Operator.onElements, rename_ofNonempty, List.map_dropLast]
  | reverse => simp [Operator.onElements]

/-- A list operator does to a renamed single value what it does to the value. -/
theorem rename_onSingle (operator : Operator) (value : Value) :
    (operator.onSingle value).rename change = operator.onSingle (value.rename change) := by
  cases operator <;> simp [Operator.onSingle]

section

variable {change} {P : Value → Prop}

mutual

/-- Renaming makes no difference to a value of which all instances keep their numbers. -/
theorem rename_of_closed (closed : Value.Closed P)
    (hchange : ∀ id, P (.template id) → change id = id) :
    ∀ value : Value, P value → value.rename change = value
  | .absent, _ | .scalar _, _ | .iterator _, _ => rfl
  | .list items, h => by
    rw [rename, renameAll_of_closed closed hchange items ((closed.list items).mp h)]
  | .mapping ⟨⟨entries⟩, fallback⟩, h => by
    obtain ⟨hentries, hfallback⟩ := (closed.mapping _).mp h
    rw [rename, renameEntries_of_closed closed hchange entries hentries,
      renameFallback_of_closed closed hchange fallback hfallback]
  | .template id, h => by rw [rename, hchange id h]

/-- The values of a list that hold none of the instances that get other numbers stay the same. -/
theorem renameAll_of_closed (closed : Value.Closed P)
    (hchange : ∀ id, P (.template id) → change id = id) :
    ∀ items : List Value, (∀ item ∈ items, P item) → renameAll change items = items
  | [], _ => rfl
  | item :: rest, h => by
    rw [renameAll, rename_of_closed closed hchange item (h item List.mem_cons_self),
      renameAll_of_closed closed hchange rest fun other hother =>
        h other (List.mem_cons_of_mem _ hother)]

/-- So do the entries of a table. -/
theorem renameEntries_of_closed (closed : Value.Closed P)
    (hchange : ∀ id, P (.template id) → change id = id) :
    ∀ entries : List (String × Value),
      (∀ entry ∈ entries, P entry.2) → renameEntries change entries = entries
  | [], _ => rfl
  | (name, value) :: rest, h => by
    rw [renameEntries, rename_of_closed closed hchange value (h _ List.mem_cons_self),
      renameEntries_of_closed closed hchange rest fun other hother =>
        h other (List.mem_cons_of_mem _ hother)]

/-- So does a fallback. -/
theorem renameFallback_of_closed (closed : Value.Closed P)
    (hchange : ∀ id, P (.template id) → change id = id) :
    ∀ fallback : Option (Fallback Value), (∀ value, fallback = some (.value value) → P value) →
      renameFallback change fallback = fallback
  | none, _ | some .key, _ => rfl
  | some (.value value), h => by
    rw [renameFallback, rename_of_closed closed hchange value (h value rfl)]

end

end

end Value

/-! ### Stores -/

namespace Store

variable (change : InstanceId → InstanceId)

/-- One store has in its cursors what the other one has, renamed. -/
structure Renamed (store other : Store) : Prop where
  cursors : other.cursors = store.cursors.map (List.map (Value.rename change))
  objects : other.objects = store.objects
  owners : other.owners = store.owners
  /-- Renaming makes no difference to an object. -/
  fixed : ∀ id object, store.object? id = some object → ∀ name held,
    object.properties.lookup name = some held → held.rename change = held

/-- An action on one store does what another one does on the renamed store, with the answer
renamed. -/
def Carries (answer : α → β) (action : StateM Store α) (further : StateM Store β) : Prop :=
  ∀ store other, Renamed change store other →
    (further other).1 = answer (action store).1 ∧
      Renamed change (action store).2 (further other).2

variable {change}

/-- Answers that are given at once go together if they do so as values. -/
theorem carries_pure {answer : α → β} {value : α} {other : β} (h : other = answer value) :
    Carries change answer (pure value) (pure other) :=
  fun _ _ hstores => ⟨h, hstores⟩

/-- Actions on two stores that go together may follow each other. -/
theorem Carries.bind {γ δ : Type} {answer : α → β} {final : γ → δ} {action : StateM Store α}
    {further : StateM Store β} {next : α → StateM Store γ} {later : β → StateM Store δ}
    (h : Carries change answer action further)
    (hnext : ∀ value, Carries change final (next value) (later (answer value))) :
    Carries change final (action >>= next) (further >>= later) := by
  intro store other hstores
  obtain ⟨hanswer, hafter⟩ := h store other hstores
  have hlater := hnext (action store).1 _ _ hafter
  rw [← hanswer] at hlater
  exact hlater

namespace Renamed

variable {store other : Store} (h : Renamed change store other)
include h

/-- What an iterator still has is renamed. -/
theorem remaining (cursor : CursorId) :
    other.remaining cursor = (store.remaining cursor).map (Value.rename change) := by
  rw [Store.remaining, Store.remaining, h.cursors, Array.getElem?_map]
  cases store.cursors[cursor.index]? <;> rfl

/-- An iterator may be left with some items in one store and with the renamed ones in the other. -/
theorem setRemaining (cursor : CursorId) (items : List Value) :
    Renamed change (store.setRemaining cursor items)
      (other.setRemaining cursor (items.map (Value.rename change))) where
  cursors := by
    rw [Store.setRemaining, Store.setRemaining, h.cursors, Array.map_setIfInBounds]
  objects := h.objects
  owners := h.owners
  fixed := h.fixed

/-- Objects are the same in both stores. -/
theorem object? (id : ObjectId) : other.object? id = store.object? id := by
  rw [Store.object?, Store.object?, h.objects]

/-- So is what a renderer of the caller is shown. -/
theorem subject? (scalar : Scalar) : other.subject? scalar = store.subject? scalar := by
  cases scalar with
  | object id => exact h.object? id
  | string _ | int _ | float _ | bool _ => rfl

/-- The type of a scalar is the same in both stores. -/
theorem scalarType (scalar : Scalar) : other.scalarType scalar = store.scalarType scalar := by
  cases scalar with
  | object id => rw [Store.scalarType, Store.scalarType, h.object?]
  | string _ | int _ | float _ | bool _ => rfl

/-- A renamed value counts as true if and only if the value does. -/
theorem truthy (value : Value) : other.truthy (value.rename change) = store.truthy value := by
  cases value with
  | absent | template _ => rfl
  | scalar scalar => cases scalar <;> rfl
  | list items => cases items <;> simp [Store.truthy]
  | mapping mapping => simp [Store.truthy, Mapping.map]
  | iterator cursor => simp [Store.truthy, Store.hasNext, h.remaining]

/-- The type of a renamed value has the same name. -/
theorem typeName (value : Value) : other.typeName (value.rename change) = store.typeName value := by
  cases value with
  | scalar scalar => exact congrArg ScalarType.name (h.scalarType scalar)
  | absent | template _ | iterator _ => rfl
  | list items => simp [Store.typeName]
  | mapping mapping => simp [Store.typeName]

/-- A property of a renamed value is the renamed property. -/
theorem property? (value : Value) (name : String) :
    other.property? (value.rename change) name =
      (store.property? value name).map (Value.rename change) := by
  have hsame : other.property? (value.rename change) name = store.property? value name := by
    cases value with
    | scalar scalar =>
      cases scalar with
      | object id => simp only [Value.rename_scalar, Store.property?, h.object?]
      | string _ | int _ | float _ | bool _ => rfl
    | absent | template _ | iterator _ => rfl
    | list items => simp [Store.property?]
    | mapping mapping => simp [Store.property?]
  rw [hsame]
  cases hfound : store.property? value name with
  | none => rfl
  | some held =>
    match value, hfound with
    | .scalar (.object id), hfound =>
      obtain ⟨object, hobject, hheld⟩ := Option.bind_eq_some_iff.mp hfound
      rw [Option.map_some, h.fixed id object hobject name held hheld]

/-- An inline template has the same owner in both stores, and gets it in both. -/
theorem inlineOwner (label : Nat) (owner : String) :
    (other.inlineOwner label owner).1 = (store.inlineOwner label owner).1 ∧
      Renamed change (store.inlineOwner label owner).2 (other.inlineOwner label owner).2 := by
  obtain ⟨hcursors, hobjects, howners, hfixed⟩ := h
  rw [Store.inlineOwner, Store.inlineOwner, howners]
  cases store.owners.lookup label with
  | some first => exact ⟨rfl, hcursors, hobjects, howners, hfixed⟩
  | none => exact ⟨rfl, hcursors, hobjects, rfl, hfixed⟩

/-- Turning a scalar into text does not look at what is renamed. -/
theorem rendered {scalar : Scalar} {action : Format.Rendering String}
    (hlocal : Format.Local scalar action) : (action other).1 = (action store).1 ∧
      Renamed change (action store).2 (action other).2 := by
  have hsubject := h.subject? scalar
  have hstore := hlocal.effect store
  have hother := hlocal.effect other
  refine ⟨hlocal.outcome _ _ hsubject, ?_, ?_, ?_, ?_⟩
  · rw [hother.cursors, hstore.cursors, h.cursors]
  · apply Array.ext_getElem?
    intro index
    change (action other).2.object? ⟨index⟩ = (action store).2.object? ⟨index⟩
    by_cases hscalar : scalar = .object ⟨index⟩
    · subst hscalar
      exact hlocal.subject _ _ hsubject
    · rw [hother.other _ hscalar, hstore.other _ hscalar, h.object?]
  · rw [hother.owners, hstore.owners, h.owners]
  · intro id object hobject name held hheld
    have hkept := hstore.kept id
    rw [hobject, Option.map_some, eq_comm, Option.map_eq_some_iff] at hkept
    obtain ⟨old, hold, hsame⟩ := hkept
    have hproperties : old.properties = object.properties := congrArg Prod.snd hsame
    exact h.fixed id old hold name held (hproperties ▸ hheld)

end Renamed

/-! ### What is taken from stores -/

/-- An iterator hands out the next item, renamed. -/
theorem carries_next (cursor : CursorId) :
    Carries change (Option.map (Value.rename change)) (Store.next cursor) (Store.next cursor) := by
  intro store other h
  refine ⟨?_, ?_⟩
  · simp only [Store.next, h.remaining, List.head?_map]
  · have hrest := h.setRemaining cursor (store.remaining cursor).tail
    rw [List.map_tail, ← h.remaining cursor] at hrest
    exact hrest

/-- An iterator hands out all that it has, renamed. -/
theorem carries_drain (cursor : CursorId) :
    Carries change (List.map (Value.rename change)) (Store.drain cursor) (Store.drain cursor) :=
  fun _ _ h => ⟨h.remaining cursor, h.setRemaining cursor []⟩

end Store

namespace Value

variable (change : InstanceId → InstanceId)

open Store

/-- The elements of a renamed value are the renamed elements. -/
theorem carries_elements? (value : Value) :
    Carries change (Option.map (List.map (rename change))) value.elements?
      (value.rename change).elements? := by
  cases value with
  | absent | scalar _ | template _ => exact carries_pure rfl
  | list items =>
    rw [rename_list]
    exact carries_pure rfl
  | mapping entries =>
    rw [rename_mapping]
    refine carries_pure ?_
    rw [Mapping.keyValues_map, Option.map_some, Mapping.rename_keyValues]
  | iterator cursor =>
    change Carries change _ (Store.drain cursor >>= fun items => pure (some items))
      (Store.drain cursor >>= fun items => pure (some items))
    exact (carries_drain cursor).bind fun items => carries_pure rfl

/-- What a renamed value contributes to a list is renamed. -/
theorem carries_contribution (value : Value) :
    Carries change (List.map (rename change)) value.contribution
      (value.rename change).contribution := by
  cases value with
  | absent | scalar _ | template _ => exact carries_pure rfl
  | list items =>
    rw [rename_list]
    exact carries_pure rfl
  | mapping entries =>
    refine carries_pure ?_
    rw [List.map_singleton, rename_mapping]
  | iterator cursor => exact carries_drain cursor

/-- Several renamed values contribute what they contributed, renamed. -/
theorem carries_spliced (values : List Value) :
    Carries change (List.map (rename change)) (spliced values)
      (spliced (values.map (rename change))) := by
  induction values with
  | nil => exact carries_pure rfl
  | cons value rest ih =>
    have hcons : Carries change (List.map (rename change))
        (do
          let items ← value.contribution
          return items ++ (← spliced rest))
        (do
          let items ← (value.rename change).contribution
          return items ++ (← spliced (rest.map (rename change)))) :=
      (carries_contribution change value).bind fun items => ih.bind fun more =>
        carries_pure (List.map_append).symm
    cases value with
    | absent => exact ih
    | scalar _ | template _ | iterator _ => exact hcons
    | list items =>
      rw [List.map_cons, rename_list] at *
      exact hcons
    | mapping entries =>
      rw [List.map_cons, rename_mapping] at *
      exact hcons

/-- Renaming goes through an operator once the value is opened. -/
theorem carries_opened {operator : Operator} {value : Value}
    {next later : Option (List Value) → StateM Store Value}
    (hsome : ∀ items, next (some items) = pure (operator.onElements items) ∧
      later (some items) = pure (operator.onElements items))
    (hnone : next none = pure (operator.onSingle value) ∧
      later none = pure (operator.onSingle (value.rename change))) :
    Carries change (rename change) (value.elements? >>= next)
      ((value.rename change).elements? >>= later) := by
  refine (carries_elements? change value).bind fun found => ?_
  cases found with
  | some items =>
    rw [Option.map_some, (hsome items).1, (hsome _).2]
    exact carries_pure (rename_onElements change operator items).symm
  | none =>
    rw [Option.map_none, hnone.1, hnone.2]
    exact carries_pure (rename_onSingle change operator value).symm

/-- A list operator does the same to a renamed value, whether or not it uses up an iterator. -/
theorem carries_apply (operator : Operator) (value : Value) :
    Carries change (rename change) (operator.apply value)
      (operator.apply (value.rename change)) := by
  cases operator with
  | first =>
    cases value with
    | iterator cursor =>
      refine (carries_next cursor).bind fun item => carries_pure ?_
      cases item <;> rfl
    | list items => exact carries_opened change (fun _ => ⟨rfl, rfl⟩) ⟨rfl, rfl⟩
    | mapping entries => exact carries_opened change (fun _ => ⟨rfl, rfl⟩) ⟨rfl, rfl⟩
    | absent | scalar _ | template _ => exact carries_opened change (fun _ => ⟨rfl, rfl⟩) ⟨rfl, rfl⟩
  | rest | last | length | strip | trunc | reverse =>
    exact carries_opened change (fun _ => ⟨rfl, rfl⟩) ⟨rfl, rfl⟩

end Value

end Stencil
