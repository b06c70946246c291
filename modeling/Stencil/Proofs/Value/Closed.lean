import Mathlib.Logic.Relation
import Stencil.Value.Operator

/-!
# Properties of values and their parts

A property of values is closed if a list or a mapping has it exactly when its parts do, and if
texts, truth values and counts have it. What the list operators and the look-up in a mapping make
of values then has every closed property that the values have.

Among the closed properties are those of all that a value leads to, by a relation that leads from a
collection to its parts.
-/

namespace Stencil

/-- A property that lists and mappings have exactly when their parts do. -/
structure Value.Closed (P : Value → Prop) : Prop where
  absent : P .absent
  string : ∀ text, P (.string text)
  bool : ∀ truth, P (.bool truth)
  count : ∀ number, P (.count number)
  list : ∀ items, P (.list items) ↔ ∀ item ∈ items, P item
  mapping : ∀ mapping, P (.mapping mapping) ↔
    (∀ entry ∈ mapping.entries.entries, P entry.2) ∧
      ∀ value, mapping.fallback = some (.value value) → P value

namespace Value.Closed

variable {P : Value → Prop}

/-- The property that every value has. -/
theorem trivial : Value.Closed fun _ => True := by
  constructor <;> simp

section

variable (closed : Value.Closed P)
include closed

/-- The names of a mapping have every property that is passed on. -/
theorem keyValues (mapping : Mapping Value) : ∀ item ∈ mapping.keyValues, P item := by
  intro item hitem
  obtain ⟨name, -, rfl⟩ := List.mem_map.mp hitem
  exact closed.string name

/-- So has what is looked up in a mapping that has it. -/
theorem lookup {mapping : Mapping Value} (h : P (.mapping mapping)) (name : String) :
    P (mapping.lookup name) := by
  obtain ⟨hentries, hfallback⟩ := (closed.mapping mapping).mp h
  unfold Mapping.lookup
  split
  · next value hvalue => exact hentries _ (Table.mem_of_get? hvalue)
  · split
    · exact (closed.list _).mpr (closed.keyValues mapping)
    · split
      · refine (closed.list _).mpr fun item hitem => ?_
        obtain ⟨entry, hentry, rfl⟩ := List.mem_map.mp hitem
        exact hentries entry hentry
      · split
        · exact closed.string name
        · next value hvalue => exact hfallback value hvalue
        · exact closed.absent

/-- So has a list of such values. -/
theorem ofNonempty {items : List Value} (h : ∀ item ∈ items, P item) : P (.ofNonempty items) := by
  unfold Value.ofNonempty
  split
  · exact closed.absent
  · exact (closed.list items).mpr h

/-- So has what is left of a value without absent elements. -/
theorem stripped {value : Value} (h : P value) : P value.stripped := by
  cases value with
  | list items =>
    refine (closed.list _).mpr fun item hitem => ?_
    exact (closed.list items).mp h item (List.mem_filter.mp hitem).1
  | absent | scalar _ | mapping _ | template _ | iterator _ => exact h

/-- A list operator makes only closed properties of closed properties. -/
theorem onElements {items : List Value} (h : ∀ item ∈ items, P item) (operator : Operator) :
    P (operator.onElements items) := by
  cases operator with
  | first =>
    cases items with
    | nil => exact closed.absent
    | cons item rest => exact h item List.mem_cons_self
  | rest => exact closed.ofNonempty fun item hitem => h item (List.mem_of_mem_tail hitem)
  | last =>
    rcases List.eq_nil_or_concat items with rfl | ⟨front, item, rfl⟩
    · exact closed.absent
    · simpa [Operator.onElements] using h item (by simp)
  | length => exact closed.count _
  | strip =>
    refine (closed.list _).mpr fun item hitem => ?_
    obtain ⟨inner, hinner, rfl⟩ := List.mem_map.mp hitem
    exact closed.stripped (h inner (List.mem_filter.mp hinner).1)
  | trunc => exact closed.ofNonempty fun item hitem => h item (List.dropLast_subset items hitem)
  | reverse => exact (closed.list _).mpr fun item hitem => h item (List.mem_reverse.mp hitem)

/-- So has what an operator makes of a single value. -/
theorem onSingle {value : Value} (h : P value) (operator : Operator) :
    P (operator.onSingle value) := by
  cases operator with
  | rest | trunc => exact closed.absent
  | length => exact closed.count _
  | first | last | strip | reverse => exact h

end

end Value.Closed

/-! ### What values lead to -/

/-- All that a value leads to has a property, the value itself included. -/
def Value.Throughout (leads : Value → Value → Prop) (P : Value → Prop) (value : Value) : Prop :=
  ∀ part, Relation.ReflTransGen leads value part → P part

/-- Values lead to others: texts, truth values and numbers to none, and collections to their
parts. -/
structure Value.Leads (leads : Value → Value → Prop) : Prop where
  absent : ∀ part, ¬ leads .absent part
  scalar : ∀ scalar part, leads (.scalar scalar) part → ∃ id, scalar = .object id
  list : ∀ items part, leads (.list items) part ↔ part ∈ items
  mapping : ∀ mapping part, leads (.mapping mapping) part ↔
    (∃ name, (name, part) ∈ mapping.entries.entries) ∨ mapping.fallback = some (.value part)

namespace Value.Throughout

variable {leads : Value → Value → Prop} {P : Value → Prop} {value part : Value}

/-- What holds throughout a value holds of the value. -/
theorem self (h : Throughout leads P value) : P value := h value .refl

/-- What holds throughout a value holds throughout its parts. -/
theorem onward (h : Throughout leads P value) (hpart : leads value part) :
    Throughout leads P part :=
  fun other hother => h other (.head hpart hother)

/-- A property holds throughout a value if it holds of the value and throughout its parts. -/
theorem iff_parts : Throughout leads P value ↔
    P value ∧ ∀ part, leads value part → Throughout leads P part := by
  constructor
  · intro h
    exact ⟨h.self, fun part => h.onward⟩
  · rintro ⟨hself, hparts⟩ other hother
    rcases hother.cases_head with rfl | ⟨part, hpart, hrest⟩
    · exact hself
    · exact hparts part hpart other hrest

/-- A scalar other than an object leads to nothing else. -/
theorem of_scalar (hleads : Value.Leads leads) {scalar : Scalar}
    (hscalar : ∀ id, scalar ≠ .object id) (h : P (.scalar scalar)) :
    Throughout leads P (.scalar scalar) := by
  refine iff_parts.mpr ⟨h, fun part hpart => ?_⟩
  obtain ⟨id, rfl⟩ := hleads.scalar scalar part hpart
  exact absurd rfl (hscalar id)

/-- A property that is asked only of numbers and objects is closed if it is asked throughout. -/
theorem closed (hleads : Value.Leads leads) (habsent : P .absent)
    (hscalar : ∀ scalar, (∀ id, scalar ≠ .object id) → P (.scalar scalar))
    (hlist : ∀ items, P (.list items)) (hmapping : ∀ mapping, P (.mapping mapping)) :
    Value.Closed (Throughout leads P) where
  absent := iff_parts.mpr ⟨habsent, fun part hpart => absurd hpart (hleads.absent part)⟩
  string _ := of_scalar hleads (fun _ => Scalar.noConfusion) (hscalar _ fun _ => Scalar.noConfusion)
  bool _ := of_scalar hleads (fun _ => Scalar.noConfusion) (hscalar _ fun _ => Scalar.noConfusion)
  count _ := of_scalar hleads (fun _ => Scalar.noConfusion) (hscalar _ fun _ => Scalar.noConfusion)
  list items := by
    rw [iff_parts, and_iff_right (hlist items)]
    simp only [hleads.list]
  mapping mapping := by
    rw [iff_parts, and_iff_right (hmapping mapping)]
    constructor
    · intro h
      exact ⟨fun entry hentry => h _ ((hleads.mapping _ _).mpr (Or.inl ⟨entry.1, hentry⟩)),
        fun value hvalue => h value ((hleads.mapping _ _).mpr (Or.inr hvalue))⟩
    · rintro ⟨hentries, hfallback⟩ part hpart
      rcases (hleads.mapping _ _).mp hpart with ⟨name, hentry⟩ | hvalue
      · exact hentries _ hentry
      · exact hfallback part hvalue

end Value.Throughout

end Stencil
