import Stencil.Proofs.Render.Applications

/-!
# Calls that take turns

An application to one driver makes a list of a collection: in the place of each element stands an
instance, and in the place of an absent element nothing. The calls take turns, and the instances are
numbered, without regard to absent elements. What is no collection is handed to the first call, and
nothing at all stays nothing.
-/

namespace Stencil

open Render

/-- The elements of a collection; other values are no collections. An iterator has the items that it
still has to deliver. -/
def Value.elementsIn (store : Store) : Value → Option (List Value)
  | .list items => some items
  | .iterator cursor => some (store.remaining cursor)
  | .mapping entries => some entries.keyValues
  | .absent | .scalar _ | .template _ => none

/-- The elements of a value are those that remain in the store. -/
theorem Value.elements?_apply (value : Value) (store : Store) :
    (value.elements? store).1 = value.elementsIn store := by
  cases value <;> rfl

/-- Only one value is absent. -/
theorem Value.isAbsent_iff {value : Value} : value.isAbsent = true ↔ value = .absent := by
  cases value <;> simp [Value.isAbsent]

namespace Evaluator

/-- The instance that a call makes for one element: the definition is what the call refers to, the
element is bound to `it` and to the first formal argument, and `i` and `i0` number the instance. -/
structure Maps (below : Evaluator) (setting : Setting) (scope : Scope) (call : Call Expr Chunk)
    (element : Value) (index : Nat) (begun ended : Run) (id : InstanceId) (data : Instance) :
    Prop extends below.Produces setting scope call.arguments begun ended id data where
  definition : ∃ before looked, begun.Continues before ∧
    below.callee scope call.callee setting before = (.ok data.definition, looked)
  it : data.Reads "it" element
  i : data.Reads "i" (.count (index + 1))
  i0 : data.Reads "i0" (.count index)
  /-- The first formal argument is the element, unless the call names it. -/
  first : data.definition.parameterNames.Nodup → ∀ formal,
    data.definition.parameters.head? = some formal →
      formal.name ∉ call.arguments.named.map Prod.fst →
        data.attributes.get? formal.name = some element ∧
          (formal.name ≠ "i" → formal.name ≠ "i0" → data.Reads formal.name element)
  /-- Other names come to the attributes. -/
  other : ∀ name value, name ≠ "it" → name ≠ "i" → name ≠ "i0" →
    data.attributes.get? name = some value → data.Reads name value

variable {fuel : Nat} {setting : Setting} {scope : Scope} {call : Call Expr Chunk}
variable {element : Value} {index : Nat} {begun before after ended : Run} {id : InstanceId}

/-- What a part of a render maps the whole of it does. -/
theorem Maps.within {below : Evaluator} {data : Instance}
    (h : below.Maps setting scope call element index before after id data)
    (hbefore : begun.Continues before) (hafter : after.Continues ended) :
    below.Maps setting scope call element index begun ended id data := by
  obtain ⟨earlier, looked, hearlier, hcallee⟩ := h.definition
  exact { h with
    toProduces := (h.toProduces.since hbefore).until hafter
    definition := ⟨earlier, looked, hbefore.trans hearlier, hcallee⟩ }

/-- An element that is applied to is mapped. -/
theorem maps_of_ok
    (h : (upTo fuel).applyOne scope call element index setting begun = (.ok id, ended)) :
    ∃ data, (upTo fuel).Maps setting scope call element index begun ended id data := by
  obtain ⟨looked, data, hcallee, hproduces, hiteration, hfirst⟩ := applyOne_ok h
  have hit : data.Reads "it" element := by
    apply Instance.reads_of_variable
    rw [hiteration, List.lookup_cons_self]
  have hother (name : String) (value : Value) (hit : name ≠ "it") (hi : name ≠ "i")
      (hi0 : name ≠ "i0") (hset : data.attributes.get? name = some value) :
      data.Reads name value := by
    refine Instance.reads_of_attribute ?_ hset
    rw [hiteration, List.lookup_eq_none_iff]
    simp [numbering, hit, hi, hi0]
  refine ⟨data, hproduces, ⟨begun, looked, .refl begun, hcallee⟩, hit, ?_, ?_, ?_, hother⟩
  · apply Instance.reads_of_variable
    rw [hiteration]
    rfl
  · apply Instance.reads_of_variable
    rw [hiteration]
    rfl
  · intro hnodup formal hformal hnamed
    obtain ⟨rest, hformals⟩ := List.head?_eq_some_iff.mp hformal
    rw [Definition.parameterNames, hformals] at hnodup
    have hset := hfirst formal rest hformals (List.nodup_cons.mp hnodup).1 hnamed
    refine ⟨hset, fun hi hi0 => ?_⟩
    by_cases hsame : formal.name = "it"
    · exact hsame ▸ hit
    · exact hother formal.name element hsame hi hi0 hset

/-- What an application of calls to one driver does. -/
structure TakesTurns (below : Evaluator) (setting : Setting) : Prop where
  /-- An application that is written down walks over the value of its driver. -/
  written : ∀ scope driver calls, below.evalExpr scope (.apply [driver] calls) = do
    below.apply scope (← below.eval scope driver) calls
  /-- Of a collection it makes a list in which exactly the absent elements are absent. The other
  elements are counted from 0, and each goes to the call whose turn it is. -/
  collection : ∀ scope driver first more begun value ended elements,
    driver.elementsIn begun.store = some elements →
    below.apply scope driver (first :: more) setting begun = (.ok value, ended) →
      ∃ values, value = .list values ∧ values.length = elements.length ∧
        ∀ (position : Nat) element mapped, elements[position]? = some element →
          values[position]? = some mapped →
            (mapped = .absent ↔ element = .absent) ∧
            (element ≠ .absent → ∃ call id data,
              (first :: more)[turns (elements.take position) % (more.length + 1)]? = some call ∧
                mapped = .template id ∧
                below.Maps setting scope call element (turns (elements.take position)) begun ended
                  id data)
  /-- What is absent stays absent, whatever the calls would come to. -/
  absent : ∀ (level : Evaluator) scope first more begun,
    level.apply scope .absent (first :: more) setting begun = (.ok .absent, begun)
  /-- Any other value is one element for the first call. -/
  single : ∀ scope driver first more begun value ended,
    driver.elementsIn begun.store = none → driver ≠ .absent →
    below.apply scope driver (first :: more) setting begun = (.ok value, ended) →
      ∃ id data, value = .template id ∧
        below.Maps setting scope first driver 0 begun ended id data

/-- What an application has done when it has looked at its driver. -/
theorem apply_eq {below : Evaluator} {driver : Value} (first : Call Expr Chunk)
    (more : List (Call Expr Chunk)) (h : driver ≠ .absent) :
    below.apply scope driver (first :: more) setting begun =
      (match driver.elementsIn begun.store with
        | some items => do return .list (← below.applyItems scope first more 0 items)
        | none => do return .template (← below.applyOne scope first driver 0) : Render Value)
          setting { begun with store := (driver.elements? begun.store).2 } := by
  have hpresent : ¬ driver.isAbsent = true := mt Value.isAbsent_iff.mp h
  have hsame := Value.elements?_apply driver begun.store
  rw [apply, if_neg hpresent]
  refine (bind_apply_ok _ _ (onStore_apply _ _ _)).trans ?_
  generalize (driver.elements? begun.store).1 = found at hsame
  subst hsame
  cases driver.elementsIn begun.store with
  | none => rfl
  | some items => rfl

/-- An application to a collection makes a list of what its elements are mapped to. -/
theorem apply_collection_ok {driver value : Value} {first : Call Expr Chunk}
    {more : List (Call Expr Chunk)} {elements : List Value}
    (helements : driver.elementsIn begun.store = some elements)
    (h : (upTo fuel).apply scope driver (first :: more) setting begun = (.ok value, ended)) :
    ∃ values, value = .list values ∧ values.length = elements.length ∧
      ∀ (position : Nat) element mapped, elements[position]? = some element →
        values[position]? = some mapped →
          (mapped = .absent ↔ element = .absent) ∧
          (element ≠ .absent → ∃ call id data,
            (first :: more)[turns (elements.take position) % (more.length + 1)]? = some call ∧
              mapped = .template id ∧
              (upTo fuel).Maps setting scope call element (turns (elements.take position)) begun
                ended id data) := by
  have hne : driver ≠ .absent := by
    rintro rfl
    cases helements
  rw [apply_eq first more hne, helements] at h
  obtain ⟨values, last, hitems, h⟩ := (bind_eq_ok _ _).mp h
  cases h
  have hstore : begun.Continues { begun with store := (driver.elements? begun.store).2 } :=
    .of_eq rfl rfl
  obtain ⟨-, hlength, hvalues⟩ := applyItems_ok hitems
  refine ⟨values, rfl, hlength, fun position element mapped helement hmapped => ?_⟩
  obtain ⟨hhole, htakes⟩ := hvalues position element mapped helement hmapped
  rw [Nat.zero_add] at htakes
  refine ⟨⟨fun habsent => ?_, hhole⟩, fun hpresent => ?_⟩
  · by_contra hpresent
    obtain ⟨_, _, _, _, _, _, hmapped⟩ := htakes hpresent
    rw [habsent] at hmapped
    cases hmapped
  · obtain ⟨before, after, id, hbefore, hone, hafter, hmapped⟩ := htakes hpresent
    obtain ⟨data, hmaps⟩ := maps_of_ok hone
    exact ⟨_, id, data, getElem?_turn first more _, hmapped,
      hmaps.within (hstore.trans hbefore) hafter⟩

/-- What is no collection is one element. -/
theorem apply_single_ok {driver value : Value} {first : Call Expr Chunk}
    {more : List (Call Expr Chunk)} (hsingle : driver.elementsIn begun.store = none)
    (hne : driver ≠ .absent)
    (h : (upTo fuel).apply scope driver (first :: more) setting begun = (.ok value, ended)) :
    ∃ id data, value = .template id ∧
      (upTo fuel).Maps setting scope first driver 0 begun ended id data := by
  rw [apply_eq first more hne, hsingle] at h
  obtain ⟨id, last, hone, h⟩ := (bind_eq_ok _ _).mp h
  cases h
  obtain ⟨data, hmaps⟩ := maps_of_ok hone
  exact ⟨id, data, rfl, hmaps.within (.of_eq rfl rfl) (.refl _)⟩

/-- In every application to one driver the calls take turns. -/
theorem takes_turns (fuel : Nat) (setting : Setting) : (upTo fuel).TakesTurns setting where
  written _ _ _ := rfl
  collection _ _ _ _ _ _ _ _ helements h := apply_collection_ok helements h
  absent _ _ _ _ _ := rfl
  single _ _ _ _ _ _ _ hsingle hne h := apply_single_ok hsingle hne h

/-- Two calls take turns with a list that has an absent element. No instance stands in its place,
and the element after it goes to the second call. -/
theorem takes_turns_alternating :
    let setting : Setting := .ofGroup [.template "odd" (some [{ name := "x" }]) [],
      .template "even" (some [{ name := "y" }]) []]
    let run : Run := .ofInstances [(.template "page" none [], [])]
    let odd : Call Expr Chunk := { callee := .named "odd" }
    let even : Call Expr Chunk := { callee := .named "even" }
    ∃ values ended,
      (upTo 1).apply ⟨⟨0⟩, []⟩ (.list [.string "a", .absent, .string "b"]) [odd, even] setting run =
        (.ok (.list values), ended) ∧
      values[1]? = some .absent ∧ ∃ id data, values[2]? = some (.template id) ∧
        (upTo 1).Maps setting ⟨⟨0⟩, []⟩ even (.string "b") 1 run ended id data := by
  intro setting run odd even
  have hok : ((upTo 1).apply ⟨⟨0⟩, []⟩ (.list [.string "a", .absent, .string "b"]) [odd, even]
      setting run).1.isOk = true := by decide +kernel
  obtain ⟨value, ended, happly⟩ := exists_of_isOk hok
  obtain ⟨values, rfl, hlength, hvalues⟩ := (takes_turns 1 setting).collection _ _ odd [even]
    run value ended [.string "a", .absent, .string "b"] rfl happly
  obtain ⟨first, second, third, rfl⟩ := List.length_eq_three.mp hlength
  obtain ⟨hhole, -⟩ := hvalues 1 .absent second rfl rfl
  obtain ⟨-, htakes⟩ := hvalues 2 (.string "b") third rfl rfl
  obtain ⟨call, id, data, hcall, hthird, hmaps⟩ := htakes nofun
  cases hcall
  cases hthird
  exact ⟨_, ended, happly, congrArg some (hhole.mpr rfl), id, data, rfl, hmaps⟩

end Evaluator

end Stencil
