import Stencil.Engine.Basic
import Stencil.Proofs.Value.Closed

/-!
# Values without a state

An iterator is used up by being read, and an object with a tally is counted by being shown. A value
is plain if none of these is found among the values that it leads to: the parts of collections, the
attributes of instances and the properties of objects.
-/

namespace Stencil.Engine

/-- What a value of an engine directly leads to. -/
inductive Part (engine : Engine) : Value → Value → Prop where
  | item {items : List Value} {value : Value} (h : value ∈ items) : Part engine (.list items) value
  | entry {mapping : Mapping Value} {name : String} {value : Value}
    (h : (name, value) ∈ mapping.entries.entries) : Part engine (.mapping mapping) value
  | fallback {mapping : Mapping Value} {value : Value}
    (h : mapping.fallback = some (.value value)) : Part engine (.mapping mapping) value
  | assigned {id : InstanceId} {data : Instance} {name : String} {value : Value}
    (hdata : engine.instance? id = some data) (h : data.attributes.get? name = some value) :
    Part engine (.template id) value
  | bound {id : InstanceId} {data : Instance} {name : String} {value : Value}
    (hdata : engine.instance? id = some data)
    (h : data.iteration.lookup name = some (some value)) : Part engine (.template id) value
  | property {id : ObjectId} {object : Object} {name : String} {value : Value}
    (hobject : engine.store.object? id = some object)
    (h : object.properties.lookup name = some value) : Part engine (.scalar (.object id)) value

/-- A value that is neither an iterator nor an object that changes by being shown. -/
def Stateless (engine : Engine) : Value → Prop
  | .iterator _ => False
  | .scalar (.object id) => ∀ object, engine.store.object? id = some object →
    ∃ text, object.face = .fixed text
  | _ => True

/-- A value that leads to nothing with a state. -/
def Plain (engine : Engine) (value : Value) : Prop :=
  ∀ part, Relation.ReflTransGen engine.Part value part → engine.Stateless part

variable {engine : Engine} {value : Value}

/-- The parts of collections are what stands inside them. -/
theorem leads_part (engine : Engine) : Value.Leads engine.Part where
  absent _ hpart := nomatch hpart
  scalar _ _ hpart := by
    cases hpart
    exact ⟨_, rfl⟩
  list items part := ⟨fun hpart => by cases hpart with | item hitem => exact hitem, .item⟩
  mapping mapping part := by
    constructor
    · intro hpart
      cases hpart with
      | entry hentry => exact Or.inl ⟨_, hentry⟩
      | fallback hvalue => exact Or.inr hvalue
    · rintro (⟨name, hentry⟩ | hvalue)
      · exact .entry hentry
      · exact .fallback hvalue

/-- What is plain has no state of its own. -/
theorem Plain.stateless (h : engine.Plain value) : engine.Stateless value :=
  Value.Throughout.self h

/-- What is part of something plain is plain. -/
theorem Plain.part {part : Value} (h : engine.Plain value) (hpart : engine.Part value part) :
    engine.Plain part :=
  Value.Throughout.onward h hpart

/-- A value is plain if it has no state and its parts are plain. -/
theorem plain_iff : engine.Plain value ↔
    engine.Stateless value ∧ ∀ part, engine.Part value part → engine.Plain part :=
  Value.Throughout.iff_parts

/-- A scalar other than an object has no state. -/
theorem stateless_scalar {scalar : Scalar} (h : ∀ id, scalar ≠ .object id) :
    engine.Stateless (.scalar scalar) := by
  cases scalar with
  | object id => exact absurd rfl (h id)
  | string _ | int _ | float _ | bool _ => trivial

/-- An instance number that was not issued is plain. -/
theorem plain_of_size_le {id : InstanceId} (h : engine.instances.size ≤ id.index) :
    engine.Plain (.template id) := by
  have hnone : engine.instance? id = none := Array.getElem?_eq_none h
  refine plain_iff.mpr ⟨trivial, fun part hpart => ?_⟩
  cases hpart with
  | assigned hdata _ | bound hdata _ => cases hnone.symm.trans hdata

/-- A collection is plain exactly when its parts are. -/
theorem plain_closed (engine : Engine) : Value.Closed engine.Plain :=
  Value.Throughout.closed engine.leads_part trivial (fun _ => stateless_scalar) (fun _ => trivial)
    fun _ => trivial

end Stencil.Engine
