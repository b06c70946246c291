import Stencil.Proofs.Value.Closed
import Stencil.Proofs.Value.Evolution

/-!
# Handles inside values

Instances, iterators and objects are values by the numbers under which they were issued, and such a
number may stand anywhere inside another value: in a list, in a mapping, among the items that an
iterator still has to deliver, under a property of an object. A value is genuine if each number
that it holds was issued. It stays genuine while more is issued and while items are taken from
iterators, since nothing comes into what is there already.
-/

namespace Stencil.Store

/-- What stands directly inside a value. -/
inductive Inside (store : Store) : Value → Value → Prop where
  | item {items : List Value} {part : Value} (h : part ∈ items) : Inside store (.list items) part
  | entry {mapping : Mapping Value} {name : String} {part : Value}
    (h : (name, part) ∈ mapping.entries.entries) : Inside store (.mapping mapping) part
  | fallback {mapping : Mapping Value} {part : Value}
    (h : mapping.fallback = some (.value part)) : Inside store (.mapping mapping) part
  | remaining {cursor : CursorId} {part : Value} (h : part ∈ store.remaining cursor) :
    Inside store (.iterator cursor) part
  | property {id : ObjectId} {object : Object} {name : String} {part : Value}
    (hobject : store.object? id = some object) (h : object.properties.lookup name = some part) :
    Inside store (.scalar (.object id)) part

/-- What a value holds: itself, and what stands inside it at any depth. -/
def Holds (store : Store) : Value → Value → Prop := Relation.ReflTransGen store.Inside

/-- A value that is a number is one under which something was issued, where there are so many
instances. -/
def Issued (store : Store) (instances : Nat) : Value → Prop
  | .template id => id.index < instances
  | .iterator cursor => cursor.index < store.cursors.size
  | .scalar (.object id) => id.index < store.objects.size
  | .absent | .scalar _ | .list _ | .mapping _ => True

/-- A value all of whose numbers were issued. -/
def Genuine (store : Store) (instances : Nat) (value : Value) : Prop :=
  ∀ part, store.Holds value part → store.Issued instances part

variable {store after : Store} {instances more : Nat} {value : Value}

/-- Inside collections stand their parts. -/
theorem leads_inside (store : Store) : Value.Leads store.Inside where
  absent _ hpart := nomatch hpart
  scalar _ _ hpart := by
    cases hpart
    exact ⟨_, rfl⟩
  list items part := ⟨fun hpart => by cases hpart with | item hitem => exact hitem, .item⟩
  mapping mapping part := by
    constructor
    · intro hpart
      cases hpart with
      | entry hentry => exact Or.inl ⟨_, hentry⟩
      | fallback hvalue => exact Or.inr hvalue
    · rintro (⟨name, hentry⟩ | hvalue)
      · exact .entry hentry
      · exact .fallback hvalue

/-- A value is genuine if its own index was issued and all that is inside it is genuine. -/
theorem genuine_iff : store.Genuine instances value ↔
    store.Issued instances value ∧ ∀ part, store.Inside value part →
      store.Genuine instances part :=
  Value.Throughout.iff_parts

/-- An instance is genuine if there is one of its index. -/
theorem genuine_template {id : InstanceId} :
    store.Genuine instances (.template id) ↔ id.index < instances := by
  rw [genuine_iff]
  exact and_iff_left fun part hpart => nomatch hpart

/-- An iterator is genuine if there is one of its index and its items are genuine. -/
theorem genuine_iterator {cursor : CursorId} :
    store.Genuine instances (.iterator cursor) ↔ cursor.index < store.cursors.size ∧
      ∀ item ∈ store.remaining cursor, store.Genuine instances item := by
  rw [genuine_iff]
  refine and_congr_right fun _ => ⟨fun h item hitem => h item (.remaining hitem), ?_⟩
  intro h part hpart
  cases hpart with
  | remaining hitem => exact h part hitem

/-- An object is genuine if its properties are. -/
theorem genuine_object {id : ObjectId} {object : Object}
    (hobject : store.object? id = some object) :
    store.Genuine instances (.scalar (.object id)) ↔ ∀ name part,
      object.properties.lookup name = some part → store.Genuine instances part := by
  rw [genuine_iff]
  constructor
  · exact fun h name part hpart => h.2 part (.property hobject hpart)
  · refine fun h => ⟨(Array.getElem?_eq_some_iff.mp hobject).1, fun part hpart => ?_⟩
    cases hpart with
    | property hfound hpart =>
      cases hobject.symm.trans hfound
      exact h _ part hpart

/-- A scalar other than an object is no number. -/
theorem issued_scalar {scalar : Scalar} (h : ∀ id, scalar ≠ .object id) :
    store.Issued instances (.scalar scalar) := by
  cases scalar with
  | object id => exact absurd rfl (h id)
  | string _ | int _ | float _ | bool _ => trivial

/-- A collection is genuine exactly when its parts are. -/
theorem genuine_closed (store : Store) (instances : Nat) :
    Value.Closed (store.Genuine instances) :=
  Value.Throughout.closed store.leads_inside trivial (fun _ => issued_scalar) (fun _ => trivial)
    fun _ => trivial

/-! ### Stores that grow -/

/-- How a store may change between calls: more is issued and items are taken, but nothing comes into
the iterators and objects that were issued. -/
structure Grows (before after : Store) : Prop where
  cursors : before.cursors.size ≤ after.cursors.size
  remaining : ∀ cursor, cursor.index < before.cursors.size →
    after.remaining cursor ⊆ before.remaining cursor
  objects : before.objects.size ≤ after.objects.size
  properties : ∀ id, id.index < before.objects.size →
    (after.object? id).map Object.properties = (before.object? id).map Object.properties

/-- A store that evolves loses neither an iterator nor an object. -/
theorem Evolves.grows (h : store.Evolves after) : store.Grows after where
  cursors := Nat.le_of_eq h.cursors.symm
  remaining cursor _ := (h.remaining cursor).subset
  objects := Nat.le_of_eq h.objects.symm
  properties id _ := by
    have hkept := congrArg (Option.map Prod.snd) (h.kept id)
    rwa [Option.map_map, Option.map_map] at hkept

namespace Grows

/-- What was issued stays so in a store that grows. -/
theorem issued (h : store.Grows after) (hmore : instances ≤ more)
    (hissued : store.Issued instances value) : after.Issued more value := by
  cases value with
  | template id => exact Nat.lt_of_lt_of_le hissued hmore
  | iterator cursor => exact Nat.lt_of_lt_of_le hissued h.cursors
  | scalar scalar =>
    cases scalar with
    | object id => exact Nat.lt_of_lt_of_le hissued h.objects
    | string _ | int _ | float _ | bool _ => trivial
  | absent | list _ | mapping _ => trivial

/-- Nothing comes into a value that was issued. -/
theorem inside {part : Value} (h : store.Grows after) (hissued : store.Issued instances value)
    (hpart : after.Inside value part) : store.Inside value part := by
  cases hpart with
  | item hitem => exact .item hitem
  | entry hentry => exact .entry hentry
  | fallback hvalue => exact .fallback hvalue
  | remaining hitem => exact .remaining (h.remaining _ hissued hitem)
  | @property id object name _ hobject hvalue =>
    have hsame := h.properties id hissued
    rw [hobject, Option.map_some, eq_comm, Option.map_eq_some_iff] at hsame
    obtain ⟨old, hold, hproperties⟩ := hsame
    exact .property hold (hproperties ▸ hvalue)

/-- A genuine value holds nothing new, however the store grows. -/
theorem holds {part : Value} (h : store.Grows after) (hgenuine : store.Genuine instances value)
    (hpart : after.Holds value part) : store.Holds value part := by
  -- Under a number that was not issued, anything may come. Being genuine excludes such numbers on
  -- the whole way to the part, so the induction goes from the value inwards.
  induction hpart with
  | refl => exact .refl
  | tail _ hinside ih => exact ih.tail (h.inside (hgenuine _ ih) hinside)

/-- What is genuine stays so. -/
theorem genuine (h : store.Grows after) (hmore : instances ≤ more)
    (hgenuine : store.Genuine instances value) : after.Genuine more value :=
  fun part hpart => h.issued hmore (hgenuine part (h.holds hgenuine hpart))

/-- A cursor is issued without a change to those that were issued before. -/
theorem newCursor (items : List Value) (store : Store) :
    store.Grows (store.newCursor items).2 where
  cursors := by simp [Store.newCursor]
  remaining cursor hcursor := by
    have hne : cursor.index ≠ store.cursors.size := Nat.ne_of_lt hcursor
    simp [Store.newCursor, Store.remaining, Array.getElem?_push, hne]
  objects := Nat.le_refl _
  properties _ _ := rfl

/-- An object is issued without a change to those that were issued before. -/
theorem newObject (object : Object) (store : Store) :
    store.Grows (store.newObject object).2 where
  cursors := Nat.le_refl _
  remaining _ _ := List.Subset.refl _
  objects := by simp [Store.newObject]
  properties id hid := by
    have hne : id.index ≠ store.objects.size := Nat.ne_of_lt hid
    simp [Store.newObject, object?, Array.getElem?_push, hne]

end Grows

/-- Of a genuine value, what it contributes to a list is genuine. -/
theorem genuine_contribution {value : Value} (h : store.Genuine instances value) :
    store.Evolves (value.contribution store).2 ∧
      ∀ item ∈ (value.contribution store).1, store.Genuine instances item := by
  cases value with
  | list items => exact ⟨.refl store, ((store.genuine_closed instances).list items).mp h⟩
  | iterator cursor => exact ⟨.drain store cursor, (genuine_iterator.mp h).2⟩
  | absent | scalar _ | mapping _ | template _ =>
    exact ⟨.refl store, fun item hitem => List.mem_singleton.mp hitem ▸ h⟩

end Stencil.Store
