import Stencil.Decimal.Positional
import Stencil.Value.Basic

/-!
# The store

Copies of an iterator share one cursor, and copies of an object are one object. What they share is
kept here under their handles, together with one thing that the occurrences of an inline template
share: the template it was first met in.
-/

namespace Stencil

/-- How an object is shown. -/
inductive Face where
  /-- Always as the same text. -/
  | fixed (text : String)
  /-- As an integer of 64 bits that grows by one each time it is shown, before it is shown. -/
  | tally (shown : Int64)

/-- An object of the caller. -/
structure Object where
  /-- The name of its type. -/
  typeName : String
  /-- How it is shown. -/
  face : Face
  /-- Its properties; of two with one name the first counts. -/
  properties : List (String × Value) := []

/-- What values share. -/
structure Store where
  /-- What each cursor still has to deliver. -/
  cursors : Array (List Value) := #[]
  /-- The objects. -/
  objects : Array Object := #[]
  /-- The template that each inline template, by its label, was first met in. -/
  owners : List (Nat × String) := []

namespace Store

/-- Issues a cursor over some items. -/
def newCursor (items : List Value) (store : Store) : CursorId × Store :=
  (⟨store.cursors.size⟩, { store with cursors := store.cursors.push items })

/-- Issues an object. -/
def newObject (object : Object) (store : Store) : ObjectId × Store :=
  (⟨store.objects.size⟩, { store with objects := store.objects.push object })

/-- The items that a cursor still has to deliver. -/
def remaining (store : Store) (cursor : CursorId) : List Value :=
  store.cursors[cursor.index]?.getD []

/-- The store after a cursor has only `items` left. -/
def setRemaining (store : Store) (cursor : CursorId) (items : List Value) : Store :=
  { store with cursors := store.cursors.setIfInBounds cursor.index items }

/-- Takes the next item from a cursor. -/
def next (cursor : CursorId) (store : Store) : Option Value × Store :=
  ((store.remaining cursor).head?,
    store.setRemaining cursor (store.remaining cursor).tail)

/-- Takes all items from a cursor. -/
def drain (cursor : CursorId) (store : Store) : List Value × Store :=
  (store.remaining cursor, store.setRemaining cursor [])

/-- Whether a cursor has an item left. -/
def hasNext (store : Store) (cursor : CursorId) : Bool := !(store.remaining cursor).isEmpty

/-- A cursor that was issued has the items left that it was given. -/
theorem remaining_setRemaining (store : Store) {cursor : CursorId} (items : List Value)
    (h : cursor.index < store.cursors.size) :
    (store.setRemaining cursor items).remaining cursor = items := by
  simp [remaining, setRemaining, h]

/-- What another cursor has left is not touched. -/
theorem remaining_setRemaining_of_ne (store : Store) {cursor other : CursorId}
    (items : List Value) (h : other ≠ cursor) :
    (store.setRemaining cursor items).remaining other = store.remaining other := by
  have index : cursor.index ≠ other.index := fun same => h (by
    cases cursor
    cases other
    exact congrArg CursorId.mk same.symm)
  simp [remaining, setRemaining, index]

/-- The object under a handle. -/
def object? (store : Store) (id : ObjectId) : Option Object := store.objects[id.index]?

/-- What the store has of a scalar: the object that it is, if it is one. -/
def subject? (store : Store) : Scalar → Option Object
  | .object id => store.object? id
  | _ => none

/-- Whether a value counts as true: absent values, false, and empty lists, mappings and iterators
do not. -/
def truthy (store : Store) : Value → Bool
  | .absent => false
  | .scalar (.bool truth) => truth
  | .scalar _ => true
  | .list items => !items.isEmpty
  | .mapping mapping => !mapping.entries.isEmpty
  | .template _ => true
  | .iterator cursor => store.hasNext cursor

/-- The type of a scalar. -/
def scalarType (store : Store) : Scalar → ScalarType
  | .string _ => .string
  | .int _ => .int
  | .float _ => .float
  | .bool _ => .bool
  | .object id => .object (((store.object? id).map Object.typeName).getD "")

/-- The name of a value's type. -/
def typeName (store : Store) : Value → String
  | .absent => "absent"
  | .scalar scalar => (store.scalarType scalar).name
  | .list _ => "list"
  | .mapping _ => "map"
  | .template _ => "template"
  | .iterator _ => "iterator"

/-- The property of a name that an object has. -/
def property? (store : Store) (value : Value) (name : String) : Option Value :=
  match value with
  | .scalar (.object id) => (store.object? id).bind fun object => object.properties.lookup name
  | _ => none

/-- Shows an object. -/
def showObject (id : ObjectId) (store : Store) : String × Store :=
  match store.object? id with
  | none => ("", store)
  | some object =>
    match object.face with
    | .fixed text => (text, store)
    | .tally shown =>
      let object := { object with face := .tally (shown + 1) }
      (toString (shown + 1).toInt,
        { store with objects := store.objects.setIfInBounds id.index object })

/-- Shows a scalar. Only objects with a tally change by being shown. -/
def display (scalar : Scalar) (store : Store) : String × Store :=
  match scalar with
  | .string text => (text, store)
  | .int number => (toString number.toInt, store)
  | .float number => (Decimal.shortest number, store)
  | .bool truth => (if truth then "true" else "false", store)
  | .object id => store.showObject id

/-- What showing a scalar, however often, may change: the tally of the object that it is. -/
structure Tallied (scalar : Scalar) (before after : Store) : Prop where
  cursors : after.cursors = before.cursors
  owners : after.owners = before.owners
  size : after.objects.size = before.objects.size
  other : ∀ id, scalar ≠ .object id → after.object? id = before.object? id
  fixed : ∀ id object text, before.object? id = some object → object.face = .fixed text →
    after.object? id = some object
  kept : ∀ id, (after.object? id).map (fun object => (object.typeName, object.properties)) =
    (before.object? id).map fun object => (object.typeName, object.properties)

/-- If it is not shown nothing changes. -/
theorem Tallied.refl (scalar : Scalar) (store : Store) : Tallied scalar store store :=
  ⟨rfl, rfl, rfl, fun _ _ => rfl, fun _ _ _ h _ => h, fun _ => rfl⟩

/-- Showing it twice in a row changes no more than showing it. -/
theorem Tallied.trans {scalar : Scalar} {first second third : Store}
    (h : Tallied scalar first second) (h' : Tallied scalar second third) :
    Tallied scalar first third where
  cursors := h'.cursors.trans h.cursors
  owners := h'.owners.trans h.owners
  size := h'.size.trans h.size
  other id hid := (h'.other id hid).trans (h.other id hid)
  fixed id object text hobject hface :=
    h'.fixed id object text (h.fixed id object text hobject hface) hface
  kept id := (h'.kept id).trans (h.kept id)

/-- Showing an object changes at most its tally. -/
theorem tallied_showObject (id : ObjectId) (store : Store) :
    Tallied (.object id) store (store.showObject id).2 := by
  unfold showObject
  cases hobject : store.object? id with
  | none => exact .refl _ _
  | some object =>
    cases hface : object.face with
    | fixed text => simpa only [hface] using Tallied.refl _ _
    | tally shown =>
      have hget : store.objects[id.index]? = some object := hobject
      have hlt : id.index < store.objects.size := (Array.getElem?_eq_some_iff.mp hget).1
      simp only [hface]
      refine ⟨rfl, rfl, by simp, ?_, ?_, ?_⟩
      · intro other hother
        have hne : id.index ≠ other.index := fun h => hother (by cases id; cases other; simp_all)
        simp [object?, hne]
      · intro other found text hfound hfixed
        have hne : id.index ≠ other.index := by
          intro h
          have hsame : found = object := by
            rw [object?, ← h, hget] at hfound
            exact (Option.some.inj hfound).symm
          rw [hsame, hface] at hfixed
          cases hfixed
        simpa [object?, hne] using hfound
      · intro other
        by_cases h : id.index = other.index
        · have hsame : store.objects[id.index] = object := (Array.getElem?_eq_some_iff.mp hget).2
          simp [object?, ← h, hlt, hsame]
        · simp [object?, h]

/-- Showing a scalar changes at most its tally. -/
theorem tallied_display (scalar : Scalar) (store : Store) :
    Tallied scalar store (store.display scalar).2 := by
  cases scalar with
  | object id => exact tallied_showObject id store
  | string _ | int _ | float _ | bool _ => exact .refl _ _

/-- What a scalar shows, and what the store has of it afterwards, depend on nothing but what the
store has of it before. -/
theorem display_congr {scalar : Scalar} {store other : Store}
    (h : store.subject? scalar = other.subject? scalar) :
    (store.display scalar).1 = (other.display scalar).1 ∧
      (store.display scalar).2.subject? scalar = (other.display scalar).2.subject? scalar := by
  cases scalar with
  | string _ | int _ | float _ | bool _ => exact ⟨rfl, rfl⟩
  | object id =>
    have hobject : store.object? id = other.object? id := h
    simp only [display, showObject, subject?, ← hobject]
    cases hfound : store.object? id with
    | none => simp [hfound, ← hobject]
    | some object =>
      have hlt : ∀ s : Store, s.object? id = some object → id.index < s.objects.size :=
        fun s hs => (Array.getElem?_eq_some_iff.mp hs).1
      cases hface : object.face with
      | fixed text => simp [hface, hfound, ← hobject]
      | tally shown =>
        simp [hface, object?, hlt store hfound, hlt other (hobject ▸ hfound)]

/-- The template that an inline template was first met in; if that is now, it is `owner`. -/
def inlineOwner (label : Nat) (owner : String) (store : Store) : String × Store :=
  match store.owners.lookup label with
  | some first => (first, store)
  | none => (owner, { store with owners := (label, owner) :: store.owners })

end Store

end Stencil
