import Stencil.Error
import Stencil.Format.Directive
import Stencil.Text.Case
import Stencil.Text.Entity
import Stencil.Text.Form
import Stencil.Value.Store

/-!
# Renderers

A renderer turns a scalar into text, under a format if one is given. Renderers are registered for
types of scalars. Without any registration strings, integers and floats have one.
-/

namespace Stencil

namespace Format

/-- Why a scalar has no text. -/
inductive Failure where
  /-- The renderer reports an error. -/
  | raised (error : RenderError)
  /-- A number in the format does not fit, and the program ends. -/
  | overflow
deriving DecidableEq, Repr

/-- Turning scalars into text: it may fail, and it may change what the store knows of objects. -/
abbrev Rendering (α : Type) := ExceptT Failure (StateM Store) α

/-- The text that a scalar shows. -/
def shown (scalar : Scalar) : Rendering String := fun store =>
  let (text, store) := store.display scalar
  (.ok text, store)

/-- Fails because the format is not known for the scalar. -/
def unsupported {α : Type} (format : String) (scalar : Scalar) : Rendering α := do
  throw (.raised (.unsupportedFormat format ((← get).scalarType scalar).name))

/-- The second action takes place only if the first one does not fail. -/
theorem bind_apply {α β : Type} (action : Rendering α) (next : α → Rendering β) (store : Store) :
    (action >>= next) store = match action store with
      | (.ok value, after) => next value after
      | (.error failure, after) => (.error failure, after) := by
  change (match action store with | (result, after) => ExceptT.bindCont next result after) = _
  rcases action store with ⟨_ | _, _⟩ <;> rfl

/-- Turning a scalar into text learns nothing but what the store has of the scalar, and changes
nothing but how often the scalar was shown. -/
structure Local (scalar : Scalar) {α : Type} (action : Rendering α) : Prop where
  outcome : ∀ store other : Store, store.subject? scalar = other.subject? scalar →
    (action store).1 = (action other).1
  subject : ∀ store other : Store, store.subject? scalar = other.subject? scalar →
    (action store).2.subject? scalar = (action other).2.subject? scalar
  effect : ∀ store : Store, store.Tallied scalar (action store).2

namespace Local

variable {scalar : Scalar} {α β : Type}

/-- An answer that is known looks at nothing. -/
theorem pure (value : α) : Local scalar (Pure.pure value : Rendering α) :=
  ⟨fun _ _ _ => rfl, fun _ _ h => h, fun store => .refl scalar store⟩

/-- A failure that is known looks at nothing. -/
theorem throw (failure : Failure) : Local scalar (MonadExcept.throw failure : Rendering α) :=
  ⟨fun _ _ _ => rfl, fun _ _ h => h, fun store => .refl scalar store⟩

/-- Two actions one after the other look at nothing else if none of them does. -/
theorem bind {action : Rendering α} {next : α → Rendering β} (h : Local scalar action)
    (hnext : ∀ value, Local scalar (next value)) : Local scalar (action >>= next) := by
  refine ⟨fun store other hsubject => ?_, fun store other hsubject => ?_, fun store => ?_⟩
  · have hout := h.outcome store other hsubject
    have hafter := h.subject store other hsubject
    simp only [bind_apply]
    rcases hs : action store with ⟨_ | value, after⟩ <;>
      rcases ho : action other with ⟨_ | value', after'⟩ <;> simp only [hs, ho] at hout hafter
    · cases hout
      rfl
    · cases hout
    · cases hout
    · cases hout
      exact (hnext value).outcome _ _ hafter
  · have hout := h.outcome store other hsubject
    have hafter := h.subject store other hsubject
    simp only [bind_apply]
    rcases hs : action store with ⟨_ | value, after⟩ <;>
      rcases ho : action other with ⟨_ | value', after'⟩ <;> simp only [hs, ho] at hout hafter
    · exact hafter
    · cases hout
    · cases hout
    · cases hout
      exact (hnext value).subject _ _ hafter
  · have heffect := h.effect store
    simp only [bind_apply]
    rcases hs : action store with ⟨_ | value, after⟩ <;> simp only [hs] at heffect
    · exact heffect
    · exact heffect.trans ((hnext value).effect after)

/-- Showing a scalar looks at the scalar alone. -/
theorem shown : Local scalar (shown scalar) :=
  ⟨fun _ _ h => congrArg Except.ok (Store.display_congr h).1,
    fun _ _ h => (Store.display_congr h).2, fun store => store.tallied_display scalar⟩

/-- The error for an unknown format names the scalar's type and nothing else. -/
theorem unsupported (format : String) :
    Local scalar (unsupported format scalar : Rendering α) := by
  refine ⟨fun store other h => ?_, fun _ _ h => h, fun store => .refl scalar store⟩
  have htype : store.scalarType scalar = other.scalarType scalar := by
    cases scalar with
    | object id => exact congrArg (fun object : Option Object =>
        ScalarType.object ((object.map Object.typeName).getD "")) h
    | string _ | int _ | float _ | bool _ => rfl
  change Except.error (Failure.raised
    (.unsupportedFormat format (store.scalarType scalar).name)) = _
  rw [htype]
  rfl

end Local

end Format

open Format

/-- Turns scalars into text. -/
structure Renderer where
  /-- The text of a scalar, under a format if one is given. -/
  format : Scalar → Option String → Rendering String
  /-- A renderer has no state of its own and looks at nothing but its scalar. -/
  isLocal : ∀ scalar name, Local scalar (format scalar name)

namespace Renderer

/-- The text formats. -/
def textFormat? : String → Option (String → String)
  | "upper" => some Text.toUpper
  | "lower" => some Text.toLower
  | "cap" => some Text.capitalize
  | "url-encode" => some Text.Form.encode
  | "xml-encode" => some Text.Entity.encode
  | _ => none

/-- Knows the text formats, and applies them to what the scalar shows. -/
def text : Renderer where
  format scalar format := do
    let shown ← shown scalar
    match format with
    | none => return shown
    | some format =>
      match textFormat? format with
      | some change => return change shown
      | none => unsupported format scalar
  isLocal scalar name := by
    refine .bind .shown fun shown => ?_
    split
    · exact .pure _
    · split
      · exact .pure _
      · exact .unsupported _

/-- Knows formats with a number directive. -/
def number : Renderer where
  format scalar format := do
    match format with
    | none => shown scalar
    | some format =>
      match Directive.parse format with
      | .error _ => throw .overflow
      | .ok none => unsupported format scalar
      | .ok (some directive) =>
        if directive.conversion = .plain then
          return directive.text (← shown scalar)
        else
          match directive.body? scalar with
          | some body => return directive.text body
          | none => unsupported format scalar
  isLocal scalar name := by
    split
    · exact .shown
    · split
      · exact .throw _
      · exact .unsupported _
      · split
        · exact .bind .shown fun _ => .pure _
        · split
          · exact .pure _
          · exact .unsupported _

/-- Shows the scalar in parentheses behind a tag, after the format if there is one. -/
def tagged (tag : String) : Renderer where
  format scalar format := do
    let shown ← shown scalar
    match format with
    | none => return tag ++ "(" ++ shown ++ ")"
    | some format => return tag ++ "(" ++ format ++ ":" ++ shown ++ ")"
  isLocal scalar name := by
    refine .bind .shown fun shown => ?_
    split <;> exact .pure _

/-- Knows no format, not even the absence of one. -/
def refusing : Renderer where
  format scalar format := unsupported (format.getD "none") scalar
  isLocal _ _ := .unsupported _

end Renderer

/-- Renderers under the types of scalars that they are for. -/
structure Renderers where
  /-- The types with their renderers; a type occurs once. -/
  entries : List (ScalarType × Renderer) := []

namespace Renderers

/-- The renderer for a type. -/
def find? (renderers : Renderers) (type : ScalarType) : Option Renderer :=
  renderers.entries.lookup type

/-- Registers a renderer for a type in place of an earlier one. -/
def register (renderers : Renderers) (type : ScalarType) (renderer : Renderer) : Renderers :=
  ⟨(type, renderer) :: renderers.entries.filter fun entry => entry.1 ≠ type⟩

/-- How many types have a renderer. -/
def size (renderers : Renderers) : Nat := renderers.entries.length

/-- The renderers that need no registration. -/
def builtin : Renderers :=
  ⟨[(.string, .text), (.int, .number), (.float, .number)]⟩

end Renderers

end Stencil
