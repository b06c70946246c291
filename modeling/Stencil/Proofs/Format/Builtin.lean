import Stencil.Format.Renderer

/-!
# The errors of built-in renderers

A renderer of the caller may raise any error. The built-in ones raise only one kind: that they do
not know a format. The one for numbers may end the program besides.
-/

namespace Stencil

namespace Format

/-- An action that raises no error but that it does not know a format. -/
def Plain {α : Type} (action : Rendering α) : Prop :=
  ∀ store error, (action store).1 = .error (.raised error) →
    ∃ format typeName, error = .unsupportedFormat format typeName

variable {α β : Type}

/-- An answer raises nothing. -/
theorem plain_pure (value : α) : Plain (pure value) := nofun

/-- Ending the program raises nothing. -/
theorem plain_overflow : Plain (throw .overflow : Rendering α) := nofun

/-- Showing a scalar always succeeds. -/
theorem plain_shown (scalar : Scalar) : Plain (shown scalar) := nofun

/-- The one error that is raised. -/
theorem plain_unsupported (format : String) (scalar : Scalar) :
    Plain (unsupported format scalar : Rendering α) := by
  intro store error herror
  cases herror
  exact ⟨_, _, rfl⟩

/-- Two actions one after the other raise what one of them does. -/
theorem Plain.bind {action : Rendering α} {next : α → Rendering β} (h : Plain action)
    (hnext : ∀ value, Plain (next value)) : Plain (action >>= next) := by
  intro store error herror
  rw [bind_apply] at herror
  rcases heq : action store with ⟨failure | value, after⟩ <;> rw [heq] at herror
  · cases herror
    exact h store error (congrArg Prod.fst heq)
  · exact hnext value after error herror

end Format

open Format

namespace Renderer

/-- The renderer for text knows its formats and no other one. -/
theorem plain_text (scalar : Scalar) (format : Option String) :
    Plain (Renderer.text.format scalar format) := by
  refine (plain_shown scalar).bind fun text => ?_
  split
  · exact plain_pure _
  · split
    · exact plain_pure _
    · exact plain_unsupported _ _

/-- The renderer for numbers does not know formats without a directive, or with one that is not for
the scalar. -/
theorem plain_number (scalar : Scalar) (format : Option String) :
    Plain (Renderer.number.format scalar format) := by
  simp only [Renderer.number]
  split
  · exact plain_shown scalar
  · split
    · exact plain_overflow
    · exact plain_unsupported _ _
    · split
      · exact (plain_shown scalar).bind fun _ => plain_pure _
      · split
        · exact plain_pure _
        · exact plain_unsupported _ _

end Renderer

/-- A built-in renderer raises no error but that it does not know a format. -/
theorem Renderers.plain_builtin {type : ScalarType} {renderer : Renderer}
    (h : Renderers.builtin.find? type = some renderer) (scalar : Scalar)
    (format : Option String) : Plain (renderer.format scalar format) := by
  obtain ⟨before, after, hsplit, -⟩ := List.lookup_eq_some_iff.mp h
  have hmem : (type, renderer) ∈ Renderers.builtin.entries :=
    hsplit ▸ List.mem_append_right _ List.mem_cons_self
  simp only [Renderers.builtin, List.mem_cons, Prod.mk.injEq, List.not_mem_nil, or_false] at hmem
  rcases hmem with ⟨-, rfl⟩ | ⟨-, rfl⟩ | ⟨-, rfl⟩
  · exact Renderer.plain_text scalar format
  · exact Renderer.plain_number scalar format
  · exact Renderer.plain_number scalar format

end Stencil
