import Stencil.Proofs.Writer.Balance

/-!
# Two writers

Two writers may differ in a way that nothing written to both of them makes up for or makes worse. A
relation says how they go together. It is kept up by an operation, or by two that correspond, if
both of them have an answer and leave writers behind that still go together; and if each step of an
operation keeps it up, so does the whole.
-/

namespace Stencil.Writer

variable {α β γ δ : Type} {Paired : Writer → Writer → Prop}

variable (Paired) in
/-- Two operations, one on each of two paired writers, both have an answer, and they keep the
writers paired. -/
def Keeps (post : α → β → Prop) (first : Writing α) (second : Writing β) : Prop :=
  ∀ left right, Paired left right → ∃ value other, post value other ∧
    (first left).1 = .ok value ∧ (second right).1 = .ok other ∧
      Paired (first left).2 (second right).2

/-- Answers keep writers paired. -/
theorem keeps_pure {post : α → β → Prop} {value : α} {other : β} (h : post value other) :
    Keeps Paired post (pure value) (pure other) :=
  fun _ _ hpaired => ⟨value, other, h, rfl, rfl, hpaired⟩

/-- Two actions one after the other keep writers paired if each of them does. -/
theorem Keeps.bind {mid : α → β → Prop} {post : γ → δ → Prop} {first : Writing α}
    {second : Writing β} {next : α → Writing γ} {further : β → Writing δ}
    (h : Keeps Paired mid first second)
    (hnext : ∀ value other, mid value other → Keeps Paired post (next value) (further other)) :
    Keeps Paired post (first >>= next) (second >>= further) := by
  intro left right hpaired
  obtain ⟨value, other, hmid, hfirst, hsecond, hafter⟩ := h left right hpaired
  rw [bind_apply_ok hfirst, bind_apply_ok hsecond]
  exact hnext value other hmid _ _ hafter

/-- Operations that depend on the writers. -/
theorem keeps_get {post : α → β → Prop} {next : Writer → Writing α} {further : Writer → Writing β}
    (h : ∀ left right, Paired left right → Keeps Paired post (next left) (further right)) :
    Keeps Paired post (get >>= next) (get >>= further) :=
  fun left right hpaired => h left right hpaired left right hpaired

/-- So does a change to each of the writers that keeps them paired. -/
theorem keeps_modify {change alter : Writer → Writer}
    (h : ∀ {left right}, Paired left right → Paired (change left) (alter right)) :
    Keeps Paired (fun _ _ => True) (modify change) (modify alter) :=
  fun _ _ hpaired => ⟨⟨⟩, ⟨⟩, trivial, rfl, rfl, h hpaired⟩

end Stencil.Writer
