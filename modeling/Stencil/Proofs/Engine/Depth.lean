import Stencil.Proofs.Engine.Reachable
import Stencil.Proofs.Render.Stopping

/-!
# How deep instances may be nested

A render is cut off when it would nest more instances than the configuration allows. The bound is
looked at in one place only, where an instance is put on the stack, and what is raised there is
caught nowhere. So the bound either cuts a render off or makes no difference to it, and a render
that was not cut off is the same under every higher bound.
-/

namespace Stencil

open Render

/-- The result of a render that was cut off. -/
def CutOff {α : Type} (result : Except Halt α) : Prop :=
  ∃ trace, result = .error (.failed (.infiniteRecursion trace))

/-- What is made of an outcome does not matter for whether it was cut off. -/
theorem cutOff_map {α β : Type} {result : Except Halt α} (change : α → β) :
    CutOff (result.map change) ↔ CutOff result := by
  cases result <;> simp [CutOff, Except.map]

namespace Engine

/-- The engine with another bound on how deep instances may be nested. -/
def bounded (maxDepth : Nat) (engine : Engine) : Engine :=
  { engine with config := { engine.config with maxDepth } }

end Engine

/-- Renders under two bounds, of which the lower one may cut the first render off. -/
def Stopping.shallow (engine : Engine) {low high : Nat} (hle : low ≤ high) : Stopping where
  setting := (engine.bounded low).setting
  depth := high
  Stops halt := ∃ trace, halt = .failed (.infiniteRecursion trace)
  uncaught _ _ := nofun
  bound := Or.inr ⟨hle, fun trace => ⟨trace, rfl⟩⟩

/-- A shallow render stops where it is cut off. -/
theorem Stopping.stopped_shallow {engine : Engine} {low high : Nat} {hle : low ≤ high} {α : Type}
    {result : Except Halt α} : (Stopping.shallow engine hle).Stopped result ↔ CutOff result :=
  ⟨fun ⟨_, ⟨trace, hhalt⟩, hresult⟩ => ⟨trace, hhalt ▸ hresult⟩,
    fun ⟨trace, hresult⟩ => ⟨_, ⟨trace, rfl⟩, hresult⟩⟩

namespace Engine

variable (engine : Engine) (id : InstanceId) {low high : Nat}

/-- What is not cut off comes out the same under a larger bound. -/
theorem persists_writeWithin (fuel : Nat) (out : Writer) (hle : low ≤ high)
    (h : ¬ CutOff ((engine.bounded low).writeWithin fuel id out).result) :
    (engine.bounded high).writeWithin fuel id out =
      { (engine.bounded low).writeWithin fuel id out with
        engine := ((engine.bounded low).writeWithin fuel id out).engine.bounded high } := by
  have hsame : (engine.bounded high).instance? id = (engine.bounded low).instance? id := rfl
  unfold writeWithin at h ⊢
  rw [hsame]
  split
  · rfl
  · next hknown =>
    rw [if_neg hknown] at h
    have laws := (Stopping.shallow engine hle).ordinary rfl
    have hruns := (laws.sound fuel).exec [] id ((engine.bounded low).start out)
    have heq : (engine.bounded high).runWithin fuel id out =
        (engine.bounded low).runWithin fuel id out :=
      hruns.resolve_left (mt Stopping.stopped_shallow.mp h)
    rw [heq]
    rfl

/-- The bound on the depth never changes what it does not cut off. Whatever the engine, the instance
and the writer are: a render that is not cut off under one bound answers the same under every higher
one, writes the same, and leaves the same behind. -/
theorem persists_write (hle : low ≤ high) :
    (∀ out, ¬ CutOff ((engine.bounded low).write id out).result →
      (engine.bounded high).write id out = { (engine.bounded low).write id out with
        engine := ((engine.bounded low).write id out).engine.bounded high }) ∧
    (∀ width, ¬ CutOff ((engine.bounded low).renderWithWidth id width).1 →
      ((engine.bounded high).renderWithWidth id width).1 =
        ((engine.bounded low).renderWithWidth id width).1) ∧
    (¬ CutOff ((engine.bounded low).render id).1 →
      ((engine.bounded high).render id).1 = ((engine.bounded low).render id).1) := by
  have hwrite (out : Writer) (h : ¬ CutOff ((engine.bounded low).write id out).result) :=
    persists_writeWithin engine id fuel out hle h
  have htext (width : Nat) (h : ¬ CutOff ((engine.bounded low).renderWithWidth id width).1) :
      ((engine.bounded high).renderWithWidth id width).1 =
        ((engine.bounded low).renderWithWidth id width).1 := by
    have heq := hwrite (engine.config.writer width) (mt (cutOff_map _).mpr h)
    have hhigh : (engine.bounded high).config.writer width = engine.config.writer width := rfl
    have hlow : (engine.bounded low).config.writer width = engine.config.writer width := rfl
    simp only [renderWithWidth, write, hhigh, hlow, heq]
  exact ⟨hwrite, htext, htext engine.config.lineWidth⟩

/-- Two boxes, one inside the other. -/
def boxes : Engine :=
  ({} : Engine).after
    [.defineGroup "group" .angle,
      .declare ⟨0⟩ (.template "box" (some [{ name := "content" }])
        [.literal "[", .expression (.attribute "content") {}, .literal "]"]),
      .instanceOf ⟨0⟩ "box",
      .instanceOf ⟨0⟩ "box",
      .assign ⟨0⟩ "content" (.template ⟨1⟩)]

/-- One box fits under a bound of one; two boxes need two, and are the same under any higher
bound. -/
theorem persists_write_boxes :
    ((boxes.bounded 1).render ⟨0⟩).1 = .error (.failed (.infiniteRecursion [])) ∧
      ((boxes.bounded 2).render ⟨0⟩).1 = .ok "[[]]" ∧
      ((boxes.bounded 256).render ⟨0⟩).1 = .ok "[[]]" := by
  have hlow : ((boxes.bounded 2).render ⟨0⟩).1 = .ok "[[]]" := by decide +kernel
  have huncut : ¬ CutOff ((boxes.bounded 2).render ⟨0⟩).1 := by
    rw [hlow]
    nofun
  have hsame := (persists_write boxes ⟨0⟩ (by decide : 2 ≤ 256)).2.2 huncut
  exact ⟨by decide +kernel, hlow, hsame.trans hlow⟩

end Engine

end Stencil
