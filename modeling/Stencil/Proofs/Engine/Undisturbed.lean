import Stencil.Engine.Render
import Stencil.Proofs.Render.Evolution

/-!
# What a render leaves behind

A render works on the instances of its engine and adds to them, and it may stop at any point. When
it is over, everything but the store of the engine is as it was.
-/

namespace Stencil.Engine

/-- An engine after a render: its configuration, its groups and its instances are the same as
before, with their attributes, links, renderers and variables. Its store has evolved: cursors may
have delivered items, objects may have been counted and inline templates may have been met. -/
structure Undisturbed (before after : Engine) : Prop where
  config : after.config = before.config
  groups : after.groups = before.groups
  instances : after.instances = before.instances
  store : before.store.Evolves after.store

/-- An engine is undisturbed by nothing. -/
theorem Undisturbed.refl (engine : Engine) : engine.Undisturbed engine :=
  ⟨rfl, rfl, rfl, .refl _⟩

/-- An engine that is undisturbed twice is undisturbed. -/
theorem Undisturbed.trans {first second third : Engine} (h : first.Undisturbed second)
    (h' : second.Undisturbed third) : first.Undisturbed third :=
  ⟨h'.config.trans h.config, h'.groups.trans h.groups, h'.instances.trans h.instances,
    h.store.trans h'.store⟩

/-- The run of an instance evolves the state in which it begins. -/
theorem evolves_runWithin (fuel : Nat) (engine : Engine) (id : InstanceId) (out : Writer) :
    (engine.start out).Evolves engine.instances.size (engine.runWithin fuel id out).2 :=
  have hcallers : engine.setting.callers ≤ (engine.start out).instances.size := Nat.le_refl _
  (Evaluator.evolves_exec fuel [] id hcallers).1

/-- Dropping what a run added to the instances gives the instances before it. -/
theorem take_runWithin (fuel : Nat) (engine : Engine) (id : InstanceId) (out : Writer) :
    (engine.runWithin fuel id out).2.instances.take engine.instances.size =
      engine.instances := by
  have hevolves := evolves_runWithin fuel engine id out
  have hsize : engine.instances.size ≤ (engine.runWithin fuel id out).2.instances.size :=
    hevolves.size
  apply Array.ext_getElem?
  intro index
  rw [Array.take_eq_extract, Array.getElem?_extract]
  split
  · next hindex =>
    rw [Nat.zero_add]
    exact hevolves.callers index (by omega)
  · next hindex => rw [Array.getElem?_eq_none (by omega)]

/-- To write an instance leaves an engine undisturbed, however many levels there are. -/
theorem undisturbed_writeWithin (fuel : Nat) (engine : Engine) (id : InstanceId) (out : Writer) :
    engine.Undisturbed (engine.writeWithin fuel id out).engine := by
  unfold writeWithin
  split
  · exact .refl engine
  · exact ⟨rfl, rfl, take_runWithin fuel engine id out,
      (evolves_runWithin fuel engine id out).store⟩

/-- A render leaves the engine undisturbed, whether it yields a text, fails, is refused a write, or
is asked for an instance that was never issued, and wherever it writes to. -/
theorem undisturbed_write (engine : Engine) (id : InstanceId) :
    (∀ out, engine.Undisturbed (engine.write id out).engine) ∧
      (∀ width, engine.Undisturbed (engine.renderWithWidth id width).2.engine) ∧
      engine.Undisturbed (engine.render id).2.engine :=
  have hwrite := undisturbed_writeWithin fuel engine id
  ⟨hwrite, fun _ => hwrite _, hwrite _⟩

end Stencil.Engine
