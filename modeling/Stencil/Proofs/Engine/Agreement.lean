import Stencil.Engine.Render

/-!
# Renders that yield the same

Two renders yield the same if their runs differ in nothing but their stores: the same is written,
they fail alike, and the same is reported.
-/

namespace Stencil

/-- Two renders yield the same, whatever engines they leave behind. -/
structure Written.Agrees (written other : Written) : Prop where
  result : other.result = written.result
  out : other.out = written.out
  warnings : other.warnings = written.warnings

namespace Engine

variable {engine other : Engine} {id : InstanceId}

/-- Runs that differ in nothing but their stores yield the same. -/
theorem agrees_writeWithin {fuel : Nat} {out : Writer} (hconfig : other.config = engine.config)
    (hinstance : other.instance? id = engine.instance? id)
    (hrun : (engine.instance? id).isSome → ∃ store, other.runWithin fuel id out =
      ((engine.runWithin fuel id out).1, { (engine.runWithin fuel id out).2 with store })) :
    (engine.writeWithin fuel id out).Agrees (other.writeWithin fuel id out) := by
  unfold writeWithin
  rw [hinstance]
  split
  · exact ⟨rfl, rfl, rfl⟩
  · next hid =>
    obtain ⟨store, hsame⟩ := hrun (by simpa [Option.isSome_iff_ne_none] using hid)
    rw [hsame, hconfig]
    exact ⟨rfl, rfl, rfl⟩

/-- Renders that yield the same give the same text, or fail alike. -/
theorem renderWithWidth_agrees {width : Nat} (hconfig : other.config = engine.config)
    (h : (engine.write id (engine.config.writer width)).Agrees
      (other.write id (engine.config.writer width))) :
    (other.renderWithWidth id width).1 = (engine.renderWithWidth id width).1 := by
  simp only [renderWithWidth, hconfig, h.result, h.out]

/-- Engines that write an instance alike render it alike. -/
theorem render_agrees (hconfig : other.config = engine.config)
    (h : (engine.write id (engine.config.writer engine.config.lineWidth)).Agrees
      (other.write id (engine.config.writer engine.config.lineWidth))) :
    (other.render id).1 = (engine.render id).1 := by
  rw [render, hconfig]
  exact renderWithWidth_agrees hconfig h

end Engine

end Stencil
