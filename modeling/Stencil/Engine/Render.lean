import Stencil.Render.Exec

/-!
# Rendering instances

A render writes an instance, and with it everything that the instance leads to. Instances that are
created on the way are dropped when the render ends, so that an engine only keeps those of its
callers. When lint is on, the attributes of the caller's instances that were written but never read
are reported.
-/

namespace Stencil

/-- The outcome of a render. -/
structure Written where
  /-- The number of characters written, or why the render stopped. -/
  result : Except Halt Nat
  /-- The engine afterwards. -/
  engine : Engine
  /-- The writer afterwards. -/
  out : Writer
  /-- What is reported. -/
  warnings : List Warning

/-- The attributes of an instance that were set, but not read during a run. -/
def Run.unused (run : Run) (id : InstanceId) : List Warning :=
  match run.instances[id.index]? with
  | none => []
  | some data =>
    (data.attributes.keys.filter fun name => !run.reads.contains (id, name)).map fun name =>
      .unusedAttribute data.definition.name name

/-- A writer for texts, as the configuration asks for it. -/
def Config.writer (config : Config) (width : Nat) : Writer :=
  { indenting := config.indent, newline := config.newline, lineWidth := width }

namespace Engine

/-- How many levels a render may evaluate inside one another. Far more than a machine can nest. -/
def fuel : Nat := 1000000000000

/-- What a render of this engine does not change. -/
def setting (engine : Engine) : Setting :=
  { config := engine.config, groups := engine.groups, callers := engine.instances.size }

/-- The state in which a render of this engine begins. -/
def start (engine : Engine) (out : Writer) : Run :=
  { instances := engine.instances, store := engine.store, out }

/-- The run of an instance with a given number of levels of evaluation. -/
def runWithin (fuel : Nat) (engine : Engine) (id : InstanceId) (out : Writer) :
    Except Halt Nat × Run :=
  (Evaluator.upTo fuel).exec [] id engine.setting (engine.start out)

/-- Writes an instance with a given number of levels of evaluation. -/
def writeWithin (fuel : Nat) (engine : Engine) (id : InstanceId) (out : Writer) : Written :=
  if (engine.instance? id).isNone then
    { result := .error (.failed (.invalidInstance id.index)), engine, out, warnings := [] }
  else
    let (result, run) := engine.runWithin fuel id out
    { result
      engine := { engine with
        instances := run.instances.take engine.instances.size, store := run.store }
      out := run.out
      warnings := if engine.config.lint then run.written.flatMap run.unused else [] }

/-- The instances of the caller that are written when an instance is written, in the order in which
they first are. -/
def executed (engine : Engine) (id : InstanceId) (out : Writer) : List InstanceId :=
  (engine.runWithin fuel id out).2.written

/-- Writes an instance. -/
def write (engine : Engine) (id : InstanceId) (out : Writer) : Written :=
  engine.writeWithin fuel id out

/-- The text of an instance, with lines wrapped at a width. -/
def renderWithWidth (engine : Engine) (id : InstanceId) (width : Nat) :
    Except Halt String × Written :=
  let written := engine.write id (engine.config.writer width)
  (written.result.map fun _ => written.out.sink.text, written)

/-- The text of an instance. -/
def render (engine : Engine) (id : InstanceId) : Except Halt String × Written :=
  engine.renderWithWidth id engine.config.lineWidth

end Engine

end Stencil
