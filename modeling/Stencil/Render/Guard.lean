import Stencil.Render.Basic

/-!
# The recursion guard

The instances that are being written form a stack. An instance cannot be written while it is on the
stack, and the stack cannot grow above the configured depth.
-/

namespace Stencil.Render

/-- The names of the templates of the instances that are being written, outermost first. -/
def activeNames (run : Run) : List String :=
  run.active.reverse.filterMap fun id =>
    (run.instances[id.index]?).map fun data => data.definition.name

/-- Whether an instance cannot be put on the stack. -/
def Run.refuses (run : Run) (maxDepth : Nat) (id : InstanceId) : Bool :=
  run.active.contains id || run.active.length ≥ maxDepth

/-- Does something while an instance of the template `name` is on the stack. When lint is on, the
error for an instance that cannot be put there names the templates on the stack. -/
def guarded {α : Type} (id : InstanceId) (name : String) (action : Render α) : Render α := do
  let run ← get
  let config := (← read).config
  if Run.refuses run config.maxDepth id then
    fail (.infiniteRecursion (if config.lint then activeNames run ++ [name] else []))
  set { run with active := id :: run.active }
  ensuring action fun run => { run with active := run.active.tail }

end Stencil.Render
