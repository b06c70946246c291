import Stencil.Engine.Basic
import Stencil.Writer.Output

/-!
# Renders

A render evaluates expressions and writes what they yield. It works on a state of its own (`Run`):
the instances, to which it adds those it creates; the store; the writer; and notes that it keeps
while it lasts. The groups and the configuration are fixed (`Setting`).

Evaluation is recursive in several ways: expressions hold expressions, instances are written inside
instances, values hold values. The recursion is left open. An `Evaluator` gives the functions that
the recursion goes through; the modules beside this one define them for one level over an evaluator
for the level below, and `Evaluator.upTo` puts the levels on top of each other. A render that runs
out of levels stops with `Halt.outOfFuel`, which is not an error of the template.
-/

namespace Stencil

/-- What a render does not change. -/
structure Setting where
  config : Config
  groups : Groups
  /-- How many instances there were before the render. -/
  callers : Nat

/-- The state of a render. -/
structure Run where
  instances : Array Instance
  store : Store
  /-- Where text is written. -/
  out : Writer
  /-- The instances that are being written, innermost first. -/
  active : List InstanceId := []
  /-- The values of the argument defaults that were asked for. -/
  defaults : List ((InstanceId × String) × Value) := []
  /-- The attributes that were read while lint is on, last first. -/
  reads : List (InstanceId × String) := []
  /-- The instances of the caller that were written, in the order in which they first were. -/
  written : List InstanceId := []
  /-- Whether a loop variable whose sequence has run out may be read. -/
  lenient : Bool := false

/-- Why a render stopped. -/
inductive Halt where
  | failed (error : RenderError)
  /-- A number in a format did not fit, and the program ended. -/
  | overflow
  /-- The levels of evaluation did not suffice. -/
  | outOfFuel
  /-- A level of evaluation did not do what it was asked for. No level of a render does this. -/
  | withheld
deriving DecidableEq, Repr

/-- Why a render stopped if a scalar has no text. -/
def Halt.ofFailure : Format.Failure → Halt
  | .raised error => .failed error
  | .overflow => .overflow

/-- A part of a render. What it changed before it stopped stays changed. -/
abbrev Render (α : Type) := ReaderT Setting (ExceptT Halt (StateM Run)) α

/-- The instances in whose scope names are looked up. -/
structure Scope where
  /-- The instance that is being written. -/
  innermost : InstanceId
  /-- The instances around it, from the inside out. -/
  outer : List InstanceId

/-- All instances of a scope, from the inside out. -/
def Scope.frames (scope : Scope) : List InstanceId := scope.innermost :: scope.outer

/-- The options of an expression after they were evaluated. -/
structure WriteOptions where
  separator : Option String := none
  wrap : Option String := none
  null : Option String := none
  format : Option String := none

/-- What is known of the current line of a body while its nodes are written. -/
structure Line where
  /-- How many characters the nodes of the line wrote. -/
  written : Nat := 0
  /-- Whether the line has no nodes yet and a line break before it. -/
  fresh : Bool := false
deriving DecidableEq, Repr

/-- The functions that the recursion of evaluation goes through. -/
structure Evaluator where
  /-- The value of an expression. -/
  eval : Scope → Expr → Render Value
  /-- Writes an instance inside others; answers the number of characters. -/
  exec : List InstanceId → InstanceId → Render Nat
  /-- Writes nodes; answers the number of characters and the state of the line after them. -/
  nodes : Scope → Line → List Node → Render (Nat × Line)
  /-- Writes a value. -/
  value : Scope → WriteOptions → Value → Render Nat

namespace Render

/-- Stops with an error. -/
def fail {α : Type} (error : RenderError) : Render α := throw (.failed error)

/-- Stops with an error if something is the case. -/
def failIf (condition : Bool) (error : RenderError) : Render Unit :=
  if condition then fail error else pure ()

/-- Does something, and changes the state afterwards in any case. -/
def ensuring {α : Type} (action : Render α) (cleanup : Run → Run) : Render α :=
  fun setting run =>
    let (result, after) := action setting run
    (result, cleanup after)

/-- Does something with the store. -/
def onStore {α : Type} (action : StateM Store α) : Render α := do
  let (result, store) := action.run (← get).store
  modify fun run => { run with store }
  return result

/-- An answer that does not need the store is an answer of the render. -/
@[simp] theorem onStore_pure {α : Type} (value : α) : onStore (pure value) = pure value := rfl

/-- Actions on the store can be taken one at a time. -/
@[simp] theorem onStore_bind {α β : Type} (action : StateM Store α) (next : α → StateM Store β) :
    onStore (action >>= next) = onStore action >>= fun value => onStore (next value) := rfl

/-- What is made of an answer from the store can be made of it in the render. -/
@[simp] theorem onStore_map {α β : Type} (change : α → β) (action : StateM Store α) :
    onStore (change <$> action) = onStore action >>= fun value => pure (change value) := rfl

/-- Whether a value counts as true. -/
def truthy (value : Value) : Render Bool := do return (← get).store.truthy value

/-- Whether a loop variable whose sequence has run out may be read. -/
def isLenient : Render Bool := do return (← get).lenient

/-- Turns a scalar into text. -/
def rendering (action : Format.Rendering String) : Render String := do
  match ← onStore action.run with
  | .ok text => return text
  | .error failure => throw (.ofFailure failure)

/-- Does something with the writer. -/
def writing (action : Writer.Writing Nat) : Render Nat := do
  let (result, out) := action.run (← get).out
  modify fun run => { run with out }
  match result with
  | .ok count => return count
  | .error _ => fail .writeRefused

/-- Changes the state of the writer. -/
def onWriter (change : Writer → Writer) : Render Unit :=
  modify fun run => { run with out := change run.out }

/-- The instance of a number. -/
def getInstance (id : InstanceId) : Render Instance := do
  match (← get).instances[id.index]? with
  | some data => return data
  | none => fail (.invalidInstance id.index)

/-- Changes an instance. -/
def modifyInstance (id : InstanceId) (change : Instance → Instance) : Render Unit :=
  modify fun run => { run with instances := run.instances.modify id.index change }

/-- Sets an attribute of an instance, in place of its value. -/
def bind (id : InstanceId) (name : String) (value : Value) : Render Unit :=
  modifyInstance id fun data => { data with attributes := data.attributes.insert name value }

/-- Gives an instance the variables of the application that creates it. -/
def bindVariables (id : InstanceId) (iteration : List (String × Binding)) : Render Unit :=
  modifyInstance id fun data => { data with iteration }

/-- Notes that an attribute was read, if lint is on. -/
def noteRead (id : InstanceId) (name : String) : Render Unit := do
  if (← read).config.lint then
    modify fun run => { run with reads := (id, name) :: run.reads }

/-- Writes to a writer of its own, which never wraps, and answers its text. -/
def capture (action : Render Nat) : Render String := fun setting run =>
  let own : Writer :=
    { newline := setting.config.newline, indenting := setting.config.indent }
  let (result, after) := action setting { run with out := own }
  (result.map fun _ => after.out.sink.text, { after with out := run.out })

/-- Writes with an indentation string in force. -/
def indented {α : Type} (indent : Option String) (action : Render α) : Render α := do
  match indent with
  | none => action
  | some indent =>
    onWriter fun out => out.pushIndent indent
    ensuring action fun run => { run with out := run.out.popIndent.2 }

/-- Writes with the current column as an anchor, if asked to. -/
def anchored {α : Type} (anchor : Bool) (action : Render α) : Render α := do
  if anchor then
    onWriter Writer.pushAnchor
    ensuring action fun run => { run with out := run.out.popAnchor }
  else action

/-- Does something while loop variables may or may not be read after their sequence. -/
def leniently {α : Type} (lenient : Bool) (action : Render α) : Render α := do
  let before := (← get).lenient
  modify fun run => { run with lenient }
  ensuring action fun run => { run with lenient := before }

end Render

end Stencil
