import Stencil.Render.Eval
import Stencil.Render.Guard

/-!
# Writing bodies

An instance is written by writing the nodes of its definition. A line of the body that wrote
nothing vanishes together with its line break, unless it has no nodes at all: such an empty line is
kept.
-/

namespace Stencil

open Render

/-- The line after a node that wrote some characters. -/
def Line.add (line : Line) (count : Nat) : Line :=
  { written := line.written + count, fresh := false }

/-- Whether the break that ends the line is written. -/
def Line.isKept (line : Line) : Bool := line.fresh || line.written > 0

namespace Evaluator

variable (below : Evaluator)

/-- What a conditional writes: the first branch whose test holds. -/
def choose (scope : Scope) (otherwise : List Node) : List (Branch Expr Node) → Render (List Node)
  | [] => return otherwise
  | branch :: rest => do
    if ← below.holds scope branch.test then return branch.body
    else choose scope otherwise rest

/-- The group from which the body of a region is looked up. -/
def regionStart (scope : Scope) (data : Instance) (name : String) (ascending : Bool) :
    Render GroupId :=
  if ascending then superGroup scope name else pure data.group

/-- Writes a region: the body that is visible from the group in which lookups start, or from the
super-group of the definition's group. A region without a body writes nothing, but one that the
super-group is asked for has to be there. -/
def writeRegion (scope : Scope) (region : String) (ascending : Bool) : Render Nat := do
  let data ← getInstance scope.innermost
  let name := Region.key data.definition.regionOwner region
  let start ← regionStart scope data name ascending
  match ← lookup start name with
  | some definition =>
    let id ← create scope definition
    below.exec scope.frames id
  | none => if ascending then fail (.noSuchTemplate name) else return 0

/-- Writes the break that ends a line, unless the line vanishes. -/
def writeBreak (line : Line) : Render Nat :=
  if line.isKept then writing (Writer.write "\n") else pure 0

/-- Writes one node; answers the number of characters and the state of the line after it. -/
def writeNode (scope : Scope) (line : Line) : Node → Render (Nat × Line)
  | .text text => do
    let count ← writing (Writer.write text)
    return (count, line.add count)
  | .newline => do
    let count ← writeBreak line
    return (count, { fresh := true })
  | .expression expr options indent => do
    let count ← indented indent (below.writeExpression scope expr options)
    return (count, line.add count)
  | .conditional branches otherwise indent => do
    let body ← below.choose scope otherwise branches
    indented indent (below.nodes scope { line with fresh := false } body)
  | .region name ascending indent => do
    let count ← indented indent (below.writeRegion scope name ascending)
    return (count, line.add count)

/-- Writes nodes one after the other. -/
def writeNodes (scope : Scope) (line : Line) : List Node → Render (Nat × Line)
  | [] => return (0, line)
  | node :: rest => do
    let (count, line) ← below.writeNode scope line node
    let (more, line) ← writeNodes scope line rest
    return (count + more, line)

/-- Notes that an instance of the caller is written, if it was not before. -/
def noteWritten (id : InstanceId) : Render Unit := do
  let run ← get
  if id.index < (← read).callers ∧ id ∉ run.written then
    set { run with written := run.written ++ [id] }

/-- Writes an instance inside others. -/
def writeInstance (outer : List InstanceId) (id : InstanceId) : Render Nat := do
  let definition := (← getInstance id).definition
  guarded id definition.name do
    noteWritten id
    let (count, _) ← below.nodes ⟨id, outer⟩ {} definition.nodes
    return count

/-- The level above an evaluator: it evaluates one step by itself, and what that step consists of
by the evaluator below. -/
def next : Evaluator where
  eval scope expr := below.evalExpr scope expr
  exec outer id := below.writeInstance outer id
  nodes scope line nodes := below.writeNodes scope line nodes
  value scope options value := below.writeValue scope options value

/-- The evaluator below all levels. -/
def exhausted : Evaluator where
  eval _ _ := throw .outOfFuel
  exec _ _ := throw .outOfFuel
  nodes _ _ _ := throw .outOfFuel
  value _ _ _ := throw .outOfFuel

/-- The evaluator with a given number of levels. -/
def upTo : Nat → Evaluator
  | 0 => exhausted
  | fuel + 1 =>
    { eval := fun scope expr => (upTo fuel).next.eval scope expr
      exec := fun outer id => (upTo fuel).next.exec outer id
      nodes := fun scope line nodes => (upTo fuel).next.nodes scope line nodes
      value := fun scope options value => (upTo fuel).next.value scope options value }

end Evaluator

end Stencil
