import Stencil.Render.Resolve

/-!
# Binding arguments

The arguments of a call become attributes of the new instance. Positional arguments fill the formal
arguments in order, from a given one on: an application fills the ones before it. Named arguments
come next and override them. Last, if the call passes through, each formal argument that is not set
takes what the scope of the call has under its name.
-/

namespace Stencil

open Render

/-- The value that a formal argument takes when it is passed through, if any: an absent value does
not take the place of a default. -/
def Formal.taken? {E : Type} (formal : Formal E) (found : Option Value) : Option Value :=
  match found with
  | some .absent => if formal.default.isSome then none else some .absent
  | found => found

namespace Render

/-- Does something that looks up a name, and answers nothing where that fails because nothing
declares a name. -/
def ifDeclared (action : Render Value) : Render (Option Value) := fun setting run =>
  match action setting run with
  | (.ok value, after) => (.ok (some value), after)
  | (.error (.failed (.noSuchAttribute ..)), after) => (.ok none, after)
  | (.error halt, after) => (.error halt, after)

/-- Binds to a formal argument what it takes of what was found under its name. -/
def bindTaken (id : InstanceId) (formal : Formal Expr) (found : Option Value) : Render Unit :=
  match formal.taken? found with
  | some value => bind id formal.name value
  | none => pure ()

/-- Stops with an error unless each of some formal arguments is set or has a default. -/
def requireBound (id : InstanceId) (formals : List (Formal Expr)) (error : RenderError) :
    Render Unit := do
  let attributes := (← getInstance id).attributes
  failIf (formals.any fun formal => formal.default.isNone && !attributes.contains formal.name)
    error

end Render

namespace Evaluator

variable (below : Evaluator)

/-- Binds values to formal arguments, one by one. -/
def bindPositional (scope : Scope) (id : InstanceId) :
    List (Formal Expr × Expr) → Render Unit
  | [] => return ()
  | (formal, expr) :: rest => do
    bind id formal.name (← below.eval scope expr)
    bindPositional scope id rest

/-- Binds values to names, one by one; the definition has to accept them. -/
def bindNamed (scope : Scope) (id : InstanceId) (definition : Definition) :
    List (String × Expr) → Render Unit
  | [] => return ()
  | (name, expr) :: rest => do
    failIf (!definition.accepts name) (.noSuchAttribute name definition.name)
    bind id name (← below.eval scope expr)
    bindNamed scope id definition rest

/-- Binds what the scope of the call has to a formal argument, unless it is set. -/
def passOne (scope : Scope) (id : InstanceId) (formal : Formal Expr) : Render Unit := do
  if (← getInstance id).attributes.contains formal.name then return ()
  else bindTaken id formal (← ifDeclared (below.resolve scope formal.name))

/-- Binds what the scope of the call has to the formal arguments that are not set. -/
def bindPassed (scope : Scope) (id : InstanceId) : List (Formal Expr) → Render Unit
  | [] => return ()
  | formal :: rest => do
    below.passOne scope id formal
    bindPassed scope id rest

/-- Binds the arguments of a call to a new instance of a definition, where the formal arguments
from `start` on are open to positional ones. -/
def bindArguments (scope : Scope) (id : InstanceId) (definition : Definition)
    (arguments : Arguments Expr) (start : Nat) : Render Unit := do
  if arguments.isEmpty then return ()
  else
    let formals := definition.parameters
    let free := formals.drop start
    let given := arguments.positional.length
    let mismatch : RenderError :=
      .argumentMismatch definition.name formals.length (given + start)
    failIf (given > free.length) mismatch
    failIf (start = 0 ∧ given = 1 ∧ arguments.named.isEmpty ∧ formals.length ≠ 1) mismatch
    below.bindPositional scope id (free.zip arguments.positional)
    below.bindNamed scope id definition arguments.named
    below.bindPassed scope id (if arguments.passThrough then formals else [])
    requireBound id (if given = 0 then [] else free) mismatch

end Evaluator

end Stencil
