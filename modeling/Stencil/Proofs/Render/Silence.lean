import Stencil.Proofs.Render.Steps
import Stencil.Proofs.Render.Writing

/-!
# Evaluation is silent

Only the functions that write touch the writer of a render. Evaluating an expression neither changes
it nor looks at it: even what an expression is rendered to in between goes to a writer of its own.
So what is said of a render's text has to be said of the writing functions only, and evaluation may
be passed over.
-/

namespace Stencil

open Render

namespace Render

/-- An action that has nothing to do with the writer: it does the same with any other one, and
leaves that as it is. -/
def Silent {α : Type} (action : Render α) : Prop :=
  ∀ (setting : Setting) (run : Run) (out : Writer), action setting { run with out } =
    ((action setting run).1, { (action setting run).2 with out })

variable {α β : Type} {action : Render α}

/-- The writer after a silent action is the one before it. -/
theorem Silent.out_eq (h : Silent action) (setting : Setting) (run : Run) :
    (action setting run).2.out = run.out :=
  congrArg (fun outcome => outcome.2.out) (h setting run run.out)

/-- An answer has nothing to do with the writer. -/
theorem silent_pure (value : α) : Silent (pure value) := fun _ _ _ => rfl

/-- Nor have silent actions one after the other. -/
theorem Silent.bind {next : α → Render β} (h : Silent action)
    (hnext : ∀ value, Silent (next value)) : Silent (action >>= next) := by
  intro setting run out
  rw [bind_apply, bind_apply, h setting run out]
  rcases action setting run with ⟨_ | value, after⟩
  · rfl
  · exact hnext value setting after out

/-- Nor has a failure. -/
theorem silent_fail (error : RenderError) : Silent (fail error : Render α) := fun _ _ _ => rfl

/-- What is captured goes to a writer of its own, whatever it is. -/
theorem silent_capture (action : Render Nat) : Silent (capture action) := fun _ _ _ => rfl

/-- Nor has looking up an instance. -/
theorem silent_getInstance (id : InstanceId) : Silent (getInstance id) := fun _ _ _ => by
  rw [getInstance_apply, getInstance_apply]

/-- Nor has noting a read. -/
theorem silent_noteRead (id : InstanceId) (name : String) : Silent (noteRead id name) :=
  fun _ _ _ => by rw [noteRead_apply, noteRead_apply]

/-- Nor has creating an instance. -/
theorem silent_create (scope : Scope) (definition : Definition) :
    Silent (create scope definition) := fun _ run _ => by
  rw [create_apply, create_apply]
  cases run.instances[scope.innermost.index]? <;> rfl

/-- Nor has looking up a super-group. -/
theorem silent_above (group : GroupId) (name : String) : Silent (above group name) :=
  fun _ _ _ => by rw [above_apply, above_apply]

/-- Nor has looking up a property. -/
theorem silent_ownProperty (value : Value) (name : String) : Silent (ownProperty value name) :=
  fun _ _ _ => by rw [ownProperty_apply, ownProperty_apply]

/-- Nor has the text of a scalar, which is not written here. -/
theorem silent_scalarText (scope : Scope) (scalar : Scalar) (format : Option String) :
    Silent (scalarText scope scalar format) := fun _ _ _ => by
  rw [scalarText_apply, scalarText_apply, rendering_apply, rendering_apply]

/-- A silent action is silent under a permission of its own. -/
theorem Silent.leniently (h : Silent action) (lenient : Bool) :
    Silent (leniently lenient action) := fun setting run out => by
  rw [leniently_apply, leniently_apply]
  exact congrArg _ (h setting { run with lenient } out)

/-- It is silent where a name may not be declared. -/
theorem Silent.ifDeclared {action : Render Value} (h : Silent action) :
    Silent (ifDeclared action) := fun setting run out => by
  rw [ifDeclared_apply, ifDeclared_apply, h setting run out]

/-- The judgement that actions are silent. -/
def silence : Logic Unit := .ofProperty Silent

/-- The judgement is passed on where actions follow each other. -/
theorem compositional_silence : silence.Compositional :=
  Logic.compositional_ofProperty silent_pure Silent.bind

/-- It holds of all actions of evaluation. -/
theorem quiet_silence : silence.Quiet where
  toCompositional := compositional_silence
  closed := .trivial
  frame _ := trivial
  fail error _ := silent_fail error
  getInstance id h :=
    compositional_silence.getInstance (fun _ _ _ => rfl) (silent_getInstance id) h
  getCreated id h := compositional_silence.getCreated (silent_getInstance id) h
  readAttribute name hfits h :=
    compositional_silence.readAttribute (fun _ _ _ => rfl) (silent_noteRead _ name) hfits h
  create := silent_create
  inlineOwner _ _ _ _ _ := rfl
  above := silent_above
  lookup _ _ _ _ _ := rfl
  dictionary _ _ _ _ _ := rfl
  assign _ _ _ _ _ _ := rfl
  bindVariables _ _ _ _ _ := rfl
  evalDefault := compositional_silence.evalDefault trivial (fun _ _ _ _ _ => rfl)
    fun _ _ _ _ _ _ => rfl
  isLenient _ _ _ := rfl
  truthy _ _ _ _ := rfl
  ownProperty := silent_ownProperty
  next _ _ _ _ := rfl
  drain _ _ _ _ := rfl
  scalarText := silent_scalarText
  ifDeclared h := Silent.ifDeclared h

/-- It holds of captured texts, since these are written to a writer of their own. -/
theorem captures_silence (below : Unit → Evaluator) (pre : Prop) (scope : Scope) :
    silence.Captures below pre scope where
  inside _ _ _ := trivial
  value _ := silent_capture _
  exec _ := silent_capture _

/-- Evaluating an expression is silent at every level. -/
theorem silent_eval (fuel : Nat) (scope : Scope) (expr : Expr) :
    Silent ((Evaluator.upTo fuel).eval scope expr) :=
  quiet_silence.evaluates (fun _ _ _ => rfl)
    (fun fuel scope => captures_silence (fun _ => Evaluator.upTo fuel) _ scope) fuel scope expr

/-- So it is at a level above any silent one. -/
theorem silent_evalExpr {below : Evaluator} (h : ∀ scope expr, Silent (below.eval scope expr))
    (scope : Scope) (expr : Expr) : Silent (below.evalExpr scope expr) := by
  have hexpr : silence.Holds (silence.Inside scope) (fun _ => below.evalExpr scope expr)
      silence.Proper :=
    quiet_silence.evalExpr (quiet_silence.supports
      (fun scope => captures_silence (fun _ => below) _ scope) h scope _ _)
  exact hexpr

section

variable {below : Evaluator} {scope : Scope} (h : ∀ expr, Silent (below.eval scope expr))
include h

/-- So evaluating options has nothing to do with the writer. -/
theorem silent_evalOptions (options : Options Expr) : Silent (below.evalOptions scope options) :=
  quiet_silence.evalOptions (captures_silence (fun _ => below) True scope) fun part _ => h part

/-- Nor has choosing a branch. -/
theorem silent_choose (otherwise : List Node) (branches : List (Branch Expr Node)) :
    Silent (below.choose scope otherwise branches) := by
  have heval (expr : Expr) :
      silence.Holds True (fun _ => below.eval scope expr) silence.Proper := h expr
  exact quiet_silence.choose otherwise fun branch _ => heval branch.test

end

/-- Nor has finding where the search for a region starts. -/
theorem silent_regionStart (scope : Scope) (data : Instance) (name : String) (ascending : Bool) :
    Silent (Evaluator.regionStart scope data name ascending) := by
  have hstart : silence.Holds (True ∧ silence.Fits scope.innermost data) _ _ :=
    quiet_silence.regionStart (fun _ _ _ => trivial) data name ascending
  exact hstart

end Render

end Stencil
