import Stencil.Proofs.Engine.Reachable
import Stencil.Proofs.Render.Writing
import Stencil.Proofs.Writer.Balance

/-!
# Renders in balance

Indentation strings and anchors are put in force in many places of a render, often inside one
another, and a render may be stopped at any of them. Wherever that is, what was put in force is
withdrawn on the way out, so that the writer of the caller is set up as it was.
-/

namespace Stencil

open Render

namespace Render

/-- A render leaves its writer in balance from every state, whether it is stopped or not. -/
def Balances {α : Type} (action : Render α) : Prop :=
  ∀ (setting : Setting) (run : Run), run.out.Balanced (action setting run).2.out

variable {α β : Type} {action : Render α}

/-- An action that leaves the writer alone leaves it in balance. -/
theorem balances_of_out (h : ∀ setting run, (action setting run).2.out = run.out) :
    Balances action :=
  fun setting run => (h setting run).symm ▸ .refl run.out

/-- Actions that leave the writer in balance do so one after the other. -/
theorem Balances.bind {next : α → Render β} (h : Balances action)
    (hnext : ∀ value, Balances (next value)) : Balances (action >>= next) := by
  intro setting run
  have hfirst := h setting run
  rw [bind_apply]
  rcases heq : action setting run with ⟨_ | value, after⟩ <;> rw [heq] at hfirst
  · exact hfirst
  · exact hfirst.trans (hnext value setting after)

/-- An operation that leaves writers in balance does so in a render. -/
theorem balances_writing {operation : Writer.Writing Nat} (h : Writer.Balances operation) :
    Balances (writing operation) := by
  intro setting run
  rw [writing_apply]
  exact h run.out

/-- An indentation that is pushed is popped, so the writer is in balance after it. -/
theorem Balances.indented (h : Balances action) (indent : Option String) :
    Balances (indented indent action) := by
  intro setting run
  cases indent with
  | none => exact h setting run
  | some indent =>
    rw [indented_apply]
    exact (h setting { run with out := run.out.pushIndent indent }).popIndent

/-- So it is after an anchor. -/
theorem Balances.anchored (h : Balances action) (anchor : Bool) :
    Balances (anchored anchor action) := by
  intro setting run
  cases anchor with
  | false => exact h setting run
  | true =>
    rw [anchored_apply]
    exact (h setting { run with out := run.out.pushAnchor }).popAnchor

/-- So it is after what is guarded. -/
theorem Balances.guarded (h : Balances action) (id : InstanceId) (name : String) :
    Balances (guarded id name action) := by
  intro setting run
  rw [guarded_apply]
  split
  · exact .refl run.out
  · exact h setting { run with active := id :: run.active }

/-- A permission does not concern the writer. -/
theorem Balances.leniently (h : Balances action) (lenient : Bool) :
    Balances (leniently lenient action) := by
  intro setting run
  rw [leniently_apply]
  exact h setting { run with lenient }

/-- Nor does the question whether a name is declared. -/
theorem Balances.ifDeclared {action : Render Value} (h : Balances action) :
    Balances (ifDeclared action) := by
  intro setting run
  rw [ifDeclared_apply]
  exact h setting run

/-- The judgement that renders leave their writer in balance. -/
def balance : Logic Unit where
  Holds _ a _ := Balances (a ())
  Frame _ := True
  Fresh _ := True
  Proper _ := True
  Start _ := True
  Stored _ _ := True
  Listed _ _ _ := True
  Known _ _ := True

/-- An action that leaves the writer alone leaves it in balance. -/
theorem holds_of_out {pre : Prop} {post : α → Prop}
    (h : ∀ setting run, (action setting run).2.out = run.out) :
    balance.Holds pre (fun _ => action) post :=
  balances_of_out h

/-- The judgement is passed on where actions follow each other. -/
theorem compositional_balance : balance.Compositional where
  pure _ := holds_of_out fun _ _ => rfl
  bind := Balances.bind
  weaken _ _ h := h

/-- It holds of looking up an instance. -/
theorem holds_getInstance (id : InstanceId) :
    balance.Holds True (fun _ => getInstance id) (balance.Fits id) :=
  holds_of_out fun _ _ => by rw [getInstance_apply]

/-- It holds of all actions of a render. -/
theorem lawful_balance : balance.Lawful where
  toCompositional := compositional_balance
  closed := .trivial
  frame _ := trivial
  fail _ _ := holds_of_out fun _ _ => rfl
  getInstance id h := compositional_balance.getInstance (fun _ _ _ => rfl) (holds_getInstance id) h
  getCreated id h := compositional_balance.getCreated (holds_getInstance id) h
  readAttribute _ hfits h := compositional_balance.readAttribute (fun _ _ _ => rfl)
    (holds_of_out fun _ _ => by rw [noteRead_apply]) hfits h
  create scope definition := holds_of_out fun _ run => by
    rw [create_apply]
    cases run.instances[scope.innermost.index]? <;> rfl
  inlineOwner _ _ := holds_of_out fun _ _ => rfl
  above _ _ := holds_of_out fun _ _ => by rw [above_apply]
  lookup _ _ := holds_of_out fun _ _ => rfl
  dictionary _ _ := holds_of_out fun _ _ => rfl
  assign _ _ _ := holds_of_out fun _ _ => rfl
  bindVariables _ _ := holds_of_out fun _ _ => rfl
  evalDefault := compositional_balance.evalDefault trivial
    (fun _ _ => holds_of_out fun _ _ => rfl) fun _ _ _ => holds_of_out fun _ _ => rfl
  isLenient := holds_of_out fun _ _ => rfl
  truthy _ := holds_of_out fun _ _ => rfl
  ownProperty _ _ := holds_of_out fun _ _ => by rw [ownProperty_apply]
  next _ := holds_of_out fun _ _ => rfl
  drain _ := holds_of_out fun _ _ => rfl
  scalarText _ _ _ := holds_of_out fun _ _ => by rw [scalarText_apply, rendering_apply]
  write text := balances_writing (Writer.balances_write text)
  writeToken text wrap := balances_writing (Writer.balances_writeToken text wrap)
  wrap text width := balances_writing (Writer.balances_wrap text width)
  -- What is captured goes to a writer of its own, and the one of the caller is taken up again.
  capture _ := holds_of_out fun _ _ => rfl
  indented indent h := Balances.indented h indent
  anchored anchor h := Balances.anchored h anchor
  leniently lenient h := Balances.leniently h lenient
  ifDeclared h := Balances.ifDeclared h

/-- It holds of whole renders. -/
theorem ordinary_balance : balance.Ordinary where
  toLawful := lawful_balance
  outOfFuel := holds_of_out fun _ _ => rfl
  enter id name _ h := by
    have hnoted : Balances (Evaluator.noteWritten id) :=
      balances_of_out fun _ _ => by rw [noteWritten_apply]
    exact (hnoted.bind fun _ => h).guarded id name

end Render

namespace Engine

/-- Whatever number of levels evaluation may have, the run of an instance leaves its writer in
balance. -/
theorem balanced_runWithin (fuel : Nat) (engine : Engine) (id : InstanceId) (out : Writer) :
    out.Balanced (engine.runWithin fuel id out).2.out := by
  have hexec : Render.Balances ((Evaluator.upTo fuel).exec [] id) :=
    (Render.ordinary_balance.sound fuel).exec [] id
  exact hexec engine.setting (engine.start out)

/-- A render leaves the writer of its caller in balance, whether it yields a text, fails, is
refused a write, or is asked for an instance that was never issued, and whatever was in force
before it. -/
theorem balanced_write (engine : Engine) (id : InstanceId) (out : Writer) :
    out.Balanced (engine.write id out).out := by
  rw [write, writeWithin]
  split
  · exact .refl out
  · exact balanced_runWithin fuel engine id out

/-- The sink refuses a write in the second line of an anchored and indented instance, on a writer
that had an indentation string and an anchor in force before. -/
example :
    let engine := ({} : Engine).after
      [.defineGroup "g" .angle, .declare ⟨0⟩ (.template "lines" none [.literal "a\nb"]),
        .declare ⟨0⟩ (.template "page" none
          [.literal "  ", .expression (.call { callee := .named "lines" }) { anchor := true }]),
        .instanceOf ⟨0⟩ "page"]
    let written := engine.write ⟨0⟩ { sink := .limited 6, indents := ["\t"], anchors := [1] }
    written.result.toOption = none ∧ written.out.sink.text = "\t  a\n\t" ∧
      written.out.indents = ["\t"] ∧ written.out.anchors = [1] := by
  decide +kernel

end Engine

end Stencil
