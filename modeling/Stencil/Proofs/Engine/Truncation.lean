import Stencil.Proofs.Engine.Reachable
import Stencil.Proofs.Render.Silence
import Stencil.Proofs.Writer.Truncation

/-!
# Renders into sinks that refuse calls

The sink may refuse a call anywhere in a render: inside indentation, padding, a line break, a
separator or a wrap, and while arguments are passed through, where some errors are caught. Wherever
it is, the render stops there. It fails because of the refused call and for no other reason, and
what it wrote before is what the same render writes that is never refused a call.
-/

namespace Stencil

open Render

namespace Run

/-- The sink of a run. -/
def outlet : Outlet Run Halt where
  sink run := run.out.sink
  freed run := { run with out := run.out.freed }
  refusal := .failed .writeRefused
  sink_freed _ := rfl
  freed_eq run h := congrArg (fun sink => { run with out := { run.out with sink } }) h

end Run

namespace Render

/-- Refusals only truncate what an action writes. -/
def Truncates {α : Type} (action : Render α) : Prop :=
  ∀ setting, Run.outlet.Truncates (action setting)

variable {α β : Type} {action : Render α}

/-- An action that does not write makes no call. -/
theorem Silent.truncates (h : Silent action) : Truncates action := fun setting =>
  Outlet.truncates_of_silent (fun run => congrArg Writer.sink (h.out_eq setting run)) fun run => by
    refine (h setting run run.out.freed).trans ?_
    rw [← h.out_eq setting run]
    rfl

/-- If refusals only truncate what two actions write, they do so with one after the other. -/
theorem Truncates.bind {next : α → Render β} (h : Truncates action)
    (hnext : ∀ value, Truncates (next value)) : Truncates (action >>= next) := by
  intro setting
  refine Outlet.Truncates.bind (h setting) (fun value => hnext value setting) fun run => ?_
  rw [bind_apply]
  rcases action setting run with ⟨_ | _, _⟩ <;> rfl

/-- They only truncate an operation of the writer, and the refusal fails the render. -/
theorem truncates_writing {operation : Writer.Writing Nat} (h : Writer.Truncates operation) :
    Truncates (writing operation) := by
  intro setting run
  obtain ⟨pieces, hcalls, hwhole, hcomplete, hrefused⟩ := h run.out
  refine ⟨pieces, ?_, ?_, fun htaken => ?_, fun htaken => ?_⟩
  · rw [writing_apply]
    exact hcalls
  · rw [writing_apply]
    exact hwhole
  · have hfreed : operation (Run.outlet.freed run).out = _ := hcomplete htaken
    rw [writing_apply, writing_apply, hfreed]
    rfl
  · rw [writing_apply, hrefused htaken]
    rfl

/-- What is done around an action leaves the sink alone and swallows no refusal. -/
theorem Truncates.cleaned {inner : Render α} (h : Truncates inner) (prepare : Run → Run)
    (cleanup : Run → Run → Run)
    (hprepare : ∀ run, (prepare run).out.sink = run.out.sink ∧
      prepare (Run.outlet.freed run) = Run.outlet.freed (prepare run))
    (hcleanup : ∀ run after, (cleanup run after).out.sink = after.out.sink ∧
      cleanup (Run.outlet.freed run) (Run.outlet.freed after) =
        Run.outlet.freed (cleanup run after))
    (happly : ∀ setting run, action setting run =
      Render.cleaned (cleanup run) (inner setting (prepare run))) : Truncates action := by
  intro setting
  refine (h setting).around prepare (fun run => Render.cleaned (cleanup run)) hprepare
    (fun run outcome => ⟨(hcleanup run outcome.2).1, ?_⟩) (fun _ _ hresult => hresult)
    (happly setting)
  exact Prod.ext rfl (hcleanup run outcome.2).2

/-- They only truncate an action within an indentation. -/
theorem Truncates.indented (h : Truncates action) (indent : Option String) :
    Truncates (indented indent action) := by
  cases indent with
  | none => exact h
  | some indent =>
    refine h.cleaned (fun run => { run with out := run.out.pushIndent indent })
      (fun _ after => { after with out := after.out.popIndent.2 }) (fun run => ?_)
      (fun _ after => ?_) fun setting run => indented_apply setting run indent action
    · exact ⟨run.out.sink_pushIndent indent,
        congrArg (fun out => { run with out }) (run.out.freed_pushIndent indent)⟩
    · exact ⟨after.out.sink_popIndent,
        congrArg (fun out => { after with out }) after.out.freed_popIndent⟩

/-- They only truncate one within an anchor. -/
theorem Truncates.anchored (h : Truncates action) (anchor : Bool) :
    Truncates (anchored anchor action) := by
  cases anchor with
  | false => exact h
  | true =>
    exact h.cleaned (fun run => { run with out := run.out.pushAnchor })
      (fun _ after => { after with out := after.out.popAnchor }) (fun _ => ⟨rfl, rfl⟩)
      (fun _ _ => ⟨rfl, rfl⟩) fun setting run => anchored_apply setting run action

/-- They only truncate one under a permission of its own. -/
theorem Truncates.leniently (h : Truncates action) (lenient : Bool) :
    Truncates (leniently lenient action) :=
  h.cleaned (fun run => { run with lenient })
    (fun run after => { after with lenient := run.lenient })
    (fun _ => ⟨rfl, rfl⟩) (fun _ _ => ⟨rfl, rfl⟩)
    fun setting run => leniently_apply setting run lenient action

/-- Passing arguments through catches no refusal: what it catches is that a name is not declared. -/
theorem Truncates.ifDeclared {action : Render Value} (h : Truncates action) :
    Truncates (ifDeclared action) := fun setting =>
  (h setting).around id (fun _ outcome => (declared outcome.1, outcome.2)) (fun _ => ⟨rfl, rfl⟩)
    (fun _ _ => ⟨rfl, rfl⟩) (fun _ _ hresult => congrArg declared hresult)
    fun run => ifDeclared_apply setting run action

/-- They only truncate one under the guard, which looks at the stack and not at the writer. -/
theorem Truncates.guarded (h : Truncates action) (id : InstanceId) (name : String) :
    Truncates (guarded id name action) := by
  intro setting run
  rw [guarded_apply, guarded_apply]
  have hrefuses : Run.refuses (Run.outlet.freed run) setting.config.maxDepth id =
    Run.refuses run setting.config.maxDepth id := rfl
  rw [hrefuses]
  split
  · exact (silent_fail _).truncates setting run
  · have hinner : Truncates fun setting run =>
        Render.cleaned (fun after => { after with active := after.active.tail })
          (action setting { run with active := id :: run.active }) :=
      h.cleaned (fun run => { run with active := id :: run.active })
        (fun _ after => { after with active := after.active.tail }) (fun _ => ⟨rfl, rfl⟩)
        (fun _ _ => ⟨rfl, rfl⟩) fun _ _ => rfl
    exact hinner setting run

/-- The judgement that refusals only truncate. -/
def truncation : Logic Unit := .ofProperty Truncates

/-- The judgement is passed on where actions follow each other. -/
theorem compositional_truncation : truncation.Compositional :=
  Logic.compositional_ofProperty (fun value => (silent_pure value).truncates) Truncates.bind

/-- It holds of all actions of a render, since a refusal is caught nowhere. -/
theorem lawful_truncation : truncation.Lawful where
  toCompositional := compositional_truncation
  closed := .trivial
  frame _ := trivial
  fail error _ := (silent_fail error).truncates
  getInstance id h := compositional_truncation.getInstance (fun _ _ _ => rfl)
    (silent_getInstance id).truncates h
  getCreated id h := compositional_truncation.getCreated (silent_getInstance id).truncates h
  readAttribute name hfits h := compositional_truncation.readAttribute (fun _ _ _ => rfl)
    (silent_noteRead _ name).truncates hfits h
  create scope definition := (silent_create scope definition).truncates
  inlineOwner label owner := (quiet_silence.inlineOwner label owner).truncates
  above group name := (silent_above group name).truncates
  lookup start name := (quiet_silence.lookup start name).truncates
  dictionary start name := (quiet_silence.dictionary start name).truncates
  assign id name value := (quiet_silence.assign id name value).truncates
  bindVariables id iteration := (quiet_silence.bindVariables id iteration).truncates
  evalDefault := compositional_truncation.evalDefault trivial
    (fun _ _ => Silent.truncates fun _ _ _ => rfl) fun _ _ _ => Silent.truncates fun _ _ _ => rfl
  isLenient := quiet_silence.isLenient.truncates
  truthy value := (quiet_silence.truthy value).truncates
  ownProperty value name := (silent_ownProperty value name).truncates
  next cursor := (quiet_silence.next cursor).truncates
  drain cursor := (quiet_silence.drain cursor).truncates
  scalarText scope scalar format := (silent_scalarText scope scalar format).truncates
  leniently lenient h := Truncates.leniently h lenient
  ifDeclared h := Truncates.ifDeclared h
  write text := truncates_writing (Writer.truncates_write text)
  writeToken text wrap := truncates_writing (Writer.truncates_writeToken text wrap)
  wrap text width := truncates_writing (Writer.truncates_wrap text width)
  capture _ := (silent_capture _).truncates
  indented indent h := Truncates.indented h indent
  anchored anchor h := Truncates.anchored h anchor

/-- It holds of whole renders. -/
theorem ordinary_truncation : truncation.Ordinary where
  toLawful := lawful_truncation
  outOfFuel := Silent.truncates fun _ _ _ => rfl
  enter id name _ h := by
    have hnoted : Silent (Evaluator.noteWritten id) := fun _ _ _ => by
      rw [noteWritten_apply, noteWritten_apply]
    exact (hnoted.truncates.bind fun _ => h).guarded id name

end Render

namespace Engine

/-- A render into a sink that may refuse calls, beside the same render into one that takes every
call. -/
structure Truncated (sink : Sink) (pieces : List String) (here there : Written) : Prop where
  /-- Where every call is taken, the render makes these calls. -/
  whole : there.out.sink = (sink.freed.feed pieces).2
  /-- The same calls are made here, up to the first one that is refused. -/
  calls : here.out.sink = (sink.feed pieces).2
  /-- If none of them is refused, then there is no difference. -/
  complete : (sink.feed pieces).1 = true → there = { here with out := here.out.freed }
  /-- If one is refused, then the render fails, and for this reason. The refused call is the last
  one, and what was written before it is where the whole text begins. -/
  refused : (sink.feed pieces).1 = false → here.result = .error (.failed .writeRefused) ∧
    (∃ taken piece rest, pieces = taken ++ piece :: rest ∧
      sink.accepts (sink.calls + taken.length) (taken.foldl (· ++ ·) sink.text) piece = false ∧
      here.out.sink = { sink with
        text := taken.foldl (· ++ ·) sink.text, calls := sink.calls + taken.length + 1 }) ∧
    ∃ rest, there.out.sink.text = here.out.sink.text ++ rest

/-- A render with a given number of levels is truncated at the first refused call. -/
theorem truncated_runWithin (fuel : Nat) (engine : Engine) (id : InstanceId) (out : Writer) :
    ∃ pieces, Run.outlet.Truncated pieces (engine.start out) (engine.runWithin fuel id out)
      (engine.runWithin fuel id out.freed) :=
  (Render.ordinary_truncation.sound fuel).exec [] id engine.setting (engine.start out)

/-- So is what is handed back to the caller. -/
theorem truncated_writeWithin (fuel : Nat) (engine : Engine) (id : InstanceId) (out : Writer) :
    ∃ pieces, Truncated out.sink pieces (engine.writeWithin fuel id out)
      (engine.writeWithin fuel id out.freed) := by
  rw [writeWithin, writeWithin]
  split
  · exact ⟨[], rfl, rfl, fun _ => rfl, nofun⟩
  · obtain ⟨pieces, hruns⟩ := truncated_runWithin fuel engine id out
    generalize engine.runWithin fuel id out = here at hruns ⊢
    generalize engine.runWithin fuel id out.freed = there at hruns ⊢
    obtain ⟨hcalls, hwhole, hcomplete, hrefused⟩ := hruns
    refine ⟨pieces, hwhole, hcalls, fun htaken => ?_, fun hnot => ⟨hrefused hnot, ?_, ?_⟩⟩
    · obtain rfl := hcomplete htaken
      rfl
    · obtain ⟨taken, piece, rest, heq, hrefuses, hafter⟩ := out.sink.exists_refused hnot
      exact ⟨taken, piece, rest, heq, hrefuses, hcalls.trans hafter⟩
    · obtain ⟨rest, htext⟩ := out.sink.exists_text_feed pieces
      have hhere : here.2.out.sink = (out.sink.feed pieces).2 := hcalls
      have hthere : there.2.out.sink = (out.sink.freed.feed pieces).2 := hwhole
      rw [← hhere, ← hthere] at htext
      exact ⟨rest, htext⟩

/-- A sink that refuses a call only truncates what a render writes, whatever the engine, the
instance and the writer are: either no call is refused and nothing else is different, or the render
fails with the refusal and has written the beginning of the text. -/
theorem truncated_write (engine : Engine) (id : InstanceId) (out : Writer) :
    ∃ pieces, Truncated out.sink pieces (engine.write id out) (engine.write id out.freed) :=
  truncated_writeWithin fuel engine id out

end Engine

end Stencil
