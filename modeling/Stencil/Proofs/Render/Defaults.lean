import Stencil.Proofs.Render.Invariant
import Stencil.Proofs.Render.Meaning

/-!
# The values of argument defaults

A render notes what the defaults of arguments are found to be. When the evaluation of a default
begins the default is noted as absent, and when it has a value that is noted. Nothing else is noted,
so the notes on a default are at one of three stages, and from one to the next they only get when
the default is evaluated.
-/

namespace Stencil

open Render

namespace Run

/-- How far the evaluation of a default has come. -/
inductive Stage where
  /-- Nobody asked for the default. -/
  | unread
  /-- Its evaluation began and has not come to a value. -/
  | begun
  /-- Its evaluation has come to a value. -/
  | settled (value : Value)

/-- The notes that belong to a stage, last first. -/
def Stage.notes : Stage → List Value
  | .unread => []
  | .begun => [.absent]
  | .settled value => [value, .absent]

/-- What was noted on the default of an argument of an instance, last first. -/
def notes (run : Run) (id : InstanceId) (name : String) : List Value :=
  run.defaults.filterMap fun (key, value) => if key = (id, name) then some value else none

/-- The default of an argument is at a stage. -/
def At (run : Run) (id : InstanceId) (name : String) (stage : Stage) : Prop :=
  run.notes id name = stage.notes

/-- Every default is at a stage. -/
def Staged (run : Run) : Prop := ∀ id name, ∃ stage, run.At id name stage

/-- A state that comes after another one: no default was asked for again. -/
structure Remembers (before after : Run) : Prop where
  begun : ∀ id name, before.At id name .begun → after.At id name .begun
  settled : ∀ id name value, before.At id name (.settled value) → after.At id name (.settled value)

variable {run before after : Run} {id : InstanceId} {name : String}

/-- Nothing is forgotten where nothing happens. -/
theorem Remembers.refl (run : Run) : run.Remembers run := ⟨fun _ _ h => h, fun _ _ _ h => h⟩

/-- What is remembered twice is remembered. -/
theorem Remembers.trans {first second third : Run} (h : first.Remembers second)
    (h' : second.Remembers third) : first.Remembers third :=
  ⟨fun id name hbegun => h'.begun id name (h.begun id name hbegun),
    fun id name value hsettled => h'.settled id name value (h.settled id name value hsettled)⟩

/-- A default stays at its stage if nothing is noted. -/
theorem at_of_defaults {stage : Stage} (hdefaults : after.defaults = before.defaults)
    (h : before.At id name stage) : after.At id name stage := by
  rwa [At, notes, hdefaults]

/-- So do all defaults. -/
theorem Staged.of_defaults (h : before.Staged) (hdefaults : after.defaults = before.defaults) :
    after.Staged := fun id name =>
  (h id name).imp fun _ => at_of_defaults hdefaults

/-- Then everything is remembered. -/
theorem Remembers.of_defaults (hdefaults : after.defaults = before.defaults) :
    before.Remembers after :=
  ⟨fun _ _ => at_of_defaults hdefaults, fun _ _ _ => at_of_defaults hdefaults⟩

/-- The last note is what a default is known to be. -/
theorem lookup_defaults (run : Run) (id : InstanceId) (name : String) :
    run.defaults.lookup (id, name) = (run.notes id name).head? := by
  unfold notes
  induction run.defaults with
  | nil => rfl
  | cons entry rest ih =>
    obtain ⟨key, value⟩ := entry
    by_cases hkey : key = (id, name)
    · simp [hkey]
    · have hne : ((id, name) == key) = false := beq_false_of_ne (Ne.symm hkey)
      rw [List.lookup_cons, hne, ih]
      simp [hkey]

/-- A new note on a default comes in front of the others. -/
theorem notes_noting_self (run : Run) (id : InstanceId) (name : String) (value : Value) :
    (run.noting id name value).notes id name = value :: run.notes id name := by
  simp [notes, noting]

/-- It does not belong to any other default. -/
theorem notes_noting_of_ne (run : Run) {id other : InstanceId} {name name' : String}
    (h : ¬ (id = other ∧ name = name')) (value : Value) :
    (run.noting id name value).notes other name' = run.notes other name' := by
  have hne : ¬ (id, name) = (other, name') := fun heq => h (Prod.mk.inj heq)
  simp [notes, noting, hne]

/-- A note that takes a default to its next stage keeps all others where they are. -/
theorem Staged.noting (h : run.Staged) {value : Value} {stage : Stage}
    (hnext : (run.noting id name value).At id name stage) : (run.noting id name value).Staged := by
  intro other name'
  by_cases hsame : id = other ∧ name = name'
  · obtain ⟨rfl, rfl⟩ := hsame
    exact ⟨stage, hnext⟩
  · unfold At
    rw [notes_noting_of_ne run hsame]
    exact h other name'

/-- What is known of a state after another one. -/
structure Keeps (before after : Run) : Prop where
  staged : after.Staged
  remembers : before.Remembers after

/-- The stages of defaults are kept if nothing is noted. -/
theorem Keeps.of_defaults (h : before.Staged) (hdefaults : after.defaults = before.defaults) :
    before.Keeps after := ⟨h.of_defaults hdefaults, .of_defaults hdefaults⟩

/-- Stages that are kept twice are kept. -/
theorem Keeps.trans {first second third : Run} (h : first.Keeps second)
    (h' : second.Keeps third) : first.Keeps third :=
  ⟨h'.staged, h.remembers.trans h'.remembers⟩

/-- Notes on a default that nobody had asked for keep what was known before. -/
theorem Remembers.noting (h : before.Remembers after) (hunread : before.At id name .unread)
    (value : Value) : before.Remembers (after.noting id name value) := by
  have hnotes {other : InstanceId} {name' : String} {stage : Stage}
      (hstage : before.At other name' stage) (hread : stage.notes ≠ [])
      (hafter : after.At other name' stage) :
      (after.noting id name value).At other name' stage := by
    have hne : ¬ (id = other ∧ name = name') := by
      rintro ⟨rfl, rfl⟩
      exact hread (hstage.symm.trans hunread)
    rwa [At, notes_noting_of_ne after hne]
  exact ⟨fun _ _ hbegun => hnotes hbegun nofun (h.begun _ _ hbegun),
    fun _ _ _ hsettled => hnotes hsettled nofun (h.settled _ _ _ hsettled)⟩

/-- A default that nobody asked for begins with the note that it is absent. -/
theorem at_noting_of_unread (hunread : run.At id name .unread) :
    (run.noting id name .absent).At id name .begun := by
  rw [At, notes_noting_self, hunread]
  rfl

/-- The note of its value settles a default that has begun. -/
theorem at_noting_of_begun (hbegun : run.At id name .begun) (value : Value) :
    (run.noting id name value).At id name (.settled value) := by
  rw [At, notes_noting_self, hbegun]
  rfl

end Run

/-! ### Reading a default -/

namespace Evaluator

variable (below : Evaluator) (setting : Setting) (scope : Scope) (name : String) (default : Expr)
variable {run : Run}

/-- A default that nobody asked for is evaluated, and its value is noted if it comes to one. -/
theorem evalDefault_unread (h : run.At scope.innermost name .unread) :
    below.evalDefault scope name default setting run =
      match below.defaultValue scope default setting
        (run.noting scope.innermost name .absent) with
      | (.ok value, after) => (.ok value, after.noting scope.innermost name value)
      | (.error halt, after) => (.error halt, after) := by
  apply below.evalDefault_of_unknown
  rw [run.lookup_defaults, show run.notes scope.innermost name = [] from h, List.head?_nil]

/-- While a default is evaluated, and when its evaluation has failed, it counts as absent. -/
theorem evalDefault_begun (h : run.At scope.innermost name .begun) :
    below.evalDefault scope name default setting run = (.ok .absent, run) := by
  apply below.evalDefault_of_known
  rw [run.lookup_defaults, show run.notes scope.innermost name = _ from h]
  rfl

/-- A default that has come to a value comes to that value, and nothing changes. -/
theorem evalDefault_settled {value : Value} (h : run.At scope.innermost name (.settled value)) :
    below.evalDefault scope name default setting run = (.ok value, run) := by
  apply below.evalDefault_of_known
  rw [run.lookup_defaults, show run.notes scope.innermost name = _ from h]
  rfl

end Evaluator

/-! ### Renders keep the stages -/

namespace Render

variable (setting : Setting) {α β : Type}

/-- Two actions do the same where every default is at a stage, and keep what is known. -/
def Memoizes (first second : Render α) : Prop :=
  ∀ run : Run, run.Staged → first setting run = second setting run ∧
    run.Keeps (second setting run).2

variable {setting} {first second : Render α}

/-- An action that notes nothing. -/
theorem memoizes_of_defaults {action : Render α}
    (h : ∀ run, (action setting run).2.defaults = run.defaults) :
    Memoizes setting action action :=
  fun run hrun => ⟨rfl, .of_defaults hrun (h run)⟩

/-- Actions that keep the stages of defaults do so one after the other. -/
theorem Memoizes.bind {next further : α → Render β} (h : Memoizes setting first second)
    (hnext : ∀ value, Memoizes setting (next value) (further value)) :
    Memoizes setting (first >>= next) (second >>= further) := by
  intro run hrun
  obtain ⟨hsame, hkeeps⟩ := h run hrun
  rw [bind_apply, bind_apply, hsame]
  generalize second setting run = outcome at hkeeps ⊢
  obtain ⟨halt | value, after⟩ := outcome
  · exact ⟨rfl, hkeeps⟩
  · obtain ⟨hsame', hkeeps'⟩ := hnext value after hkeeps.staged
    exact ⟨hsame', hkeeps.trans hkeeps'⟩

/-- An action may change the state before another one begins, and its outcome in the end, if it
notes nothing. -/
theorem Memoizes.around {outer outer' : Render β} (h : Memoizes setting first second)
    (prepare : Run → Run) (finish : Run → Except Halt α × Run → Except Halt β × Run)
    (hprepare : ∀ run, (prepare run).defaults = run.defaults)
    (hfinish : ∀ run outcome, (finish run outcome).2.defaults = outcome.2.defaults)
    (hfirst : ∀ run, outer setting run = finish run (first setting (prepare run)))
    (hsecond : ∀ run, outer' setting run = finish run (second setting (prepare run))) :
    Memoizes setting outer outer' := by
  intro run hrun
  obtain ⟨hsame, hkeeps⟩ := h (prepare run) (hrun.of_defaults (hprepare run))
  rw [hfirst, hsecond, hsame]
  refine ⟨rfl, hkeeps.staged.of_defaults (hfinish run _), ?_⟩
  exact (Run.Remembers.of_defaults (hprepare run)).trans
    (hkeeps.remembers.trans (.of_defaults (hfinish run _)))

/-- The value of a default is noted when its evaluation begins, and again when it has come to a
value. In between the default is not evaluated again. -/
theorem Memoizes.evalDefault {below other : Evaluator} {scope : Scope} {default : Expr}
    (name : String)
    (h : Memoizes setting (below.defaultValue scope default) (other.defaultValue scope default)) :
    Memoizes setting (below.evalDefault scope name default)
      (other.evalDefault scope name default) := by
  intro run hrun
  obtain ⟨stage, hstage⟩ := hrun scope.innermost name
  cases stage with
  | unread =>
    have hbegun := Run.at_noting_of_unread hstage
    obtain ⟨hsame, hkeeps⟩ := h _ (hrun.noting hbegun)
    have hremembers := ((Run.Remembers.refl run).noting hstage .absent).trans hkeeps.remembers
    rw [below.evalDefault_unread setting scope name default hstage,
      other.evalDefault_unread setting scope name default hstage, hsame]
    have hafter := hkeeps.remembers.begun _ _ hbegun
    generalize other.defaultValue scope default setting _ = outcome at hkeeps hremembers hafter ⊢
    obtain ⟨halt | value, after⟩ := outcome
    · exact ⟨rfl, hkeeps.staged, hremembers⟩
    · exact ⟨rfl, hkeeps.staged.noting (Run.at_noting_of_begun hafter value),
        hremembers.noting hstage value⟩
  | begun =>
    rw [below.evalDefault_begun setting scope name default hstage,
      other.evalDefault_begun setting scope name default hstage]
    exact ⟨rfl, .of_defaults hrun rfl⟩
  | settled value =>
    rw [below.evalDefault_settled setting scope name default hstage,
      other.evalDefault_settled setting scope name default hstage]
    exact ⟨rfl, .of_defaults hrun rfl⟩

/-- The judgement that two renders keep the stages of defaults, and do the same meanwhile. -/
def memoization (setting : Setting) : Logic Bool where
  Holds _ a _ := Memoizes setting (a false) (a true)
  Frame _ := True
  Fresh _ := True
  Proper _ := True
  Start _ := True
  Stored _ _ := True
  Listed _ _ _ := True
  Known _ _ := True

variable (setting)

/-- The judgement is passed on where actions follow each other. -/
theorem compositional_memoization : (memoization setting).Compositional where
  pure _ := memoizes_of_defaults fun _ => rfl
  bind := Memoizes.bind
  weaken _ _ h := h

/-- It holds of all actions of a render but for asking for a default. -/
theorem lawful_memoization : (memoization setting).Lawful where
  toCompositional := compositional_memoization setting
  closed := .trivial
  frame _ := trivial
  fail _ _ := memoizes_of_defaults fun _ => rfl
  getInstance id h := (compositional_memoization setting).getInstance (fun _ _ _ => rfl)
    (memoizes_of_defaults fun _ => by rw [getInstance_apply]) h
  getCreated id h := (compositional_memoization setting).getCreated
    (memoizes_of_defaults fun _ => by rw [getInstance_apply]) h
  readAttribute name hfits h := (compositional_memoization setting).readAttribute
    (fun _ _ _ => rfl) (memoizes_of_defaults fun _ => by rw [noteRead_apply]) hfits h
  create scope definition := memoizes_of_defaults fun run => by
    rw [create_apply]
    cases run.instances[scope.innermost.index]? <;> rfl
  inlineOwner _ _ := memoizes_of_defaults fun _ => rfl
  above _ _ := memoizes_of_defaults fun _ => by rw [above_apply]
  lookup _ _ := memoizes_of_defaults fun _ => rfl
  dictionary _ _ := memoizes_of_defaults fun _ => rfl
  assign _ _ _ := memoizes_of_defaults fun _ => rfl
  bindVariables _ _ := memoizes_of_defaults fun _ => rfl
  -- This is the one action that takes notes.
  evalDefault name h := Memoizes.evalDefault name h
  isLenient := memoizes_of_defaults fun _ => rfl
  truthy _ := memoizes_of_defaults fun _ => rfl
  ownProperty _ _ := memoizes_of_defaults fun _ => by rw [ownProperty_apply]
  next _ := memoizes_of_defaults fun _ => rfl
  drain _ := memoizes_of_defaults fun _ => rfl
  scalarText _ _ _ := memoizes_of_defaults fun _ => by rw [scalarText_apply, rendering_apply]
  leniently lenient h := h.around (fun run => { run with lenient })
    (fun run => cleaned fun after => { after with lenient := run.lenient }) (fun _ => rfl)
    (fun _ _ => rfl) (fun run => leniently_apply _ run lenient _)
    fun run => leniently_apply _ run lenient _
  ifDeclared h := h.around id (fun _ outcome => (declared outcome.1, outcome.2)) (fun _ => rfl)
    (fun _ _ => rfl) (fun run => ifDeclared_apply _ run _) fun run => ifDeclared_apply _ run _
  write _ := memoizes_of_defaults fun _ => by rw [writing_apply]
  writeToken _ _ := memoizes_of_defaults fun _ => by rw [writing_apply]
  wrap _ _ := memoizes_of_defaults fun _ => by rw [writing_apply]
  capture h := h.around (fun run => { run with out := capturing setting.config }) captured
    (fun _ => rfl) (fun _ _ => rfl) (fun run => capture_apply _ run _)
    fun run => capture_apply _ run _
  indented indent h := by
    cases indent with
    | none => exact h
    | some indent =>
      exact h.around (fun run => { run with out := run.out.pushIndent indent })
        (fun _ => cleaned fun after => { after with out := after.out.popIndent.2 })
        (fun _ => rfl) (fun _ _ => rfl) (fun run => indented_apply _ run indent _)
        fun run => indented_apply _ run indent _
  anchored anchor h := by
    cases anchor with
    | false => exact h
    | true =>
      exact h.around (fun run => { run with out := run.out.pushAnchor })
        (fun _ => cleaned fun after => { after with out := after.out.popAnchor })
        (fun _ => rfl) (fun _ _ => rfl) (fun run => anchored_apply _ run _)
        fun run => anchored_apply _ run _

/-- It holds of whole renders. -/
theorem ordinary_memoization : (memoization setting).Ordinary where
  toLawful := lawful_memoization setting
  outOfFuel := memoizes_of_defaults fun _ => rfl
  enter id name a h := by
    have hnoted : Memoizes setting (Evaluator.noteWritten id) (Evaluator.noteWritten id) :=
      memoizes_of_defaults fun _ => by rw [noteWritten_apply]
    have hbody := hnoted.bind fun _ => h
    intro run hrun
    simp only [guarded_apply]
    split
    · exact ⟨rfl, .of_defaults hrun rfl⟩
    · have hinner : Memoizes setting
          (fun setting run => cleaned (fun after => { after with active := after.active.tail })
            ((Evaluator.noteWritten id >>= fun _ => a false) setting
              { run with active := id :: run.active }))
          (fun setting run => cleaned (fun after => { after with active := after.active.tail })
            ((Evaluator.noteWritten id >>= fun _ => a true) setting
              { run with active := id :: run.active })) :=
        hbody.around (fun run => { run with active := id :: run.active })
          (fun _ => cleaned fun after => { after with active := after.active.tail })
          (fun _ => rfl) (fun _ _ => rfl) (fun _ => rfl) fun _ => rfl
      exact hinner run hrun

/-- Renders may be replaced by others that do the same where every default is at a stage. -/
theorem replaces_memoization : (memoization setting).Replaces setting Run.Staged := by
  intro α pre post a b h hfalse htrue run hrun
  rw [htrue, hfalse run hrun]
  exact h run hrun

end Render

end Stencil
