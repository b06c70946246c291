import Stencil.Proofs.Render.Steps
import Stencil.Proofs.Render.Writing

/-!
# Renders that are stopped

Two renders are compared of which the first one may be stopped where the second one goes on. What
stops it is raised and caught nowhere: not where texts are captured, not where the default of an
argument is evaluated, and not where arguments are passed through and a name need not be declared.
So the first render either ends with what stopped it, or the two are the same.

The second render may be nested deeper, and it may write the line breaks of captured texts in
another way. Evaluation looks at the latter nowhere else, so that renders with different line breaks
can be compared as long as it is known of captured texts that they are the same.
-/

namespace Stencil

open Render

/-- Two renders have the same outcome, where an answer may be another one that goes with it. -/
inductive Render.Answers {α β : Type} (post : α → β → Prop) : Except Halt α → Except Halt β → Prop
  | ok {value : α} {other : β} (h : post value other) : Answers post (.ok value) (.ok other)
  | error (halt : Halt) : Answers post (.error halt) (.error halt)

namespace Render.Answers

variable {α β : Type} {post further : α → β → Prop}

/-- A result goes with itself. -/
theorem refl (result : Except Halt α) : Answers Eq result result := by
  cases result with
  | ok value => exact .ok rfl
  | error halt => exact .error halt

/-- Results that go together by equality are equal. -/
theorem eq {result other : Except Halt α} (h : Answers Eq result other) : other = result := by
  cases h with
  | ok heq => rw [heq]
  | error halt => rfl

/-- Results go together in every way that follows from how their answers do. -/
theorem imp {result : Except Halt α} {other : Except Halt β} (h : Answers post result other)
    (himp : ∀ value other, post value other → further value other) :
    Answers further result other := by
  cases h with
  | ok hpost => exact .ok (himp _ _ hpost)
  | error halt => exact .error halt

end Render.Answers

/-- How the first of two renders may be stopped by what does not stop the second one. -/
structure Stopping where
  /-- What the first render does not change. -/
  setting : Setting
  /-- How deep instances of the second render may be nested. -/
  depth : Nat := setting.config.maxDepth
  /-- The text that the second render captures for a line break. -/
  newline : String := setting.config.newline
  /-- What may stop the first render. -/
  Stops : Halt → Prop
  /-- It is not what may be caught. -/
  uncaught : ∀ name template, ¬ Stops (.failed (.noSuchAttribute name template))
  bound : setting.config.maxDepth = depth ∨
    setting.config.maxDepth ≤ depth ∧ ∀ trace, Stops (.failed (.infiniteRecursion trace))

namespace Stopping

variable (S : Stopping)

/-- What the second render does not change. -/
def other : Setting :=
  { S.setting with
    config := { S.setting.config with maxDepth := S.depth, newline := S.newline } }

/-- A render ended with what may stop it. -/
def Stopped {α : Type} (result : Except Halt α) : Prop :=
  ∃ halt, S.Stops halt ∧ result = .error halt

/-- A render that withholds some things, beside one that does them and may have another text for
line breaks. -/
def withholding (setting : Setting) (newline : String) : Stopping where
  setting
  newline
  Stops halt := halt = .withheld
  uncaught _ _ := nofun
  bound := Or.inl rfl

/-- It is stopped where it withholds something. -/
theorem stopped_withholding {setting : Setting} {newline : String} {α : Type}
    {result : Except Halt α} :
    (withholding setting newline).Stopped result ↔ result = .error .withheld :=
  ⟨fun ⟨_, hstops, hresult⟩ => hstops ▸ hresult, fun hresult => ⟨_, rfl, hresult⟩⟩

/-- A change of the answer makes no difference to whether a render was stopped. -/
theorem stopped_map {α β : Type} {result : Except Halt α} (change : α → β) :
    S.Stopped (result.map change) ↔ S.Stopped result := by
  cases result <;> simp [Stopped, Except.map]

/-- The first action is stopped, or both do the same. -/
def Holds {α : Type} (first second : Render α) : Prop :=
  ∀ run : Run, S.Stopped (first S.setting run).1 ∨ second S.other run = first S.setting run

variable {S} {α β : Type} {first second : Render α}

/-- Actions that do the same are compared without being stopped. -/
theorem holds_of_eq (h : ∀ run, second S.other run = first S.setting run) : S.Holds first second :=
  fun run => Or.inr (h run)

/-- Actions that do the same unless the first one is stopped do so one after the other. -/
theorem Holds.bind {next further : α → Render β} (h : S.Holds first second)
    (hnext : ∀ value, S.Holds (next value) (further value)) :
    S.Holds (first >>= next) (second >>= further) := by
  intro run
  rcases h run with ⟨halt, hstops, hhalt⟩ | hsame
  · refine Or.inl ⟨halt, hstops, ?_⟩
    rw [bind_apply_error _ _ (Prod.ext hhalt rfl)]
  · rw [bind_apply, bind_apply, hsame]
    rcases first S.setting run with ⟨halt | value, after⟩
    · exact Or.inr rfl
    · exact hnext value after

/-- An action may change the state before another one begins, and its outcome in the end, if it does
not hide that the other one is stopped. -/
theorem Holds.around {outer further : Render β} (h : S.Holds first second) (prepare : Run → Run)
    (finish : Run → Except Halt α × Run → Except Halt β × Run)
    (hstopped : ∀ run outcome, S.Stopped outcome.1 → S.Stopped (finish run outcome).1)
    (hfirst : ∀ run, outer S.setting run = finish run (first S.setting (prepare run)))
    (hsecond : ∀ run, further S.other run = finish run (second S.other (prepare run))) :
    S.Holds outer further := by
  intro run
  rw [hfirst, hsecond]
  rcases h (prepare run) with hinner | hsame
  · exact Or.inl (hstopped run _ hinner)
  · exact Or.inr (congrArg (finish run) hsame)

/-- Writing does the same in both renders. -/
theorem holds_writing (operation : Writer.Writing Nat) :
    S.Holds (writing operation) (writing operation) :=
  holds_of_eq fun _ => by rw [writing_apply, writing_apply]

/-- Captured text is the same if line breaks are captured alike. -/
theorem Holds.capture (hnewline : S.newline = S.setting.config.newline) {first second : Render Nat}
    (h : S.Holds first second) : S.Holds (capture first) (capture second) := by
  have hcapturing : capturing S.other.config = capturing S.setting.config := by
    change Writer.mk _ _ _ _ S.newline _ _ _ _ = _
    rw [hnewline]
    rfl
  refine h.around (fun run => { run with out := capturing S.setting.config }) captured
    (fun _ _ hstopped => (S.stopped_map _).mpr hstopped) (fun run => capture_apply _ run first)
    fun run => ?_
  rw [capture_apply, hcapturing]

/-- Actions do the same within an indentation. -/
theorem Holds.indented (h : S.Holds first second) (indent : Option String) :
    S.Holds (indented indent first) (indented indent second) := by
  cases indent with
  | none => exact h
  | some indent =>
    exact h.around (fun run => { run with out := run.out.pushIndent indent })
      (fun _ => cleaned fun after => { after with out := after.out.popIndent.2 })
      (fun _ _ hstopped => hstopped) (fun run => indented_apply _ run indent first)
      fun run => indented_apply _ run indent second

/-- They do the same within an anchor. -/
theorem Holds.anchored (h : S.Holds first second) (anchor : Bool) :
    S.Holds (anchored anchor first) (anchored anchor second) := by
  cases anchor with
  | false => exact h
  | true =>
    exact h.around (fun run => { run with out := run.out.pushAnchor })
      (fun _ => cleaned fun after => { after with out := after.out.popAnchor })
      (fun _ _ hstopped => hstopped) (fun run => anchored_apply _ run first)
      fun run => anchored_apply _ run second

/-- They do the same under a permission of their own. -/
theorem Holds.leniently (h : S.Holds first second) (lenient : Bool) :
    S.Holds (leniently lenient first) (leniently lenient second) :=
  h.around (fun run => { run with lenient })
    (fun run => cleaned fun after => { after with lenient := run.lenient })
    (fun _ _ hstopped => hstopped) (fun run => leniently_apply _ run lenient first)
    fun run => leniently_apply _ run lenient second

/-- Passing arguments through catches that a name is not declared, and nothing else. -/
theorem Holds.ifDeclared {first second : Render Value} (h : S.Holds first second) :
    S.Holds (ifDeclared first) (ifDeclared second) := by
  refine h.around id (fun _ outcome => (declared outcome.1, outcome.2))
    (fun _ outcome ⟨halt, hstops, hhalt⟩ => ⟨halt, hstops, ?_⟩)
    (fun run => ifDeclared_apply _ run first) fun run => ifDeclared_apply _ run second
  rw [hhalt]
  unfold declared
  split
  · next heq => cases heq
  · next heq =>
    cases heq
    exact absurd hstops (S.uncaught _ _)
  · next heq =>
    cases heq
    rfl

/-- Whether an instance can be put on the stack: in both renders, in none of them, or in the second
one alone, and then this is what stops the first one. -/
theorem refuses_cases (run : Run) (id : InstanceId) :
    (Run.refuses run S.setting.config.maxDepth id = true ∧
      Run.refuses run S.other.config.maxDepth id = true) ∨
    (Run.refuses run S.setting.config.maxDepth id = true ∧
      ∀ trace, S.Stops (.failed (.infiniteRecursion trace))) ∨
    (¬ Run.refuses run S.setting.config.maxDepth id = true ∧
      ¬ Run.refuses run S.other.config.maxDepth id = true) := by
  have hdepth : S.other.config.maxDepth = S.depth := rfl
  rw [hdepth]
  rcases S.bound with heq | ⟨hle, hstops⟩
  · rw [heq]
    by_cases hrefuses : Run.refuses run S.depth id = true
    · exact Or.inl ⟨hrefuses, hrefuses⟩
    · exact Or.inr (Or.inr ⟨hrefuses, hrefuses⟩)
  · by_cases hfirst : Run.refuses run S.setting.config.maxDepth id = true
    · exact Or.inr (Or.inl ⟨hfirst, hstops⟩)
    · refine Or.inr (Or.inr ⟨hfirst, mt (fun hsecond => ?_) hfirst⟩)
      rw [refuses_iff] at hsecond ⊢
      exact hsecond.imp_right fun hfull => Nat.le_trans hle hfull

/-- The only place where the bound on the depth is looked at. -/
theorem Holds.guarded (h : S.Holds first second) (id : InstanceId) (name : String) :
    S.Holds (guarded id name first) (guarded id name second) := by
  intro run
  rw [guarded_apply, guarded_apply]
  rcases S.refuses_cases run id with ⟨hfirst, hsecond⟩ | ⟨hfirst, hstops⟩ | ⟨hfirst, hsecond⟩
  · rw [if_pos hfirst, if_pos hsecond]
    exact Or.inr rfl
  · rw [if_pos hfirst]
    exact Or.inl ⟨_, hstops _, rfl⟩
  · rw [if_neg hfirst, if_neg hsecond]
    exact (h { run with active := id :: run.active }).imp_right (congrArg _)

/-! ### Answers that go together -/

section

variable {γ δ : Type}

variable (S) in
/-- The first action is stopped, or both have answers that go together and change the state
alike. -/
def Agrees (post : α → β → Prop) (first : Render α) (second : Render β) : Prop :=
  ∀ run : Run, S.Stopped (first S.setting run).1 ∨
    Answers post (first S.setting run).1 (second S.other run).1 ∧
      (second S.other run).2 = (first S.setting run).2

/-- Actions that do the same have equal answers. -/
theorem Holds.agrees (h : S.Holds first second) : S.Agrees Eq first second :=
  fun run => (h run).imp_right fun hsame => by
    rw [hsame]
    exact ⟨.refl _, rfl⟩

/-- Actions with equal answers that change the state alike do the same. -/
theorem Agrees.holds (h : S.Agrees Eq first second) : S.Holds first second :=
  fun run => (h run).imp_right fun ⟨hresult, hstate⟩ => Prod.ext hresult.eq hstate

/-- Actions agree in every way that follows from how their answers do. -/
theorem Agrees.imp {post further : α → β → Prop} {second : Render β}
    (h : S.Agrees post first second)
    (himp : ∀ value other, post value other → further value other) :
    S.Agrees further first second :=
  fun run => (h run).imp_right fun ⟨hresult, hstate⟩ => ⟨hresult.imp himp, hstate⟩

/-- Answers that go together are given by actions that agree. -/
theorem agrees_pure {post : α → β → Prop} {value : α} {other : β} (h : post value other) :
    S.Agrees post (pure value) (pure other) :=
  fun _ => Or.inr ⟨.ok h, rfl⟩

/-- Actions that agree do so one after the other. -/
theorem Agrees.bind {mid : α → β → Prop} {post : γ → δ → Prop} {second : Render β}
    {next : α → Render γ} {further : β → Render δ} (h : S.Agrees mid first second)
    (hnext : ∀ value other, mid value other → S.Agrees post (next value) (further other)) :
    S.Agrees post (first >>= next) (second >>= further) := by
  intro run
  have hfirst := h run
  rw [bind_apply, bind_apply]
  generalize first S.setting run = here at hfirst ⊢
  generalize second S.other run = there at hfirst ⊢
  obtain ⟨result, after⟩ := here
  obtain ⟨other, after'⟩ := there
  rcases hfirst with ⟨halt, hstops, hhalt⟩ | ⟨hresult, hafter⟩
  · obtain rfl : result = .error halt := hhalt
    exact Or.inl ⟨halt, hstops, rfl⟩
  · obtain rfl : after' = after := hafter
    cases hresult with
    | ok hmid => exact hnext _ _ hmid after'
    | error halt => exact Or.inr ⟨.error halt, rfl⟩

end

/-! ### The judgement -/

variable (S)

/-- The judgement that the first of two renders is stopped, or both are the same. -/
def logic : Logic Bool where
  Holds _ a _ := S.Holds (a false) (a true)
  Frame _ := True
  Fresh _ := True
  Proper _ := True
  Start _ := True
  Stored _ _ := True
  Listed _ _ _ := True
  Known _ _ := True

/-- The judgement is passed on where actions follow each other. -/
theorem compositional : S.logic.Compositional where
  pure _ := holds_of_eq fun _ => rfl
  bind := Holds.bind
  weaken _ _ h := h

/-- Evaluation is stopped, or it does the same. -/
theorem quiet : S.logic.Quiet where
  toCompositional := S.compositional
  closed := .trivial
  frame _ := trivial
  fail _ _ := holds_of_eq fun _ => rfl
  getInstance id h := S.compositional.getInstance (fun _ _ _ => rfl)
    (holds_of_eq fun _ => by rw [getInstance_apply, getInstance_apply]) h
  getCreated id h := S.compositional.getCreated
    (holds_of_eq fun _ => by rw [getInstance_apply, getInstance_apply]) h
  readAttribute name hfits h := S.compositional.readAttribute (fun _ _ _ => rfl)
    (holds_of_eq fun _ => by rw [noteRead_apply, noteRead_apply]; rfl) hfits h
  create _ _ := holds_of_eq fun _ => by rw [create_apply, create_apply]
  inlineOwner _ _ := holds_of_eq fun _ => rfl
  above _ _ := holds_of_eq fun _ => by rw [above_apply, above_apply]; rfl
  lookup _ _ := holds_of_eq fun _ => rfl
  dictionary _ _ := holds_of_eq fun _ => rfl
  assign _ _ _ := holds_of_eq fun _ => rfl
  bindVariables _ _ := holds_of_eq fun _ => rfl
  evalDefault := S.compositional.evalDefault trivial (fun _ _ => holds_of_eq fun _ => rfl)
    fun _ _ _ => holds_of_eq fun _ => rfl
  isLenient := holds_of_eq fun _ => rfl
  truthy _ := holds_of_eq fun _ => rfl
  ownProperty _ _ := holds_of_eq fun _ => by rw [ownProperty_apply, ownProperty_apply]
  next _ := holds_of_eq fun _ => rfl
  drain _ := holds_of_eq fun _ => rfl
  scalarText _ _ _ := holds_of_eq fun _ => by
    rw [scalarText_apply, scalarText_apply, rendering_apply, rendering_apply]
    rfl
  ifDeclared h := Holds.ifDeclared h

variable (hnewline : S.newline = S.setting.config.newline)
include hnewline

/-- It holds of all actions of a render, for what stops the first one is caught nowhere. -/
theorem lawful : S.logic.Lawful where
  toQuiet := S.quiet
  leniently lenient h := Holds.leniently h lenient
  write _ := holds_writing _
  writeToken _ _ := holds_writing _
  wrap _ _ := holds_writing _
  capture h := Holds.capture hnewline h
  indented indent h := Holds.indented h indent
  anchored anchor h := Holds.anchored h anchor

/-- It holds of whole renders. -/
theorem ordinary : S.logic.Ordinary where
  toLawful := S.lawful hnewline
  outOfFuel := holds_of_eq fun _ => rfl
  enter id name _ h := by
    have hnoted : S.Holds (Evaluator.noteWritten id) (Evaluator.noteWritten id) :=
      holds_of_eq fun _ => by rw [noteWritten_apply, noteWritten_apply]; rfl
    exact (hnoted.bind fun _ => h).guarded id name

end Stopping

end Stencil
