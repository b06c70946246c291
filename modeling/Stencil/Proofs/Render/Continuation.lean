import Stencil.Proofs.Render.Steps
import Stencil.Proofs.Render.Writing

/-!
# What parts of a render leave alone

Whatever a part of a render does, it gives attributes and variables only to instances that it
creates itself. So the instances that it finds are the same when it is over. It may let loop
variables be read after their sequence for a while, but not for longer than it lasts.
-/

namespace Stencil

open Render

/-- A state that comes after another one: the first `base` instances are as they were, and loop
variables may be read after their sequence if they could be before. -/
structure Run.Spares (base : Nat) (before after : Run) : Prop where
  instances : ∀ index < base, after.instances[index]? = before.instances[index]?
  size : before.instances.size ≤ after.instances.size
  lenient : after.lenient = before.lenient

/-- A state that comes after another one: all instances that there were are as they were. -/
def Run.Continues (before after : Run) : Prop := before.Spares before.instances.size after

namespace Run

variable {base : Nat} {first second third run before after : Run} {data : Instance}

namespace Spares

/-- A state spares its own instances. -/
theorem refl (base : Nat) (run : Run) : run.Spares base run := ⟨fun _ _ => rfl, Nat.le_refl _, rfl⟩

/-- What is spared twice is spared. -/
theorem trans (h : first.Spares base second) (h' : second.Spares base third) :
    first.Spares base third where
  instances index hindex := (h'.instances index hindex).trans (h.instances index hindex)
  size := Nat.le_trans h.size h'.size
  lenient := h'.lenient.trans h.lenient

/-- What spares some instances spares the first ones among them. -/
theorem within {further : Nat} (h : before.Spares base after) (hbase : further ≤ base) :
    before.Spares further after :=
  { h with instances := fun index hindex => h.instances index (Nat.lt_of_lt_of_le hindex hbase) }

/-- Nothing else of a state matters. -/
theorem of_eq (hinstances : after.instances = before.instances)
    (hlenient : after.lenient = before.lenient) : before.Spares base after where
  instances index _ := by rw [hinstances]
  size := Nat.le_of_eq (by rw [hinstances])
  lenient := hlenient

/-- An instance may be added behind those that are spared. -/
theorem push (h : base ≤ run.instances.size) (data : Instance) :
    run.Spares base { run with instances := run.instances.push data } where
  instances index hindex := by
    have hne : index ≠ run.instances.size := by omega
    rw [Array.getElem?_push, if_neg hne]
  size := by simp
  lenient := rfl

/-- An instance that is not spared may change. -/
theorem modify {index : Nat} (h : base ≤ index) (change : Instance → Instance) :
    run.Spares base { run with instances := run.instances.modify index change } where
  instances other hother := by
    have hne : index ≠ other := by omega
    rw [Array.getElem?_modify, if_neg hne]
  size := by simp
  lenient := rfl

end Spares

namespace Continues

/-- A state comes after itself. -/
theorem refl (run : Run) : run.Continues run := Spares.refl _ run

/-- An instance that there was is as it was. -/
theorem getElem? {index : Nat} (h : before.Continues after)
    (hdata : before.instances[index]? = some data) : after.instances[index]? = some data :=
  (h.instances index (Array.getElem?_eq_some_iff.mp hdata).1).trans hdata

/-- A state that comes after a later one comes after the first one. -/
theorem trans (h : first.Continues second) (h' : second.Continues third) :
    first.Continues third :=
  Spares.trans h (h'.within h.size)

/-- States with the same instances and the same permission come after each other. -/
theorem of_eq (hinstances : after.instances = before.instances)
    (hlenient : after.lenient = before.lenient) : before.Continues after :=
  Spares.of_eq hinstances hlenient

/-- A further instance leaves the others alone. -/
theorem push (data : Instance) :
    run.Continues { run with instances := run.instances.push data } :=
  Spares.push (Nat.le_refl _) data

end Continues

end Run

namespace Render

variable {α β : Type} {setting : Setting} {base : Nat} {allowed : Bool → Prop} {pre : Prop}

/-- The judgement that renders spare the first `base` instances, and that two renders of a family do
the same. It is about states in which loop variables may or may not be read after their sequence as
`allowed` says. -/
def sparing (setting : Setting) (base : Nat) (allowed : Bool → Prop) : Logic Bool where
  Holds pre a post := pre → ∀ run : Run, base ≤ run.instances.size → allowed run.lenient →
    a false setting run = a true setting run ∧ run.Spares base (a true setting run).2 ∧
      ∀ value, (a true setting run).1 = .ok value → post value
  Frame _ := True
  Fresh id := base ≤ id.index
  Proper _ := True
  Start _ := True
  Stored _ _ := True
  Listed _ _ _ := True
  Known _ _ := True

/-- An action that spares all instances, of which nothing is said but what it answers. -/
theorem spares_reading {action : Render α} {post : α → Prop}
    (h : ∀ run : Run, run.Spares base (action setting run).2)
    (hpost : pre → ∀ run value, (action setting run).1 = .ok value → post value) :
    (sparing setting base allowed).Holds pre (fun _ => action) post :=
  fun hpre run _ _ => ⟨rfl, h run, hpost hpre run⟩

/-- An action whose answers do not matter. -/
theorem spares_effect {action : Render α}
    (h : ∀ run : Run, run.Spares base (action setting run).2) :
    (sparing setting base allowed).Holds pre (fun _ => action) fun _ => True :=
  spares_reading h fun _ _ _ _ => trivial

/-- An action may change the state before it begins, and the outcome in the end. -/
theorem spares_around {a : Bool → Render α} {b : Bool → Render β} {mid : α → Prop}
    {post : β → Prop} (h : (sparing setting base allowed).Holds pre a mid) (enter : Run → Run)
    (finish : Run → Except Halt α × Run → Except Halt β × Run)
    (happly : ∀ i run, b i setting run = finish run (a i setting (enter run)))
    (henter : ∀ run, (enter run).instances = run.instances)
    (hallowed : ∀ run, allowed run.lenient → allowed (enter run).lenient)
    (hfinish : ∀ run outcome, (enter run).Spares base outcome.2 →
      run.Spares base (finish run outcome).2)
    (hpost : ∀ run outcome, (∀ value, outcome.1 = .ok value → mid value) →
      ∀ value, (finish run outcome).1 = .ok value → post value) :
    (sparing setting base allowed).Holds pre b post := by
  intro hpre run hrun hlenient
  obtain ⟨hsame, hspares, hmid⟩ :=
    h hpre (enter run) ((henter run).symm ▸ hrun) (hallowed run hlenient)
  rw [happly false, happly true, hsame]
  exact ⟨rfl, hfinish run _ hspares, hpost run _ hmid⟩

variable (setting base allowed)

/-- The judgement is passed on where actions follow each other. -/
theorem compositional_sparing : (sparing setting base allowed).Compositional where
  pure hpost := spares_reading (fun _ => .refl _ _) fun hpre _ _ hvalue => by
    cases hvalue
    exact hpost hpre
  bind {_ _ _ _ _ a _} ha hf hpre run hrun hlenient := by
    obtain ⟨hsame, hspares, hmid⟩ := ha hpre run hrun hlenient
    dsimp only
    rw [bind_apply, bind_apply, hsame]
    generalize a true setting run = outcome at hspares hmid ⊢
    obtain ⟨halt | value, after⟩ := outcome
    · exact ⟨rfl, hspares, fun _ hvalue => by cases hvalue⟩
    · obtain ⟨hsame', hfurther, hpost⟩ := hf value ⟨hpre, hmid value rfl⟩ after
        (Nat.le_trans hrun hspares.size) (hspares.lenient.symm ▸ hlenient)
      exact ⟨hsame', hspares.trans hfurther, hpost⟩
  weaken hpre hpost ha hpre' run hrun hlenient := by
    obtain ⟨hsame, hspares, hvalue⟩ := ha (hpre hpre') run hrun hlenient
    exact ⟨hsame, hspares, fun value heq => hpost value hpre' (hvalue value heq)⟩

/-- It holds of looking up an instance. -/
theorem spares_getInstance (id : InstanceId) :
    (sparing setting base allowed).Holds True (fun _ => getInstance id)
      ((sparing setting base allowed).Fits id) :=
  spares_reading (fun run => by rw [getInstance_apply]; exact .refl _ _)
    fun _ _ _ _ => ⟨fun _ => trivial, fun _ => trivial, fun _ _ _ _ => trivial,
      fun _ _ _ _ => trivial, fun _ => trivial⟩

/-- It holds of all actions of evaluation. -/
theorem quiet_sparing : (sparing setting base allowed).Quiet where
  toCompositional := compositional_sparing setting base allowed
  closed := .trivial
  frame _ := trivial
  fail _ _ := spares_reading (fun _ => .refl _ _) fun _ _ _ hvalue => by cases hvalue
  getInstance id h := (compositional_sparing setting base allowed).getInstance (fun _ _ _ => rfl)
    (spares_getInstance setting base allowed id) h
  getCreated id h := (compositional_sparing setting base allowed).getCreated
    (spares_getInstance setting base allowed id) h
  readAttribute name hfits h := (compositional_sparing setting base allowed).readAttribute
    (fun _ _ _ => rfl)
    (spares_effect fun run => by rw [noteRead_apply]; exact .of_eq rfl rfl) hfits h
  create scope definition hpre run hrun _ := by
    dsimp only
    rw [create_apply]
    cases run.instances[scope.innermost.index]? with
    | none => exact ⟨rfl, .refl _ _, fun _ hvalue => by cases hvalue⟩
    | some creator =>
      refine ⟨rfl, .push hrun _, fun _ hvalue => ?_⟩
      cases hvalue
      exact ⟨hrun, trivial⟩
  inlineOwner _ _ := spares_effect fun _ => .of_eq rfl rfl
  above _ _ := spares_effect fun _ => by rw [above_apply]; exact .refl _ _
  lookup _ _ := spares_reading (fun _ => .refl _ _) fun _ _ _ _ _ _ => trivial
  dictionary _ _ := spares_reading (fun _ => .refl _ _) fun _ _ _ _ _ _ => trivial
  assign _ _ _ hpre _ _ _ := ⟨rfl, .modify hpre.1 _, fun _ _ => trivial⟩
  bindVariables _ _ hpre _ _ _ := ⟨rfl, .modify hpre.1 _, fun _ _ => trivial⟩
  evalDefault := (compositional_sparing setting base allowed).evalDefault trivial
    (fun _ _ => spares_reading (fun _ => .refl _ _) fun _ _ _ _ _ _ => trivial)
    fun _ _ _ => (compositional_sparing setting base allowed).given
      (spares_effect fun _ => .of_eq rfl rfl)
  isLenient := spares_effect fun _ => .refl _ _
  truthy _ := spares_effect fun _ => .refl _ _
  ownProperty _ _ := spares_effect fun _ => by rw [ownProperty_apply]; exact .refl _ _
  next _ := spares_reading (fun _ => .of_eq rfl rfl) fun _ _ _ _ _ _ => trivial
  drain _ := spares_reading (fun _ => .of_eq rfl rfl) fun _ _ _ _ _ _ => trivial
  scalarText _ _ _ := spares_effect fun _ => by
    rw [scalarText_apply, rendering_apply]
    exact .of_eq rfl rfl
  ifDeclared h := spares_around h id (fun _ outcome => (declared outcome.1, outcome.2))
    (fun _ run => ifDeclared_apply setting run _) (fun _ => rfl) (fun _ hlenient => hlenient)
    (fun _ _ hspares => hspares) fun _ _ _ _ _ _ _ => trivial

/-- The texts that are captured are written while loop variables may be read after their sequence
if they may be where the text is asked for. -/
theorem spares_capture {a : Bool → Render Nat}
    (h : (sparing setting base allowed).Holds pre a fun _ => True) :
    (sparing setting base allowed).Holds pre (fun i => capture (a i)) fun _ => True :=
  spares_around h (fun run => { run with out := capturing setting.config }) captured
    (fun _ run => capture_apply setting run _) (fun _ => rfl) (fun _ hlenient => hlenient)
    (fun _ _ hspares => ⟨hspares.instances, hspares.size, hspares.lenient⟩)
    fun _ _ _ _ _ => trivial

/-- Where loop variables may be read after their sequence or not, all renders are sparing. -/
theorem ordinary_sparing (hallowed : ∀ lenient, allowed lenient) :
    (sparing setting base allowed).Ordinary where
  toQuiet := quiet_sparing setting base allowed
  leniently lenient h := spares_around h (fun run => { run with lenient })
    (fun run => cleaned fun after => { after with lenient := run.lenient })
    (fun _ run => leniently_apply setting run lenient _) (fun _ => rfl) (fun _ _ => hallowed _)
    (fun _ _ hspares => ⟨hspares.instances, hspares.size, rfl⟩) fun _ _ hmid => hmid
  write _ := spares_effect fun _ => by
    rw [writing_apply]
    exact .of_eq rfl rfl
  writeToken _ _ := spares_effect fun _ => by
    rw [writing_apply]
    exact .of_eq rfl rfl
  wrap _ _ := spares_effect fun _ => by
    rw [writing_apply]
    exact .of_eq rfl rfl
  capture := spares_capture setting base allowed
  indented indent h := by
    cases indent with
    | none => exact h
    | some indent =>
      exact spares_around h (fun run => { run with out := run.out.pushIndent indent })
        (fun _ => cleaned fun after => { after with out := after.out.popIndent.2 })
        (fun _ run => indented_apply setting run indent _) (fun _ => rfl) (fun _ _ => hallowed _)
        (fun _ _ hspares => ⟨hspares.instances, hspares.size, hspares.lenient⟩)
        fun _ _ hmid => hmid
  anchored anchor h := by
    cases anchor with
    | false => exact h
    | true =>
      exact spares_around h (fun run => { run with out := run.out.pushAnchor })
        (fun _ => cleaned fun after => { after with out := after.out.popAnchor })
        (fun _ run => anchored_apply setting run _) (fun _ => rfl) (fun _ _ => hallowed _)
        (fun _ _ hspares => ⟨hspares.instances, hspares.size, hspares.lenient⟩)
        fun _ _ hmid => hmid
  outOfFuel := spares_reading (fun _ => .refl _ _) fun _ _ _ hvalue => by cases hvalue
  enter {pre} id name a ha := by
    have hnoted : (sparing setting base allowed).Holds (pre ∧ True)
        (fun i => Evaluator.noteWritten id >>= fun _ => a i) fun _ => True :=
      (compositional_sparing setting base allowed).bind (spares_effect fun _ => by
        rw [noteWritten_apply]
        exact .of_eq rfl rfl) fun _ hpre => ha hpre.1
    intro hpre run hrun hlenient
    simp only [guarded_apply]
    split
    · exact ⟨rfl, .refl _ _, fun _ _ => trivial⟩
    · -- The stack is put back in the end, and nothing else depends on it.
      obtain ⟨hsame, hspares, -⟩ :=
        hnoted ⟨hpre.1, trivial⟩ { run with active := id :: run.active } hrun hlenient
      exact ⟨congrArg _ hsame, ⟨hspares.instances, hspares.size, hspares.lenient⟩,
        fun _ _ => trivial⟩

end Render

/-! ### What the evaluator leaves alone -/

namespace Evaluator

/-- The judgement about renders from a state on, whatever may be read in it. -/
theorem ordinary_continuing (setting : Setting) (run : Run) :
    (sparing setting run.instances.size fun _ => True).Ordinary :=
  ordinary_sparing setting _ _ fun _ => trivial

/-- What the judgement holds of leaves all instances that it finds alone. -/
theorem continues_of_holds {α : Type} {setting : Setting} {run : Run} {action : Render α}
    {post : α → Prop}
    (h : (sparing setting run.instances.size fun _ => True).Holds True (fun _ => action) post) :
    run.Continues (action setting run).2 :=
  (h trivial run (Nat.le_refl _) trivial).2.1

variable (fuel : Nat) (setting : Setting) (scope : Scope) (run : Run)

/-- Evaluating an expression leaves them alone. -/
theorem continues_eval (expr : Expr) :
    run.Continues ((upTo fuel).eval scope expr setting run).2 := by
  have laws := ordinary_continuing setting run
  exact continues_of_holds (laws.of ((laws.sound fuel).eval scope expr) fun _ _ _ => trivial)

/-- So does evaluating several. -/
theorem continues_evalAll (exprs : List Expr) :
    run.Continues ((upTo fuel).evalAll scope exprs setting run).2 := by
  have laws := ordinary_continuing setting run
  have hall := laws.evalAll fun expr (_ : expr ∈ exprs) => (laws.sound fuel).eval scope expr
  exact continues_of_holds (laws.of hall fun _ _ _ => trivial)

/-- So does writing an instance. -/
theorem continues_exec (outer : List InstanceId) (id : InstanceId) :
    run.Continues ((upTo fuel).exec outer id setting run).2 := by
  have laws := ordinary_continuing setting run
  exact continues_of_holds
    (laws.of ((laws.sound fuel).exec outer id) fun _ => ⟨fun _ _ => trivial, trivial⟩)

/-- So does writing nodes. -/
theorem continues_nodes (line : Line) (nodes : List Node) :
    run.Continues ((upTo fuel).nodes scope line nodes setting run).2 := by
  have laws := ordinary_continuing setting run
  exact continues_of_holds
    (laws.of ((laws.sound fuel).nodes scope line nodes) fun _ _ _ => trivial)

/-- So does writing a value. -/
theorem continues_value (options : WriteOptions) (value : Value) :
    run.Continues ((upTo fuel).value scope options value setting run).2 := by
  have laws := ordinary_continuing setting run
  exact continues_of_holds
    (laws.of ((laws.sound fuel).value scope options value) fun _ => ⟨fun _ _ => trivial, trivial⟩)

/-- So does looking up a name, even if a default is evaluated for it. -/
theorem continues_resolve (name : String) :
    run.Continues ((upTo fuel).resolve scope name setting run).2 := by
  have laws := ordinary_continuing setting run
  have hsupports := laws.supports (laws.sound fuel) scope [] fun _ => True
  exact continues_of_holds
    (laws.of (hsupports.resolve name) fun _ => ⟨fun _ _ => trivial, trivial⟩)

/-- So does finding out what a call refers to. -/
theorem continues_callee (callee : Callee Expr Chunk) :
    run.Continues ((upTo fuel).callee scope callee setting run).2 := by
  have laws := ordinary_continuing setting run
  have hsupports := laws.supports (laws.sound fuel) scope callee.parts fun _ => True
  exact continues_of_holds (laws.of (laws.callee hsupports) fun _ _ _ => trivial)

end Evaluator

end Stencil
