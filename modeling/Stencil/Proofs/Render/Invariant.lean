import Stencil.Engine.Render
import Stencil.Proofs.Render.Evolution

/-!
# Invariants of renders

A render does little to the instances: it adds some, of definitions that it finds or that are
written in place, and it sets attributes and variables of those it added. What all this leaves true
of the instances is true throughout the render: not only in the end, but whenever an expression is
evaluated or something is written.

That a condition holds throughout is said with other evaluators. Let one do what the render does in
each state in which the condition holds, and anything else in other states. If no such evaluator
makes a difference, then the render never comes into another state.
-/

namespace Stencil

open Render

namespace Evaluator

/-- One evaluator does what another one does in the states in which a condition holds. -/
structure AgreesWhere (condition : Run → Prop) (first second : Evaluator) : Prop where
  eval : ∀ scope expr setting run, condition run →
    first.eval scope expr setting run = second.eval scope expr setting run
  exec : ∀ outer id setting run, condition run →
    first.exec outer id setting run = second.exec outer id setting run
  nodes : ∀ scope line nodes setting run, condition run →
    first.nodes scope line nodes setting run = second.nodes scope line nodes setting run
  value : ∀ scope options value setting run, condition run →
    first.value scope options value setting run = second.value scope options value setting run

/-- Levels that are put on top of each other as those of a render are, in the states in which a
condition holds. In other states they may do anything. -/
structure Follows (condition : Run → Prop) (level : Nat → Evaluator) : Prop where
  exhausted : AgreesWhere condition (level 0) Evaluator.exhausted
  next : ∀ fuel, AgreesWhere condition (level (fuel + 1)) (level fuel).next

variable {condition weaker : Run → Prop}

/-- Evaluators that agree where something holds agree where more than that holds. -/
theorem AgreesWhere.of_imp {first second : Evaluator} (h : AgreesWhere weaker first second)
    (himp : ∀ run, condition run → weaker run) : AgreesWhere condition first second where
  eval scope expr setting run hrun := h.eval scope expr setting run (himp run hrun)
  exec outer id setting run hrun := h.exec outer id setting run (himp run hrun)
  nodes scope line nodes setting run hrun := h.nodes scope line nodes setting run (himp run hrun)
  value scope options value setting run hrun :=
    h.value scope options value setting run (himp run hrun)

/-- Levels that follow a render where something holds do so where more than that holds. -/
theorem Follows.of_imp {level : Nat → Evaluator} (h : Follows weaker level)
    (himp : ∀ run, condition run → weaker run) : Follows condition level :=
  ⟨h.exhausted.of_imp himp, fun fuel => (h.next fuel).of_imp himp⟩

end Evaluator

/-- A condition holds throughout the run of an instance: no evaluator makes a difference that does
something else where the condition does not hold. -/
def Engine.Throughout (engine : Engine) (id : InstanceId) (out : Writer)
    (condition : Run → Prop) : Prop :=
  ∀ level, Evaluator.Follows condition level → ∀ fuel,
    (level fuel).exec [] id engine.setting (engine.start out) = engine.runWithin fuel id out

/-- What follows from a condition that holds throughout a run holds throughout it. -/
theorem Engine.Throughout.imp {engine : Engine} {id : InstanceId} {out : Writer}
    {condition weaker : Run → Prop} (h : engine.Throughout id out condition)
    (himp : ∀ run, condition run → weaker run) : engine.Throughout id out weaker :=
  fun level hfollows => h level (hfollows.of_imp himp)

/-! ### Judgements that hold throughout -/

namespace Logic

variable {L : Logic Bool} {setting : Setting} {condition : Run → Prop}

/-- A judgement about two renders says the same of any other render in place of the first one, if
that does what the first one does in the states in which a condition holds. -/
def Replaces (L : Logic Bool) (setting : Setting) (condition : Run → Prop) : Prop :=
  ∀ {α : Type} {pre : Prop} {post : α → Prop} {a b : Bool → Render α}, L.Holds pre a post →
    (∀ run, condition run → b false setting run = a false setting run) → b true = a true →
    L.Holds pre b post

/-- A judgement that is sound stays so if the first render is replaced by one that does the same
where it matters. -/
theorem Sound.replace {a b : Bool → Evaluator} (h : L.Sound a)
    (hreplaces : L.Replaces setting condition)
    (hfalse : Evaluator.AgreesWhere condition (b false) (a false)) (htrue : b true = a true) :
    L.Sound b where
  eval scope expr :=
    hreplaces (h.eval scope expr) (hfalse.eval scope expr setting) (by rw [htrue])
  exec outer id := hreplaces (h.exec outer id) (hfalse.exec outer id setting) (by rw [htrue])
  nodes scope line nodes :=
    hreplaces (h.nodes scope line nodes) (hfalse.nodes scope line nodes setting) (by rw [htrue])
  value scope options value :=
    hreplaces (h.value scope options value) (hfalse.value scope options value setting)
      (by rw [htrue])

/-- Levels that follow a render while a condition holds do what the render does, if that is what can
be said of each level because it can be said of the one below. -/
theorem sound_follows (hreplaces : L.Replaces setting condition)
    (hexhausted : L.Sound fun _ => Evaluator.exhausted)
    (hnext : ∀ {below : Bool → Evaluator}, L.Sound below → L.Sound fun i => (below i).next)
    {level : Nat → Evaluator} (hfollows : Evaluator.Follows condition level) (fuel : Nat) :
    L.Sound fun i => cond i (Evaluator.upTo fuel) (level fuel) := by
  induction fuel with
  | zero => exact hexhausted.replace hreplaces hfollows.exhausted rfl
  | succ fuel ih => exact (hnext ih).replace hreplaces (hfollows.next fuel) rfl

/-- Levels that follow a render while a condition holds are as sound as the levels of the render. -/
theorem Ordinary.sound_follows (laws : L.Ordinary) (hreplaces : L.Replaces setting condition)
    {level : Nat → Evaluator} (hfollows : Evaluator.Follows condition level) (fuel : Nat) :
    L.Sound fun i => cond i (Evaluator.upTo fuel) (level fuel) :=
  Logic.sound_follows hreplaces laws.sound_exhausted laws.sound_next hfollows fuel

end Logic

namespace Course

variable {engine : Engine} {id : InstanceId} {out : Writer}

/-- What is known of the states of a course holds throughout the run of an instance that begins in
one of them, if an instance that is put on the stack leads to another one. -/
theorem throughout (course : Course Bool) (hlevels : course.levels = ⊤)
    (hsetting : course.setting = engine.setting) (hbounded : course.bounded)
    (hstart : course.Within (engine.start out))
    (hpushed : ∀ {run id data}, course.Within run → run.instances[id.index]? = some data →
      ¬ Run.refuses run course.setting.config.maxDepth id = true →
      course.Within { run with active := id :: run.active }) :
    engine.Throughout id out course.Within := by
  intro level hfollows fuel
  have hreplaces : course.logic.Replaces course.setting course.Within := by
    intro α pre post a b h hfalse htrue hpre run hrun
    -- Both renders of a family have one outcome, so a third one that agrees with either has it too.
    obtain ⟨outcome, heq, hrest⟩ := h hpre run hrun
    refine ⟨outcome, ?_, hrest⟩
    filter_upwards [heq] with i hi
    cases i with
    | false => exact (hfalse run hrun).trans hi
    | true => exact (congrFun (congrFun htrue _) run).trans hi
  have hexec := (Logic.sound_follows hreplaces
    (course.compositional.sound_exhausted (outOfFuel hbounded)) (course.sound_next hpushed)
    hfollows fuel).exec [] id
  obtain ⟨outcome, heq, -⟩ := hexec ⟨fun _ _ => trivial, trivial⟩ (engine.start out) hstart
  rw [hlevels, hsetting] at heq
  have hboth := Filter.eventually_top.mp heq
  exact (hboth false).trans (hboth true).symm

end Course

/-- Whatever happens in a run, it has evolved from the state in which the run began. -/
theorem Engine.evolves_throughout (engine : Engine) (id : InstanceId) (out : Writer) :
    engine.Throughout id out ((engine.start out).Evolves engine.instances.size) :=
  (Course.evolving Bool engine.setting (engine.start out) (Nat.le_refl _)).throughout rfl rfl
    trivial (.refl _ _) fun hrun _ _ => hrun.trans (.withActive _)

/-- Something that is true of the instances of a render whatever the render does to them. -/
structure Run.Invariant (setting : Setting) where
  Holds : Array Instance → Prop
  callers : ∀ {instances}, Holds instances → setting.callers ≤ instances.size
  /-- An instance is added. -/
  push : ∀ {instances creator} (scope : Scope) (definition : Definition), Holds instances →
    instances[scope.innermost.index]? = some creator →
    (∃ name, setting.groups.Stored name definition) ∨
      (∃ template owner, definition = Definition.inline template owner) →
    Holds (instances.push (created creator scope definition))
  /-- Attributes or variables of an instance of the render are set. -/
  modify : ∀ {instances index change}, Holds instances → setting.callers ≤ index →
    (∀ data : Instance, data.Alike (change data)) → Holds (instances.modify index change)

namespace Run.Invariant

variable {setting : Setting} (I : Run.Invariant setting) {α β : Type} {pre : Prop}

/-- The judgement that a family of two renders keeps an invariant, and that both do the same where
it holds. -/
def logic : Logic Bool where
  Holds pre a post := pre → ∀ run, I.Holds run.instances →
    a false setting run = a true setting run ∧ I.Holds (a true setting run).2.instances ∧
      ∀ value, (a true setting run).1 = .ok value → post value
  Frame _ := True
  Fresh id := setting.callers ≤ id.index
  Proper _ := True
  Start _ := True
  Stored := setting.groups.Stored
  Listed _ _ _ := True
  Known _ _ := True

variable {I}

/-- An action that leaves the instances alone keeps every invariant. -/
theorem holds_reading {action : Render α} {post : α → Prop}
    (hinstances : ∀ run, (action setting run).2.instances = run.instances)
    (hpost : ∀ run, pre → ∀ value, (action setting run).1 = .ok value → post value) :
    I.logic.Holds pre (fun _ => action) post :=
  fun hpre run hrun => ⟨rfl, (hinstances run).symm ▸ hrun, hpost run hpre⟩

/-- An action whose answers do not matter. -/
theorem holds_effect {action : Render α}
    (hinstances : ∀ run, (action setting run).2.instances = run.instances) :
    I.logic.Holds pre (fun _ => action) fun _ => True :=
  holds_reading hinstances fun _ _ _ _ => trivial

/-- An action may change the state before it begins, and the outcome in the end, if it leaves the
instances alone. -/
theorem holds_around {a : Bool → Render α} {b : Bool → Render β} {mid : α → Prop}
    {post : β → Prop} (h : I.logic.Holds pre a mid) (enter : Run → Run)
    (finish : Run → Except Halt α × Run → Except Halt β × Run)
    (happly : ∀ i run, b i setting run = finish run (a i setting (enter run)))
    (henter : ∀ run, (enter run).instances = run.instances)
    (hfinish : ∀ run outcome, (finish run outcome).2.instances = outcome.2.instances)
    (hpost : ∀ run outcome, (∀ value, outcome.1 = .ok value → mid value) →
      ∀ value, (finish run outcome).1 = .ok value → post value) : I.logic.Holds pre b post := by
  intro hpre run hrun
  obtain ⟨hsame, hkept, hmid⟩ := h hpre (enter run) ((henter run).symm ▸ hrun)
  rw [happly false run, happly true run, hsame, hfinish]
  exact ⟨rfl, hkept, hpost run _ hmid⟩

/-- An action that cleans up after itself in any case. -/
theorem holds_cleanup {a b : Bool → Render α} {post : α → Prop} (h : I.logic.Holds pre a post)
    (enter : Run → Run) (cleanup : Run → Run → Run)
    (happly : ∀ i run, b i setting run = cleaned (cleanup run) (a i setting (enter run)))
    (henter : ∀ run, (enter run).instances = run.instances)
    (hcleanup : ∀ run after, (cleanup run after).instances = after.instances) :
    I.logic.Holds pre b post :=
  holds_around h enter (fun run => cleaned (cleanup run)) happly henter
    (fun run outcome => hcleanup run outcome.2) fun _ _ hmid => hmid

/-- Two actions one after the other keep an invariant if each of them does. -/
theorem holds_bind {a : Bool → Render α} {f : Bool → α → Render β} {mid : α → Prop}
    {post : β → Prop} (ha : I.logic.Holds pre a mid)
    (hf : ∀ value, I.logic.Holds (pre ∧ mid value) (fun i => f i value) post) :
    I.logic.Holds pre (fun i => a i >>= f i) post := by
  intro hpre run hrun
  obtain ⟨hsame, hkept, hmid⟩ := ha hpre run hrun
  dsimp only
  rcases htrue : a true setting run with ⟨halt | value, after⟩ <;> rw [htrue] at hsame hkept hmid
  · rw [bind_apply_error _ _ hsame, bind_apply_error _ _ htrue]
    exact ⟨rfl, hkept, fun _ hvalue => by cases hvalue⟩
  · rw [bind_apply_ok _ _ hsame, bind_apply_ok _ _ htrue]
    exact hf value ⟨hpre, hmid value rfl⟩ after hkept

/-- An instance that is created keeps an invariant, and it is one of the render. -/
theorem holds_create (scope : Scope) (definition : Definition) :
    I.logic.Holds (I.logic.Frame scope.innermost ∧ I.logic.Usable definition)
      (fun _ => create scope definition)
      fun id => I.logic.Fresh id ∧ I.logic.Proper (.template id) := by
  intro hpre run hrun
  dsimp only
  rw [create_apply]
  cases hcreator : run.instances[scope.innermost.index]? with
  | none => exact ⟨rfl, hrun, fun _ hvalue => by cases hvalue⟩
  | some creator =>
    refine ⟨rfl, I.push scope definition hrun hcreator hpre.2, fun _ hvalue => ?_⟩
    cases hvalue
    exact ⟨I.callers hrun, trivial⟩

/-- So does a change to an instance of the render, if all but its attributes and variables stay. -/
theorem holds_modify (id : InstanceId) {change : Instance → Instance}
    (hchange : ∀ data : Instance, data.Alike (change data))
    (hfresh : pre → I.logic.Fresh id) :
    I.logic.Holds pre (fun _ => modifyInstance id change) fun _ => True :=
  fun hpre _ hrun => ⟨rfl, I.modify hrun (hfresh hpre) hchange, fun _ _ => trivial⟩

/-- Looking at an instance keeps an invariant, and the instance fits. -/
theorem holds_getInstance (id : InstanceId) :
    I.logic.Holds True (fun _ => getInstance id) (I.logic.Fits id) := by
  refine holds_reading (fun run => ?_) fun run _ data _ => ?_
  · rw [getInstance_apply]
  · exact ⟨fun _ => trivial, fun _ => trivial, fun _ _ _ _ => trivial, fun _ _ _ _ => trivial,
      fun _ => trivial⟩

variable (I)

/-- Keeping an invariant can be put together from parts. -/
theorem compositional : I.logic.Compositional where
  pure hpost := holds_reading (fun _ => rfl) fun _ hpre _ hvalue => by
    cases hvalue
    exact hpost hpre
  bind := holds_bind
  weaken hpre hpost ha hpre' run hrun := by
    obtain ⟨hsame, hkept, hvalue⟩ := ha (hpre hpre') run hrun
    exact ⟨hsame, hkept, fun value heq => hpost value hpre' (hvalue value heq)⟩

/-- Every render keeps an invariant. -/
theorem lawful : I.logic.Lawful where
  toCompositional := I.compositional
  closed := .trivial
  frame _ := trivial
  fail error _ := holds_reading (fun _ => rfl) fun _ _ _ hvalue => by cases hvalue
  getInstance id h := I.compositional.getInstance (fun _ _ _ => rfl) (holds_getInstance id) h
  getCreated id h := I.compositional.getCreated (holds_getInstance id) h
  readAttribute name hfits h := I.compositional.readAttribute (fun _ _ _ => rfl)
    (holds_effect fun _ => by rw [noteRead_apply]) hfits h
  create := holds_create
  inlineOwner label owner := holds_effect fun _ => rfl
  above group name := by
    refine holds_reading (fun run => ?_) fun _ _ _ _ => trivial
    rw [above_apply]
  lookup start name := by
    refine holds_reading (fun _ => rfl) fun run _ found hfound => ?_
    cases hfound
    exact fun definition => Groups.stored_of_findTemplate
  dictionary start name := holds_reading (fun _ => rfl) fun _ _ _ _ _ _ => trivial
  assign id name value := holds_modify id (fun _ => ⟨rfl, rfl, rfl, rfl, rfl⟩) And.left
  bindVariables id iteration := holds_modify id (fun _ => ⟨rfl, rfl, rfl, rfl, rfl⟩) And.left
  evalDefault := I.compositional.evalDefault trivial
    (fun _ _ => holds_reading (fun _ => rfl) fun _ _ _ _ _ _ => trivial)
    fun _ _ _ => I.compositional.given (holds_effect fun _ => rfl)
  isLenient := holds_effect fun _ => rfl
  truthy value := holds_effect fun _ => rfl
  ownProperty value name := by
    refine holds_reading (fun run => ?_) fun _ _ _ _ => trivial
    rw [ownProperty_apply]
  next cursor := holds_reading (fun _ => rfl) fun _ _ _ _ _ _ => trivial
  drain cursor := holds_reading (fun _ => rfl) fun _ _ _ _ _ _ => trivial
  scalarText scope scalar format := by
    refine holds_effect fun run => ?_
    rw [scalarText_apply, rendering_apply]
  write text := holds_effect fun run => by rw [writing_apply]
  writeToken text wrap := holds_effect fun run => by rw [writing_apply]
  wrap text width := holds_effect fun run => by rw [writing_apply]
  capture h := holds_around h (fun run => { run with out := capturing setting.config }) captured
    (fun _ run => capture_apply setting run _) (fun _ => rfl) (fun _ _ => rfl)
    fun _ _ _ _ _ => trivial
  indented indent h := by
    cases indent with
    | none => exact h
    | some indent =>
      exact holds_cleanup h (fun run => { run with out := run.out.pushIndent indent })
        (fun _ after => { after with out := after.out.popIndent.2 })
        (fun _ run => indented_apply setting run indent _) (fun _ => rfl) fun _ _ => rfl
  anchored anchor h := by
    cases anchor with
    | false => exact h
    | true =>
      exact holds_cleanup h (fun run => { run with out := run.out.pushAnchor })
        (fun _ after => { after with out := after.out.popAnchor })
        (fun _ run => anchored_apply setting run _) (fun _ => rfl) fun _ _ => rfl
  leniently lenient h := holds_cleanup h (fun run => { run with lenient })
    (fun run after => { after with lenient := run.lenient })
    (fun _ run => leniently_apply setting run lenient _) (fun _ => rfl) fun _ _ => rfl
  ifDeclared h := holds_around h id (fun _ outcome => (declared outcome.1, outcome.2))
    (fun _ run => ifDeclared_apply setting run _) (fun _ => rfl) (fun _ _ => rfl)
    fun _ _ _ _ _ _ _ => trivial

/-- Keeping an invariant does not depend on what stops a render. -/
theorem ordinary : I.logic.Ordinary where
  toLawful := I.lawful
  outOfFuel := holds_reading (fun _ => rfl) fun _ _ _ hvalue => by cases hvalue
  enter {pre} id name a ha := by
    have hnoted : I.logic.Holds (pre ∧ I.logic.Frame id)
        (fun i => Evaluator.noteWritten id >>= fun _ => a i) fun _ => True := by
      refine holds_bind (holds_effect fun run => ?_) fun _ => fun hpre => ha hpre.1
      rw [noteWritten_apply]
    intro hpre run hrun
    simp only [guarded_apply]
    split
    · exact ⟨rfl, hrun, fun _ _ => trivial⟩
    · obtain ⟨hsame, hkept, -⟩ :=
        hnoted ⟨hpre.1, trivial⟩ { run with active := id :: run.active } hrun
      exact ⟨congrArg _ hsame, hkept, fun _ _ => trivial⟩

/-! ### Invariants hold throughout -/

variable {I} {condition : Run → Prop}

/-- Renders may be replaced by others that do the same in the states in which a condition holds, if
the invariant gives the condition. -/
theorem replaces (hcondition : ∀ run, I.Holds run.instances → condition run) :
    I.logic.Replaces setting condition := by
  intro α pre post a b h hfalse htrue hpre run hrun
  rw [htrue, hfalse run (hcondition run hrun)]
  exact h hpre run hrun

/-- What an invariant gives holds throughout the run of an instance. -/
theorem throughout {engine : Engine} {I : Run.Invariant engine.setting}
    (hstart : I.Holds engine.instances) (hcondition : ∀ run, I.Holds run.instances → condition run)
    (id : InstanceId) (out : Writer) : engine.Throughout id out condition := by
  intro level hfollows fuel
  exact ((I.ordinary.sound_follows (replaces hcondition) hfollows fuel).exec [] id
    ⟨fun _ _ => trivial, trivial⟩ (engine.start out) hstart).1

/-- An invariant holds in the end of the run of an instance. -/
theorem holds_runWithin {engine : Engine} {I : Run.Invariant engine.setting}
    (hstart : I.Holds engine.instances) (fuel : Nat) (id : InstanceId) (out : Writer) :
    I.Holds (engine.runWithin fuel id out).2.instances :=
  ((I.ordinary.sound fuel).exec [] id ⟨fun _ _ => trivial, trivial⟩ (engine.start out) hstart).2.1

end Run.Invariant

end Stencil
