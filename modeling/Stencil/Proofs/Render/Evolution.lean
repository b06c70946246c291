import Mathlib.Order.Filter.Map
import Stencil.Proofs.Group.Chain
import Stencil.Proofs.Render.Steps
import Stencil.Proofs.Render.Writing
import Stencil.Proofs.Value.Evolution

/-!
# How a run evolves

A render adds instances to those it began with, and it sets attributes and variables, but only of
the instances that it added. `Run.Evolves` says this, and `Course.lawful` shows that every render
goes that way. After each action the same instances are being written as before it.

A render is followed at several numbers of levels at once: it settles if it has one and the same
outcome at all numbers of levels that a filter counts as large.
-/

namespace Stencil

open Render

/-- Two instances that differ in nothing but their attributes and variables. -/
structure Instance.Alike (first second : Instance) : Prop where
  definition : second.definition = first.definition
  group : second.group = first.group
  nativeGroup : second.nativeGroup = first.nativeGroup
  enclosing : second.enclosing = first.enclosing
  renderers : second.renderers = first.renderers

/-- An instance is like itself. -/
theorem Instance.Alike.refl (data : Instance) : data.Alike data := ⟨rfl, rfl, rfl, rfl, rfl⟩

/-- What is like an instance that is like a third one is like that one. -/
theorem Instance.Alike.trans {first second third : Instance} (h : first.Alike second)
    (h' : second.Alike third) : first.Alike third :=
  ⟨h'.definition.trans h.definition, h'.group.trans h.group, h'.nativeGroup.trans h.nativeGroup,
    h'.enclosing.trans h.enclosing, h'.renderers.trans h.renderers⟩

/-- How the state of a render may change, if there were `callers` instances before it. -/
structure Run.Evolves (callers : Nat) (before after : Run) : Prop where
  /-- Instances of the caller stay as they are. -/
  callers : ∀ index < callers, after.instances[index]? = before.instances[index]?
  /-- Other instances change only in their attributes and variables. -/
  instances : ∀ (index : Nat) (data : Instance), before.instances[index]? = some data →
    ∃ changed, after.instances[index]? = some changed ∧ data.Alike changed
  size : before.instances.size ≤ after.instances.size
  store : before.store.Evolves after.store
  defaults : before.defaults <:+ after.defaults
  reads : before.reads <:+ after.reads
  written : before.written <+: after.written

namespace Run.Evolves

variable {callers : Nat} {first second third run : Run}

/-- A run that does not change evolves. -/
theorem refl (callers : Nat) (run : Run) : run.Evolves callers run :=
  ⟨fun _ _ => rfl, fun _ data h => ⟨data, h, .refl data⟩, Nat.le_refl _, .refl _, List.suffix_rfl,
     List.suffix_rfl, List.prefix_rfl⟩

/-- A run that evolves twice evolves. -/
theorem trans (h : first.Evolves callers second) (h' : second.Evolves callers third) :
    first.Evolves callers third where
  callers index hindex := (h'.callers index hindex).trans (h.callers index hindex)
  instances index data hdata := by
    obtain ⟨changed, hchanged, halike⟩ := h.instances index data hdata
    obtain ⟨last, hlast, halike'⟩ := h'.instances index changed hchanged
    exact ⟨last, hlast, halike.trans halike'⟩
  size := h.size.trans h'.size
  store := h.store.trans h'.store
  defaults := h.defaults.trans h'.defaults
  reads := h.reads.trans h'.reads
  written := h.written.trans h'.written

/-- A run evolves with its store. -/
theorem withStore {store : Store} (h : run.store.Evolves store) :
    run.Evolves callers { run with store } := { refl callers run with store := h }

/-- Another writer makes no difference to the evolution of a run. -/
theorem withOut (out : Writer) : run.Evolves callers { run with out } :=
  { refl callers run with }

/-- Nor does another permission. -/
theorem withLenient (lenient : Bool) : run.Evolves callers { run with lenient } :=
  { refl callers run with }

/-- Nor does another stack, of which more is said elsewhere. -/
theorem withActive (active : List InstanceId) : run.Evolves callers { run with active } :=
  { refl callers run with }

/-- A new instance may be added after those of the caller. -/
theorem push (h : callers ≤ run.instances.size) (data : Instance) :
    run.Evolves callers { run with instances := run.instances.push data } :=
  { refl callers run with
    callers := fun index hindex => by
      rw [Array.getElem?_push, if_neg (by omega)]
    instances := fun index old hold => by
      have hlt := (Array.getElem?_eq_some_iff.mp hold).1
      exact ⟨old, by rw [Array.getElem?_push, if_neg (by omega), hold], .refl old⟩
    size := by simp }

/-- An instance that is not one of the caller may get attributes and variables. -/
theorem modify {index : Nat} {change : Instance → Instance} (h : callers ≤ index)
    (hchange : ∀ data : Instance, data.Alike (change data)) :
    run.Evolves callers { run with instances := run.instances.modify index change } :=
  { refl callers run with
    callers := fun other hother => by
      rw [Array.getElem?_modify, if_neg (by omega)]
    instances := fun other old hold => by
      rw [Array.getElem?_modify]
      split
      · exact ⟨change old, by rw [hold]; rfl, hchange old⟩
      · exact ⟨old, hold, .refl old⟩
    size := by simp }

end Run.Evolves

/-- Whether a render of the program may stop for a reason, if it is given whether it may run out of
levels. -/
def Halt.Admitted (bounded : Prop) : Halt → Prop
  | .failed _ | .overflow => True
  | .outOfFuel => bounded
  | .withheld => False

/-- A renderer may stop a render, however many levels there are. -/
theorem Halt.admitted_ofFailure (bounded : Prop) (failure : Format.Failure) :
    (Halt.ofFailure failure).Admitted bounded := by
  cases failure <;> trivial

/-- Renders that are followed: from the states that can be reached from one they start with, at
the numbers of levels that a filter counts as large. -/
structure Course (ι : Type) where
  levels : Filter ι
  /-- Whether renders may run out of levels. -/
  bounded : Prop
  setting : Setting
  /-- A state before the renders. -/
  start : Run
  /-- What is known of the states that the renders start from and lead to. -/
  Within : Run → Prop
  callers : setting.callers ≤ start.instances.size
  reached : ∀ {run}, Within run → start.Evolves setting.callers run
  steady : ∀ {before after}, Within before → before.Evolves setting.callers after →
    after.active = before.active → Within after

namespace Course

variable {ι : Type} (course : Course ι) {α β : Type}

/-- A family of renders has an outcome in the end, and gets there by evolving the run. -/
def Settles (a : ι → Render α) (run : Run) (post : α → Prop) : Prop :=
  ∃ outcome : Except Halt α × Run,
    (∀ᶠ i in course.levels, a i course.setting run = outcome) ∧
    (∀ halt, outcome.1 = .error halt → halt.Admitted course.bounded) ∧
    run.Evolves course.setting.callers outcome.2 ∧ outcome.2.active = run.active ∧
    ∀ value, outcome.1 = .ok value → post value

/-- The judgement that renders settle. Any instance may stand in a scope; attributes and variables
may be given to instances of the render only. -/
def logic : Logic ι where
  Holds pre a post := pre → ∀ run, course.Within run → course.Settles a run post
  Frame _ := True
  Fresh id := course.setting.callers ≤ id.index
  Proper _ := True
  Start _ := True
  Stored := course.setting.groups.Stored
  Listed start name literal := course.setting.groups.findDictionary start name = some literal
  Known id data := ∀ first, course.start.instances[id.index]? = some first → first.Alike data

variable {course}

/-- An action that is the same at all numbers of levels settles if it has an outcome. -/
theorem settles {action : Render α} {run after : Run} {result : Except Halt α}
    {post : α → Prop} (h : action course.setting run = (result, after))
    (hhalt : ∀ halt, result = .error halt → halt.Admitted course.bounded)
    (hevolves : run.Evolves course.setting.callers after)
    (hactive : after.active = run.active) (hpost : ∀ value, result = .ok value → post value) :
    course.Settles (fun _ => action) run post :=
  ⟨(result, after), .of_forall fun _ => h, hhalt, hevolves, hactive, hpost⟩

/-- An action with an answer settles if the run has evolved and the same instances are being
written. -/
theorem settles_ok {action : Render α} {run after : Run} {value : α} {post : α → Prop}
    (h : action course.setting run = (.ok value, after))
    (hevolves : run.Evolves course.setting.callers after) (hactive : after.active = run.active)
    (hpost : post value) : course.Settles (fun _ => action) run post :=
  settles h nofun hevolves hactive fun _ heq => by cases heq; exact hpost

/-- An action settles if it fails and changes nothing. -/
theorem settles_failed {action : Render α} {run : Run} {error : RenderError} {post : α → Prop}
    (h : action course.setting run = (.error (.failed error), run)) :
    course.Settles (fun _ => action) run post :=
  settles h (fun _ heq => by cases heq; trivial) (.refl _ _) rfl nofun

/-- Renders that follow each other settle one after the other. -/
theorem Settles.bind {a : ι → Render α} {f : ι → α → Render β} {run : Run} {mid : α → Prop}
    {post : β → Prop} (hrun : course.Within run) (h : course.Settles a run mid)
    (hnext : ∀ value, mid value → ∀ after, course.Within after →
      course.Settles (fun i => f i value) after post) :
    course.Settles (fun i => a i >>= f i) run post := by
  obtain ⟨⟨result, after⟩, heq, hhalt, hevolves, hactive, hmid⟩ := h
  cases result with
  | error halt =>
    refine ⟨(.error halt, after), heq.mono fun i hi => bind_apply_error _ _ hi,
      fun other hother => ?_, hevolves, hactive, nofun⟩
    cases hother
    exact hhalt halt rfl
  | ok value =>
    obtain ⟨outcome, heq', hhalt', hevolves', hactive', hpost⟩ :=
      hnext value (hmid value rfl) after (course.steady hrun hevolves hactive)
    refine ⟨outcome, ?_, hhalt', hevolves.trans hevolves', hactive'.trans hactive, hpost⟩
    filter_upwards [heq, heq'] with i hi hi'
    rw [bind_apply_ok _ _ hi, hi']

/-- An action may change the state before it begins, and the outcome in the end. -/
theorem Settles.around {a : ι → Render α} {b : ι → Render β} {run inner : Run}
    {mid : α → Prop} {post : β → Prop} (h : course.Settles a inner mid)
    (finish : Except Halt α × Run → Except Halt β × Run)
    (happly : ∀ i, b i course.setting run = finish (a i course.setting inner))
    (hhalt : ∀ outcome halt, (finish outcome).1 = .error halt → outcome.1 = .error halt)
    (hevolves : ∀ outcome, inner.Evolves course.setting.callers outcome.2 →
      run.Evolves course.setting.callers (finish outcome).2)
    (hactive : ∀ outcome, outcome.2.active = inner.active →
      (finish outcome).2.active = run.active)
    (hpost : ∀ outcome, (∀ value, outcome.1 = .ok value → mid value) →
      ∀ value, (finish outcome).1 = .ok value → post value) :
    course.Settles b run post := by
  obtain ⟨outcome, heq, hadmitted, hevolved, hkept, hmid⟩ := h
  refine ⟨finish outcome, heq.mono fun i hi => by rw [happly i, hi],
    fun halt hout => hadmitted halt (hhalt outcome halt hout), hevolves outcome hevolved,
    hactive outcome hkept,
    hpost outcome hmid⟩

/-- An action may be cleaned up after, if nothing of importance is changed by that. -/
theorem Settles.cleanup {a b : ι → Render α} {run inner : Run} {post : α → Prop}
    (h : course.Settles a inner post) (change : Run → Run)
    (happly : ∀ i, b i course.setting run = cleaned change (a i course.setting inner))
    (hbefore : run.Evolves course.setting.callers inner)
    (hafter : ∀ after : Run, after.Evolves course.setting.callers (change after))
    (hactive : ∀ after : Run, after.active = inner.active → (change after).active = run.active) :
    course.Settles b run post :=
  h.around (cleaned change) happly (fun _ _ hout => hout)
    (fun outcome hevolves => (hbefore.trans hevolves).trans (hafter outcome.2))
    (fun outcome => hactive outcome.2) fun _ hmid => hmid

/-- An action on the store settles if the store evolves. -/
theorem settles_onStore {action : StateM Store α} {run : Run} {post : α → Prop}
    (hevolves : run.store.Evolves (action run.store).2) (hpost : post (action run.store).1) :
    course.Settles (fun _ => onStore action) run post :=
  settles_ok (onStore_apply _ _ action) (.withStore hevolves) rfl hpost

/-- Writing settles, whether or not it is refused. -/
theorem settles_writing (action : Writer.Writing Nat) (run : Run) :
    course.Settles (fun _ => writing action) run fun _ => True := by
  refine settles (writing_apply _ _ action) (fun halt hout => ?_) (.withOut _) rfl
    fun _ _ => trivial
  split at hout <;> cases hout
  trivial

/-- So does the note that an instance is written. -/
theorem settles_noteWritten (id : InstanceId) (run : Run) :
    course.Settles (fun _ => Evaluator.noteWritten id) run fun _ => True :=
  settles_ok (noteWritten_apply _ _ id)
    { Run.Evolves.refl _ _ with written := prefix_noted _ _ _ } rfl trivial

/-- Looking up an instance settles, with what is known of the instance. -/
theorem holds_getInstance (id : InstanceId) :
    course.logic.Holds True (fun _ => getInstance id) (course.logic.Fits id) := by
  intro _ run hrun
  cases hdata : run.instances[id.index]? with
  | none => exact settles_failed (getInstance_apply_none _ _ hdata)
  | some data =>
    refine settles_ok (getInstance_apply_some _ _ hdata) (.refl _ _) rfl ?_
    refine ⟨fun _ => trivial, fun _ => trivial, fun _ _ _ _ => trivial, fun _ _ _ _ => trivial,
      fun _ first hfirst => ?_⟩
    obtain ⟨changed, hchanged, halike⟩ := (course.reached hrun).instances id.index first hfirst
    rw [hdata] at hchanged
    cases hchanged
    exact halike

/-- Noting a read settles. -/
theorem holds_noteRead (id : InstanceId) (name : String) :
    course.logic.Holds True (fun _ => noteRead id name) fun _ => True := by
  intro _ run _
  refine settles_ok (noteRead_apply _ _ id name) { Run.Evolves.refl _ run with reads := ?_ } rfl
    trivial
  dsimp only
  split
  · exact List.suffix_cons _ _
  · exact List.suffix_rfl

/-- Renders settle one after the other, where the number of levels may differ between them. -/
theorem compositional (course : Course ι) : course.logic.Compositional where
  pure hpost hpre run _ := settles_ok rfl (.refl _ _) rfl (hpost hpre)
  bind ha hf hpre run hrun :=
    .bind hrun (ha hpre run hrun) fun value hmid after hafter => hf value ⟨hpre, hmid⟩ after hafter
  weaken hpre hpost ha hpre' run hrun := by
    obtain ⟨outcome, heq, hhalt, hevolves, hactive, hout⟩ := ha (hpre hpre') run hrun
    exact ⟨outcome, heq, hhalt, hevolves, hactive, fun value hvalue =>
      hpost value hpre' (hout value hvalue)⟩

/-- Noting a default settles. -/
theorem holds_noteDefault (id : InstanceId) (name : String) (value : Value) :
    course.logic.Holds True (fun _ => noteDefault id name value) fun _ => True :=
  fun _ run _ => settles_ok (noteDefault_apply _ _ id name value)
    { Run.Evolves.refl _ run with defaults := List.suffix_cons _ _ } rfl trivial

/-- Renders settle, whatever they do, as long as each part of them does. -/
theorem lawful (course : Course ι) : course.logic.Lawful where
  toCompositional := course.compositional
  closed := .trivial
  frame _ := trivial
  fail error _ _ run _ := settles_failed rfl
  getInstance id h := course.compositional.getInstance (fun _ _ _ => rfl) (holds_getInstance id) h
  getCreated id h := course.compositional.getCreated (holds_getInstance id) h
  readAttribute name hfits h :=
    course.compositional.readAttribute (fun _ _ _ => rfl) (holds_noteRead _ name) hfits h
  -- The instance that is added comes after those of the caller.
  create scope definition _ run hrun := by
    have hcallers : course.setting.callers ≤ run.instances.size :=
      course.callers.trans (course.reached hrun).size
    cases hcreator : run.instances[scope.innermost.index]? with
    | none =>
      have happly : create scope definition course.setting run =
          (.error (.failed (.invalidInstance scope.innermost.index)), run) := by
        rw [create_apply, hcreator]
      exact settles_failed happly
    | some creator =>
      have happly : create scope definition course.setting run = (.ok ⟨run.instances.size⟩,
          { run with instances := run.instances.push (created creator scope definition) }) := by
        rw [create_apply, hcreator]
      refine settles_ok happly (.push hcallers _) rfl ?_
      exact ⟨hcallers, trivial⟩
  inlineOwner label owner _ run _ := settles_onStore (.inlineOwner label owner _) trivial
  above group name _ run _ := by
    refine settles (above_apply _ _ group name) (fun halt hout => ?_) (.refl _ _) rfl
      fun _ _ => trivial
    split at hout
    · cases hout
      trivial
    · split at hout <;> cases hout
      trivial
  lookup start name _ run _ :=
    settles_ok (lookup_apply _ _ start name) (.refl _ _) rfl fun definition hfound =>
      Groups.stored_of_findTemplate hfound
  dictionary start name _ run _ :=
    settles_ok (dictionary?_apply _ _ start name) (.refl _ _) rfl fun _ hfound => hfound
  assign id name value hpre run _ :=
    settles_ok (modifyInstance_apply _ _ id _) (.modify hpre.1 fun _ => ⟨rfl, rfl, rfl, rfl, rfl⟩)
      rfl trivial
  bindVariables id iteration hpre run _ :=
    settles_ok (modifyInstance_apply _ _ id _) (.modify hpre.1 fun _ => ⟨rfl, rfl, rfl, rfl, rfl⟩)
      rfl trivial
  evalDefault := course.compositional.evalDefault trivial
    (fun id name _ run _ =>
      settles_ok (knownDefault?_apply _ _ id name) (.refl _ _) rfl fun _ _ => trivial)
    fun id name value => course.compositional.given (holds_noteDefault id name value)
  isLenient _ run _ := settles_ok (isLenient_apply _ _) (.refl _ _) rfl trivial
  truthy value _ run _ := settles_ok (truthy_apply _ _ value) (.refl _ _) rfl trivial
  ownProperty value name _ run _ := by
    refine settles (ownProperty_apply _ _ value name) (fun halt hout => ?_) (.refl _ _) rfl
      fun _ _ => trivial
    split at hout <;> cases hout
    trivial
  next cursor _ run _ := settles_onStore (.next _ cursor) fun _ _ => trivial
  drain cursor _ run _ := settles_onStore (.drain _ cursor) fun _ _ => trivial
  scalarText scope scalar format _ run _ := by
    refine settles ((scalarText_apply _ _ scope scalar format).trans (rendering_apply _ _ _))
      (fun halt hout => ?_) (.withStore (.ofTallied ((local_scalarAction _ _ _ _ _ _).effect _)))
      rfl
      fun _ _ => trivial
    split at hout
    · cases hout
    · exact Except.error.inj hout ▸ Halt.admitted_ofFailure _ _
  write text _ run _ := settles_writing _ run
  writeToken text wrap _ run _ := settles_writing _ run
  wrap text width _ run _ := settles_writing _ run
  capture h hpre run hrun := by
    have hinner := h hpre { run with out := capturing course.setting.config }
      (course.steady hrun (.withOut _) rfl)
    refine hinner.around (captured run) (fun i => capture_apply _ _ _)
      (fun outcome halt hout => ?_)
      (fun outcome hevolves => ((Run.Evolves.withOut _).trans hevolves).trans (.withOut _))
      (fun outcome hactive => hactive) fun _ _ _ _ => trivial
    rcases outcome with ⟨_ | _, _⟩
    · cases hout
      rfl
    · cases hout
  indented indent h hpre run hrun := by
    cases indent with
    | none => exact h hpre run hrun
    | some indent =>
      exact (h hpre _ (course.steady hrun (.withOut (run.out.pushIndent indent)) rfl)).cleanup _
        (fun i => indented_apply _ _ indent _) (.withOut _) (fun _ => .withOut _)
        fun _ hactive => hactive
  anchored anchor h hpre run hrun := by
    cases anchor with
    | false => exact h hpre run hrun
    | true =>
      exact (h hpre _ (course.steady hrun (.withOut run.out.pushAnchor) rfl)).cleanup _
        (fun i => anchored_apply _ _ _) (.withOut _) (fun _ => .withOut _)
        fun _ hactive => hactive
  leniently lenient h hpre run hrun :=
    (h hpre _ (course.steady hrun (.withLenient lenient) rfl)).cleanup _
      (fun i => leniently_apply _ _ lenient _) (.withLenient _) (fun _ => .withLenient _)
      fun _ hactive => hactive
  ifDeclared h hpre run hrun := by
    refine (h hpre run hrun).around (fun outcome => (declared outcome.1, outcome.2))
      (fun i => ifDeclared_apply _ _ _) (fun outcome halt hout => ?_) (fun _ hevolves => hevolves)
      (fun _ hactive => hactive) fun _ _ _ _ _ _ => trivial
    simp only [declared] at hout
    split at hout
    · cases hout
    · cases hout
    · next hresult => cases hout; exact hresult

/-- Where renders may run out of levels, they settle if none are left. -/
theorem outOfFuel (hbounded : course.bounded) {post : α → Prop} :
    course.logic.Holds True (fun _ => throw .outOfFuel) post :=
  fun _ run _ => ⟨(.error .outOfFuel, run), .of_forall fun _ => rfl,
    fun _ heq => by cases heq; exact hbounded, .refl _ _, rfl, nofun⟩

/-- Something that is done while an instance is on the stack settles if it does so there. -/
theorem settles_guarded {run : Run} {id : InstanceId} (name : String) {a : ι → Render Nat}
    (hpushed : ¬ Run.refuses run course.setting.config.maxDepth id = true →
      course.Within { run with active := id :: run.active })
    (ha : ∀ inner, course.Within inner → course.Settles a inner fun _ => True) :
    course.Settles (fun i => guarded id name do Evaluator.noteWritten id; a i) run
      fun _ => True := by
  have hguarded (i : ι) := guarded_apply course.setting run id name
    (Evaluator.noteWritten id >>= fun _ => a i)
  by_cases hrefuses : Run.refuses run course.setting.config.maxDepth id = true
  · simp only [hrefuses, if_true] at hguarded
    exact ⟨_, .of_forall hguarded, fun _ heq => (by cases heq; trivial), Run.Evolves.refl _ run,
      rfl, fun _ _ => trivial⟩
  · simp only [if_neg hrefuses] at hguarded
    have hinner := hpushed hrefuses
    have hbody : course.Settles (fun i => Evaluator.noteWritten id >>= fun _ => a i) _
        fun _ => True := .bind hinner (settles_noteWritten id _) fun _ _ => ha
    exact hbody.cleanup _ hguarded (.withActive _) (fun _ => .withActive _)
      fun after hactive => congrArg List.tail hactive

/-- Where renders may run out of levels and the instances that are being written do not matter,
renders settle at every number of levels. -/
theorem ordinary (course : Course ι) (hbounded : course.bounded)
    (hwithin : ∀ {run} active, course.Within run → course.Within { run with active }) :
    course.logic.Ordinary where
  toLawful := course.lawful
  outOfFuel := outOfFuel hbounded
  enter _ name _ ha hpre _ hrun :=
    settles_guarded name (fun _ => hwithin _ hrun) (ha ⟨hpre.1, trivial⟩)

/-- Where renders may run out of levels, and whatever instance is put on the stack leads to a state
that they may start from, renders settle at every number of levels. -/
theorem sound_next (course : Course ι)
    (hpushed : ∀ {run id data}, course.Within run → run.instances[id.index]? = some data →
      ¬ Run.refuses run course.setting.config.maxDepth id = true →
      course.Within { run with active := id :: run.active })
    {below : ι → Evaluator} (h : course.logic.Sound below) :
    course.logic.Sound fun i => (below i).next := by
  refine course.lawful.sound_next h fun outer id _ run hrun => ?_
  cases hdata : run.instances[id.index]? with
  | none =>
    have happly (i : ι) := writeInstance_apply_none course.setting run hdata (below i) outer
    exact ⟨_, .of_forall happly, fun _ heq => (by cases heq; trivial), .refl _ run, rfl, nofun⟩
  | some data =>
    have happly (i : ι) := writeInstance_apply course.setting run hdata (below i) outer
    obtain ⟨outcome, heq, hrest⟩ := settles_guarded data.definition.name (hpushed hrun hdata)
      (course.lawful.countNodes h outer id data.definition.nodes ⟨fun _ _ => trivial, trivial⟩)
    exact ⟨outcome, heq.mono fun i hi => (happly i).trans hi, hrest⟩

/-- The renders that start from a state, with the same outcome throughout a family. -/
def evolving (ι : Type) (setting : Setting) (start : Run)
    (hcallers : setting.callers ≤ start.instances.size) : Course ι where
  levels := ⊤
  bounded := True
  setting
  start
  Within run := start.Evolves setting.callers run
  callers := hcallers
  reached hrun := hrun
  steady hrun hevolves _ := hrun.trans hevolves

/-- A render that settles evolves its run and leaves the stack as it was. -/
theorem evolves_of_holds {setting : Setting} {run : Run} {a : Render α} {post : α → Prop}
    (hcallers : setting.callers ≤ run.instances.size)
    (h : (evolving Unit setting run hcallers).logic.Holds True (fun _ => a) post) :
    run.Evolves setting.callers (a setting run).2 ∧ (a setting run).2.active = run.active := by
  obtain ⟨outcome, heq, -, hevolves, hactive, -⟩ := h trivial run (.refl _ _)
  have hout : a setting run = outcome := Filter.eventually_top.mp heq ()
  exact hout ▸ ⟨hevolves, hactive⟩

/-- Renders that start from a state evolve it. -/
theorem ordinary_evolving (ι : Type) {setting : Setting} {run : Run}
    (hcallers : setting.callers ≤ run.instances.size) :
    (evolving ι setting run hcallers).logic.Ordinary :=
  ordinary _ trivial fun active hrun => hrun.trans (.withActive active)

end Course

namespace Evaluator

variable {setting : Setting} {run : Run}

/-- Whatever happens when an instance is written, the run only evolves, and the same instances are
being written afterwards as before. -/
theorem evolves_exec (fuel : Nat) (outer : List InstanceId) (id : InstanceId)
    (hcallers : setting.callers ≤ run.instances.size) :
    run.Evolves setting.callers ((upTo fuel).exec outer id setting run).2 ∧
      ((upTo fuel).exec outer id setting run).2.active = run.active := by
  have hordinary := Course.ordinary_evolving Unit hcallers
  refine Course.evolves_of_holds hcallers (hordinary.of ((hordinary.sound fuel).exec outer id) ?_)
  exact fun _ => ⟨fun _ _ => trivial, trivial⟩

/-- The run only evolves when an expression is evaluated. -/
theorem evolves_eval (fuel : Nat) (scope : Scope) (expr : Expr)
    (hcallers : setting.callers ≤ run.instances.size) :
    run.Evolves setting.callers ((upTo fuel).eval scope expr setting run).2 := by
  have hordinary := Course.ordinary_evolving Unit hcallers
  refine (Course.evolves_of_holds hcallers
    (hordinary.of ((hordinary.sound fuel).eval scope expr) ?_)).1
  exact fun _ _ _ => trivial

/-- The run only evolves when a value is turned into text. -/
theorem evolves_textOf (fuel : Nat) (scope : Scope) (value : Value)
    (hcallers : setting.callers ≤ run.instances.size) :
    run.Evolves setting.callers ((upTo fuel).textOf scope value setting run).2 := by
  have hordinary := Course.ordinary_evolving Unit hcallers
  have hcaptures := ((hordinary.sound fuel).writes scope).captures hordinary.toVocal
  refine (Course.evolves_of_holds hcallers
    (hordinary.of (hordinary.textOf hcaptures value) ?_)).1
  exact fun _ => ⟨fun _ _ => trivial, trivial⟩

end Evaluator

end Stencil
