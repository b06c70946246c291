import Stencil.Proofs.Render.Continuation
import Stencil.Proofs.Render.Invariant

/-!
# Who may read loop variables after their sequence

A chunk with a null option allows loop variables to be read after their sequence while its
expression is evaluated. All parts of the expression are evaluated under that permission, and no
part changes it. Only the rows of an application to several drivers ask for it. So where no such
application stands outside the expression of a chunk, that is in an argument default, in a test, in
an option or in a dictionary, it makes no difference under which permission a template is written:
each chunk gives its own.
-/

namespace Stencil

open Render

/-! ### The parts of an expression -/

namespace Evaluator

/-- Evaluating an expression asks the evaluator below for nothing but under the permission that the
expression is evaluated under: no evaluator makes a difference that does something else under the
other one. -/
theorem evalExpr_permitted {fuel : Nat} {setting : Setting} {permission : Bool}
    {other : Evaluator}
    (h : AgreesWhere (fun run => run.lenient = permission) other (upTo fuel)) (scope : Scope)
    (expr : Expr) {run : Run} (hrun : run.lenient = permission) :
    other.evalExpr scope expr setting run = (upTo fuel).evalExpr scope expr setting run := by
  let L := sparing setting run.instances.size fun lenient => lenient = permission
  have laws : L.Quiet := quiet_sparing _ _ _
  let below (i : Bool) : Evaluator := cond i (upTo fuel) other
  have hboth {α : Type} {pre : Prop} {post : α → Prop} {a : Bool → Render α}
      (hsame : ∀ next : Run, next.lenient = permission →
        a false setting next = a true setting next)
      (hcontinues : ∀ next : Run, next.Continues (a true setting next).2)
      (hpost : ∀ value, post value) : L.Holds pre a post :=
    fun _ next hsize hnext => ⟨hsame next hnext, (hcontinues next).within hsize,
      fun value _ => hpost value⟩
  have hcaptures (scope : Scope) : L.Captures below (L.Inside scope) scope := by
    refine ⟨fun hinside => hinside, fun value => ?_, fun id => ?_⟩
    · exact spares_capture _ _ _ (hboth (fun next hnext => h.value _ _ _ _ next hnext)
        (fun next => continues_value fuel setting scope next {} value) fun _ => trivial)
    · exact spares_capture _ _ _ (hboth (fun next hnext => h.exec _ _ _ next hnext)
        (fun next => continues_exec fuel setting next scope.frames id) fun _ => trivial)
  have heval (scope : Scope) (expr : Expr) :
      L.Holds (L.Inside scope) (fun i => (below i).eval scope expr) L.Proper :=
    hboth (fun next hnext => h.eval _ _ _ next hnext)
      (fun next => continues_eval fuel setting scope next expr) fun _ => trivial
  have hexpr : L.Holds (L.Inside scope) (fun i => (below i).evalExpr scope expr) L.Proper :=
    laws.evalExpr (laws.supports hcaptures heval scope _ _)
  exact (hexpr (fun _ _ => trivial) run (Nat.le_refl _) hrun).1

/-- Levels that evaluate an expression by evaluating its parts, as those of a render do, under one
permission. Under the other one they may do anything. -/
structure EvaluatesUnder (permission : Bool) (level : Nat → Evaluator) : Prop where
  exhausted : ∀ scope expr setting (run : Run), run.lenient = permission →
    (level 0).eval scope expr setting run = (Evaluator.exhausted).eval scope expr setting run
  next : ∀ fuel scope expr setting (run : Run), run.lenient = permission →
    (level (fuel + 1)).eval scope expr setting run =
      (level fuel).evalExpr scope expr setting run
  exec : ∀ fuel outer id setting (run : Run), run.lenient = permission →
    (level fuel).exec outer id setting run = (upTo fuel).exec outer id setting run
  nodes : ∀ fuel scope line nodes setting (run : Run), run.lenient = permission →
    (level fuel).nodes scope line nodes setting run =
      (upTo fuel).nodes scope line nodes setting run
  value : ∀ fuel scope options value setting (run : Run), run.lenient = permission →
    (level fuel).value scope options value setting run =
      (upTo fuel).value scope options value setting run

/-- An expression is evaluated under one permission, with all that stands in it. -/
theorem EvaluatesUnder.agrees {permission : Bool} {level : Nat → Evaluator}
    (h : EvaluatesUnder permission level) (fuel : Nat) :
    AgreesWhere (fun run => run.lenient = permission) (level fuel) (upTo fuel) := by
  have heval : ∀ scope expr setting (run : Run), run.lenient = permission →
      (level fuel).eval scope expr setting run = (upTo fuel).eval scope expr setting run := by
    induction fuel with
    | zero => exact h.exhausted
    | succ fuel ih =>
      intro scope expr setting run hrun
      rw [h.next fuel scope expr setting run hrun]
      exact evalExpr_permitted ⟨ih, h.exec fuel, h.nodes fuel, h.value fuel⟩ scope expr hrun
  exact ⟨heval, h.exec fuel, h.nodes fuel, h.value fuel⟩

/-- An evaluator that does as those of a render do under one permission, and gives no outcome under
the other one. -/
def insisting (permission : Bool) (fuel : Nat) : Evaluator :=
  { upTo fuel with
    eval := fun scope expr setting run =>
      if run.lenient = permission then (upTo fuel).eval scope expr setting run
      else (.error .withheld, run) }

/-- Its levels evaluate under that permission. -/
theorem evaluatesUnder_insisting (permission : Bool) :
    EvaluatesUnder permission (insisting permission) := by
  have hagrees (fuel : Nat) : AgreesWhere (fun run => run.lenient = permission)
      (insisting permission fuel) (upTo fuel) :=
    { eval := fun _ _ _ _ hrun => if_pos hrun
      exec := fun _ _ _ _ _ => rfl
      nodes := fun _ _ _ _ _ _ => rfl
      value := fun _ _ _ _ _ _ => rfl }
  exact
    { exhausted := fun _ _ _ _ hrun => if_pos hrun
      next := fun fuel scope expr setting run hrun =>
        (if_pos hrun).trans (evalExpr_permitted (hagrees fuel) scope expr hrun).symm
      exec := fun _ _ _ _ _ _ => rfl
      nodes := fun _ _ _ _ _ _ _ => rfl
      value := fun _ _ _ _ _ _ _ => rfl }

end Evaluator

/-! ### Templates that keep to their chunks -/

/-- An application to several drivers stands in an expression or in a part of it. -/
inductive Expr.Walks : Expr → Prop
  | own {expr : Expr} (h : expr.isParallel = true) : Walks expr
  | part {expr part : Expr} (hpart : part ∈ expr.parts) (h : Walks part) : Walks expr

/-- An application to several drivers stands in an option or in a test. -/
inductive Node.Strays : Node → Prop
  | aside {node : Node} {expr : Expr} (hexpr : expr ∈ node.aside) (h : expr.Walks) : Strays node
  | inner {node other : Node} {body : List Node} (hbody : body ∈ node.bodies)
    (hother : other ∈ body) (h : Strays other) : Strays node

/-- All applications to several drivers of a definition stand in the expressions of chunks. -/
structure Definition.Orderly (definition : Definition) : Prop where
  defaults : ∀ formal ∈ definition.parameters, ∀ default, formal.default = some default →
    ¬ default.Walks
  nodes : ∀ node ∈ definition.nodes, ¬ node.Strays

/-- No application to several drivers stands in a dictionary. -/
def Groups.OrderlyEntries (groups : Groups) : Prop :=
  ∀ start name literal, groups.findDictionary start name = some literal →
    ∀ part ∈ literal.parts, ¬ part.Walks

namespace Run

/-- All instances are of orderly definitions. -/
def Orderly (run : Run) : Prop :=
  ∀ (index : Nat) data, run.instances[index]? = some data → data.definition.Orderly

/-- A state after another one: the instances that there were have the same definitions. -/
def Defines (before after : Run) : Prop :=
  ∀ (index : Nat) data, before.instances[index]? = some data →
    ∃ changed, after.instances[index]? = some changed ∧ changed.definition = data.definition

variable {first second third before after : Run}

/-- A state after a later one is after the first one, too. -/
theorem Defines.trans (h : first.Defines second) (h' : second.Defines third) :
    first.Defines third := by
  intro index data hdata
  obtain ⟨changed, hchanged, hsame⟩ := h index data hdata
  obtain ⟨last, hlast, hsame'⟩ := h' index changed hchanged
  exact ⟨last, hlast, hsame'.trans hsame⟩

/-- A state with the same instances has the same definitions. -/
theorem Defines.of_eq (h : after.instances = before.instances) : before.Defines after :=
  fun index data hdata => ⟨data, by rwa [h], rfl⟩

/-- A part of a render leaves the instances that it finds alone, and with them their definitions. -/
theorem Continues.defines (h : before.Continues after) : before.Defines after :=
  fun _ data hdata => ⟨data, h.getElem? hdata, rfl⟩

/-- An instance may be changed but for its definition. -/
theorem Defines.modify (run : Run) (index : Nat) {change : Instance → Instance}
    (hchange : ∀ data : Instance, (change data).definition = data.definition) :
    run.Defines { run with instances := run.instances.modify index change } := by
  intro other data hdata
  rw [Array.getElem?_modify]
  split
  · exact ⟨change data, by rw [hdata]; rfl, hchange data⟩
  · exact ⟨data, hdata, rfl⟩

/-- What is orderly in the end was so before. -/
theorem Orderly.earlier (h : after.Orderly) (hdefines : before.Defines after) :
    before.Orderly := by
  intro index data hdata
  obtain ⟨changed, hchanged, hsame⟩ := hdefines index data hdata
  exact hsame ▸ h index changed hchanged

/-- A state in which loop variables may or may not be read after their sequence. -/
def permitting (lenient : Bool) (run : Run) : Run := { run with lenient }

end Run

/-! ### Renders that do not depend on the permission -/

namespace Render

variable {setting : Setting} {α β : Type} {pre : Prop}

/-- From a state on, an action does the same under either permission, and keeps it. -/
def Blind (setting : Setting) (action : Render α) (run : Run) : Prop :=
  ∀ lenient, action setting (run.permitting lenient) =
    cleaned (Run.permitting lenient) (action setting run)

/-- An action does not depend on the permission, provided that all instances are of orderly
definitions in the end. -/
def Unswayed (setting : Setting) (action : Render α) : Prop :=
  ∀ run, (action setting run).2.Orderly → Blind setting action run

/-- The judgement that renders are blind as long as all instances are of orderly definitions. The
instances of a state are among those of the states after it. -/
def blindness (setting : Setting) : Logic Unit where
  Holds pre a post := (∀ run : Run, run.Defines (a () setting run).2) ∧
    (pre → ∀ run, (a () setting run).2.Orderly →
      Blind setting (a ()) run ∧ ∀ value, (a () setting run).1 = .ok value → post value)
  Frame _ := True
  Fresh _ := True
  Proper _ := True
  Start _ := True
  Stored _ _ := True
  Listed start name literal := setting.groups.findDictionary start name = some literal
  Known _ data := data.definition.Orderly

/-- What the judgement holds of does not depend on the permission. -/
theorem unswayed_of_holds {action : Render α} {post : α → Prop}
    (h : (blindness setting).Holds True (fun _ => action) post) : Unswayed setting action :=
  fun run horderly => (h.2 trivial run horderly).1

/-- An action that leaves instances alone. -/
theorem blind_reading {action : Render α} {post : α → Prop}
    (hinstances : ∀ run, (action setting run).2.instances = run.instances)
    (hblind : ∀ run, Blind setting action run)
    (hpost : pre → ∀ run : Run, run.Orderly → ∀ value, (action setting run).1 = .ok value →
      post value) : (blindness setting).Holds pre (fun _ => action) post :=
  ⟨fun run => .of_eq (hinstances run), fun hpre run horderly =>
    ⟨hblind run, hpost hpre run (horderly.earlier (.of_eq (hinstances run)))⟩⟩

/-- An action whose answers do not matter. -/
theorem blind_effect {action : Render α}
    (hinstances : ∀ run, (action setting run).2.instances = run.instances)
    (hblind : ∀ run, Blind setting action run) :
    (blindness setting).Holds pre (fun _ => action) fun _ => True :=
  blind_reading hinstances hblind fun _ _ _ _ _ => trivial

/-- An action may change the state before it begins, and the outcome in the end, if it leaves alone
instances and the permission. -/
theorem blind_around {a : Unit → Render α} {b : Unit → Render β} {mid : α → Prop}
    {post : β → Prop} (h : (blindness setting).Holds pre a mid) (enter : Run → Run)
    (finish : Run → Except Halt α × Run → Except Halt β × Run)
    (happly : ∀ run, b () setting run = finish run (a () setting (enter run)))
    (henter : ∀ run, (enter run).instances = run.instances)
    (hfinish : ∀ run outcome, (finish run outcome).2.instances = outcome.2.instances)
    (hentered : ∀ run lenient, enter (run.permitting lenient) = (enter run).permitting lenient)
    (hfinished : ∀ run outcome lenient,
      finish (run.permitting lenient) (cleaned (Run.permitting lenient) outcome) =
        cleaned (Run.permitting lenient) (finish run outcome))
    (hpost : ∀ run outcome, (∀ value, outcome.1 = .ok value → mid value) →
      ∀ value, (finish run outcome).1 = .ok value → post value) :
    (blindness setting).Holds pre b post := by
  have hinner (run : Run) : run.Defines (enter run) := .of_eq (henter run)
  have houter (run : Run) : (a () setting (enter run)).2.Defines (b () setting run).2 :=
    .of_eq (by rw [happly, hfinish])
  refine ⟨fun run => ((hinner run).trans (h.1 _)).trans (houter run),
    fun hpre run horderly => ?_⟩
  obtain ⟨hblind, hmid⟩ := h.2 hpre (enter run) (horderly.earlier (houter run))
  refine ⟨fun lenient => ?_, ?_⟩
  · rw [happly, happly, hentered, hblind lenient, hfinished]
  · rw [happly]
    exact hpost run _ hmid

/-- Where nothing is known of an action but what it takes for granted. -/
theorem blind_given {a : Unit → Render α} {post : α → Prop}
    (hdefines : ∀ run : Run, run.Defines (a () setting run).2)
    (h : pre → (blindness setting).Holds True a post) : (blindness setting).Holds pre a post :=
  ⟨hdefines, fun hpre => (h hpre).2 trivial⟩

/-- An action that sets the permission itself is blind, whatever it does under it. -/
theorem blind_leniently {a : Unit → Render α} (lenient : Bool)
    (hdefines : ∀ run : Run, run.Defines (a () setting run).2) :
    (blindness setting).Holds pre (fun i => leniently lenient (a i)) fun _ => True := by
  refine ⟨fun run => ?_, fun _ run _ => ⟨fun other => ?_, fun _ _ => trivial⟩⟩
  · have hbegun : run.Defines (run.permitting lenient) := .of_eq rfl
    exact (hbegun.trans (hdefines (run.permitting lenient))).trans (.of_eq rfl)
  · dsimp only
    rw [leniently_apply, leniently_apply]
    rfl

variable (setting)

/-- The judgement is passed on where actions follow each other. -/
theorem compositional_blindness : (blindness setting).Compositional where
  pure hpost := blind_reading (fun _ => rfl) (fun _ _ => rfl) fun hpre _ _ _ hvalue => by
    cases hvalue
    exact hpost hpre
  bind {α β pre mid post a f} ha hf := by
    have hdefines (run : Run) : (a () setting run).2.Defines ((a () >>= f ()) setting run).2 := by
      rw [bind_apply]
      generalize a () setting run = outcome
      obtain ⟨halt | value, after⟩ := outcome
      · exact .of_eq rfl
      · exact (hf value).1 after
    refine ⟨fun run => (ha.1 run).trans (hdefines run), fun hpre run horderly => ?_⟩
    obtain ⟨hblind, hmid⟩ := ha.2 hpre run (horderly.earlier (hdefines run))
    dsimp only at horderly ⊢
    rw [bind_apply] at horderly ⊢
    rcases hfirst : a () setting run with ⟨halt | value, after⟩
    · refine ⟨fun lenient => ?_, fun _ hvalue => by cases hvalue⟩
      have hother := hblind lenient
      rw [hfirst] at hother
      rw [bind_apply_error _ _ hother, bind_apply_error _ _ hfirst]
      rfl
    · rw [hfirst] at horderly hmid
      obtain ⟨hblind', hpost⟩ := (hf value).2 ⟨hpre, hmid value rfl⟩ after horderly
      refine ⟨fun lenient => ?_, hpost⟩
      have hother := hblind lenient
      rw [hfirst] at hother
      rw [bind_apply_ok _ _ hother, bind_apply_ok _ _ hfirst]
      exact hblind' lenient
  weaken hpre hpost ha := ⟨ha.1, fun hpre' run horderly =>
    ⟨(ha.2 (hpre hpre') run horderly).1, fun value hvalue =>
      hpost value hpre' ((ha.2 (hpre hpre') run horderly).2 value hvalue)⟩⟩

/-- It holds of looking up an instance. -/
theorem blind_getInstance (id : InstanceId) :
    (blindness setting).Holds True (fun _ => getInstance id) ((blindness setting).Fits id) := by
  refine blind_reading (fun run => by rw [getInstance_apply]) (fun run lenient => ?_)
    fun _ run horderly data hvalue => ?_
  · rw [getInstance_apply, getInstance_apply]
    rfl
  · refine ⟨fun _ => trivial, fun _ => trivial, fun _ _ _ _ => trivial, fun _ _ _ _ => trivial,
      fun _ => ?_⟩
    rw [getInstance_apply] at hvalue
    cases hdata : run.instances[id.index]? with
    | none =>
      rw [hdata] at hvalue
      cases hvalue
    | some found =>
      rw [hdata] at hvalue
      cases hvalue
      exact horderly id.index data hdata

/-- It holds of changing an instance but for its definition. -/
theorem blind_modify (id : InstanceId) {change : Instance → Instance}
    (hchange : ∀ data : Instance, (change data).definition = data.definition) :
    (blindness setting).Holds pre (fun _ => modifyInstance id change) fun _ => True :=
  ⟨fun run => .modify run id.index hchange, fun _ _ _ => ⟨fun _ => rfl, fun _ _ => trivial⟩⟩

/-- It holds of all actions of a render but for asking for the permission. -/
theorem vocal_blindness : (blindness setting).Vocal where
  toCompositional := compositional_blindness setting
  closed := .trivial
  frame _ := trivial
  fail _ _ := blind_reading (fun _ => rfl) (fun _ _ => rfl) fun _ _ _ _ hvalue => by cases hvalue
  getInstance id h := (compositional_blindness setting).getInstance (fun _ _ _ => rfl)
    (blind_getInstance setting id) h
  getCreated id h := (compositional_blindness setting).getCreated (blind_getInstance setting id) h
  readAttribute name hfits h := (compositional_blindness setting).readAttribute (fun _ _ _ => rfl)
    (blind_effect (fun run => by rw [noteRead_apply]) fun run lenient => by
      rw [noteRead_apply, noteRead_apply]
      rfl) hfits h
  create scope definition := by
    refine ⟨fun run => ?_, fun _ run _ => ⟨fun lenient => ?_, fun _ _ => ⟨trivial, trivial⟩⟩⟩
    · dsimp only
      rw [create_apply]
      cases run.instances[scope.innermost.index]? with
      | none => exact .of_eq rfl
      | some creator => exact (Run.Continues.push _).defines
    · dsimp only
      rw [create_apply, create_apply, Run.permitting]
      cases run.instances[scope.innermost.index]? <;> rfl
  inlineOwner _ _ := blind_effect (fun _ => rfl) fun _ _ => rfl
  above _ _ := blind_effect (fun _ => by rw [above_apply]) fun _ _ => by
    rw [above_apply, above_apply]
    rfl
  lookup _ _ := blind_reading (fun _ => rfl) (fun _ _ => rfl) fun _ _ _ _ _ _ _ => trivial
  dictionary _ _ := blind_reading (fun _ => rfl) (fun _ _ => rfl)
    fun _ _ _ _ hfound literal hliteral => by
      cases hfound
      exact hliteral
  assign id _ _ := blind_modify setting id fun _ => rfl
  bindVariables id _ := blind_modify setting id fun _ => rfl
  evalDefault := (compositional_blindness setting).evalDefault trivial
    (fun _ _ => blind_reading (fun _ => rfl) (fun _ _ => rfl) fun _ _ _ _ _ _ _ => trivial)
    fun _ _ _ => (compositional_blindness setting).given
      (blind_effect (fun _ => rfl) fun _ _ => rfl)
  truthy _ := blind_effect (fun _ => rfl) fun _ _ => rfl
  ownProperty _ _ := blind_effect (fun _ => by rw [ownProperty_apply]) fun _ _ => by
    rw [ownProperty_apply, ownProperty_apply]
    rfl
  next _ := blind_reading (fun _ => rfl) (fun _ _ => rfl) fun _ _ _ _ _ _ _ => trivial
  drain _ := blind_reading (fun _ => rfl) (fun _ _ => rfl) fun _ _ _ _ _ _ _ => trivial
  scalarText _ _ _ := blind_effect (fun _ => by rw [scalarText_apply, rendering_apply])
    fun _ _ => by
      rw [scalarText_apply, scalarText_apply, rendering_apply, rendering_apply]
      rfl
  ifDeclared h := blind_around h id (fun _ outcome => (declared outcome.1, outcome.2))
    (fun run => ifDeclared_apply setting run _) (fun _ => rfl) (fun _ _ => rfl) (fun _ _ => rfl)
    (fun _ _ _ => rfl) fun _ _ _ _ _ _ _ => trivial
  leniently {_ _ _ a} lenient h := by
    -- Inside, the permission is given anew, so that the one outside does not matter.
    have hblind : (blindness setting).Holds True (fun i => leniently lenient (a i))
        fun _ => True := blind_leniently lenient h.1
    refine ⟨hblind.1, fun hpre run horderly => ⟨(hblind.2 trivial run horderly).1, ?_⟩⟩
    exact (h.2 hpre (run.permitting lenient) horderly).2
  write _ := blind_effect (fun _ => by rw [writing_apply]) fun _ _ => by
    rw [writing_apply, writing_apply]
    rfl
  writeToken _ _ := blind_effect (fun _ => by rw [writing_apply]) fun _ _ => by
    rw [writing_apply, writing_apply]
    rfl
  wrap _ _ := blind_effect (fun _ => by rw [writing_apply]) fun _ _ => by
    rw [writing_apply, writing_apply]
    rfl
  capture h := blind_around h (fun run => { run with out := capturing setting.config }) captured
    (fun run => capture_apply setting run _) (fun _ => rfl) (fun _ _ => rfl) (fun _ _ => rfl)
    (fun _ _ _ => rfl) fun _ _ _ _ _ => trivial
  indented indent h := by
    cases indent with
    | none => exact h
    | some indent =>
      exact blind_around h (fun run => { run with out := run.out.pushIndent indent })
        (fun _ => cleaned fun after => { after with out := after.out.popIndent.2 })
        (fun run => indented_apply setting run indent _) (fun _ => rfl) (fun _ _ => rfl)
        (fun _ _ => rfl) (fun _ _ _ => rfl) fun _ _ hmid => hmid
  anchored anchor h := by
    cases anchor with
    | false => exact h
    | true =>
      exact blind_around h (fun run => { run with out := run.out.pushAnchor })
        (fun _ => cleaned fun after => { after with out := after.out.popAnchor })
        (fun run => anchored_apply setting run _) (fun _ => rfl) (fun _ _ => rfl)
        (fun _ _ => rfl) (fun _ _ _ => rfl) fun _ _ hmid => hmid

/-- The body of an instance is blind if what is written inside it is: the recursion guard does not
look at the permission. -/
theorem blind_guarded {a : Unit → Render Nat} (id : InstanceId) (name : String)
    (h : (blindness setting).Holds pre a fun _ => True) :
    (blindness setting).Holds pre (fun i => guarded id name do Evaluator.noteWritten id; a i)
      fun _ => True := by
  have laws := compositional_blindness setting
  have hnoted : (blindness setting).Holds pre
      (fun i => Evaluator.noteWritten id >>= fun _ => a i) fun _ => True := by
    refine laws.bind (laws.given (blind_effect (fun run => ?_) fun run lenient => ?_)) fun _ =>
      laws.of h And.left
    · rw [noteWritten_apply]
    · rw [noteWritten_apply, noteWritten_apply]
      rfl
  have hpushed : (blindness setting).Holds pre
      (fun i setting run => cleaned (fun after => { after with active := after.active.tail })
        ((do Evaluator.noteWritten id; a i : Render Nat) setting
          { run with active := id :: run.active })) fun _ => True :=
    blind_around hnoted (fun run => { run with active := id :: run.active })
      (fun _ => cleaned fun after => { after with active := after.active.tail }) (fun _ => rfl)
      (fun _ => rfl) (fun _ _ => rfl) (fun _ _ => rfl) (fun _ _ _ => rfl) fun _ _ hmid => hmid
  refine ⟨fun run => ?_, fun hpre run horderly => ⟨fun lenient => ?_, fun _ _ => trivial⟩⟩
  · dsimp only
    rw [guarded_apply]
    split
    · exact .of_eq rfl
    · exact hpushed.1 run
  · dsimp only at horderly ⊢
    have hsame : Run.refuses (run.permitting lenient) setting.config.maxDepth id =
        Run.refuses run setting.config.maxDepth id := rfl
    rw [guarded_apply] at horderly
    rw [guarded_apply, guarded_apply, hsame]
    split
    · rfl
    · next hrefuses =>
      rw [if_neg hrefuses] at horderly
      exact (hpushed.2 hpre run horderly).1 lenient

/-! ### Levels -/

/-- With a number of levels, what is done is blind, apart from evaluating applications to several
drivers. -/
structure BlindUpTo (setting : Setting) (fuel : Nat) : Prop where
  eval : ∀ scope expr, ¬ expr.Walks →
    (blindness setting).Holds True (fun _ => (Evaluator.upTo fuel).eval scope expr) fun _ => True
  exec : ∀ outer id,
    (blindness setting).Holds True (fun _ => (Evaluator.upTo fuel).exec outer id) fun _ => True
  nodes : ∀ scope line nodes, (∀ node ∈ nodes, ¬ node.Strays) → (blindness setting).Holds True
    (fun _ => (Evaluator.upTo fuel).nodes scope line nodes) fun _ => True
  value : ∀ scope options value, (blindness setting).Holds True
    (fun _ => (Evaluator.upTo fuel).value scope options value) fun _ => True

namespace BlindUpTo

open Evaluator

variable {setting : Setting} {fuel : Nat} (h : BlindUpTo setting fuel)

/-- With no levels left nothing is done. -/
theorem exhausted (setting : Setting) : BlindUpTo setting 0 := by
  have hnothing {α : Type} :
      (blindness setting).Holds (α := α) True (fun _ => throw .outOfFuel) fun _ => True :=
    blind_effect (fun _ => rfl) fun _ _ => rfl
  exact ⟨fun _ _ _ => hnothing, fun _ _ => hnothing, fun _ _ _ _ => hnothing,
    fun _ _ _ => hnothing⟩

include h

/-- What is written below does not depend on the permission. -/
theorem writes (scope : Scope) :
    (blindness setting).Writes (fun _ => upTo fuel) True scope where
  inside _ _ _ := trivial
  value options value := (compositional_blindness setting).given (h.value scope options value)
  exec id := (compositional_blindness setting).given (h.exec scope.frames id)

/-- So neither do captured texts. -/
theorem captures (scope : Scope) :
    (blindness setting).Captures (fun _ => upTo fuel) True scope :=
  (h.writes scope).captures (vocal_blindness setting)

/-- An expression that is known to have no application to several drivers can be evaluated. -/
theorem evalGiven {pre : Prop} (scope : Scope) (expr : Expr) (hexpr : pre → ¬ expr.Walks) :
    (blindness setting).Holds pre (fun _ => (upTo fuel).eval scope expr) fun _ => True :=
  blind_given (fun run => (continues_eval fuel setting scope run expr).defines) fun hpre =>
    h.eval scope expr (hexpr hpre)

/-- Nodes that are known to be orderly can be written. -/
theorem nodesGiven {pre : Prop} (scope : Scope) (line : Line) (nodes : List Node)
    (hnodes : pre → ∀ node ∈ nodes, ¬ node.Strays) :
    (blindness setting).Holds pre (fun _ => (upTo fuel).nodes scope line nodes) fun _ => True :=
  blind_given (fun run => (continues_nodes fuel setting scope run line nodes).defines) fun hpre =>
    h.nodes scope line nodes (hnodes hpre)

/-- The value of a default does not depend on the permission if no application stands in the
default. -/
theorem defaultValue {pre : Prop} (scope : Scope) (default : Expr)
    (hdefault : pre → ¬ default.Walks) :
    (blindness setting).Holds pre (fun _ => (upTo fuel).defaultValue scope default)
      fun _ => True := by
  have laws := vocal_blindness setting
  have hcaptures : (blindness setting).Captures (fun _ => upTo fuel) pre scope := by
    refine ⟨fun _ _ _ => trivial, fun value => ?_, fun id => ?_⟩
    · exact laws.of ((h.captures scope).value value) fun _ => ⟨trivial, trivial⟩
    · exact laws.of ((h.captures scope).exec id) fun _ => ⟨trivial, trivial⟩
  exact laws.defaultValue hcaptures (h.evalGiven scope default hdefault)

/-- Nor does what a name comes to, if none stands in a dictionary. -/
theorem resolve (hentries : setting.groups.OrderlyEntries) (scope : Scope) (name : String) :
    (blindness setting).Holds True (fun _ => (upTo fuel).resolve scope name) fun _ => True := by
  have laws := vocal_blindness setting
  refine laws.resolveIn name (fun _ _ _ => trivial)
    (fun id outer data formal default _ hformal hdefault => ?_) ?_
  · refine laws.evalDefault name (h.defaultValue ⟨id, outer⟩ default fun hpre => ?_)
    exact hpre.2.defaults formal (List.mem_of_find?_eq_some hformal) default hdefault
  · refine laws.evalDictionary (fun _ _ _ => trivial) name fun data literal part hpart => ?_
    exact h.evalGiven scope part fun hpre =>
      hentries data.nativeGroup name literal hpre.2.2 part hpart

/-- Nor does what an expression comes to in which no such application stands. -/
theorem evalExpr (hentries : setting.groups.OrderlyEntries) (scope : Scope) {expr : Expr}
    (hexpr : ¬ expr.Walks) :
    (blindness setting).Holds True (fun _ => (upTo fuel).evalExpr scope expr)
      fun _ => True := by
  have laws := vocal_blindness setting
  have hsupports : (blindness setting).Supports (fun _ => upTo fuel) True scope expr.parts
      (expr.Reads (blindness setting).Stored) :=
    { h.captures scope with
      eval := fun part hpart => h.eval scope part fun hwalks => hexpr (.part hpart hwalks)
      resolve := fun name => laws.given (h.resolve hentries scope name) }
  exact laws.evalExpr hsupports fun hparallel => absurd (.own hparallel) hexpr

/-- Nor does the branch that is taken, if none stands in a test. -/
theorem choose (scope : Scope) (otherwise : List Node) {branches : List (Branch Expr Node)}
    (hbranches : ∀ branch ∈ branches, ¬ branch.test.Walks) :
    (blindness setting).Holds True (fun _ => (upTo fuel).choose scope otherwise branches)
      fun body => body ∈ otherwise :: branches.map Branch.body :=
  (vocal_blindness setting).choose otherwise fun branch hbranch =>
    h.eval scope branch.test (hbranches branch hbranch)

/-- Nor do options in which none stands. -/
theorem evalOptions (scope : Scope) {options : Options Expr}
    (hoptions : ∀ part ∈ options.parts, ¬ part.Walks) :
    (blindness setting).Holds True (fun _ => (upTo fuel).evalOptions scope options)
      fun _ => True :=
  (vocal_blindness setting).evalOptions (h.captures scope) fun part hpart =>
    h.eval scope part (hoptions part hpart)

/-- A chunk is blind whatever its expression is: it gives its own permission. -/
theorem writeExpression (scope : Scope) (expr : Expr) {options : Options Expr}
    (hoptions : ∀ part ∈ options.parts, ¬ part.Walks) :
    (blindness setting).Holds True (fun _ => (upTo fuel).writeExpression scope expr options)
      fun _ => True :=
  (vocal_blindness setting).writeExpression (h.writes scope)
    (blind_leniently options.null.isSome fun run =>
      (continues_eval fuel setting scope run expr).defines)
    fun part hpart => h.eval scope part (hoptions part hpart)

/-- Nor does a node, if none stands in an option or in a test of it. -/
theorem writeNode (scope : Scope) (line : Line) {node : Node} (hnode : ¬ node.Strays) :
    (blindness setting).Holds True (fun _ => (upTo fuel).writeNode scope line node)
      fun _ => True := by
  refine (vocal_blindness setting).writeNode (h.writes scope) (fun expr options _ _ => ?_)
    (fun part hpart => ?_) line fun line body => ?_
  · exact blind_leniently options.null.isSome fun run =>
      (continues_eval fuel setting scope run expr).defines
  · exact h.eval scope part fun hwalks => hnode (.aside hpart hwalks)
  · exact h.nodesGiven scope line body fun hpre other hother hstrays =>
      hnode (.inner hpre.2 hother hstrays)

/-- The body of an instance is that of an orderly definition. -/
theorem writeInstance (outer : List InstanceId) (id : InstanceId) :
    (blindness setting).Holds True (fun _ => (upTo fuel).writeInstance outer id)
      fun _ => True := by
  have laws := vocal_blindness setting
  refine laws.getInstance id fun data => blind_guarded setting id data.definition.name ?_
  refine laws.map (h.nodesGiven ⟨id, outer⟩ {} data.definition.nodes fun hpre => ?_)
    fun _ _ _ => trivial
  exact (hpre.2.known trivial).nodes

/-- Nor does a value, whatever it is. -/
theorem writeValue (scope : Scope) (options : WriteOptions) (value : Value) :
    (blindness setting).Holds True (fun _ => (upTo fuel).writeValue scope options value)
      fun _ => True := by
  have laws := vocal_blindness setting
  have hvalue (pre : Prop) (item : Value) : (blindness setting).Holds pre
      (fun _ => (upTo fuel).value scope options item) fun _ => True :=
    laws.given (h.value scope options item)
  have hwritten : (blindness setting).Holds (True ∧ (blindness setting).Proper value)
      (fun _ => (upTo fuel).writeValue scope options value) fun _ => True := by
    refine laws.writeValue (fun _ _ _ => trivial)
      (fun id _ => laws.given (h.exec scope.frames id)) (fun item _ => hvalue _ item)
      fun cursor _ => ?_
    apply laws.bind (laws.given (laws.drain cursor))
    intro items
    have helements : (blindness setting).Holds
        (True ∧ ∀ item ∈ items, (blindness setting).Proper item)
        (fun _ => (upTo fuel).writeElements scope options items) fun _ => True :=
      laws.writeElements fun item _ => hvalue _ item
    exact laws.of helements fun hpre => ⟨trivial, hpre.2⟩
  exact laws.of hwritten fun _ => ⟨trivial, trivial⟩

/-- One more level. -/
theorem next (hentries : setting.groups.OrderlyEntries) : BlindUpTo setting (fuel + 1) where
  eval scope _ hexpr := h.evalExpr hentries scope hexpr
  exec := h.writeInstance
  nodes scope line _ hnodes := (vocal_blindness setting).writeNodes line fun node hnode line =>
    h.writeNode scope line (hnodes node hnode)
  value := h.writeValue

end BlindUpTo

/-- With any number of levels. -/
theorem blindUpTo {setting : Setting} (hentries : setting.groups.OrderlyEntries) (fuel : Nat) :
    BlindUpTo setting fuel := by
  induction fuel with
  | zero => exact .exhausted setting
  | succ fuel ih => exact ih.next hentries

end Render

end Stencil
