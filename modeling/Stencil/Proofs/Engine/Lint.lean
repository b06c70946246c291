import Stencil.Proofs.Engine.Reachable
import Stencil.Proofs.Format.Builtin
import Stencil.Proofs.Render.Writing

/-!
# Lint only observes

When lint is on, a render notes which attributes it reads, reports those that it did not read, and
says in the error of the recursion guard how it came there. None of this has an influence on the
render: with lint off it writes the same, fails alike and takes the same items from iterators.
-/

namespace Stencil

open Render

namespace Engine

/-- The engine with lint on or off. -/
def linting (lint : Bool) (engine : Engine) : Engine :=
  { engine with config := { engine.config with lint } }

variable (engine : Engine)

/-- A renderer that was registered with an instance or with a group of the engine. -/
inductive Registered : Renderer → Prop
  | ofInstance {id : InstanceId} {data : Instance} {type : ScalarType} {renderer : Renderer} :
    engine.instance? id = some data → data.renderers.find? type = some renderer →
    Registered renderer
  | ofGroup {id : GroupId} {group : Group} {type : ScalarType} {renderer : Renderer} :
    engine.group? id = some group → group.renderers.find? type = some renderer →
    Registered renderer

/-- A renderer of the caller may itself raise the error of the recursion guard, with any trace. -/
def Raises (trace : List String) : Prop :=
  ∃ renderer, engine.Registered renderer ∧ ∃ scalar format store,
    (renderer.format scalar format store).1 = .error (.raised (.infiniteRecursion trace))

/-- The results of a render with lint on and with lint off: they are the same, or both come from the
recursion guard, which gives a trace only when lint is on. Any other trace is that of a renderer. -/
inductive Untraced {α : Type} : Except Halt α → Except Halt α → Prop
  | same {result : Except Halt α} (h : ∀ trace,
      result = .error (.failed (.infiniteRecursion trace)) → engine.Raises trace) :
    Untraced result result
  | guarded (trace : List String) : Untraced (.error (.failed (.infiniteRecursion trace)))
      (.error (.failed (.infiniteRecursion [])))

namespace Untraced

variable {engine} {α β : Type} {on off : Except Halt α}

/-- Results that differ in the trace at most do so after a change of the answers. -/
theorem map (h : engine.Untraced on off) (change : α → β) :
    engine.Untraced (on.map change) (off.map change) := by
  cases h with
  | guarded trace => exact .guarded trace
  | same h =>
    refine .same fun trace heq => ?_
    cases on with
    | ok _ => cases heq
    | error halt =>
      cases heq
      exact h trace rfl

/-- They do so, too, where a name may not be declared, since the error of the guard is not caught
there. -/
theorem declared {on off : Except Halt Value} (h : engine.Untraced on off) :
    engine.Untraced (Render.declared on) (Render.declared off) := by
  cases h with
  | guarded trace => exact .guarded trace
  | same h =>
    refine .same fun trace heq => h trace ?_
    unfold Render.declared at heq
    split at heq
    · cases heq
    · cases heq
    · cases heq
      rfl

/-- Without lint the error of the recursion guard has no trace. -/
theorem untraced (h : engine.Untraced on off) {trace : List String}
    (heq : off = .error (.failed (.infiniteRecursion trace))) :
    trace = [] ∨ engine.Raises trace := by
  cases h with
  | same h => exact Or.inr (h trace heq)
  | guarded _ =>
    cases heq
    exact Or.inl rfl

end Untraced

end Engine

/-! ### Runs with and without lint -/

namespace Render

variable (engine : Engine)

/-- The renderers of all instances of a run were registered before it. -/
def Knows (instances : Array Instance) : Prop :=
  ∀ (index : Nat) (data : Instance), instances[index]? = some data →
    ∀ type renderer, data.renderers.find? type = some renderer → engine.Registered renderer

/-- The outcomes of an action with lint on and with lint off. -/
structure Observes {α : Type} (on off : Except Halt α × Run) : Prop where
  result : engine.Untraced on.1 off.1
  run : ∃ reads, on.2 = { off.2 with reads }
  known : Knows engine off.2.instances

/-- An action does the same whether lint is on or off. -/
def Observed {α : Type} (action : Render α) : Prop :=
  ∀ (run : Run) (reads : List (InstanceId × String)), Knows engine run.instances →
    Observes engine (action (engine.linting true).setting { run with reads })
      (action (engine.linting false).setting run)

variable {engine} {α β : Type} {action : Render α}

/-- A new instance has no renderers, so no further ones become known. -/
theorem Knows.push {instances : Array Instance} (h : Knows engine instances) (data : Instance)
    (hdata : data.renderers = {}) : Knows engine (instances.push data) := by
  intro index found hfound type renderer hrenderer
  rw [Array.getElem?_push] at hfound
  split at hfound
  · cases hfound
    rw [hdata] at hrenderer
    cases hrenderer
  · exact h index found hfound type renderer hrenderer

/-- Nor do they when an instance is changed but for its renderers. -/
theorem Knows.modify {instances : Array Instance} (h : Knows engine instances) (index : Nat)
    {change : Instance → Instance} (hchange : ∀ data, (change data).renderers = data.renderers) :
    Knows engine (instances.modify index change) := by
  intro other found hfound type renderer hrenderer
  rw [Array.getElem?_modify] at hfound
  split at hfound
  · obtain ⟨data, hdata, rfl⟩ := Option.map_eq_some_iff.mp hfound
    rw [hchange] at hrenderer
    exact h other data hdata type renderer hrenderer
  · exact h other found hfound type renderer hrenderer

/-- An action that does not look at lint nor at what was read, and does not fail as the recursion
guard does. -/
theorem observed_of_blind
    (hsame : ∀ (run : Run) reads, action (engine.linting true).setting { run with reads } =
      ((action (engine.linting false).setting run).1,
        { (action (engine.linting false).setting run).2 with reads }))
    (hknown : ∀ run : Run, Knows engine run.instances →
      Knows engine (action (engine.linting false).setting run).2.instances)
    (hresult : ∀ run trace, (action (engine.linting false).setting run).1 ≠
      .error (.failed (.infiniteRecursion trace))) : Observed engine action := by
  intro run reads hrun
  rw [hsame]
  exact ⟨.same fun trace heq => absurd heq (hresult run trace), ⟨reads, rfl⟩, hknown run hrun⟩

/-- Actions that do the same with lint on and off do so one after the other. -/
theorem Observed.bind {next : α → Render β} (h : Observed engine action)
    (hnext : ∀ value, Observed engine (next value)) : Observed engine (action >>= next) := by
  intro run reads hrun
  have hfirst := h run reads hrun
  rw [bind_apply, bind_apply]
  generalize action (engine.linting true).setting { run with reads } = first at hfirst ⊢
  generalize action (engine.linting false).setting run = second at hfirst ⊢
  obtain ⟨on, _⟩ := first
  obtain ⟨off, after⟩ := second
  obtain ⟨hresult, ⟨reads', rfl⟩, hknown⟩ := hfirst
  cases hresult with
  | guarded trace => exact ⟨.guarded trace, ⟨reads', rfl⟩, hknown⟩
  | same hraises =>
    cases on with
    | ok value => exact hnext value after reads' hknown
    | error halt =>
      refine ⟨.same fun trace heq => hraises trace ?_, ⟨reads', rfl⟩, hknown⟩
      cases heq
      rfl

/-- An action on the store knows nothing of lint. -/
theorem observed_onStore (operation : StateM Store α) : Observed engine (onStore operation) :=
  observed_of_blind (fun _ _ => rfl) (fun _ hrun => hrun) fun _ _ heq => by cases heq

/-- Looking up an instance knows nothing of lint. -/
theorem observed_getInstance (id : InstanceId) : Observed engine (getInstance id) := by
  refine observed_of_blind (fun _ _ => ?_) (fun _ hrun => ?_) fun run trace heq => ?_
  · rw [getInstance_apply, getInstance_apply]
  · rw [getInstance_apply]
    exact hrun
  · rw [getInstance_apply] at heq
    cases hdata : run.instances[id.index]? <;> simp [hdata] at heq

/-- Nor does changing an instance. -/
theorem observed_modifyInstance (id : InstanceId) {change : Instance → Instance}
    (hchange : ∀ data, (change data).renderers = data.renderers) :
    Observed engine (modifyInstance id change) :=
  observed_of_blind (fun _ _ => rfl) (fun _ hrun => hrun.modify _ hchange) fun _ _ heq => by
    cases heq

/-- What is read is noted with lint on, and makes no other difference. -/
theorem observed_noteRead (id : InstanceId) (name : String) : Observed engine (noteRead id name) :=
  fun _ reads hrun => ⟨.same nofun, ⟨(id, name) :: reads, rfl⟩, hrun⟩

/-- Nor does creating one. -/
theorem observed_create (scope : Scope) (definition : Definition) :
    Observed engine (create scope definition) := by
  refine observed_of_blind (fun run _ => ?_) (fun run hrun => ?_) fun run trace heq => ?_
  · rw [create_apply, create_apply]
    cases run.instances[scope.innermost.index]? <;> rfl
  · rw [create_apply]
    cases run.instances[scope.innermost.index]? with
    | none => exact hrun
    | some creator => exact hrun.push _ rfl
  · rw [create_apply] at heq
    cases hcreator : run.instances[scope.innermost.index]? <;> simp [hcreator] at heq

/-- Nor does looking up a super-group. -/
theorem observed_above (group : GroupId) (name : String) : Observed engine (above group name) := by
  refine observed_of_blind (fun _ _ => ?_) (fun _ hrun => ?_) fun run trace heq => ?_
  · rw [above_apply, above_apply]
    rfl
  · rw [above_apply]
    exact hrun
  · rw [above_apply] at heq
    split at heq
    · cases heq
    · split at heq <;> cases heq

/-- Nor does looking up a property. -/
theorem observed_ownProperty (value : Value) (name : String) :
    Observed engine (ownProperty value name) := by
  refine observed_of_blind (fun _ _ => ?_) (fun _ hrun => ?_) fun run trace heq => ?_
  · rw [ownProperty_apply, ownProperty_apply]
  · rw [ownProperty_apply]
    exact hrun
  · rw [ownProperty_apply] at heq
    split at heq <;> cases heq

/-- Nor does writing. -/
theorem observed_writing (operation : Writer.Writing Nat) :
    Observed engine (writing operation) := by
  refine observed_of_blind (fun _ _ => ?_) (fun _ hrun => ?_) fun run trace heq => ?_
  · rw [writing_apply, writing_apply]
  · rw [writing_apply]
    exact hrun
  · rw [writing_apply] at heq
    cases hresult : (operation run.out).1 <;> simp [hresult] at heq

/-- A renderer that is found for a scalar was registered, or it is built in. -/
theorem registered_of_findRenderer {instances : Array Instance} (h : Knows engine instances)
    {scope : Scope} {type : ScalarType} {renderer : Renderer}
    (hfound : findRenderer? engine.groups instances scope type = some renderer) :
    engine.Registered renderer ∨ Renderers.builtin.find? type = some renderer := by
  simp only [findRenderer?, Option.orElse_eq_some] at hfound
  rcases hfound with hinstance | ⟨-, hgroup | ⟨-, hbuiltin⟩⟩
  · obtain ⟨id, -, hdata⟩ := List.exists_of_findSome?_eq_some hinstance
    obtain ⟨data, hdata, hrenderer⟩ := Option.bind_eq_some_iff.mp hdata
    exact Or.inl (h id.index data hdata type renderer hrenderer)
  · obtain ⟨data, -, hgroup⟩ := Option.bind_eq_some_iff.mp hgroup
    rw [Option.orElse_eq_some] at hgroup
    rcases hgroup with hown | ⟨-, hnative⟩
    · obtain ⟨id, -, group, hfind, hrenderer⟩ := Groups.findRenderer_eq_some hown
      exact Or.inl (.ofGroup hfind hrenderer)
    · obtain ⟨id, -, group, hfind, hrenderer⟩ := Groups.findRenderer_eq_some hnative
      exact Or.inl (.ofGroup hfind hrenderer)
  · exact Or.inr hbuiltin

/-- Only a renderer that was registered turns a scalar into the error of the recursion guard. -/
theorem raises_of_scalarAction {instances : Array Instance} (h : Knows engine instances)
    {scope : Scope} {type : ScalarType} {scalar : Scalar} {format : Option String} {store : Store}
    {trace : List String}
    (hresult : (scalarAction engine.groups instances scope type scalar format store).1 =
      .error (.raised (.infiniteRecursion trace))) : engine.Raises trace := by
  unfold scalarAction at hresult
  cases hfound : findRenderer? engine.groups instances scope type with
  | some renderer =>
    rw [hfound] at hresult
    rcases registered_of_findRenderer h hfound with hregistered | hbuiltin
    · exact ⟨renderer, hregistered, scalar, format, store, hresult⟩
    · obtain ⟨name, typeName, heq⟩ := Renderers.plain_builtin hbuiltin scalar format store _ hresult
      cases heq
  | none =>
    rw [hfound] at hresult
    cases hresult

/-- Nor does a renderer, and any error of the guard that it raises is one that the caller's
renderers raise. -/
theorem observed_rendering {operation : Format.Rendering String}
    (hraises : ∀ store trace,
      (operation store).1 = .error (.raised (.infiniteRecursion trace)) → engine.Raises trace) :
    Observed engine (rendering operation) := by
  intro run reads hrun
  rw [rendering_apply, rendering_apply]
  refine ⟨.same fun trace heq => hraises run.store trace ?_, ⟨reads, rfl⟩, hrun⟩
  cases hresult : (operation run.store).1 with
  | ok text => simp [hresult] at heq
  | error failure =>
    rw [hresult] at heq
    cases failure with
    | raised error => simpa [Halt.ofFailure] using heq
    | overflow => cases heq

/-- So the text of a scalar is the same with lint on and off. -/
theorem observed_scalarText (scope : Scope) (scalar : Scalar) (format : Option String) :
    Observed engine (scalarText scope scalar format) := by
  intro run reads hrun
  rw [scalarText_apply, scalarText_apply]
  exact observed_rendering (fun _ _ => raises_of_scalarAction hrun) run reads hrun

/-- An answer is the same with lint on and off. -/
theorem observed_pure (value : α) : Observed engine (pure value) :=
  observed_of_blind (fun _ _ => rfl) (fun _ hrun => hrun) nofun

/-- So is a halt that is not the error of the guard. -/
theorem observed_throw {halt : Halt} (h : ∀ trace, halt ≠ .failed (.infiniteRecursion trace)) :
    Observed engine (throw halt : Render α) :=
  observed_of_blind (fun _ _ => rfl) (fun _ hrun => hrun) fun _ trace heq =>
    h trace (Except.error.inj heq)

/-- What is done around an action looks at neither lint nor what was read, and leaves instances
alone. -/
theorem Observed.cleaned {inner : Render α} (h : Observed engine inner) (prepare : Run → Run)
    (cleanup : Run → Run → Run)
    (hprepare : ∀ (run : Run) reads, prepare { run with reads } = { prepare run with reads } ∧
      (prepare run).instances = run.instances)
    (hcleanup : ∀ (run after : Run) reads reads', cleanup { run with reads }
      { after with reads := reads' } = { cleanup run after with reads := reads' } ∧
        (cleanup run after).instances = after.instances)
    (happly : ∀ setting run, action setting run =
      Render.cleaned (cleanup run) (inner setting (prepare run))) : Observed engine action := by
  intro run reads hrun
  obtain ⟨hwith, hinstances⟩ := hprepare run reads
  have hinner := h (prepare run) reads (hinstances.symm ▸ hrun)
  rw [happly, happly, hwith]
  obtain ⟨hresult, ⟨reads', hreads⟩, hknown⟩ := hinner
  refine ⟨hresult, ⟨reads', ?_⟩, ?_⟩
  · simp only [Render.cleaned, hreads]
    exact (hcleanup run _ reads reads').1
  · simp only [Render.cleaned]
    rw [(hcleanup run _ reads reads').2]
    exact hknown

/-- Captured text is the same if the action that writes it is. -/
theorem Observed.capture {action : Render Nat} (h : Observed engine action) :
    Observed engine (capture action) := by
  intro run reads hrun
  have hinner := h { run with out := capturing engine.config } reads hrun
  change Observes engine
    (captured _ (action _ { run with out := capturing engine.config, reads := reads }))
    (captured _ (action _ { run with out := capturing engine.config }))
  generalize action (engine.linting true).setting _ = on at hinner ⊢
  generalize action (engine.linting false).setting _ = off at hinner ⊢
  obtain ⟨result, _⟩ := on
  obtain ⟨hresult, ⟨reads', rfl⟩, hknown⟩ := hinner
  exact ⟨hresult.map _, ⟨reads', rfl⟩, hknown⟩

/-- An action does the same within an indentation. -/
theorem Observed.indented (h : Observed engine action) (indent : Option String) :
    Observed engine (indented indent action) := by
  cases indent with
  | none => exact h
  | some indent =>
    exact h.cleaned (fun run => { run with out := run.out.pushIndent indent })
      (fun _ after => { after with out := after.out.popIndent.2 }) (fun _ _ => ⟨rfl, rfl⟩)
      (fun _ _ _ _ => ⟨rfl, rfl⟩) fun setting run => indented_apply setting run indent action

/-- It does the same within an anchor. -/
theorem Observed.anchored (h : Observed engine action) (anchor : Bool) :
    Observed engine (anchored anchor action) := by
  cases anchor with
  | false => exact h
  | true =>
    exact h.cleaned (fun run => { run with out := run.out.pushAnchor })
      (fun _ after => { after with out := after.out.popAnchor }) (fun _ _ => ⟨rfl, rfl⟩)
      (fun _ _ _ _ => ⟨rfl, rfl⟩) fun setting run => anchored_apply setting run action

/-- It does the same under a permission of its own. -/
theorem Observed.leniently (h : Observed engine action) (lenient : Bool) :
    Observed engine (leniently lenient action) :=
  h.cleaned (fun run => { run with lenient })
    (fun run after => { after with lenient := run.lenient })
    (fun _ _ => ⟨rfl, rfl⟩) (fun _ _ _ _ => ⟨rfl, rfl⟩)
    fun setting run => leniently_apply setting run lenient action

/-- The error that is caught when arguments are passed through is not the one that lint changes. -/
theorem Observed.ifDeclared {action : Render Value} (h : Observed engine action) :
    Observed engine (ifDeclared action) := by
  intro run reads hrun
  obtain ⟨hresult, hreads, hknown⟩ := h run reads hrun
  rw [ifDeclared_apply, ifDeclared_apply]
  exact ⟨hresult.declared, hreads, hknown⟩

/-- The recursion guard refuses the same instances, and differs only in the trace that it gives. -/
theorem Observed.guarded (h : Observed engine action) (id : InstanceId) (name : String) :
    Observed engine (guarded id name action) := by
  intro run reads hrun
  have hinner : Observed engine fun setting run =>
      Render.cleaned (fun after => { after with active := after.active.tail })
        (action setting { run with active := id :: run.active }) :=
    h.cleaned (fun run => { run with active := id :: run.active })
      (fun _ after => { after with active := after.active.tail }) (fun _ _ => ⟨rfl, rfl⟩)
      (fun _ _ _ _ => ⟨rfl, rfl⟩) fun _ _ => rfl
  have hrefuses : Run.refuses { run with reads } (engine.linting true).setting.config.maxDepth id =
      Run.refuses run (engine.linting false).setting.config.maxDepth id := rfl
  rw [guarded_apply, guarded_apply, hrefuses]
  split
  · exact ⟨.guarded (activeNames run ++ [name]), ⟨reads, rfl⟩, hrun⟩
  · exact hinner run reads hrun

/-- The judgement that actions do the same with lint on and off. -/
def observing (engine : Engine) : Logic Unit := .ofProperty (Observed engine)

variable (engine)

/-- The judgement is passed on where actions follow each other. -/
theorem compositional_observing : (observing engine).Compositional :=
  Logic.compositional_ofProperty observed_pure Observed.bind

/-- It holds of all actions of a render, apart from those that lint is for. -/
theorem lawful_observing : (observing engine).Lawful where
  toCompositional := compositional_observing engine
  closed := .trivial
  frame _ := trivial
  -- Only the recursion guard reports what lint is for.
  fail _ herror := observed_throw fun trace heq => herror trace (Halt.failed.inj heq)
  getInstance id h := (compositional_observing engine).getInstance (fun _ _ _ => rfl)
    (observed_getInstance id) h
  getCreated id h := (compositional_observing engine).getCreated (observed_getInstance id) h
  readAttribute name hfits h := (compositional_observing engine).readAttribute (fun _ _ _ => rfl)
    (observed_noteRead _ name) hfits h
  create := observed_create
  inlineOwner label owner := observed_onStore (Store.inlineOwner label owner)
  above := observed_above
  lookup _ _ := observed_of_blind (fun _ _ => rfl) (fun _ hrun => hrun) nofun
  dictionary _ _ := observed_of_blind (fun _ _ => rfl) (fun _ hrun => hrun) nofun
  assign id _ _ := observed_modifyInstance id fun _ => rfl
  bindVariables id _ := observed_modifyInstance id fun _ => rfl
  evalDefault := (compositional_observing engine).evalDefault trivial
    (fun _ _ => observed_of_blind (fun _ _ => rfl) (fun _ hrun => hrun) nofun)
    fun _ _ _ => observed_of_blind (fun _ _ => rfl) (fun _ hrun => hrun) nofun
  isLenient := observed_of_blind (fun _ _ => rfl) (fun _ hrun => hrun) nofun
  truthy _ := observed_of_blind (fun _ _ => rfl) (fun _ hrun => hrun) nofun
  ownProperty := observed_ownProperty
  next cursor := observed_onStore (Store.next cursor)
  drain cursor := observed_onStore (Store.drain cursor)
  scalarText := observed_scalarText
  leniently lenient h := Observed.leniently h lenient
  ifDeclared h := Observed.ifDeclared h
  write _ := observed_writing _
  writeToken _ _ := observed_writing _
  wrap _ _ := observed_writing _
  capture h := Observed.capture h
  indented indent h := Observed.indented h indent
  anchored anchor h := Observed.anchored h anchor

/-- It holds of those as well, so that it may be used of whole renders. -/
theorem ordinary_observing : (observing engine).Ordinary where
  toLawful := lawful_observing engine
  outOfFuel := observed_throw nofun
  enter id name _ h := by
    have hnoted : Observed engine (Evaluator.noteWritten id) :=
      observed_of_blind (fun _ _ => by rw [noteWritten_apply, noteWritten_apply]; rfl)
        (fun _ hrun => by rw [noteWritten_apply]; exact hrun)
        fun _ _ => by rw [noteWritten_apply]; nofun
    exact (hnoted.bind fun _ => h).guarded id name

end Render

namespace Engine

/-- The outcome of a render with lint on, beside that of the same render with lint off. -/
structure OnlyObserved (engine : Engine) (on off : Written) : Prop where
  result : engine.Untraced on.result off.result
  /-- Without lint the error of the recursion guard has no trace. -/
  untraced : ∀ trace, off.result = .error (.failed (.infiniteRecursion trace)) →
    trace = [] ∨ engine.Raises trace
  /-- The same text is written, and the writer is in the same state. -/
  out : on.out = off.out
  /-- The same is left of iterators, and of everything else that an engine keeps. -/
  engine : on.engine = off.engine.linting true
  unreported : off.warnings = []

/-- Lint only observes a render with a given number of levels. -/
theorem onlyObserved_writeWithin (fuel : Nat) (engine : Engine) (id : InstanceId) (out : Writer) :
    engine.OnlyObserved ((engine.linting true).writeWithin fuel id out)
      ((engine.linting false).writeWithin fuel id out) := by
  have hknown : Render.Knows engine (engine.start out).instances :=
    fun index data hdata _ _ hrenderer =>
      .ofInstance (show engine.instance? ⟨index⟩ = some data from hdata) hrenderer
  have hruns : Render.Observes engine ((engine.linting true).runWithin fuel id out)
      ((engine.linting false).runWithin fuel id out) :=
    ((Render.ordinary_observing engine).sound fuel).exec [] id (engine.start out) [] hknown
  have hsame : (engine.linting true).instance? id = (engine.linting false).instance? id := rfl
  rw [writeWithin, writeWithin, hsame]
  split
  · exact ⟨.same nofun, nofun, rfl, rfl, rfl⟩
  · generalize (engine.linting true).runWithin fuel id out = on at hruns ⊢
    generalize (engine.linting false).runWithin fuel id out = off at hruns ⊢
    obtain ⟨result, _⟩ := on
    obtain ⟨hresult, ⟨reads, rfl⟩, -⟩ := hruns
    exact ⟨hresult, fun _ => hresult.untraced, rfl, rfl, rfl⟩

/-- The same can be said of the texts that are handed to the caller. -/
theorem onlyObserved_renderWithWidth {engine : Engine} {id : InstanceId} {width : Nat}
    (h : engine.OnlyObserved ((engine.linting true).write id (engine.config.writer width))
      ((engine.linting false).write id (engine.config.writer width))) :
    engine.Untraced ((engine.linting true).renderWithWidth id width).1
      ((engine.linting false).renderWithWidth id width).1 := by
  have hwriter (lint : Bool) : (engine.linting lint).config.writer width =
      engine.config.writer width := rfl
  simp only [renderWithWidth, hwriter, h.out]
  exact h.result.map _

/-- Lint only observes. Whatever the engine, the instance and the writer are, a render does the same
with lint on and with lint off, and it answers the same text or the same error, but for the trace
that the recursion guard gives. -/
theorem onlyObserved_write (engine : Engine) (id : InstanceId) :
    (∀ out, engine.OnlyObserved ((engine.linting true).write id out)
      ((engine.linting false).write id out)) ∧
    (∀ width, engine.Untraced ((engine.linting true).renderWithWidth id width).1
      ((engine.linting false).renderWithWidth id width).1) ∧
    engine.Untraced ((engine.linting true).render id).1 ((engine.linting false).render id).1 := by
  have hwrite (out : Writer) : engine.OnlyObserved ((engine.linting true).write id out)
      ((engine.linting false).write id out) := onlyObserved_writeWithin fuel engine id out
  exact ⟨hwrite, fun width => onlyObserved_renderWithWidth (hwrite _),
    onlyObserved_renderWithWidth (hwrite _)⟩

end Engine

end Stencil
