import Stencil.Render.Exec

/-!
# What actions do to a run

Each action on the state of a render is given here as a function of the state, together with the
rule for actions that follow each other. What is proved of runs is proved from these equations.
-/

namespace Stencil.Render

variable {α β : Type} (setting : Setting) (run : Run)

/-- An answer that is given at once leaves the state as it is. -/
@[simp] theorem pure_apply (value : α) :
    (Pure.pure value : Render α) setting run = (.ok value, run) := rfl

/-- The second action takes place only if the first one has an answer. -/
theorem bind_apply (action : Render α) (next : α → Render β) :
    (action >>= next) setting run = match action setting run with
      | (.ok value, after) => next value setting after
      | (.error halt, after) => (.error halt, after) := by
  change StateT.bind (action setting) (ExceptT.bindCont fun value => next value setting) run = _
  unfold StateT.bind
  rcases action setting run with ⟨_ | _, _⟩ <;> rfl

/-- After an answer the second action goes on from where the first one ended. -/
theorem bind_apply_ok {action : Render α} {next : α → Render β} {value : α} {after : Run}
    (h : action setting run = (.ok value, after)) :
    (action >>= next) setting run = next value setting after := by
  rw [bind_apply, h]

/-- After a halt the second action does not take place. -/
theorem bind_apply_error {action : Render α} {next : α → Render β} {halt : Halt} {after : Run}
    (h : action setting run = (.error halt, after)) :
    (action >>= next) setting run = (.error halt, after) := by
  rw [bind_apply, h]

/-- Where two actions have an answer, the first one does, and the second one goes on with it. -/
theorem bind_eq_ok {action : Render α} {next : α → Render β} {value : β} {after : Run} :
    (action >>= next) setting run = (.ok value, after) ↔
      ∃ first mid, action setting run = (.ok first, mid) ∧
        next first setting mid = (.ok value, after) := by
  rw [bind_apply]
  rcases action setting run with ⟨_ | first, mid⟩
  · exact ⟨nofun, fun ⟨_, _, hfirst, _⟩ => nomatch hfirst⟩
  · exact ⟨fun h => ⟨first, mid, rfl, h⟩, fun ⟨_, _, hfirst, h⟩ => by cases hfirst; exact h⟩

/-- A failure changes nothing. -/
@[simp] theorem fail_apply (error : RenderError) :
    (fail error : Render α) setting run = (.error (.failed error), run) := rfl

/-- A halt changes nothing. -/
@[simp] theorem throw_apply (halt : Halt) :
    (throw halt : Render α) setting run = (.error halt, run) := rfl

/-- A check has an answer only if it does not fail, and then nothing has happened. -/
theorem failIf_eq_ok {condition : Bool} {error : RenderError} {value : Unit} {after : Run} :
    failIf condition error setting run = (.ok value, after) ↔ condition = false ∧ run = after := by
  cases condition with
  | true => exact ⟨nofun, nofun⟩
  | false => exact ⟨fun h => ⟨rfl, congrArg Prod.snd h⟩, fun ⟨_, h⟩ => h ▸ rfl⟩

/-- The state can be looked at. -/
@[simp] theorem get_apply : (get : Render Run) setting run = (.ok run, run) := rfl

/-- The state can be replaced. -/
@[simp] theorem set_apply (after : Run) :
    (set after : Render PUnit) setting run = (.ok ⟨⟩, after) := rfl

/-- What a render does not change can be looked at. -/
@[simp] theorem read_apply : (read : Render Setting) setting run = (.ok setting, run) := rfl

/-- An action on the store changes the store alone. -/
theorem onStore_apply (action : StateM Store α) :
    onStore action setting run =
      (.ok (action run.store).1, { run with store := (action run.store).2 }) := rfl

/-- An instance is looked up under its number, and nothing changes. -/
theorem getInstance_apply (id : InstanceId) :
    getInstance id setting run = (match run.instances[id.index]? with
      | some data => .ok data
      | none => .error (.failed (.invalidInstance id.index)), run) := by
  change (match run.instances[id.index]? with
    | some data => (Pure.pure data : Render Instance)
    | none => fail (.invalidInstance id.index)) setting run = _
  cases run.instances[id.index]? <;> rfl

/-- An instance that is there is found. -/
theorem getInstance_apply_some {id : InstanceId} {data : Instance}
    (h : run.instances[id.index]? = some data) :
    getInstance id setting run = (.ok data, run) := by
  rw [getInstance_apply, h]

/-- A number without an instance is reported. -/
theorem getInstance_apply_none {id : InstanceId} (h : run.instances[id.index]? = none) :
    getInstance id setting run = (.error (.failed (.invalidInstance id.index)), run) := by
  rw [getInstance_apply, h]

/-- The instance that a call creates within the scope of another instance. -/
def created (creator : Instance) (scope : Scope) (definition : Definition) : Instance :=
  { definition
    group := creator.group
    nativeGroup := definition.group.getD creator.nativeGroup
    enclosing := some scope.innermost }

/-- A created instance stands behind all others and belongs to the group of its creator. -/
theorem create_apply (scope : Scope) (definition : Definition) :
    create scope definition setting run = match run.instances[scope.innermost.index]? with
      | some creator => (.ok ⟨run.instances.size⟩,
          { run with instances := run.instances.push (created creator scope definition) })
      | none => (.error (.failed (.invalidInstance scope.innermost.index)), run) := by
  rw [create, bind_apply, getInstance_apply]
  cases run.instances[scope.innermost.index]? <;> rfl

/-- The super-group of a group is looked up, with an error for each way in which there may be
none. -/
theorem above_apply (group : GroupId) (name : String) :
    above group name setting run = (match setting.groups.find? group with
      | none => .error (.failed (.invalidGroup group.index))
      | some data => match data.superGroup with
        | some above => .ok above
        | none => .error (.failed (.noSuperGroup data.name name)), run) := by
  change (match setting.groups.find? group with
    | none => fail (.invalidGroup group.index)
    | some data => match data.superGroup with
      | some above => (Pure.pure above : Render GroupId)
      | none => fail (.noSuperGroup data.name name)) setting run = _
  cases setting.groups.find? group with
  | none => rfl
  | some data =>
    dsimp only
    cases data.superGroup <;> rfl

/-- The template of a name is looked up from a group on. -/
theorem lookup_apply (start : GroupId) (name : String) :
    lookup start name setting run =
      (.ok ((setting.groups.findTemplate start name).map Prod.fst), run) := rfl

/-- The dictionary of a name is looked up from a group on. -/
theorem dictionary?_apply (start : GroupId) (name : String) :
    dictionary? start name setting run =
      (.ok (setting.groups.findDictionary start name), run) := rfl

/-- One instance is changed, and nothing else. -/
theorem modifyInstance_apply (id : InstanceId) (change : Instance → Instance) :
    modifyInstance id change setting run =
      (.ok (), { run with instances := run.instances.modify id.index change }) := rfl

/-- A read is noted if lint is on. -/
theorem noteRead_apply (id : InstanceId) (name : String) :
    noteRead id name setting run = (.ok (), { run with
      reads := if setting.config.lint then (id, name) :: run.reads else run.reads }) := by
  simp only [noteRead, bind_apply, read_apply]
  split <;> rfl

/-- What is known of a default is looked up. -/
theorem knownDefault?_apply (id : InstanceId) (name : String) :
    knownDefault? id name setting run = (.ok (run.defaults.lookup (id, name)), run) := rfl

/-- A default comes in front of what was known before. -/
theorem noteDefault_apply (id : InstanceId) (name : String) (value : Value) :
    noteDefault id name value setting run =
      (.ok (), { run with defaults := ((id, name), value) :: run.defaults }) := rfl

/-- The permission to read loop variables after their sequence can be looked at. -/
theorem isLenient_apply : isLenient setting run = (.ok run.lenient, run) := rfl

/-- Whether a value counts as true is seen in the store. -/
theorem truthy_apply (value : Value) :
    truthy value setting run = (.ok (run.store.truthy value), run) := rfl

/-- A property of a value is found in the store, or it is missing with the name of the type. -/
theorem ownProperty_apply (value : Value) (name : String) :
    ownProperty value name setting run = (match run.store.property? value name with
      | some found => .ok found
      | none => .error (.failed (.noSuchProperty name (run.store.typeName value))), run) := by
  change (match run.store.property? value name with
    | some found => (Pure.pure found : Render Value)
    | none => fail (.noSuchProperty name (run.store.typeName value))) setting run = _
  cases run.store.property? value name <;> rfl

/-- A renderer works on the store, and its failure halts the render. -/
theorem rendering_apply (action : Format.Rendering String) :
    rendering action setting run = (match (action run.store).1 with
      | .ok text => .ok text
      | .error failure => .error (.ofFailure failure),
        { run with store := (action run.store).2 }) := by
  rw [rendering, bind_apply, onStore_apply]
  change (match (action run.store).1 with
    | .ok text => (Pure.pure text : Render String)
    | .error failure => throw (Halt.ofFailure failure)) setting
      { run with store := (action run.store).2 } = _
  cases (action run.store).1 <;> rfl

/-- The action by which a renderer, if there is one, turns a scalar into text. -/
def scalarAction (groups : Groups) (instances : Array Instance) (scope : Scope)
    (type : ScalarType) (scalar : Scalar) (format : Option String) : Format.Rendering String :=
  match findRenderer? groups instances scope type with
  | some renderer => renderer.format scalar format
  | none => Format.shown scalar

/-- Turning a scalar into text looks at nothing but the scalar. -/
theorem local_scalarAction (groups : Groups) (instances : Array Instance) (scope : Scope)
    (type : ScalarType) (scalar : Scalar) (format : Option String) :
    Format.Local scalar (scalarAction groups instances scope type scalar format) := by
  unfold scalarAction
  cases findRenderer? groups instances scope type with
  | some renderer => exact renderer.isLocal scalar format
  | none => exact .shown

/-- The text of a scalar comes from the renderer that is looked up for its type. -/
theorem scalarText_apply (scope : Scope) (scalar : Scalar) (format : Option String) :
    scalarText scope scalar format setting run =
      rendering (scalarAction setting.groups run.instances scope (run.store.scalarType scalar)
        scalar format) setting run := by
  change (match findRenderer? setting.groups run.instances scope (run.store.scalarType scalar) with
    | some renderer => rendering (renderer.format scalar format)
    | none => rendering (Format.shown scalar)) setting run = _
  unfold scalarAction
  cases findRenderer? setting.groups run.instances scope (run.store.scalarType scalar) <;> rfl

/-- Writing changes the writer, and a refused text fails. -/
theorem writing_apply (action : Writer.Writing Nat) :
    writing action setting run = (match (action run.out).1 with
      | .ok count => .ok count
      | .error _ => .error (.failed .writeRefused), { run with out := (action run.out).2 }) := by
  change (match (action run.out).1 with
    | .ok count => (Pure.pure count : Render Nat)
    | .error _ => fail .writeRefused) setting { run with out := (action run.out).2 } = _
  cases (action run.out).1 <;> rfl

/-- An outcome whose state is cleaned up. -/
def cleaned (cleanup : Run → Run) (outcome : Except Halt α × Run) : Except Halt α × Run :=
  (outcome.1, cleanup outcome.2)

/-- The outcome of capturing what an action writes, from the outcome of the action. -/
def captured (before : Run) (outcome : Except Halt Nat × Run) : Except Halt String × Run :=
  (outcome.1.map fun _ => outcome.2.out.sink.text, { outcome.2 with out := before.out })

/-- What looking up a name that may not be declared results in, from the result of the look-up. -/
def declared : Except Halt Value → Except Halt (Option Value)
  | .ok value => .ok (some value)
  | .error (.failed (.noSuchAttribute _ _)) => .ok none
  | .error halt => .error halt

/-- The writer that captures text. -/
def capturing (config : Config) : Writer :=
  { newline := config.newline, indenting := config.indent }

/-- Text is captured by a writer of its own, and the writer from before comes back. -/
theorem capture_apply (action : Render Nat) :
    capture action setting run =
      captured run (action setting { run with out := capturing setting.config }) := rfl

/-- An indentation is taken off again, also after a halt. -/
theorem indented_apply (indent : String) (action : Render α) :
    indented (some indent) action setting run =
      cleaned (fun after => { after with out := after.out.popIndent.2 })
        (action setting { run with out := run.out.pushIndent indent }) := rfl

/-- An anchor is taken off again, also after a halt. -/
theorem anchored_apply (action : Render α) :
    anchored true action setting run =
      cleaned (fun after => { after with out := after.out.popAnchor })
        (action setting { run with out := run.out.pushAnchor }) := rfl

/-- The permission from before comes back, also after a halt. -/
theorem leniently_apply (lenient : Bool) (action : Render α) :
    leniently lenient action setting run =
      cleaned (fun after => { after with lenient := run.lenient })
        (action setting { run with lenient }) := rfl

/-- A name that is not declared counts as no value. -/
theorem ifDeclared_apply (action : Render Value) :
    ifDeclared action setting run =
      (declared (action setting run).1, (action setting run).2) := by
  unfold ifDeclared
  obtain ⟨result, after⟩ := action setting run
  cases result with
  | ok value => rfl
  | error halt =>
    cases halt with
    | failed error => cases error <;> rfl
    | overflow | outOfFuel | withheld => rfl

/-- What is guarded takes place with the instance on the stack, unless it is refused there. -/
theorem guarded_apply (id : InstanceId) (name : String) (action : Render α) :
    guarded id name action setting run =
      if Run.refuses run setting.config.maxDepth id then
        (.error (.failed (.infiniteRecursion
          (if setting.config.lint then activeNames run ++ [name] else []))), run)
      else
        cleaned (fun after => { after with active := after.active.tail })
          (action setting { run with active := id :: run.active }) := by
  simp only [guarded, bind_apply, get_apply, read_apply]
  split
  · simp only [bind_apply, fail_apply]
  · simp only [bind_apply, set_apply]
    rfl

/-- The instances of the caller that were written, after an instance is. -/
def noted (callers : Nat) (id : InstanceId) (written : List InstanceId) : List InstanceId :=
  if id.index < callers ∧ id ∉ written then written ++ [id] else written

/-- Instances are noted behind those that were noted before. -/
theorem prefix_noted (callers : Nat) (id : InstanceId) (written : List InstanceId) :
    written <+: noted callers id written := by
  unfold noted
  split
  · exact List.prefix_append _ _
  · exact List.prefix_rfl

/-- An instance of the caller is noted when it is written. -/
theorem mem_noted {callers : Nat} {id : InstanceId} {written : List InstanceId}
    (h : id.index < callers) : id ∈ noted callers id written := by
  unfold noted
  split
  · exact List.mem_append_right _ List.mem_cons_self
  · next hnot => exact Decidable.not_not.mp fun hmem => hnot ⟨h, hmem⟩

/-- That an instance is written is noted in the state. -/
theorem noteWritten_apply (id : InstanceId) :
    Evaluator.noteWritten id setting run =
      (.ok (), { run with written := noted setting.callers id run.written }) := by
  simp only [Evaluator.noteWritten, bind_apply, get_apply, read_apply, noted]
  split <;> rfl

/-- The expression of a chunk is evaluated while loop variables may be read after their sequence if
the chunk has a null option; its options are evaluated, and its value is written, while they may be
if they might before. -/
theorem writeExpression_apply (below : Evaluator) (scope : Scope) (expr : Expr)
    (options : Options Expr) :
    below.writeExpression scope expr options setting run =
      match below.eval scope expr setting { run with lenient := options.null.isSome } with
      | (.ok value, after) => (do
          let evaluated ← below.evalOptions scope options
          anchored options.anchor (below.value scope evaluated value) : Render Nat) setting
            { after with lenient := run.lenient }
      | (.error halt, after) => (.error halt, { after with lenient := run.lenient }) := by
  rw [Evaluator.writeExpression, bind_apply, leniently_apply]
  rcases below.eval scope expr setting { run with lenient := options.null.isSome } with
    ⟨_ | _, _⟩ <;> rfl

/-- Writes the body of an instance. -/
def writeBody (below : Evaluator) (outer : List InstanceId) (id : InstanceId) (nodes : List Node) :
    Render Nat := do
  Evaluator.noteWritten id
  let (count, _) ← below.nodes ⟨id, outer⟩ {} nodes
  return count

/-- The body of an instance is written while the instance is on the stack. -/
theorem writeInstance_apply {id : InstanceId} {data : Instance}
    (hdata : run.instances[id.index]? = some data) (below : Evaluator) (outer : List InstanceId) :
    below.writeInstance outer id setting run =
      guarded id data.definition.name (writeBody below outer id data.definition.nodes) setting
        run :=
  bind_apply_ok _ _ (getInstance_apply_some setting run hdata)

/-- An instance that is not there cannot be written. -/
theorem writeInstance_apply_none {id : InstanceId} (hdata : run.instances[id.index]? = none)
    (below : Evaluator) (outer : List InstanceId) :
    below.writeInstance outer id setting run =
      (.error (.failed (.invalidInstance id.index)), run) :=
  bind_apply_error _ _ (getInstance_apply_none setting run hdata)

/-- A body is written from its nodes, after a note that its instance is written. -/
theorem writeBody_apply (below : Evaluator) (outer : List InstanceId) (id : InstanceId)
    (nodes : List Node) :
    writeBody below outer id nodes setting run =
      (below.nodes ⟨id, outer⟩ {} nodes >>= fun written => pure written.1) setting
        { run with written := noted setting.callers id run.written } :=
  bind_apply_ok _ _ (noteWritten_apply setting run id)

/-- An instance is refused if it is active already, or if the stack is full. -/
theorem refuses_iff {maxDepth : Nat} {id : InstanceId} :
    Run.refuses run maxDepth id = true ↔ id ∈ run.active ∨ maxDepth ≤ run.active.length := by
  simp [Run.refuses]

/-- An instance that can be put on the stack is taken off it when its body is written. -/
theorem exec_of_enters {id : InstanceId} {data : Instance}
    (hdata : run.instances[id.index]? = some data)
    (henters : ¬ Run.refuses run setting.config.maxDepth id = true) (fuel : Nat)
    (outer : List InstanceId) :
    (Evaluator.upTo (fuel + 1)).exec outer id setting run =
      cleaned (fun after => { after with active := after.active.tail })
        (writeBody (Evaluator.upTo fuel) outer id data.definition.nodes setting
          { run with active := id :: run.active }) := by
  change (Evaluator.upTo fuel).writeInstance outer id setting run = _
  rw [writeInstance_apply setting run hdata, guarded_apply, if_neg henters]

/-- An instance that cannot be put on the stack is not written, and says so. -/
theorem exec_of_refuses {id : InstanceId} {data : Instance}
    (hdata : run.instances[id.index]? = some data)
    (hrefuses : Run.refuses run setting.config.maxDepth id = true) (fuel : Nat)
    (outer : List InstanceId) :
    (Evaluator.upTo (fuel + 1)).exec outer id setting run =
      (.error (.failed (.infiniteRecursion
        (if setting.config.lint then activeNames run ++ [data.definition.name] else []))),
        run) := by
  change (Evaluator.upTo fuel).writeInstance outer id setting run = _
  rw [writeInstance_apply setting run hdata, guarded_apply, if_pos hrefuses]

/-- An outcome that is an answer, which can be found out by computing it. -/
theorem exists_of_isOk {α : Type} {outcome : Except Halt α × Run} (h : outcome.1.isOk = true) :
    ∃ value after, outcome = (.ok value, after) := by
  obtain ⟨halt | value, after⟩ := outcome
  · cases h
  · exact ⟨value, after, rfl⟩

end Stencil.Render

namespace Stencil

/-! ### Renders in one group -/

/-- What a render does not change that begins with one instance in one group. -/
def Setting.ofGroup (templates : List Definition)
    (dictionaries : List (String × MapLiteral Expr) := []) : Setting where
  config := {}
  groups := #[{
    name := "group"
    templates := Table.insertAll {}
      (templates.map fun definition => (definition.name, { definition with group := some ⟨0⟩ }))
    dictionaries := Table.insertAll {} dictionaries }]
  callers := 1

/-- The state of such a render in which there are some instances, with their attributes. -/
def Run.ofInstances (instances : List (Definition × List (String × Value))) : Run where
  instances := (instances.map fun entry => {
    definition := entry.1
    group := ⟨0⟩
    nativeGroup := ⟨0⟩
    attributes := Table.insertAll {} entry.2 }).toArray
  store := {}
  out := {}

end Stencil
