import Mathlib.Order.Filter.AtTopBot.Basic
import Stencil.Proofs.Group.Dictionaries
import Stencil.Proofs.Render.Measures

/-!
# Renders end

A render ends if it has an outcome at some number of levels, other than that the levels ran out, and
the same outcome at every larger number. The recursion of evaluation goes down in five ways, one
inside the other: the stack of instances gets deeper; an argument default is asked for that was not
asked for before; a dictionary is evaluated inside another one; an iterator is used up; and
expressions, nodes and values are replaced by their parts. The stack is bounded by the
configuration, and the defaults, the cursors and the parts are finite in number. Only dictionaries
may lead back to themselves, and then a render may go on for ever.
-/

namespace Stencil

open Render Filter

variable {setting : Setting} {α β : Type}

/-- With sufficiently many levels a family of renders has one outcome, and it does not run out of
levels. -/
def Render.Ends (setting : Setting) (a : Nat → Render α) (run : Run) (post : α → Prop) : Prop :=
  ∃ outcome : Except Halt α × Run,
    (∀ᶠ n in atTop, a n setting run = outcome) ∧
    (∀ halt, outcome.1 = .error halt → halt.Admitted False) ∧
    run.Evolves setting.callers outcome.2 ∧ outcome.2.active = run.active ∧
    ∀ value, outcome.1 = .ok value → post value

/-- The renders at large numbers of levels, from the states that a state leads to while the
instances that are being written stay the same. More may be required of the states. -/
def Course.ending (setting : Setting) (start : Run)
    (hcallers : setting.callers ≤ start.instances.size) (Extra : Run → Prop)
    (hextra : ∀ {before after}, start.Evolves setting.callers before → Extra before →
      before.Evolves setting.callers after → Extra after) : Course Nat where
  levels := atTop
  bounded := False
  setting
  start
  Within run := start.Evolves setting.callers run ∧ run.active = start.active ∧ Extra run
  callers := hcallers
  reached hrun := hrun.1
  steady hrun hevolves hactive :=
    ⟨hrun.1.trans hevolves, hactive.trans hrun.2.1, hextra hrun.1 hrun.2.2 hevolves⟩

namespace Render.Ends

variable {run next : Run}

/-- What the levels have in the end is what the levels above them have in the end. -/
theorem eventually_step {a b : Nat → Render α} {outcome : Except Halt α × Run}
    (h : ∀ᶠ n in atTop, a n setting run = outcome) (hstep : ∀ n, b (n + 1) = a n) :
    ∀ᶠ n in atTop, b n setting run = outcome := by
  obtain ⟨levels, hlevels⟩ := eventually_atTop.mp h
  refine eventually_atTop.mpr ⟨levels + 1, fun n hn => ?_⟩
  obtain ⟨m, rfl⟩ : ∃ m, n = m + 1 := ⟨n - 1, by omega⟩
  rw [hstep m, hlevels m (by omega)]

/-- What a level does with the levels below ends if these are enough. -/
theorem step {a b : Nat → Render α} {post : α → Prop} (h : Ends setting a run post)
    (hstep : ∀ n, b (n + 1) = a n) : Ends setting b run post := by
  obtain ⟨outcome, heq, hrest⟩ := h
  exact ⟨outcome, eventually_step heq hstep, hrest⟩

/-- An action that has an answer may go before a render that ends. -/
theorem after {action : Render α} {f : Nat → α → Render β} {value : α} {post : β → Prop}
    (happly : action setting run = (.ok value, next))
    (hevolves : run.Evolves setting.callers next) (hactive : next.active = run.active)
    (h : Ends setting (fun n => f n value) next post) :
    Ends setting (fun n => action >>= f n) run post := by
  obtain ⟨outcome, heq, hhalt, hevolves', hactive', hpost⟩ := h
  refine ⟨outcome, heq.mono fun n hn => ?_, hhalt, hevolves.trans hevolves',
    hactive'.trans hactive, hpost⟩
  exact (bind_apply_ok _ _ happly).trans hn

end Render.Ends

/-- What holds of a family holds of the one that is one level higher. -/
theorem Course.step {course : Course Nat} (hlevels : course.levels = atTop) {pre : Prop}
    {a b : Nat → Render α} {post : α → Prop} (h : course.logic.Holds pre a post)
    (hstep : ∀ n, b (n + 1) = a n) : course.logic.Holds pre b post := by
  intro hpre run hrun
  obtain ⟨outcome, heq, hrest⟩ := h hpre run hrun
  exact ⟨outcome, hlevels ▸ Ends.eventually_step (hlevels ▸ heq) hstep, hrest⟩

/-- A state in which evaluation may go on inside some instances, with room for `depth` more. -/
structure Run.Ready (setting : Setting) (depth : Nat) (frames : List InstanceId) (run : Run) :
    Prop where
  callers : setting.callers ≤ run.instances.size
  depth : setting.config.maxDepth - run.active.length ≤ depth
  frames : run.Has frames

/-- A run stays ready while it evolves and the stack is the same. -/
theorem Run.Ready.evolves {depth : Nat} {frames : List InstanceId} {before after : Run}
    (h : before.Ready setting depth frames) (hevolves : before.Evolves setting.callers after)
    (hactive : after.active = before.active) : after.Ready setting depth frames :=
  ⟨h.callers.trans hevolves.size, hactive ▸ h.depth, hevolves.has h.frames⟩

/-- An element of a value is a part of it, or a text. -/
theorem Value.mem_elements {value item : Value} (h : item ∈ value.elements) :
    sizeOf item < sizeOf value ∨ ∃ text, item = .string text := by
  cases value with
  | list items =>
    left
    have hmem : item ∈ items := h
    have hless := List.sizeOf_lt_of_mem hmem
    simp only [Value.list.sizeOf_spec]
    omega
  | mapping entries =>
    right
    obtain ⟨text, -, rfl⟩ := List.mem_map.mp h
    exact ⟨text, rfl⟩
  | absent | scalar _ | template _ | iterator _ => cases h

/-- A body that may be written for a node of a body is smaller than that body. -/
theorem Node.sizeOf_bodies {node : Node} {nodes body : List Node} (hnode : node ∈ nodes)
    (hbody : body ∈ node.bodies) : sizeOf body < sizeOf nodes := by
  have hless := List.sizeOf_lt_of_mem hnode
  cases node with
  | conditional branches otherwise indent =>
    simp only [Node.conditional.sizeOf_spec] at hless
    rcases List.mem_cons.mp hbody with rfl | hbody
    · omega
    · obtain ⟨branch, hbranch, rfl⟩ := List.mem_map.mp hbody
      have hinner := List.sizeOf_lt_of_mem hbranch
      obtain ⟨test, body⟩ := branch
      simp only [Branch.mk.sizeOf_spec] at hinner ⊢
      omega
  | text _ | newline | expression _ _ _ | region _ _ _ => cases hbody

namespace Evaluator

/-- Writing instances ends, with room for `depth` more of them. -/
def ExecEnds (setting : Setting) (depth : Nat) : Prop :=
  ∀ run outer, run.Ready setting depth outer → ∀ id,
    Ends setting (fun n => (upTo n).exec outer id) run fun _ => True

/-- Writing values ends. -/
def ValueEnds (setting : Setting) (depth : Nat) : Prop :=
  ∀ run scope, run.Ready setting depth scope.frames → ∀ options value,
    Ends setting (fun n => (upTo n).value scope options value) run fun _ => True

/-- Evaluating expressions ends. -/
def EvalEnds (setting : Setting) (depth : Nat) : Prop :=
  ∀ run scope, run.Ready setting depth scope.frames → ∀ expr,
    Ends setting (fun n => (upTo n).eval scope expr) run fun _ => True

/-- Writing nodes ends. -/
def NodesEnd (setting : Setting) (depth : Nat) : Prop :=
  ∀ run scope, run.Ready setting depth scope.frames → ∀ line nodes,
    Ends setting (fun n => (upTo n).nodes scope line nodes) run fun _ => True

variable {depth : Nat}

/-- While an instance is on the stack there is less room. -/
theorem ready_enter {run : Run} {id : InstanceId} {data : Instance} {outer : List InstanceId}
    (hready : run.Ready setting depth outer) (hdata : run.instances[id.index]? = some data)
    (henters : ¬ Run.refuses run setting.config.maxDepth id = true) :
    ∃ less < depth, ({ run with active := id :: run.active } : Run).Ready setting less
      (id :: outer) := by
  have hroom : run.active.length < setting.config.maxDepth := by
    rw [refuses_iff, not_or, Nat.not_le] at henters
    exact henters.2
  have hid : id.index < run.instances.size := (Array.getElem?_eq_some_iff.mp hdata).1
  refine ⟨setting.config.maxDepth - (run.active.length + 1), ?_, hready.callers, Nat.le_refl _,
    List.forall_mem_cons.mpr ⟨hid, hready.frames⟩⟩
  have hdepth := hready.depth
  omega

/-- Writing the body of an instance that was put on the stack ends. -/
theorem body_settles {inner : Run} {id : InstanceId} {outer : List InstanceId}
    (hready : inner.Ready setting depth (id :: outer)) (hnodes : NodesEnd setting depth)
    (body : List Node) :
    (Course.ending setting inner hready.callers (fun _ => True) fun _ _ _ => trivial).Settles
      (fun n => writeBody (upTo n) outer id body) inner fun _ => True := by
  refine .bind ⟨.refl _ inner, rfl, trivial⟩ (Course.settles_noteWritten id inner)
    fun _ _ next hnext => ?_
  have hwritten : (Course.ending setting inner hready.callers (fun _ => True)
      fun _ _ _ => trivial).Settles (fun n => (upTo n).nodes ⟨id, outer⟩ {} body) next
        fun _ => True :=
    hnodes next ⟨id, outer⟩ (hready.evolves hnext.1 hnext.2.1) {} body
  exact hwritten.bind hnext fun written _ last _ =>
    Course.settles_ok rfl (.refl _ last) rfl trivial

/-- An instance is refused or written with less room, so it is written if bodies are. -/
theorem exec_ends (hnodes : ∀ less < depth, NodesEnd setting less) : ExecEnds setting depth := by
  intro run outer hready id
  suffices h : Ends setting (fun n => (upTo n).writeInstance outer id) run fun _ => True from
    h.step fun n => rfl
  cases hdata : run.instances[id.index]? with
  | none =>
    exact ⟨_, .of_forall fun n => writeInstance_apply_none setting run hdata (upTo n) outer,
      fun _ heq => (by cases heq; trivial), .refl _ run, rfl, fun _ _ => trivial⟩
  | some data =>
    by_cases hrefuses : Run.refuses run setting.config.maxDepth id = true
    · exact ⟨_, .of_forall fun n => exec_of_refuses setting run hdata hrefuses n outer,
        fun _ heq => (by cases heq; trivial), .refl _ run, rfl, fun _ _ => trivial⟩
    · obtain ⟨less, hless, hinner⟩ := ready_enter hready hdata hrefuses
      have hbody := body_settles hinner (hnodes less hless) data.definition.nodes
      exact hbody.cleanup _ (fun n => exec_of_enters setting run hdata hrefuses n outer)
        (.withActive _) (fun _ => .withActive _) fun next hactive => congrArg List.tail hactive

/-- Writing values ends where fewer than `bound` cursors have something to deliver. -/
def ValueEndsBelow (setting : Setting) (depth bound : Nat) : Prop :=
  ∀ run scope, run.Ready setting depth scope.frames → run.store.unfinished.card < bound →
    ∀ options value, Ends setting (fun n => (upTo n).value scope options value) run fun _ => True

/-- The renders from a state where fewer than `bound` cursors have something to deliver. -/
def delivering (setting : Setting) (start : Run)
    (hcallers : setting.callers ≤ start.instances.size) (bound : Nat) : Course Nat :=
  .ending setting start hcallers (fun run => run.store.unfinished.card < bound)
    fun _ hcard hevolves =>
      (Finset.card_le_card hevolves.store.unfinished_subset).trans_lt hcard

variable {bound : Nat} {run : Run} {scope : Scope}

/-- The elements of a collection come to an end if each value below the bound does. -/
theorem writeElements_ends (hbelow : ValueEndsBelow setting depth bound)
    (hready : run.Ready setting depth scope.frames) (hcard : run.store.unfinished.card < bound)
    (options : WriteOptions) (items : List Value) :
    Ends setting (fun n => (upTo n).writeElements scope options items) run fun _ => True := by
  let course := delivering setting run hready.callers bound
  have hvalue (item : Value) : course.logic.Holds (True ∧ course.logic.Proper item)
      (fun n => (upTo n).value scope options item) fun _ => True := fun _ next hnext =>
    hbelow next scope (hready.evolves hnext.1 hnext.2.1) hnext.2.2 options item
  exact course.lawful.writeElements (fun item _ => hvalue item)
    ⟨trivial, fun _ _ => trivial⟩ run ⟨.refl _ run, rfl, hcard⟩

/-- An iterator that still delivers something is used up by being written, and the items that it
delivers are written with fewer iterators left. -/
theorem writeDrained_ends (hbelow : ValueEndsBelow setting depth bound)
    (hready : run.Ready setting depth scope.frames)
    (hcard : run.store.unfinished.card < bound + 1) (options : WriteOptions)
    (cursor : CursorId) :
    Ends setting (fun n => onStore (Store.drain cursor) >>= (upTo n).writeElements scope options)
      run fun _ => True := by
  have hevolves : run.Evolves setting.callers { run with store := (run.store.drain cursor).2 } :=
    .withStore (.drain _ cursor)
  refine Ends.after (onStore_apply _ _ _) hevolves rfl ?_
  by_cases hempty : run.store.remaining cursor = []
  · have hnone (n : Nat) : (upTo n).writeElements scope options
        (Store.drain cursor run.store).1 = Pure.pure 0 := by
      simp only [Store.drain, hempty, writeElements, survivors, List.filterMap_nil]
    simp only [hnone]
    exact ⟨_, .of_forall fun _ => rfl, nofun, .refl _ _, rfl, fun _ _ => trivial⟩
  · have hless : (run.store.drain cursor).2.unfinished.card < bound :=
      (Store.card_unfinished_drain hempty).trans_le (Nat.le_of_lt_succ hcard)
    exact writeElements_ends hbelow (hready.evolves hevolves rfl) hless options _

/-- Values come to an end with one more item to go, if they do below that. -/
theorem value_endsBelow_succ (hexec : ExecEnds setting depth)
    (hbelow : ValueEndsBelow setting depth bound) : ValueEndsBelow setting depth (bound + 1) := by
  intro run scope hready hcard options value
  let course := delivering setting run hready.callers (bound + 1)
  have hsteady {next : Run} (hnext : course.Within next) :
      next.Ready setting depth scope.frames := hready.evolves hnext.1 hnext.2.1
  have hinside : True → course.logic.Inside scope := fun _ _ _ => trivial
  have hexec' (id : InstanceId) : course.logic.Holds True
      (fun n => (upTo n).exec scope.frames id) fun _ => True :=
    fun _ next hnext => hexec next scope.frames (hsteady hnext) id
  have hdrain (cursor : CursorId) : course.logic.Holds True
      (fun n => onStore (Store.drain cursor) >>= (upTo n).writeElements scope options)
      fun _ => True :=
    fun _ next hnext => writeDrained_ends hbelow (hsteady hnext) hnext.2.2 options cursor
  have hscalar (scalar : Scalar) : course.logic.Holds True
      (fun n => (upTo n).value scope options (.scalar scalar)) fun _ => True := by
    have hlevel : course.logic.Holds True
        (fun n => (upTo n).writeValue scope options (.scalar scalar)) fun _ => True :=
      course.lawful.of (course.lawful.writeScalar hinside options scalar) fun _ =>
        ⟨trivial, trivial⟩
    exact Course.step rfl hlevel fun _ => rfl
  -- An induction on the size: elements are smaller, and an iterator is left to the bound.
  have hvalue (size : Nat) : ∀ value, sizeOf value < size → course.logic.Holds True
      (fun n => (upTo n).value scope options value) fun _ => True := by
    induction size with
    | zero => exact fun _ hsize => absurd hsize (Nat.not_lt_zero _)
    | succ size ih =>
      intro value hsize
      have hlevel : course.logic.Holds True (fun n => (upTo n).writeValue scope options value)
          fun _ => True := by
        refine course.lawful.of (course.lawful.writeValue hinside
          (fun id _ => course.lawful.of (hexec' id) fun _ => trivial) (fun item hitem => ?_)
          fun cursor _ => course.lawful.of (hdrain cursor) fun _ => trivial) fun _ =>
          ⟨trivial, trivial⟩
        refine course.lawful.of ?_ fun _ => trivial
        rcases hitem.imp_left Value.mem_elements with (hless | ⟨text, rfl⟩) | ⟨text, rfl⟩
        · exact ih item (by omega)
        · exact hscalar _
        · exact hscalar _
      exact Course.step rfl hlevel fun _ => rfl
  exact hvalue _ value (Nat.lt_succ_self _) trivial run ⟨.refl _ run, rfl, hcard⟩

/-- Writing a value ends if writing instances does: cursors are used up, and elements are smaller
than what they are elements of. -/
theorem value_ends (hexec : ExecEnds setting depth) : ValueEnds setting depth := by
  have hbelow (bound : Nat) : ValueEndsBelow setting depth bound := by
    induction bound with
    | zero => exact fun _ _ _ hcard => absurd hcard (Nat.not_lt_zero _)
    | succ bound ih => exact value_endsBelow_succ hexec ih
  exact fun run scope hready => hbelow _ run scope hready (Nat.lt_succ_self _)

/-- The renders from a state where fewer than `bound` argument defaults of a scope have not been
asked for. -/
def asking (setting : Setting) (start : Run) (hcallers : setting.callers ≤ start.instances.size)
    (scope : Scope) (bound : Nat) : Course Nat :=
  .ending setting start hcallers
    (fun run => run.Has scope.frames ∧ (run.pending scope.frames).card < bound)
    fun _ hrun hevolves => ⟨hevolves.has hrun.1,
      (Finset.card_le_card (hevolves.pending_subset hrun.1)).trans_lt hrun.2⟩

/-- Where writing ends, it is among what evaluation may ask for. -/
theorem writes_asking (hexec : ExecEnds setting depth) (hvalue : ValueEnds setting depth)
    (scope : Scope) (hready : run.Ready setting depth scope.frames) (bound : Nat) :
    (asking setting run hready.callers scope bound).logic.Writes upTo True scope where
  inside _ _ _ := trivial
  value options value _ next hnext :=
    hvalue next scope (hready.evolves hnext.1 hnext.2.1) options value
  exec id _ next hnext := hexec next scope.frames (hready.evolves hnext.1 hnext.2.1) id

/-- Evaluating expressions ends where fewer than `bound` argument defaults have not been asked
for. -/
def EvalEndsBelow (setting : Setting) (depth bound : Nat) : Prop :=
  ∀ run scope, run.Ready setting depth scope.frames →
    (run.pending scope.frames).card < bound → ∀ expr,
      Ends setting (fun n => (upTo n).eval scope expr) run fun _ => True

/-- The default of an argument is evaluated where one default less has not been asked for. -/
theorem evalDefault_ends (hexec : ExecEnds setting depth) (hvalue : ValueEnds setting depth)
    (hbelow : EvalEndsBelow setting depth bound) {id : InstanceId} {outer : List InstanceId}
    {data : Instance} {formal : Formal Expr} {name : String}
    (hready : run.Ready setting depth scope.frames)
    (hcard : (run.pending scope.frames).card < bound + 1) (hframes : id :: outer <:+ scope.frames)
    (hdata : run.instances[id.index]? = some data)
    (hformal : data.definition.formal? name = some formal) (default : Expr) :
    Ends setting (fun n => (upTo n).evalDefault ⟨id, outer⟩ name default) run fun _ => True := by
  refine .after (knownDefault?_apply _ _ id name) (.refl _ run) rfl ?_
  cases hlookup : run.defaults.lookup (id, name) with
  | some value =>
    exact ⟨_, .of_forall fun _ => rfl, nofun, .refl _ run, rfl, fun _ _ => trivial⟩
  | none =>
    have hname : name ∈ data.definition.parameterNames := by
      have hfound := List.find?_some hformal
      exact List.mem_map.mpr ⟨formal, List.mem_of_find?_eq_some hformal, by simpa using hfound⟩
    -- The note is taken before the default is evaluated, so that one default less is pending.
    let noted : Run := { run with defaults := ((id, name), .absent) :: run.defaults }
    have hevolves : run.Evolves setting.callers noted :=
      { Run.Evolves.refl _ run with defaults := List.suffix_cons _ _ }
    refine .after (noteDefault_apply _ _ id name .absent) hevolves rfl ?_
    have hinner : noted.Ready setting depth (id :: outer) :=
      ⟨hready.callers, hready.depth, fun other hother =>
        hready.frames other (hframes.subset hother)⟩
    have hless : (noted.pending (id :: outer)).card < bound :=
      (Run.card_pending_noteDefault hframes hdata hname hlookup .absent).trans_le
        (Nat.le_of_lt_succ hcard)
    let course := asking setting noted hinner.callers ⟨id, outer⟩ bound
    have hwithin : course.Within noted := ⟨.refl _ noted, rfl, hinner.frames, hless⟩
    have heval : course.logic.Holds True (fun n => (upTo n).eval ⟨id, outer⟩ default)
        fun _ => True := fun _ next hnext =>
      hbelow next ⟨id, outer⟩ (hinner.evolves hnext.1 hnext.2.1) hnext.2.2.2 default
    have hdefault : course.logic.Holds True (fun n => (upTo n).defaultValue ⟨id, outer⟩ default)
        fun _ => True :=
      course.lawful.defaultValue
        ((writes_asking hexec hvalue ⟨id, outer⟩ hinner bound).captures course.lawful.toVocal) heval
    have hnoted : course.logic.Holds True (fun n => (upTo n).defaultValue ⟨id, outer⟩ default >>=
        fun value => noteDefault id name value >>= fun _ => Pure.pure value) fun _ => True :=
      course.lawful.bind hdefault fun value =>
        course.lawful.bind (course.lawful.given (Course.holds_noteDefault id name value)) fun _ =>
          course.lawful.pure fun _ => trivial
    exact hnoted trivial noted hwithin

/-- Expressions come to an end with one more default to go, if they do below that. -/
theorem eval_endsBelow_succ (hacyclic : setting.groups.Acyclic) (hexec : ExecEnds setting depth)
    (hvalue : ValueEnds setting depth) (hbelow : EvalEndsBelow setting depth bound) :
    EvalEndsBelow setting depth (bound + 1) := by
  intro run scope hready hcard expr
  let course := asking setting run hready.callers scope (bound + 1)
  have laws : course.logic.Lawful := course.lawful
  have hsteady {next : Run} (hnext : course.Within next) :
      next.Ready setting depth scope.frames := hready.evolves hnext.1 hnext.2.1
  have hwrites : course.logic.Writes upTo True scope :=
    writes_asking hexec hvalue scope hready (bound + 1)
  -- An expression has a value if all names have that it may look up.
  have heval (size : Nat) : ∀ expr : Expr, sizeOf expr < size →
      (∀ name, expr.Leads setting.groups.Stored name → course.logic.Holds True
        (fun n => (upTo n).resolve scope name) fun _ => True) →
      course.logic.Holds True (fun n => (upTo n).eval scope expr) fun _ => True := by
    induction size with
    | zero => exact fun _ hsize => absurd hsize (Nat.not_lt_zero _)
    | succ size ih =>
      intro expr hsize hresolve
      have hsupports : course.logic.Supports upTo True scope expr.parts
          (expr.Reads course.logic.Stored) :=
        { hwrites.captures laws.toVocal with
          eval := fun part hpart => by
            have hless := Expr.sizeOf_parts hpart
            exact ih part (by omega) fun name hleads => hresolve name (.part hpart hleads)
          resolve := fun name hpre => hresolve name (.reads hpre.2) trivial }
      exact Course.step rfl (laws.evalExpr hsupports) fun _ => rfl
  have hinnermost : scope.innermost.index < run.instances.size :=
    hready.frames _ List.mem_cons_self
  have hresolve (name : String) : course.logic.Holds True
      (fun n => (upTo n).resolve scope name) fun _ => True := by
    induction name using (hacyclic.wellFounded
      run.instances[scope.innermost.index].nativeGroup).induction with
    | _ name ih =>
    refine laws.resolveIn name (fun _ _ _ => trivial)
      (fun id outer data formal default hframes hformal hdefault => ?_) ?_
    · rintro ⟨-, hknown⟩ next hnext
      have hid : id.index < run.instances.size :=
        hready.frames id (hframes.subset List.mem_cons_self)
      have hfirst := Array.getElem?_eq_getElem hid
      obtain ⟨changed, hchanged, halike⟩ := hnext.1.instances id.index _ hfirst
      rw [(hknown _ hfirst).definition, ← halike.definition] at hformal
      exact evalDefault_ends hexec hvalue hbelow (hsteady hnext) hnext.2.2.2 hframes hchanged
        hformal default
    · refine laws.evalDictionary (fun _ _ _ => trivial) name
        fun data literal part hpart hpre => ?_
      obtain ⟨-, hknown, hlisted⟩ := hpre
      have hgroup := (hknown _ (Array.getElem?_eq_getElem hinnermost)).nativeGroup
      rw [hgroup] at hlisted
      exact heval _ part (Nat.lt_succ_self _) (fun other hleads =>
        ih other ⟨literal, hlisted, part, hpart, hleads⟩) trivial
  exact heval _ expr (Nat.lt_succ_self _) (fun name _ => hresolve name) trivial run
    ⟨.refl _ run, rfl, hready.frames, hcard⟩

/-- Evaluating an expression ends if writing ends, and if no dictionary leads back to itself. -/
theorem eval_ends (hacyclic : setting.groups.Acyclic) (hexec : ExecEnds setting depth)
    (hvalue : ValueEnds setting depth) : EvalEnds setting depth := by
  have hbelow (bound : Nat) : EvalEndsBelow setting depth bound := by
    induction bound with
    | zero => exact fun _ _ _ hcard => absurd hcard (Nat.not_lt_zero _)
    | succ bound ih => exact eval_endsBelow_succ hacyclic hexec hvalue ih
  exact fun run scope hready => hbelow _ run scope hready (Nat.lt_succ_self _)

/-- Writing nodes ends if writing and evaluating what they consist of does. -/
theorem nodes_end (hexec : ExecEnds setting depth) (hvalue : ValueEnds setting depth)
    (heval : EvalEnds setting depth) : NodesEnd setting depth := by
  intro run scope hready line nodes
  let course := asking setting run hready.callers scope ((run.pending scope.frames).card + 1)
  have hwrites : course.logic.Writes upTo True scope := writes_asking hexec hvalue scope hready _
  have heval' (expr : Expr) : course.logic.Holds True (fun n => (upTo n).eval scope expr)
      fun _ => True :=
    fun _ next hnext => heval next scope (hready.evolves hnext.1 hnext.2.1) expr
  have hnodes (size : Nat) : ∀ nodes : List Node, sizeOf nodes < size → ∀ line,
      course.logic.Holds True (fun n => (upTo n).nodes scope line nodes) fun _ => True := by
    induction size with
    | zero => exact fun _ hsize => absurd hsize (Nat.not_lt_zero _)
    | succ size ih =>
      intro nodes hsize line
      have hlevel : course.logic.Holds True (fun n => (upTo n).writeNodes scope line nodes)
          fun _ => True := by
        refine course.lawful.writeNodes hwrites heval' line fun node hnode line body hpre => ?_
        have hless := Node.sizeOf_bodies hnode hpre.2
        exact ih body (by omega) line trivial
      exact Course.step rfl hlevel fun _ => rfl
  exact hnodes _ nodes (Nat.lt_succ_self _) line trivial run
    ⟨.refl _ run, rfl, hready.frames, Nat.lt_succ_self _⟩

/-- If no dictionary leads back to itself, everything ends, however much room there is on the
stack. -/
theorem nodes_end_of_acyclic (hacyclic : setting.groups.Acyclic) (depth : Nat) :
    NodesEnd setting depth := by
  induction depth using Nat.strong_induction_on with
  | _ depth ih =>
    have hexec := exec_ends ih
    have hvalue := value_ends hexec
    exact nodes_end hexec hvalue (eval_ends hacyclic hexec hvalue)

/-- Without cycles among dictionaries every instance is written to an end, whatever room the stack
has. -/
theorem exec_ends_of_acyclic (hacyclic : setting.groups.Acyclic) (depth : Nat) :
    ExecEnds setting depth :=
  exec_ends fun less _ => nodes_end_of_acyclic hacyclic less

end Evaluator

end Stencil
