import Stencil.Proofs.Render.Steps
import Stencil.Proofs.Value.Renaming

/-!
# Instances under other numbers

Two renders are compared that number the instances in their own ways: from some number on, the
second one has each instance of the first one under a number that is larger by a gap, and what it
has in the gap does not matter. While an instance is being written it may also have another body in
the second render, because a body is looked at only where the writing of an instance begins. What
the renders note for lint may differ.
-/

namespace Stencil

open Render

/-- How the second of two renders has the instances of the first one. -/
structure Shift where
  /-- The number from which on the numbers differ. -/
  first : Nat
  /-- How much larger they are in the second render. -/
  gap : Nat
  /-- The bodies that some instances have in the second render. -/
  bodies : InstanceId → Option (List Chunk) := fun _ => none

namespace Shift

variable (S : Shift)

/-- The number in the second render. -/
def move (id : InstanceId) : InstanceId :=
  if id.index < S.first then id else ⟨id.index + S.gap⟩

/-- A value of the second render. -/
def value : Value → Value := Value.rename S.move

/-- A scope of the second render. -/
def scope (scope : Scope) : Scope := ⟨S.move scope.innermost, scope.outer.map S.move⟩

/-- The definition of an instance in the second render. -/
def definition (id : InstanceId) (definition : Definition) : Definition :=
  { definition with body := (S.bodies id).getD definition.body }

/-- An instance in the second render. -/
def data (id : InstanceId) (data : Instance) : Instance :=
  { data with
    definition := S.definition id data.definition
    attributes := data.attributes.map S.value
    enclosing := data.enclosing.map S.move
    iteration := data.iteration.map fun (name, binding) => (name, binding.map S.value) }

/-- The result of the second render. Only the number of an instance that was not issued may be
another one. -/
inductive Matches {α β : Type} (answer : α → β) : Except Halt α → Except Halt β → Prop
  | ok (value : α) : Matches answer (.ok value) (.ok (answer value))
  | halt (halt : Halt) : Matches answer (.error halt) (.error halt)
  | invalid (id : InstanceId) : Matches answer (.error (.failed (.invalidInstance id.index)))
      (.error (.failed (.invalidInstance (S.move id).index)))

/-- The state of the second render. -/
structure Mirrors (run other : Run) : Prop where
  grown : S.first ≤ run.instances.size
  size : other.instances.size = run.instances.size + S.gap
  instances : ∀ id : InstanceId,
    other.instances[(S.move id).index]? = (run.instances[id.index]?).map (S.data id)
  store : Store.Renamed S.move run.store other.store
  out : other.out = run.out
  active : other.active = run.active.map S.move
  /-- Another body is of no account until the instance has been written. -/
  bodies : ∀ id, (S.bodies id).isSome → id ∈ run.active ∧ id.index < S.first
  defaults : ∀ id name,
    other.defaults.lookup (S.move id, name) = (run.defaults.lookup (id, name)).map S.value
  lenient : other.lenient = run.lenient

/-! ### Numbers -/

variable {S}

/-- Instances before the gap keep their numbers. -/
theorem move_of_lt {id : InstanceId} (h : id.index < S.first) : S.move id = id := if_pos h

/-- Later instances are moved by the width of the gap. -/
theorem move_of_ge {id : InstanceId} (h : S.first ≤ id.index) : S.move id = ⟨id.index + S.gap⟩ :=
  if_neg (Nat.not_lt.mpr h)

/-- Different instances have different numbers in the second render. -/
theorem move_injective {id other : InstanceId} (h : S.move id = S.move other) : id = other := by
  obtain ⟨index⟩ := id
  obtain ⟨index'⟩ := other
  unfold move at h
  split at h <;> split at h <;> simp only [InstanceId.mk.injEq] at * <;> omega

/-- So numbers may be compared in either render. -/
@[simp] theorem move_eq_iff {id other : InstanceId} : S.move id = S.move other ↔ id = other :=
  ⟨move_injective, congrArg S.move⟩

/-- The instances of a scope are moved one by one. -/
@[simp] theorem frames_scope (scope : Scope) :
    (S.scope scope).frames = scope.frames.map S.move := rfl

/-- A scope in the second render, by its parts. -/
theorem scope_eq (innermost : InstanceId) (outer : List InstanceId) :
    S.scope ⟨innermost, outer⟩ = ⟨S.move innermost, outer.map S.move⟩ := rfl

/-! ### Judgements -/

variable {α β γ δ : Type} {setting : Setting}

/-- The outcomes of two renders go together, where `active` were active before. -/
structure Meets (S : Shift) (answer : α → β) (active : List InstanceId)
    (outcome : Except Halt α × Run) (other : Except Halt β × Run) : Prop where
  states : S.Mirrors outcome.2 other.2
  results : S.Matches answer outcome.1 other.1
  active : outcome.2.active = active

/-- One render keeps track of another one: from states that go together they come to states that go
together, and the answer of the second one is made from the answer of the first one. -/
def Tracks (S : Shift) (setting : Setting) (answer : α → β) (a : Render α) (b : Render β) : Prop :=
  ∀ run other, S.Mirrors run other → S.Meets answer run.active (a setting run) (b setting other)

variable {answer : α → β} {final : γ → δ} {a : Render α} {b : Render β}

/-- Answers go together if the second one is made from the first one. -/
theorem matches_ok {value : α} {other : β} (h : other = answer value) :
    S.Matches answer (.ok value) (.ok other) :=
  h ▸ .ok value

/-- What comes after outcomes that go together. -/
theorem Meets.bind {next : α → Render γ} {later : β → Render δ} {active : List InstanceId}
    {run other : Run} (h : S.Meets answer active (a setting run) (b setting other))
    (hnext : ∀ value, S.Tracks setting final (next value) (later (answer value))) :
    S.Meets final active ((a >>= next) setting run) ((b >>= later) setting other) := by
  obtain ⟨hafter, hresult, hactive⟩ := h
  rw [bind_apply, bind_apply]
  generalize a setting run = outcome at hafter hresult hactive
  generalize b setting other = outcome' at hafter hresult
  obtain ⟨result, after⟩ := outcome
  obtain ⟨result', after'⟩ := outcome'
  cases hresult with
  | halt stop => exact ⟨hafter, .halt stop, hactive⟩
  | invalid id => exact ⟨hafter, .invalid id, hactive⟩
  | ok value =>
    obtain ⟨hlast, hresult', hactive'⟩ := hnext value _ _ hafter
    exact ⟨hlast, hresult', hactive'.trans hactive⟩

/-- Actions that go together may follow each other. -/
theorem Tracks.bind {next : α → Render γ} {later : β → Render δ} (h : S.Tracks setting answer a b)
    (hnext : ∀ value, S.Tracks setting final (next value) (later (answer value))) :
    S.Tracks setting final (a >>= next) (b >>= later) :=
  fun run other hmirrors => (h run other hmirrors).bind hnext

/-- An answer that holds no numbers. -/
theorem Tracks.then {a b : Render α} {next : α → Render γ} {later : α → Render δ}
    (h : S.Tracks setting id a b)
    (hnext : ∀ value, S.Tracks setting final (next value) (later value)) :
    S.Tracks setting final (a >>= next) (b >>= later) :=
  h.bind hnext

/-- Answers that are given at once go together if they do so as values. -/
theorem tracks_pure {value : α} {other : β} (h : other = answer value) :
    S.Tracks setting answer (pure value) (pure other) :=
  fun _ _ hmirrors => ⟨hmirrors, matches_ok h, rfl⟩

/-- A halt is the same in both renders. -/
theorem tracks_throw (halt : Halt) : S.Tracks setting answer (throw halt) (throw halt) :=
  fun _ _ hmirrors => ⟨hmirrors, .halt halt, rfl⟩

/-- So is a failure. -/
theorem tracks_fail (error : RenderError) : S.Tracks setting answer (fail error) (fail error) :=
  tracks_throw (.failed error)

/-- So is a check whose condition is the same. -/
theorem tracks_failIf (condition : Bool) (error : RenderError) :
    S.Tracks setting id (failIf condition error) (failIf condition error) := by
  cases condition with
  | true => exact tracks_fail error
  | false => exact tracks_pure rfl

/-- An action may change the state before another one begins, and the outcome in the end. -/
theorem Tracks.around {outer : Render γ} {further : Render δ} (h : S.Tracks setting answer a b)
    (enter : Run → Run) (finish : Run → Except Halt α × Run → Except Halt γ × Run)
    (finish' : Run → Except Halt β × Run → Except Halt δ × Run)
    (henter : ∀ run other, S.Mirrors run other → S.Mirrors (enter run) (enter other))
    (hactive : ∀ run, (enter run).active = run.active)
    (hfinish : ∀ run other outcome outcome', S.Mirrors run other →
      S.Mirrors outcome.2 outcome'.2 → S.Matches answer outcome.1 outcome'.1 →
        S.Meets final outcome.2.active (finish run outcome) (finish' other outcome'))
    (hfirst : ∀ run, outer setting run = finish run (a setting (enter run)))
    (hsecond : ∀ run, further setting run = finish' run (b setting (enter run))) :
    S.Tracks setting final outer further := by
  intro run other hmirrors
  obtain ⟨hafter, hresult, hkept⟩ := h _ _ (henter run other hmirrors)
  rw [hfirst, hsecond]
  obtain ⟨hlast, hfinal, hactive'⟩ := hfinish run other _ _ hmirrors hafter hresult
  exact ⟨hlast, hfinal, hactive'.trans (hkept.trans (hactive run))⟩

/-! ### Instances -/

section

variable (id : InstanceId) (definition : Definition) (data : Instance)

/-- Another body leaves the formal arguments of a definition alone. -/
@[simp] theorem formal?_definition (name : String) :
    (S.definition id definition).formal? name = definition.formal? name := rfl

/-- The definition of an instance in the second render. -/
@[simp] theorem data_definition :
    (S.data id data).definition = S.definition id data.definition := rfl

/-- The attributes of an instance have renamed values in the second render. -/
@[simp] theorem data_attributes : (S.data id data).attributes = data.attributes.map S.value := rfl

/-- So have its variables. -/
theorem lookup_iteration (name : String) : (S.data id data).iteration.lookup name =
    (data.iteration.lookup name).map (Option.map S.value) := by
  change (Table.map (Option.map S.value) ⟨data.iteration⟩).get? name = _
  rw [Table.get?_map, Table.get?]

/-- Where no other body is given, the definition is the same. -/
theorem definition_of_isNone (h : S.bodies id = none) :
    S.definition id definition = definition := by
  rw [Shift.definition, h, Option.getD_none]

end

namespace Mirrors

variable {run other : Run} (h : S.Mirrors run other)
include h

/-- States go together with other stores that do. -/
theorem withStore {store store' : Store} (hstores : Store.Renamed S.move store store') :
    S.Mirrors { run with store } { other with store := store' } :=
  { h with store := hstores }

/-- The writer is the same in both states, so both may change it in the same way. -/
theorem withOut (out : Writer) : S.Mirrors { run with out } { other with out } :=
  { h with out := rfl }

/-- So is the permission to read loop variables after their sequence. -/
theorem withLenient (lenient : Bool) : S.Mirrors { run with lenient } { other with lenient } :=
  { h with lenient := rfl }

/-- What was read may be noted in different ways, since nothing depends on it. -/
theorem withReads (reads reads' : List (InstanceId × String)) :
    S.Mirrors { run with reads } { other with reads := reads' } :=
  { h with }

/-- So may what was written. -/
theorem withWritten (written written' : List InstanceId) :
    S.Mirrors { run with written } { other with written := written' } :=
  { h with }

/-- An instance is put on both stacks under its two numbers. -/
theorem enter (id : InstanceId) :
    S.Mirrors { run with active := id :: run.active }
      { other with active := S.move id :: other.active } :=
  { h with
    active := congrArg (S.move id :: ·) h.active
    bodies := fun other hbody => ⟨List.mem_cons_of_mem _ (h.bodies other hbody).1,
      (h.bodies other hbody).2⟩ }

/-- A default is noted in both states under the two numbers of its instance. -/
theorem noteDefault (id : InstanceId) (name : String) (value : Value) :
    S.Mirrors { run with defaults := ((id, name), value) :: run.defaults }
      { other with defaults := ((S.move id, name), S.value value) :: other.defaults } :=
  { h with
    defaults := fun id' name' => by
      simp only [List.lookup_cons]
      have hsame : ((S.move id', name') == (S.move id, name)) = ((id', name') == (id, name)) :=
        Bool.eq_iff_iff.mpr (by simp only [beq_iff_eq, Prod.mk.injEq, move_eq_iff])
      rw [hsame]
      cases (id', name') == (id, name) with
      | true => rfl
      | false => exact h.defaults id' name' }

/-- An instance is changed in both states, if the changes go together. -/
theorem modify (id : InstanceId) {change change' : Instance → Instance}
    (hchange : ∀ data, change' (S.data id data) = S.data id (change data)) :
    S.Mirrors { run with instances := run.instances.modify id.index change }
      { other with instances := other.instances.modify (S.move id).index change' } :=
  { h with
    grown := by simpa using h.grown
    size := by simpa using h.size
    instances := fun id' => by
      rw [Array.getElem?_modify, Array.getElem?_modify, h.instances]
      by_cases hid : id.index = id'.index
      · obtain rfl : id = id' := congrArg InstanceId.mk hid
        rw [if_pos rfl, if_pos rfl]
        cases run.instances[id.index]? with
        | none => rfl
        | some data => exact congrArg some (hchange data)
      · have hmoved : (S.move id).index ≠ (S.move id').index := fun hsame =>
          hid (congrArg InstanceId.index (move_injective (congrArg InstanceId.mk hsame)))
        rw [if_neg hid, if_neg hmoved] }

/-- A new instance has no other body in the second render. -/
theorem bodies_new : S.bodies ⟨run.instances.size⟩ = none := by
  cases hbody : S.bodies ⟨run.instances.size⟩ with
  | none => rfl
  | some body =>
    have hlt := (h.bodies ⟨run.instances.size⟩ (by rw [hbody]; rfl)).2
    exact absurd h.grown (Nat.not_le.mpr hlt)

/-- A new instance of the one render is the new instance of the other one. -/
theorem move_new : S.move ⟨run.instances.size⟩ = ⟨other.instances.size⟩ := by
  rw [h.size]
  exact move_of_ge h.grown

/-- It is put behind all others in both states. -/
theorem push (data : Instance) :
    S.Mirrors { run with instances := run.instances.push data }
      { other with
        instances := other.instances.push (S.data ⟨run.instances.size⟩ data) } :=
  { h with
    grown := by
      have hgrown := h.grown
      simp only [Array.size_push]
      omega
    size := by
      have hsize := h.size
      simp only [Array.size_push]
      omega
    instances := fun id => by
      rw [Array.getElem?_push, Array.getElem?_push]
      by_cases hid : id.index = run.instances.size
      · obtain rfl : id = ⟨run.instances.size⟩ := congrArg InstanceId.mk hid
        rw [if_pos rfl, h.move_new, if_pos rfl]
        rfl
      · have hmoved : (S.move id).index ≠ other.instances.size := fun hsame =>
          hid (congrArg InstanceId.index
            (move_injective ((congrArg InstanceId.mk hsame).trans h.move_new.symm)))
        rw [if_neg hid, if_neg hmoved, h.instances] }

/-- The instances on the two stacks have the same names. -/
theorem activeNames : activeNames other = Render.activeNames run := by
  rw [Render.activeNames, Render.activeNames, h.active, ← List.map_reverse, List.filterMap_map]
  refine congrArg (List.filterMap · run.active.reverse) (funext fun id => ?_)
  rw [Function.comp_apply, h.instances, Option.map_map]
  rfl

/-- An instance is refused in both renders or in neither. -/
theorem refuses (maxDepth : Nat) (id : InstanceId) :
    Run.refuses other maxDepth (S.move id) = Run.refuses run maxDepth id := by
  have hmem : (S.move id ∈ run.active.map S.move) ↔ id ∈ run.active := by
    simp only [List.mem_map, move_eq_iff, exists_eq_right]
  simp only [Run.refuses, h.active, List.length_map, List.contains_eq_mem, hmem]

/-- The renderers of an instance are the same in both renders. -/
theorem findRenderer? (groups : Groups) (scope : Scope) (type : ScalarType) :
    findRenderer? groups other.instances (S.scope scope) type =
      Render.findRenderer? groups run.instances scope type := by
  have hinstances : (S.scope scope).frames.findSome? (fun id =>
        (other.instances[id.index]?).bind fun data => data.renderers.find? type) =
      scope.frames.findSome? fun id =>
        (run.instances[id.index]?).bind fun data => data.renderers.find? type := by
    rw [frames_scope, List.findSome?_map]
    refine congrArg (List.findSome? · scope.frames) (funext fun id => ?_)
    rw [Function.comp_apply, h.instances, Option.bind_map]
    rfl
  have hgroups : (other.instances[(S.scope scope).innermost.index]?).bind (fun data =>
        groups.findRenderer data.group type <|> groups.findRenderer data.nativeGroup type) =
      (run.instances[scope.innermost.index]?).bind fun data =>
        groups.findRenderer data.group type <|> groups.findRenderer data.nativeGroup type := by
    change (other.instances[(S.move scope.innermost).index]?).bind _ = _
    rw [h.instances, Option.bind_map]
    rfl
  rw [Render.findRenderer?, Render.findRenderer?, hinstances, hgroups]

end Mirrors

/-! ### Actions -/

/-- An instance is looked up under its two numbers. -/
theorem tracks_getInstance (id : InstanceId) :
    S.Tracks setting (S.data id) (getInstance id) (getInstance (S.move id)) := by
  intro run other h
  rw [getInstance_apply, getInstance_apply, h.instances]
  refine ⟨h, ?_, rfl⟩
  cases run.instances[id.index]? with
  | none => exact .invalid id
  | some data => exact .ok data

/-- An instance is created in both renders, and its numbers go together. -/
theorem tracks_create (scope : Scope) (definition : Definition) :
    S.Tracks setting S.move (create scope definition) (create (S.scope scope) definition) := by
  intro run other h
  have hcreator : other.instances[(S.scope scope).innermost.index]? =
      (run.instances[scope.innermost.index]?).map (S.data scope.innermost) :=
    h.instances scope.innermost
  rw [create_apply, create_apply, hcreator]
  cases run.instances[scope.innermost.index]? with
  | none => exact ⟨h, .invalid scope.innermost, rfl⟩
  | some creator =>
    have hdata : S.data ⟨run.instances.size⟩ (created creator scope definition) =
        created (S.data scope.innermost creator) (S.scope scope) definition := by
      have hsame := definition_of_isNone (S := S) _ definition h.bodies_new
      simp only [Shift.data, created, hsame]
      rfl
    have hpush := h.push (created creator scope definition)
    rw [hdata] at hpush
    exact ⟨hpush, matches_ok h.move_new.symm, rfl⟩

/-- An instance is changed in both renders. -/
theorem tracks_modify (target : InstanceId) {change change' : Instance → Instance}
    (hchange : ∀ data, change' (S.data target data) = S.data target (change data)) :
    S.Tracks setting id (modifyInstance target change) (modifyInstance (S.move target) change') :=
  fun _ _ h => ⟨h.modify target hchange, .ok (), rfl⟩

/-- An attribute is set in both renders, to values that go together. -/
theorem tracks_bind (target : InstanceId) (name : String) (value : Value) :
    S.Tracks setting id (Render.bind target name value)
      (Render.bind (S.move target) name (S.value value)) :=
  tracks_modify target fun data => by
    simp only [Shift.data, Table.map_insert]

/-- So are variables. -/
theorem tracks_bindVariables (target : InstanceId) (iteration : List (String × Binding)) :
    S.Tracks setting id (bindVariables target iteration) (bindVariables (S.move target)
      (iteration.map fun (name, binding) => (name, binding.map S.value))) :=
  tracks_modify target fun _ => rfl

/-- A read is noted in both renders. -/
theorem tracks_noteRead (target : InstanceId) (name : String) :
    S.Tracks setting id (noteRead target name) (noteRead (S.move target) name) := by
  intro run other h
  rw [noteRead_apply, noteRead_apply]
  exact ⟨h.withReads _ _, .ok (), rfl⟩

/-- So is that an instance is written. -/
theorem tracks_noteWritten (target : InstanceId) :
    S.Tracks setting id (Evaluator.noteWritten target) (Evaluator.noteWritten (S.move target)) := by
  intro run other h
  rw [noteWritten_apply, noteWritten_apply]
  exact ⟨h.withWritten _ _, .ok (), rfl⟩

/-- What is known of a default goes together. -/
theorem tracks_knownDefault? (target : InstanceId) (name : String) :
    S.Tracks setting (Option.map S.value) (knownDefault? target name)
      (knownDefault? (S.move target) name) :=
  fun _ _ h => ⟨h, matches_ok (h.defaults target name), rfl⟩

/-- A default is noted in both renders, with values that go together. -/
theorem tracks_noteDefault (target : InstanceId) (name : String) (value : Value) :
    S.Tracks setting id (noteDefault target name value)
      (noteDefault (S.move target) name (S.value value)) :=
  fun _ _ h => ⟨h.noteDefault target name value, .ok (), rfl⟩

/-- Groups are the same in both renders, so a super-group is. -/
theorem tracks_above (group : GroupId) (name : String) :
    S.Tracks setting id (above group name) (above group name) := by
  intro run other h
  rw [above_apply, above_apply]
  refine ⟨h, ?_, rfl⟩
  cases setting.groups.find? group with
  | none => exact .halt _
  | some data =>
    dsimp only
    cases data.superGroup with
    | none => exact .halt _
    | some above => exact .ok above

/-- So is what a name refers to from a group on. -/
theorem tracks_lookup (start : GroupId) (name : String) :
    S.Tracks setting id (lookup start name) (lookup start name) :=
  fun _ _ h => ⟨h, .ok _, rfl⟩

/-- So is a dictionary. -/
theorem tracks_dictionary? (start : GroupId) (name : String) :
    S.Tracks setting id (dictionary? start name) (dictionary? start name) :=
  fun _ _ h => ⟨h, .ok _, rfl⟩

/-- Values that go together count as true in both renders or in neither. -/
theorem tracks_truthy (value : Value) :
    S.Tracks setting id (truthy value) (truthy (S.value value)) :=
  fun _ _ h => ⟨h, matches_ok (h.store.truthy value), rfl⟩

/-- The permission to read loop variables after their sequence is the same in both renders. -/
theorem tracks_isLenient : S.Tracks setting id isLenient isLenient :=
  fun _ _ h => ⟨h, matches_ok h.lenient, rfl⟩

/-- Actions on stores that go together are actions of renders that do. -/
theorem tracks_onStore {action : StateM Store α} {further : StateM Store β}
    (h : Store.Carries S.move answer action further) :
    S.Tracks setting answer (onStore action) (onStore further) := by
  intro run other hmirrors
  obtain ⟨hanswer, hstore⟩ := h run.store other.store hmirrors.store
  rw [onStore_apply, onStore_apply]
  exact ⟨hmirrors.withStore hstore, matches_ok hanswer, rfl⟩

/-- A property goes together with the property of the renamed value. -/
theorem tracks_ownProperty (value : Value) (name : String) :
    S.Tracks setting S.value (ownProperty value name) (ownProperty (S.value value) name) := by
  intro run other h
  have hproperty : other.store.property? (S.value value) name =
      (run.store.property? value name).map S.value := h.store.property? value name
  have htype : other.store.typeName (S.value value) = run.store.typeName value :=
    h.store.typeName value
  rw [ownProperty_apply, ownProperty_apply, hproperty, htype]
  refine ⟨h, ?_, rfl⟩
  cases run.store.property? value name with
  | none => exact .halt _
  | some found => exact .ok found

/-- A renderer that looks at its scalar alone does the same in both renders. -/
theorem tracks_rendering {scalar : Scalar} {action : Format.Rendering String}
    (hlocal : Format.Local scalar action) :
    S.Tracks setting id (rendering action) (rendering action) := by
  intro run other h
  obtain ⟨hsame, hstore⟩ := h.store.rendered hlocal
  rw [rendering_apply, rendering_apply, hsame]
  refine ⟨h.withStore hstore, ?_, rfl⟩
  cases (action run.store).1 with
  | error error => exact .halt _
  | ok text => exact .ok text

/-- So the text of a scalar is the same in both renders. -/
theorem tracks_scalarText (scope : Scope) (scalar : Scalar) (format : Option String) :
    S.Tracks setting id (scalarText scope scalar format)
      (scalarText (S.scope scope) scalar format) := by
  intro run other h
  have haction : scalarAction setting.groups other.instances (S.scope scope)
        (other.store.scalarType scalar) scalar format =
      scalarAction setting.groups run.instances scope (run.store.scalarType scalar) scalar
        format := by
    rw [scalarAction, scalarAction, h.store.scalarType, h.findRenderer?]
  rw [scalarText_apply, scalarText_apply, haction]
  exact tracks_rendering (local_scalarAction _ _ _ _ _ _) run other h

/-- What is written is the same in both renders. -/
theorem tracks_writing (action : Writer.Writing Nat) :
    S.Tracks setting id (writing action) (writing action) := by
  intro run other h
  rw [writing_apply, writing_apply, h.out]
  refine ⟨h.withOut _, ?_, rfl⟩
  cases (action run.out).1 with
  | error error => exact .halt _
  | ok count => exact .ok count

/-! ### Around actions -/

/-- Captured text is the same if the actions that write it go together. -/
theorem Tracks.capture {a b : Render Nat} (h : S.Tracks setting id a b) :
    S.Tracks setting id (capture a) (capture b) :=
  h.around (fun run => { run with out := capturing setting.config }) captured captured
    (fun _ _ hmirrors => hmirrors.withOut _) (fun _ => rfl)
    (fun run other outcome outcome' hmirrors hafter hresult => by
      refine ⟨?_, ?_, rfl⟩
      · change S.Mirrors { outcome.2 with out := run.out } { outcome'.2 with out := other.out }
        rw [hmirrors.out]
        exact hafter.withOut _
      · obtain ⟨result, after⟩ := outcome
        obtain ⟨result', after'⟩ := outcome'
        rw [captured, captured, hafter.out]
        cases hresult with
        | halt halt => exact .halt halt
        | invalid id => exact .invalid id
        | ok count => exact .ok after.out.sink.text)
    (fun run => capture_apply setting run a) fun run => capture_apply setting run b

/-- Actions that go together do so within an indentation. -/
theorem Tracks.indented (h : S.Tracks setting answer a b) (indent : Option String) :
    S.Tracks setting answer (indented indent a) (indented indent b) := by
  cases indent with
  | none => exact h
  | some indent =>
    refine h.around (fun run => { run with out := run.out.pushIndent indent })
      (fun _ => cleaned fun after => { after with out := after.out.popIndent.2 })
      (fun _ => cleaned fun after => { after with out := after.out.popIndent.2 })
      (fun run other hmirrors => ?_) (fun _ => rfl)
      (fun run other outcome outcome' hmirrors hafter hresult => ⟨?_, hresult, rfl⟩)
      (fun run => indented_apply setting run indent a)
      fun run => indented_apply setting run indent b
    · rw [hmirrors.out]
      exact hmirrors.withOut _
    · simp only [cleaned, hafter.out]
      exact hafter.withOut _

/-- They do so within an anchor. -/
theorem Tracks.anchored (h : S.Tracks setting answer a b) (anchor : Bool) :
    S.Tracks setting answer (anchored anchor a) (anchored anchor b) := by
  cases anchor with
  | false => exact h
  | true =>
    refine h.around (fun run => { run with out := run.out.pushAnchor })
      (fun _ => cleaned fun after => { after with out := after.out.popAnchor })
      (fun _ => cleaned fun after => { after with out := after.out.popAnchor })
      (fun run other hmirrors => ?_) (fun _ => rfl)
      (fun run other outcome outcome' hmirrors hafter hresult => ⟨?_, hresult, rfl⟩)
      (fun run => anchored_apply setting run a) fun run => anchored_apply setting run b
    · rw [hmirrors.out]
      exact hmirrors.withOut _
    · simp only [cleaned, hafter.out]
      exact hafter.withOut _

/-- They do so under a permission of their own. -/
theorem Tracks.leniently (h : S.Tracks setting answer a b) (lenient : Bool) :
    S.Tracks setting answer (leniently lenient a) (leniently lenient b) := by
  refine h.around (fun run => { run with lenient })
    (fun run => cleaned fun after => { after with lenient := run.lenient })
    (fun run => cleaned fun after => { after with lenient := run.lenient })
    (fun run other hmirrors => hmirrors.withLenient _) (fun _ => rfl)
    (fun run other outcome outcome' hmirrors hafter hresult => ⟨?_, hresult, rfl⟩)
    (fun run => leniently_apply setting run lenient a)
    fun run => leniently_apply setting run lenient b
  simp only [cleaned, hmirrors.lenient]
  exact hafter.withLenient _

/-- They do so where a name may not be declared. -/
theorem Tracks.ifDeclared {a b : Render Value} (h : S.Tracks setting S.value a b) :
    S.Tracks setting (Option.map S.value) (ifDeclared a) (ifDeclared b) := by
  refine h.around (fun run => run) (fun _ outcome => (declared outcome.1, outcome.2))
    (fun _ outcome => (declared outcome.1, outcome.2)) (fun _ _ hmirrors => hmirrors)
    (fun _ => rfl) (fun run other outcome outcome' hmirrors hafter hresult => ⟨hafter, ?_, rfl⟩)
    (fun run => ifDeclared_apply setting run a) fun run => ifDeclared_apply setting run b
  obtain ⟨result, after⟩ := outcome
  obtain ⟨result', after'⟩ := outcome'
  cases hresult with
  | ok value => exact .ok (some value)
  | invalid id => exact .invalid id
  | halt halt =>
    cases halt with
    | overflow | outOfFuel | withheld => exact .halt _
    | failed error =>
      cases error with
      | noSuchAttribute name template => exact .ok none
      | _ => exact .halt _

/-- An instance is refused where the other render refuses it, with the same names on the stack. One
that is not refused has no other body. -/
theorem Tracks.guarded {target : InstanceId} {name : String}
    (h : S.bodies target = none → S.Tracks setting answer a b) :
    S.Tracks setting answer (guarded target name a) (guarded (S.move target) name b) := by
  intro run other hmirrors
  rw [guarded_apply, guarded_apply, hmirrors.refuses, hmirrors.activeNames]
  split
  · exact ⟨hmirrors, .halt _, rfl⟩
  · next hrefuses =>
    have hbody : S.bodies target = none := by
      cases hbody : S.bodies target with
      | none => rfl
      | some body =>
        have hactive := (hmirrors.bodies target (by rw [hbody]; rfl)).1
        exact absurd ((refuses_iff _).mpr (Or.inl hactive)) hrefuses
    obtain ⟨hafter, hresult, hactive⟩ := h hbody _ _ (hmirrors.enter target)
    refine ⟨{ hafter with active := ?_, bodies := ?_ }, hresult, congrArg List.tail hactive⟩
    · simp only [cleaned, hafter.active, List.map_tail]
    · simp only [cleaned, hactive, List.tail_cons]
      exact hmirrors.bodies

end Shift

end Stencil
