import Stencil.Proofs.Render.Steps

/-!
# What a name means in an instance

In an instance a name is a variable of the application that created the instance, else an attribute,
else a formal argument that is not set, or it means nothing. When it is looked up, the instances in
which it means nothing are passed over, and the first one in which it means something settles what
it comes to. If there is none, it is looked up among the dictionaries.

A formal argument that is not set comes to what is known of its default, or else to what the default
is evaluated to, and that is known from then on.
-/

namespace Stencil

open Render

/-- What a name may be in an instance. -/
inductive Meaning where
  /-- A variable of the application that created the instance. -/
  | loop (binding : Binding)
  | assigned (value : Value)
  /-- An argument that is not set. -/
  | parameter (formal : Formal Expr)

namespace Instance

/-- What a name is in an instance, if anything: a variable comes before an attribute, and an
attribute before a formal argument. -/
def meaning? (data : Instance) (name : String) : Option Meaning :=
  ((data.iteration.lookup name).map .loop).or
    (((data.attributes.get? name).map .assigned).or
      ((data.definition.formal? name).map .parameter))

variable {data : Instance} {name : String}

/-- A variable hides an attribute of its name. -/
theorem meaning?_of_variable {binding : Binding} (h : data.iteration.lookup name = some binding) :
    data.meaning? name = some (.loop binding) := by
  rw [meaning?, h]
  rfl

/-- An attribute that is set hides the default. -/
theorem meaning?_of_attribute {value : Value} (hvariable : data.iteration.lookup name = none)
    (h : data.attributes.get? name = some value) : data.meaning? name = some (.assigned value) := by
  rw [meaning?, hvariable, h]
  rfl

/-- A formal argument that is not set means its default. -/
theorem meaning?_of_formal {formal : Formal Expr} (hvariable : data.iteration.lookup name = none)
    (hunset : data.attributes.get? name = none)
    (h : data.definition.formal? name = some formal) :
    data.meaning? name = some (.parameter formal) := by
  rw [meaning?, hvariable, hunset, h]
  rfl

/-- A name means nothing to an instance that has no variable, no attribute and no formal argument of
it. -/
theorem meaning?_eq_none_iff : data.meaning? name = none ↔
    data.iteration.lookup name = none ∧ data.attributes.get? name = none ∧
      data.definition.formal? name = none := by
  simp only [meaning?, Option.or_eq_none_iff, Option.map_eq_none_iff]

end Instance

/-- There is an instance, and a name is this in it. -/
def Run.Means (run : Run) (id : InstanceId) (name : String) (meaning : Option Meaning) : Prop :=
  ∃ data, run.instances[id.index]? = some data ∧ data.meaning? name = meaning

namespace Evaluator

variable (level : Evaluator)

/-- What a name comes to in the instance that decides. -/
def settle (scope frame : Scope) (name : String) : Meaning → Render Value
  | .loop (some value) => pure value
  | .loop none => noSuchAttribute scope name
  | .assigned value => do
    noteRead frame.innermost name
    return value
  | .parameter formal =>
    match formal.default with
    | some default => level.evalDefault frame name default
    | none => pure .absent

variable {setting : Setting} {run : Run} {scope : Scope} {name : String} {id : InstanceId}
variable {inner outer : List InstanceId}

/-- An instance in which a name means nothing is passed over. -/
theorem resolveIn_of_means_none (h : run.Means id name none) :
    level.resolveIn scope name (id :: outer) setting run =
      level.resolveIn scope name outer setting run := by
  obtain ⟨data, hdata, hmeaning⟩ := h
  obtain ⟨hvariable, hattribute, hformal⟩ := Instance.meaning?_eq_none_iff.mp hmeaning
  rw [resolveIn, bind_apply_ok _ _ (getInstance_apply_some _ _ hdata)]
  simp only [hvariable, hattribute, hformal]

/-- Instances to which a name means nothing are passed over. -/
theorem resolveIn_append (h : ∀ id ∈ inner, run.Means id name none) :
    level.resolveIn scope name (inner ++ outer) setting run =
      level.resolveIn scope name outer setting run := by
  induction inner with
  | nil => rfl
  | cons first rest ih =>
    obtain ⟨hfirst, hrest⟩ := List.forall_mem_cons.mp h
    rw [List.cons_append, resolveIn_of_means_none level hfirst, ih hrest]

/-- A name that means nothing in any instance is looked up among the dictionaries. -/
theorem resolveIn_eq_evalDictionary (h : ∀ id ∈ inner, run.Means id name none) :
    level.resolveIn scope name inner setting run = level.evalDictionary scope name setting run := by
  have hpassed : level.resolveIn scope name (inner ++ []) setting run =
      level.resolveIn scope name [] setting run := resolveIn_append level h
  rwa [List.append_nil] at hpassed

/-- The search ends in an instance in which the name means something. -/
theorem resolveIn_of_means_some {meaning : Meaning} (h : run.Means id name (some meaning)) :
    level.resolveIn scope name (id :: outer) setting run =
      level.settle scope ⟨id, outer⟩ name meaning setting run := by
  obtain ⟨data, hdata, hmeaning⟩ := h
  rw [resolveIn, bind_apply_ok _ _ (getInstance_apply_some _ _ hdata)]
  cases hvariable : data.iteration.lookup name with
  | some binding =>
    cases (Instance.meaning?_of_variable hvariable).symm.trans hmeaning
    cases binding <;> rfl
  | none =>
    cases hattribute : data.attributes.get? name with
    | some value =>
      cases (Instance.meaning?_of_attribute hvariable hattribute).symm.trans hmeaning
      rfl
    | none =>
      cases hformal : data.definition.formal? name with
      | some formal =>
        cases (Instance.meaning?_of_formal hvariable hattribute hformal).symm.trans hmeaning
        cases hdefault : formal.default <;> simp only [settle, hdefault]
      | none =>
        have hnone := Instance.meaning?_eq_none_iff.mpr ⟨hvariable, hattribute, hformal⟩
        cases hnone.symm.trans hmeaning

/-- The error names the template of the innermost instance. -/
theorem noSuchAttribute_apply {α : Type} {data : Instance}
    (h : run.instances[scope.innermost.index]? = some data) :
    (noSuchAttribute scope name : Render α) setting run =
      (.error (.failed (.noSuchAttribute name data.definition.name)), run) := by
  rw [noSuchAttribute, bind_apply_ok _ _ (getInstance_apply_some _ _ h), fail_apply]

/-- A name that no instance declares is looked up among the dictionaries. -/
theorem evalDictionary_of_some {data : Instance} {literal : MapLiteral Expr}
    (h : run.instances[scope.innermost.index]? = some data)
    (hfound : setting.groups.findDictionary data.nativeGroup name = some literal) :
    level.evalDictionary scope name setting run =
      (Value.mapping <$> level.evalMapping scope literal : Render Value) setting run := by
  rw [evalDictionary, bind_apply_ok _ _ (getInstance_apply_some _ _ h),
    bind_apply_ok _ _ (dictionary?_apply _ _ _ _), hfound]
  rfl

/-- A name of which there is no dictionary either is refused. -/
theorem evalDictionary_of_none {data : Instance}
    (h : run.instances[scope.innermost.index]? = some data)
    (hfound : setting.groups.findDictionary data.nativeGroup name = none) :
    level.evalDictionary scope name setting run =
      (.error (.failed (.noSuchAttribute name data.definition.name)), run) := by
  rw [evalDictionary, bind_apply_ok _ _ (getInstance_apply_some _ _ h),
    bind_apply_ok _ _ (dictionary?_apply _ _ _ _), hfound]
  exact noSuchAttribute_apply h

end Evaluator

/-! ### Defaults -/

/-- A state with one more note on the default of an argument of an instance. -/
def Run.noting (run : Run) (id : InstanceId) (name : String) (value : Value) : Run :=
  { run with defaults := ((id, name), value) :: run.defaults }

namespace Evaluator

section

variable (level : Evaluator) (setting : Setting) (frame : Scope) (name : String) (default : Expr)
variable {run : Run}

/-- The last note on a default is its value. -/
theorem evalDefault_of_known {value : Value}
    (h : run.defaults.lookup (frame.innermost, name) = some value) :
    level.evalDefault frame name default setting run = (.ok value, run) := by
  rw [evalDefault, bind_apply_ok _ _ (knownDefault?_apply _ _ _ _), h]
  rfl

/-- A default without a note is evaluated, and noted before and after. -/
theorem evalDefault_of_unknown (h : run.defaults.lookup (frame.innermost, name) = none) :
    level.evalDefault frame name default setting run =
      match level.defaultValue frame default setting
        (run.noting frame.innermost name .absent) with
      | (.ok value, after) => (.ok value, after.noting frame.innermost name value)
      | (.error halt, after) => (.error halt, after) := by
  rw [evalDefault, bind_apply_ok _ _ (knownDefault?_apply setting run _ _), h]
  dsimp only
  have hnoted : noteDefault frame.innermost name .absent setting run =
      (.ok (), run.noting frame.innermost name .absent) := rfl
  rw [bind_apply_ok _ _ hnoted, bind_apply]
  rcases level.defaultValue frame default setting (run.noting frame.innermost name .absent)
    with ⟨_ | _, _⟩ <;> rfl

end

/-- What a default comes to in the scope of the instance that has it. What was noted of it is
answered. A default of which nothing was noted is evaluated, while it is noted as absent, and its
value is noted; and where that fails nothing more is. -/
inductive ReadsDefault (level : Evaluator) (setting : Setting) (frame : Scope) (name : String)
    (default : Expr) (run : Run) : Except Halt Value × Run → Prop
  | known {value : Value} (h : run.defaults.lookup (frame.innermost, name) = some value) :
    ReadsDefault level setting frame name default run (.ok value, run)
  | evaluated {value : Value} {after : Run}
    (h : run.defaults.lookup (frame.innermost, name) = none)
    (hvalue : level.defaultValue frame default setting (run.noting frame.innermost name .absent) =
      (.ok value, after)) :
    ReadsDefault level setting frame name default run
      (.ok value, after.noting frame.innermost name value)
  | failed {halt : Halt} {after : Run}
    (h : run.defaults.lookup (frame.innermost, name) = none)
    (hhalt : level.defaultValue frame default setting (run.noting frame.innermost name .absent) =
      (.error halt, after)) :
    ReadsDefault level setting frame name default run (.error halt, after)

/-- A default comes to this, and to nothing else. -/
theorem readsDefault_iff (level : Evaluator) {setting : Setting} {frame : Scope} {name : String}
    {default : Expr} {run : Run} {outcome : Except Halt Value × Run} :
    level.ReadsDefault setting frame name default run outcome ↔
      level.evalDefault frame name default setting run = outcome := by
  constructor
  · intro h
    cases h with
    | known h => exact level.evalDefault_of_known setting frame name default h
    | evaluated h hvalue => rw [level.evalDefault_of_unknown setting frame name default h, hvalue]
    | failed h hhalt => rw [level.evalDefault_of_unknown setting frame name default h, hhalt]
  · rintro rfl
    cases hknown : run.defaults.lookup (frame.innermost, name) with
    | some value =>
      rw [level.evalDefault_of_known setting frame name default hknown]
      exact .known hknown
    | none =>
      rw [level.evalDefault_of_unknown setting frame name default hknown]
      rcases hvalue : level.defaultValue frame default setting
          (run.noting frame.innermost name .absent) with ⟨halt | value, after⟩
      · exact .failed hknown hvalue
      · exact .evaluated hknown hvalue

end Evaluator

end Stencil
