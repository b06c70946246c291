import Mathlib.Data.List.Nodup
import Stencil.Proofs.Render.Arguments
import Stencil.Proofs.Render.Meaning

/-!
# What a name comes to in an instance

A name that is looked up from an instance on finds a variable of the application that created the
instance before an attribute, and an attribute before the default of a formal argument. A variable
whose sequence has run out ends the search. So what a name comes to in an instance is settled by
what the instance is, and it is the same as long as the instance is the same.
-/

namespace Stencil

open Render

namespace Instance

variable (data : Instance) (name : String)

/-- Where an instance is as given, a name that is looked up from it on comes to a value, whoever
asks for it. -/
def Reads (value : Value) : Prop :=
  ∀ (level : Evaluator) setting scope id outer (run : Run),
    run.instances[id.index]? = some data →
      (level.resolveIn scope name (id :: outer) setting run).1 = .ok value

/-- Where an instance is as given, nothing declares a name that is looked up in its scope. -/
def Lacks : Prop :=
  ∀ (level : Evaluator) setting id outer (run : Run), run.instances[id.index]? = some data →
    level.resolve ⟨id, outer⟩ name setting run =
      (.error (.failed (.noSuchAttribute name data.definition.name)), run)

/-- Where an instance is as given, a name that is looked up from it on comes to the default of a
formal argument, read in the scope of the instance, and is absent if there is no default. -/
def FallsBack (formal : Formal Expr) : Prop :=
  ∀ (level : Evaluator) setting scope id outer (run : Run),
    run.instances[id.index]? = some data →
      (∀ default, formal.default = some default → level.ReadsDefault setting ⟨id, outer⟩ name
        default run (level.resolveIn scope name (id :: outer) setting run)) ∧
      (formal.default = none →
        level.resolveIn scope name (id :: outer) setting run = (.ok .absent, run))

variable {data name}

/-- A variable comes before anything else. -/
theorem reads_of_variable {value : Value} (h : data.iteration.lookup name = some (some value)) :
    data.Reads name value := by
  intro level setting scope id outer run hdata
  rw [level.resolveIn_of_means_some ⟨data, hdata, meaning?_of_variable h⟩]
  rfl

/-- A variable whose sequence has run out hides everything else. -/
theorem lacks_of_exhausted (h : data.iteration.lookup name = some none) : data.Lacks name := by
  intro level setting id outer run hdata
  rw [Evaluator.resolve, Scope.frames,
    level.resolveIn_of_means_some ⟨data, hdata, meaning?_of_variable h⟩]
  exact Evaluator.noSuchAttribute_apply hdata

/-- An attribute comes before the default of a formal argument. -/
theorem reads_of_attribute {value : Value} (hvariable : data.iteration.lookup name = none)
    (h : data.attributes.get? name = some value) : data.Reads name value := by
  intro level setting scope id outer run hdata
  rw [level.resolveIn_of_means_some ⟨data, hdata, meaning?_of_attribute hvariable h⟩,
    Evaluator.settle, bind_apply_ok _ _ (noteRead_apply _ _ _ _), pure_apply]

/-- A formal argument that is not set comes to its default. -/
theorem fallsBack_of_unset {formal : Formal Expr} (hvariable : data.iteration.lookup name = none)
    (hunset : data.attributes.get? name = none)
    (hformal : data.definition.formal? name = some formal) : data.FallsBack name formal := by
  intro level setting scope id outer run hdata
  rw [level.resolveIn_of_means_some ⟨data, hdata, meaning?_of_formal hvariable hunset hformal⟩,
    Evaluator.settle]
  refine ⟨fun default hdefault => ?_, fun hdefault => ?_⟩
  · rw [hdefault]
    exact level.readsDefault_iff.mpr rfl
  · rw [hdefault]
    rfl

end Instance

/-! ### The names of parameters -/

namespace Definition

variable {definition : Definition} {name : String}

/-- A parameter is found under its name. -/
theorem exists_formal? (h : name ∈ definition.parameterNames) :
    ∃ formal ∈ definition.parameters, definition.formal? name = some formal := by
  obtain ⟨formal, hformal, rfl⟩ := List.mem_map.mp h
  have hsome : (definition.formal? formal.name).isSome :=
    List.find?_isSome.mpr ⟨formal, hformal, by simp⟩
  obtain ⟨found, hfound⟩ := Option.isSome_iff_exists.mp hsome
  exact ⟨found, List.mem_of_find?_eq_some hfound, hfound⟩

/-- Where the names of parameters are distinct, each is found under its name. -/
theorem formal?_eq (hnodup : definition.parameterNames.Nodup) {formal : Formal Expr}
    (h : formal ∈ definition.parameters) : definition.formal? formal.name = some formal := by
  obtain ⟨found, hmem, hfound⟩ := exists_formal? (List.mem_map_of_mem (f := Formal.name) h)
  have hname : found.name = formal.name := by simpa using List.find?_some hfound
  rw [hfound, List.inj_on_of_nodup_map hnodup hmem h hname]

end Definition

end Stencil
