import Stencil.Proofs.Engine.Reachable
import Stencil.Proofs.Render.Defaults
import Stencil.Proofs.Render.Meaning

/-!
# Defaults are evaluated once

The default of an argument is evaluated when its name is first read, and its value is kept for all
further reads of the render. An evaluation that fails is not repeated either: the default goes on to
count as absent, as it does while it is evaluated. Where a call that passes its scope through has
caught the failure, further reads answer nothing instead of failing again.
-/

namespace Stencil

open Render

/-- The look-up of a name in an instance falls back on the default of a formal argument. -/
def Run.FallsBack (run : Run) (id : InstanceId) (name : String) (default : Expr) : Prop :=
  ∃ data, run.instances[id.index]? = some data ∧ data.iteration.lookup name = none ∧
    data.attributes.get? name = none ∧
      (data.definition.formal? name).bind Formal.default = some default

namespace Evaluator

/-- No part of a render that a level evaluates loses what is known of defaults. -/
structure Keeps (setting : Setting) (level : Evaluator) : Prop where
  eval : ∀ scope expr (run : Run), run.Staged → run.Keeps (level.eval scope expr setting run).2
  exec : ∀ outer id (run : Run), run.Staged → run.Keeps (level.exec outer id setting run).2
  nodes : ∀ scope line nodes (run : Run), run.Staged →
    run.Keeps (level.nodes scope line nodes setting run).2
  value : ∀ scope options value (run : Run), run.Staged →
    run.Keeps (level.value scope options value setting run).2

/-- Every level keeps what was noted of defaults. -/
theorem keeps_upTo (setting : Setting) (fuel : Nat) : (upTo fuel).Keeps setting where
  eval scope expr run hrun :=
    (((ordinary_memoization setting).sound fuel).eval scope expr run hrun).2
  exec outer id run hrun := (((ordinary_memoization setting).sound fuel).exec outer id run hrun).2
  nodes scope line nodes run hrun :=
    (((ordinary_memoization setting).sound fuel).nodes scope line nodes run hrun).2
  value scope options value run hrun :=
    (((ordinary_memoization setting).sound fuel).value scope options value run hrun).2

/-- The evaluation of a default loses nothing either. -/
theorem keeps_defaultValue (setting : Setting) (fuel : Nat) (scope : Scope) (default : Expr)
    {run : Run} (hrun : run.Staged) :
    run.Keeps ((upTo fuel).defaultValue scope default setting run).2 := by
  have laws := ordinary_memoization setting
  have hsound := laws.sound fuel
  have hdefault : (memoization setting).Holds ((memoization setting).Inside scope)
      (fun _ => (upTo fuel).defaultValue scope default) (memoization setting).Proper :=
    laws.defaultValue ((hsound.writes scope).captures laws.toVocal) (hsound.eval scope default)
  exact (hdefault run hrun).2

variable (below : Evaluator) (setting : Setting) (scope : Scope) (outer : List InstanceId)

/-- A name that falls back on a default comes to the default. -/
theorem resolveIn_default {run : Run} {id : InstanceId} {name : String} {default : Expr}
    (h : run.FallsBack id name default) :
    below.resolveIn scope name (id :: outer) setting run =
      below.evalDefault ⟨id, outer⟩ name default setting run := by
  obtain ⟨data, hdata, hvariable, hunset, hformal⟩ := h
  obtain ⟨formal, hformal, hdefault⟩ := Option.bind_eq_some_iff.mp hformal
  have hmeaning := Instance.meaning?_of_formal hvariable hunset hformal
  rw [below.resolveIn_of_means_some ⟨data, hdata, hmeaning⟩, settle]
  simp only [hdefault]

end Evaluator

namespace Engine

/-- How the defaults of arguments are evaluated while an instance is written. A name is read in
frames that begin with the instance that has the argument. -/
structure Memoizes (engine : Engine) (id : InstanceId) (out : Writer) : Prop where
  /-- At any time the evaluation of a default has begun once or not at all. -/
  staged : engine.Throughout id out Run.Staged
  /-- Once it has begun no part of the render begins it again, and its value does not change. -/
  kept (fuel : Nat) : (Evaluator.upTo fuel).Keeps engine.setting
  /-- The first read begins the evaluation. It answers what that comes to, and keeps the value; or
  it fails as that fails. -/
  first (fuel : Nat) (scope : Scope) (id : InstanceId) (outer : List InstanceId) (name : String)
    (default : Expr) (run : Run) :
    run.Staged → run.FallsBack id name default → run.At id name .unread →
      (run.noting id name .absent).At id name .begun ∧
        (∀ value after, (Evaluator.upTo fuel).defaultValue ⟨id, outer⟩ default engine.setting
            (run.noting id name .absent) = (.ok value, after) →
          (Evaluator.upTo fuel).resolveIn scope name (id :: outer) engine.setting run =
            (.ok value, after.noting id name value) ∧
              (after.noting id name value).At id name (.settled value)) ∧
        ∀ halt after, (Evaluator.upTo fuel).defaultValue ⟨id, outer⟩ default engine.setting
            (run.noting id name .absent) = (.error halt, after) →
          (Evaluator.upTo fuel).resolveIn scope name (id :: outer) engine.setting run =
            (.error halt, after) ∧ after.At id name .begun
  /-- Every read after it has come to a value answers that value and does nothing else. -/
  later (fuel : Nat) (scope : Scope) (id : InstanceId) (outer : List InstanceId) (name : String)
    (default : Expr) (value : Value) (settled run : Run) :
    settled.At id name (.settled value) → settled.Remembers run →
      run.FallsBack id name default →
        (Evaluator.upTo fuel).resolveIn scope name (id :: outer) engine.setting run =
          (.ok value, run)
  /-- Every read before that answers that the argument is absent: the reads during the evaluation,
  and all reads after one that failed. -/
  otherwise (fuel : Nat) (scope : Scope) (id : InstanceId) (outer : List InstanceId)
    (name : String) (default : Expr) (run : Run) :
    run.At id name .begun → run.FallsBack id name default →
      (Evaluator.upTo fuel).resolveIn scope name (id :: outer) engine.setting run =
        (.ok .absent, run)

/-- In every render the default of an argument is evaluated once at most, and what it comes to is
what is read from then on. A failure is kept as well, but as an absent value. -/
theorem memoizes (engine : Engine) (id : InstanceId) (out : Writer) :
    engine.Memoizes id out where
  staged level hfollows fuel :=
    (((ordinary_memoization engine.setting).sound_follows (replaces_memoization engine.setting)
      hfollows fuel).exec [] id (engine.start out) fun _ _ => ⟨.unread, rfl⟩).1
  kept fuel := Evaluator.keeps_upTo engine.setting fuel
  first fuel scope id outer name default run hrun hdefault hunread := by
    have hbegun := Run.at_noting_of_unread hunread
    have hkeeps := Evaluator.keeps_defaultValue engine.setting fuel ⟨id, outer⟩ default
      (hrun.noting hbegun)
    have hafter := hkeeps.remembers.begun _ _ hbegun
    rw [Evaluator.resolveIn_default _ _ _ _ hdefault,
      Evaluator.evalDefault_unread _ _ ⟨id, outer⟩ _ _ hunread]
    refine ⟨hbegun, fun value after hvalue => ?_, fun halt after hhalt => ?_⟩
    · rw [hvalue] at hafter ⊢
      exact ⟨rfl, Run.at_noting_of_begun hafter value⟩
    · rw [hhalt] at hafter ⊢
      exact ⟨rfl, hafter⟩
  later fuel scope id outer name default value settled run hsettled hremembers hdefault := by
    rw [Evaluator.resolveIn_default _ _ _ _ hdefault]
    exact Evaluator.evalDefault_settled _ _ ⟨id, outer⟩ _ _
      (hremembers.settled _ _ _ hsettled)
  otherwise fuel scope id outer name default run hbegun hdefault := by
    rw [Evaluator.resolveIn_default _ _ _ _ hdefault]
    exact Evaluator.evalDefault_begun _ _ ⟨id, outer⟩ _ _ hbegun

/-- A template with an argument whose default cannot be evaluated, and one that takes what there is
of that argument. -/
def probing (body : List Chunk) : Engine :=
  ({} : Engine).after
    [.defineGroup "group" .angle,
      .declare ⟨0⟩ (.template "part" (some [{ name := "title" }]) []),
      .declare ⟨0⟩ (.template "page"
        (some [{ name := "title", default := some (.attribute "missing") }]) body),
      .instanceOf ⟨0⟩ "page"]

/-- Reading the argument fails. But after a call has passed the scope through and has caught the
failure, reading the argument answers that it is absent. -/
theorem not_failing_probing :
    ((probing [.expression (.attribute "title") {}]).render ⟨0⟩).1 =
        .error (.failed (.noSuchAttribute "missing" "page")) ∧
      ((probing [
        .expression (.call { callee := .named "part", arguments := { passThrough := true } }) {},
        .expression (.attribute "title") {}]).render ⟨0⟩).1 = .ok "" := by
  decide +kernel

end Engine

end Stencil
