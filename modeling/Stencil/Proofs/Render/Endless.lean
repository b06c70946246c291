import Stencil.Proofs.Render.Meaning

/-!
# Dictionaries that are never done

Evaluating a dictionary puts nothing on the stack of instances that are being written. So
dictionaries of which each begins with the name of another one, or with its own, are evaluated one
inside the other as often as there are levels, however deep the stack may get.
-/

namespace Stencil

open Render

/-- Names whose dictionaries, looked up from a group on, each begin with an entry that is one of the
names again. -/
def Groups.Chases (groups : Groups) (start : GroupId) (names : List String) : Prop :=
  ∀ name ∈ names, ∃ key rest fallback, ∃ other ∈ names, groups.findDictionary start name =
    some { entries := (key, .attribute other) :: rest, fallback }

/-- An instance in which a name is not declared. -/
def Instance.Passes (data : Instance) (name : String) : Prop :=
  data.iteration.lookup name = none ∧ data.attributes.get? name = none ∧
    data.definition.formal? name = none

/-- A state in which none of some instances declares a name. -/
def Run.Passes (run : Run) (frames : List InstanceId) (name : String) : Prop :=
  ∀ id ∈ frames, ∃ data, run.instances[id.index]? = some data ∧ data.Passes name

namespace Evaluator

variable {below : Evaluator} {setting : Setting} {run : Run} {scope : Scope} {names : List String}

/-- A name that no instance declares is looked up among the dictionaries. -/
theorem resolveIn_of_passes {name : String} {frames : List InstanceId}
    (hpasses : run.Passes frames name) :
    below.resolveIn scope name frames setting run =
      below.evalDictionary scope name setting run := by
  refine below.resolveIn_eq_evalDictionary fun id hid => ?_
  obtain ⟨data, hdata, hdeclares⟩ := hpasses id hid
  exact ⟨data, hdata, Instance.meaning?_eq_none_iff.mpr hdeclares⟩

/-- What begins with a dictionary that is never done has no value at any number of levels. -/
theorem eval_endless {data : Instance} (hdata : run.instances[scope.innermost.index]? = some data)
    (hchases : setting.groups.Chases data.nativeGroup names)
    (hpasses : ∀ name ∈ names, run.Passes scope.frames name) (fuel : Nat) {name : String}
    (hname : name ∈ names) :
    (upTo fuel).eval scope (.attribute name) setting run = (.error .outOfFuel, run) := by
  induction fuel generalizing name with
  | zero => rfl
  | succ fuel ih =>
    change (upTo fuel).resolveIn scope name scope.frames setting run = _
    rw [resolveIn_of_passes (hpasses name hname)]
    obtain ⟨key, rest, fallback, other, hother, hfound⟩ := hchases name hname
    have hentries : (upTo fuel).evalEntries scope ((key, .attribute other) :: rest) setting run =
        (.error .outOfFuel, run) := by
      rw [evalEntries]
      exact bind_apply_error _ _ (ih hother)
    rw [(upTo fuel).evalDictionary_of_some hdata hfound, ← bind_pure_comp]
    refine bind_apply_error _ _ ?_
    rw [evalMapping]
    exact bind_apply_error _ _ hentries

/-- What begins with an action that stops stops as well. -/
theorem bind_apply_fst {α β : Type} {action : Render α} {next : α → Render β} {halt : Halt}
    (h : (action setting run).1 = .error halt) :
    ((action >>= next) setting run).1 = .error halt := by
  have hstops : action setting run = (.error halt, (action setting run).2) := Prod.ext h rfl
  rw [bind_apply_error _ _ hstops]

/-- A body that begins with an expression is written by writing the expression first. -/
theorem nodes_of_expression {definition : Definition} {expr : Expr} {options : Options Expr}
    {rest : List Chunk} (h : definition.body = .expression expr options :: rest) :
    definition.nodes = .expression expr options none :: Node.ofChunks false "" rest := by
  rw [Definition.nodes, Node.ofBody, h, Node.ofChunks]
  rfl

/-- Writing an instance is never done if its body begins with the name of a dictionary that is
never done. -/
theorem exec_endless {id : InstanceId} {data : Instance} {name : String} {options : Options Expr}
    {rest : List Chunk} (hdata : run.instances[id.index]? = some data)
    (hbody : data.definition.body = .expression (.attribute name) options :: rest)
    (hchases : setting.groups.Chases data.nativeGroup names) (hname : name ∈ names)
    (hpasses : ∀ name ∈ names, data.Passes name)
    (henters : Run.refuses run setting.config.maxDepth id = false) (fuel : Nat) :
    ((upTo fuel).exec [] id setting run).1 = .error .outOfFuel := by
  have hnode (fuel : Nat) (next : Run) (hsame : next.instances = run.instances) :
      ((upTo fuel).nodes ⟨id, []⟩ {} data.definition.nodes setting next).1 =
        .error .outOfFuel := by
    cases fuel with
    | zero => rfl
    | succ fuel =>
      rw [nodes_of_expression hbody]
      refine bind_apply_fst (bind_apply_fst (bind_apply_fst ?_))
      rw [leniently_apply, eval_endless (hsame ▸ hdata) hchases (fun other hother => ?_) fuel hname]
      · rfl
      · intro frame hframe
        obtain rfl := List.mem_singleton.mp hframe
        exact ⟨data, hsame ▸ hdata, hpasses other hother⟩
  cases fuel with
  | zero => rfl
  | succ fuel =>
    rw [exec_of_enters setting run hdata (by simp [henters]), writeBody_apply]
    exact bind_apply_fst (hnode fuel _ rfl)

end Evaluator

end Stencil
