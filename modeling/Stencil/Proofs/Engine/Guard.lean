import Stencil.Proofs.Engine.Reachable
import Stencil.Proofs.Render.Invariant

/-!
# The stack of instances

The instances that are being written form a stack, whoever made them and whatever the text is for:
what is captured goes to a writer of its own, but to no stack of its own. An instance goes on the
stack only if it is not there and there is room, and it is taken off again however its writing ends.
So the stack of each state of a render holds different instances, not more of them than the
configuration allows, and each has a template whose name a trace can give.
-/

namespace Stencil

open Render

/-- The name of the template of an instance, if there is such an instance. -/
def Run.templateName? (run : Run) (id : InstanceId) : Option String :=
  (run.instances[id.index]?).map fun data => data.definition.name

/-- A stack that has grown by the rules of the recursion guard. -/
structure Run.Stacked (setting : Setting) (run : Run) : Prop where
  distinct : run.active.Nodup
  bounded : run.active.length ≤ setting.config.maxDepth
  issued : ∀ id ∈ run.active, ∃ data, run.instances[id.index]? = some data

namespace Run.Stacked

variable {setting : Setting} {run : Run}

/-- While the stack stays the same it does not matter what else happens to a run. -/
theorem evolves {after : Run} (h : run.Stacked setting)
    (hevolves : run.Evolves setting.callers after) (hactive : after.active = run.active) :
    after.Stacked setting where
  distinct := hactive ▸ h.distinct
  bounded := hactive ▸ h.bounded
  issued id hid := by
    obtain ⟨data, hdata⟩ := h.issued id (hactive ▸ hid)
    obtain ⟨changed, hchanged, -⟩ := hevolves.instances id.index data hdata
    exact ⟨changed, hchanged⟩

/-- An instance that is not refused may go on top of the stack. -/
theorem push {id : InstanceId} {data : Instance} (h : run.Stacked setting)
    (hdata : run.instances[id.index]? = some data)
    (henters : ¬ Run.refuses run setting.config.maxDepth id = true) :
    ({ run with active := id :: run.active } : Run).Stacked setting := by
  rw [refuses_iff, not_or, Nat.not_le] at henters
  exact ⟨List.nodup_cons.mpr ⟨henters.1, h.distinct⟩, henters.2,
    List.forall_mem_cons.mpr ⟨⟨data, hdata⟩, h.issued⟩⟩

/-- A run that has nothing on the stack is stacked. -/
theorem empty (hactive : run.active = []) : run.Stacked setting where
  distinct := hactive ▸ List.nodup_nil
  bounded := hactive ▸ Nat.zero_le _
  issued id hid := by
    rw [hactive] at hid
    cases hid

/-- Each instance on the stack has its name among those of the active templates, in its place. -/
theorem map_activeNames (h : run.Stacked setting) :
    (activeNames run).map some = run.active.reverse.map run.templateName? := by
  have hnames (ids : List InstanceId) (hids : ∀ id ∈ ids, (run.templateName? id).isSome) :
      (ids.filterMap run.templateName?).map some = ids.map run.templateName? := by
    induction ids with
    | nil => rfl
    | cons id rest ih =>
      obtain ⟨hid, hrest⟩ := List.forall_mem_cons.mp hids
      obtain ⟨name, hname⟩ := Option.isSome_iff_exists.mp hid
      rw [List.filterMap_cons_some hname, List.map_cons, List.map_cons, hname, ih hrest]
  refine hnames run.active.reverse fun id hid => ?_
  obtain ⟨data, hdata⟩ := h.issued id (List.mem_reverse.mp hid)
  rw [Run.templateName?, hdata]
  rfl

end Run.Stacked

/-- The renders from a state with such a stack. -/
def Course.stacking (ι : Type) (setting : Setting) (start : Run)
    (hcallers : setting.callers ≤ start.instances.size) : Course ι where
  levels := ⊤
  bounded := True
  setting
  start
  Within run := start.Evolves setting.callers run ∧ run.Stacked setting
  callers := hcallers
  reached hrun := hrun.1
  steady hrun hevolves hactive := ⟨hrun.1.trans hevolves, hrun.2.evolves hevolves hactive⟩

namespace Engine

/-- The recursion guard in a state of a render. -/
structure Guarded (engine : Engine) (run : Run) : Prop where
  /-- No instance is on the stack twice. -/
  distinct : run.active.Nodup
  bounded : run.active.length ≤ engine.config.maxDepth
  /-- The names of the active templates are those of the instances on the stack, outermost first,
  and none is missing. -/
  named : (activeNames run).map some = run.active.reverse.map run.templateName?
  /-- An instance that is on the stack, or for which there is no room, is not written: nothing
  changes, and when lint is on, the error gives the names of the active templates and then its own.
  Any other instance is on top of the stack while its body is written, and is taken off then. -/
  enters : ∀ fuel outer id data, run.instances[id.index]? = some data →
    (Evaluator.upTo (fuel + 1)).exec outer id engine.setting run =
      if id ∈ run.active ∨ engine.config.maxDepth ≤ run.active.length then
        (.error (.failed (.infiniteRecursion
          (if engine.config.lint then activeNames run ++ [data.definition.name] else []))), run)
      else
        cleaned (fun after => { after with active := after.active.tail })
          (writeBody (Evaluator.upTo fuel) outer id data.definition.nodes engine.setting
            { run with active := id :: run.active })
  /-- However the writing of an instance ends, the stack is the same as before. -/
  restored : ∀ fuel outer id,
    ((Evaluator.upTo fuel).exec outer id engine.setting run).2.active = run.active

variable {engine : Engine} {run : Run}

/-- A run that is stacked is guarded. -/
theorem guarded_of_stacked (hcallers : engine.instances.size ≤ run.instances.size)
    (h : run.Stacked engine.setting) : engine.Guarded run where
  distinct := h.distinct
  bounded := h.bounded
  named := h.map_activeNames
  enters fuel outer id data hdata := by
    change (Evaluator.upTo fuel).writeInstance outer id engine.setting run = _
    rw [writeInstance_apply _ _ hdata, guarded_apply]
    exact if_congr (refuses_iff run) rfl rfl
  restored fuel outer id := (Evaluator.evolves_exec fuel outer id hcallers).2

/-- The recursion guard keeps its stack throughout the run of each instance, and in its end. -/
theorem guarded_run (engine : Engine) (id : InstanceId) (out : Writer) :
    engine.Throughout id out engine.Guarded ∧
      ∀ fuel, engine.Guarded (engine.runWithin fuel id out).2 := by
  have hcallers : engine.setting.callers ≤ (engine.start out).instances.size := Nat.le_refl _
  have hstart : (engine.start out).Stacked engine.setting := .empty rfl
  constructor
  · let course := Course.stacking Bool engine.setting (engine.start out) hcallers
    have hstacked : engine.Throughout id out course.Within :=
      course.throughout rfl rfl trivial ⟨.refl _ _, hstart⟩ fun hrun hdata henters =>
        ⟨hrun.1.trans (.withActive _), hrun.2.push hdata henters⟩
    exact hstacked.imp fun run hrun => guarded_of_stacked hrun.1.size hrun.2
  · intro fuel
    have hexec := Evaluator.evolves_exec fuel [] id hcallers
    exact guarded_of_stacked hexec.1.size (hstart.evolves hexec.1 hexec.2)

/-- Two instances that have each other as their content, inside a third one. -/
example :
    let content : Chunk := .expression (.attribute "content") {}
    let engine := ({ config := { lint := true } } : Engine).after
      [.defineGroup "group" .angle, .declare ⟨0⟩ (.template "page" none [content]),
        .declare ⟨0⟩ (.template "left" none [content]),
        .declare ⟨0⟩ (.template "right" none [content]),
        .instanceOf ⟨0⟩ "page", .instanceOf ⟨0⟩ "left", .instanceOf ⟨0⟩ "right",
        .assign ⟨0⟩ "content" (.template ⟨1⟩), .assign ⟨1⟩ "content" (.template ⟨2⟩),
        .assign ⟨2⟩ "content" (.template ⟨1⟩)]
    (engine.render ⟨0⟩).1 =
      .error (.failed (.infiniteRecursion ["page", "left", "right", "left"])) := by
  decide +kernel

end Engine

end Stencil
