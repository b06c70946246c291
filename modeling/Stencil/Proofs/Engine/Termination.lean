import Stencil.Proofs.Engine.Reachable
import Stencil.Proofs.Render.Endless
import Stencil.Proofs.Render.Termination

/-!
# Writing comes to an end

If no dictionary leads back to itself, each instance is either written or found to be in error after
finitely many levels of evaluation, and what would otherwise go on for ever is cut off by the bound
on the stack of instances. A dictionary that leads back to itself is not cut off: nothing is put on
the stack for it.
-/

namespace Stencil.Engine

open Render Evaluator Filter

variable {engine : Engine}

/-- A run has one outcome at all sufficiently large numbers of levels. -/
theorem runWithin_ends (hacyclic : engine.groups.Acyclic) (id : InstanceId) (out : Writer) :
    ∃ fuel outcome, (∀ halt, outcome.1 = .error halt → halt.Admitted False) ∧
      ∀ more ≥ fuel, engine.runWithin more id out = outcome := by
  have hready : (engine.start out).Ready engine.setting engine.config.maxDepth [] :=
    ⟨Nat.le_refl _, Nat.sub_le _ _, fun _ hid => absurd hid List.not_mem_nil⟩
  obtain ⟨outcome, hlevels, hhalt, -⟩ :=
    exec_ends_of_acyclic hacyclic _ (engine.start out) [] hready id
  obtain ⟨fuel, hmore⟩ := eventually_atTop.mp hlevels
  exact ⟨fuel, outcome, hhalt, hmore⟩

/-- Without cycles among dictionaries every instance is written to an end, from some level on to the
same one. -/
theorem writeWithin_ends (hacyclic : engine.groups.Acyclic) (id : InstanceId) (out : Writer) :
    ∃ fuel written, (∀ halt, written.result = .error halt → halt.Admitted False) ∧
      ∀ more ≥ fuel, engine.writeWithin more id out = written := by
  obtain ⟨fuel, outcome, hhalt, hmore⟩ := runWithin_ends hacyclic id out
  by_cases hid : (engine.instance? id).isNone
  · refine ⟨0, engine.writeWithin 0 id out, fun halt heq => ?_, fun more _ => ?_⟩
    · simp only [writeWithin, hid, if_true] at heq
      cases heq
      trivial
    · simp only [writeWithin, hid, if_true]
  · refine ⟨fuel, engine.writeWithin fuel id out, ?_, fun more hle => ?_⟩
    · simp only [writeWithin, hid, hmore fuel (Nat.le_refl _)]
      exact hhalt
    · simp only [writeWithin, hmore more hle, hmore fuel (Nat.le_refl _)]

/-- An instance whose body begins with a dictionary that is evaluated inside itself is not written
with any number of levels. -/
theorem writeWithin_endless {id : InstanceId} {data : Instance} {names : List String}
    {name : String} {options : Options Expr} {rest : List Chunk}
    (hdata : engine.instance? id = some data)
    (hbody : data.definition.body = .expression (.attribute name) options :: rest)
    (hchases : engine.groups.Chases data.nativeGroup names) (hname : name ∈ names)
    (hpasses : ∀ name ∈ names, data.Passes name) (hdepth : 0 < engine.config.maxDepth)
    (fuel : Nat) (out : Writer) : (engine.writeWithin fuel id out).result = .error .outOfFuel := by
  have henters : Run.refuses (engine.start out) engine.setting.config.maxDepth id = false := by
    simp [Run.refuses, start, setting, Nat.ne_of_gt hdepth]
  have hstart : (engine.start out).instances[id.index]? = some data := hdata
  have hrun : (engine.runWithin fuel id out).1 = .error .outOfFuel :=
    exec_endless hstart hbody hchases hname hpasses henters fuel
  rw [writeWithin, hdata]
  exact hrun

/-- If no dictionary leads back to itself, writing any instance has an outcome after finitely many
levels, which is a number of characters, an error, or the end of the program at a number of a format
that is out of range. On the way an instance that is being written already, or one for which the
stack has no room, is cut off as infinite recursion. But an instance whose body begins with a
dictionary that is evaluated inside itself has no outcome, however small the stack is. -/
theorem write_ends (engine : Engine) (id : InstanceId) (out : Writer) :
    (engine.groups.Acyclic → ∃ fuel written,
      ((∃ count, written.result = .ok count) ∨
        (∃ error, written.result = .error (.failed error)) ∨
        written.result = .error .overflow) ∧
        ∀ more ≥ fuel, engine.writeWithin more id out = written) ∧
      (∀ (run : Run) (other : InstanceId) data, run.instances[other.index]? = some data →
        other ∈ run.active ∨ engine.config.maxDepth ≤ run.active.length →
        ∀ fuel outer, (upTo (fuel + 1)).exec outer other engine.setting run =
          (.error (.failed (.infiniteRecursion
            (if engine.config.lint then activeNames run ++ [data.definition.name] else []))),
            run)) ∧
      (∀ data names name options rest, engine.instance? id = some data →
        data.definition.body = .expression (.attribute name) options :: rest →
        engine.groups.Chases data.nativeGroup names → name ∈ names →
        (∀ name ∈ names, data.Passes name) → 0 < engine.config.maxDepth →
        ∀ fuel, (engine.writeWithin fuel id out).result = .error .outOfFuel) := by
  refine ⟨fun hacyclic => ?_, fun run other data hdata hstack => ?_, ?_⟩
  · obtain ⟨fuel, written, hhalt, hmore⟩ := writeWithin_ends hacyclic id out
    refine ⟨fuel, written, ?_, hmore⟩
    cases hwritten : written.result with
    | ok count => exact Or.inl ⟨count, rfl⟩
    | error halt =>
      cases halt with
      | failed error => exact Or.inr (Or.inl ⟨error, rfl⟩)
      | overflow => exact Or.inr (Or.inr rfl)
      | outOfFuel => exact (hhalt _ hwritten).elim
      | withheld => exact (hhalt _ hwritten).elim
  · have hrefuses : Run.refuses run engine.setting.config.maxDepth other = true := by
      simpa [Run.refuses, setting] using hstack
    exact exec_of_refuses _ run hdata hrefuses
  · intro data names name options rest hdata hbody hchases hname hpasses hdepth fuel
    exact writeWithin_endless hdata hbody hchases hname hpasses hdepth fuel out

/-- A group of which one dictionary refers to another one, with an instance of a template that
writes the dictionary and then itself. -/
def nested : Engine :=
  ({ config := { maxDepth := 3 } } : Engine).after
    [.defineGroup "group" .angle,
      .declare ⟨0⟩ (.dictionary "outer" { entries := [("key", .attribute "inner")] }),
      .declare ⟨0⟩ (.dictionary "inner" { entries := [("key", .string "value")] }),
      .declare ⟨0⟩ (.template "page" none [.expression (.attribute "outer") {},
        .expression (.call { callee := .named "page" }) {}]),
      .instanceOf ⟨0⟩ "page"]

/-- The dictionaries of the group are evaluated one inside the other, and the template is cut off
when it has written itself three times. -/
theorem write_ends_nested :
    nested.groups.Acyclic ∧
      (∃ fuel written, written.result ≠ .error .outOfFuel ∧
        ∀ more ≥ fuel, nested.writeWithin more ⟨0⟩ {} = written) ∧
      (nested.write ⟨0⟩ {}).result = .error (.failed (.infiniteRecursion [])) := by
  have hacyclic : nested.groups.Acyclic := by
    refine .ofRank (fun name => if name = "outer" then 1 else 0) ?_
    intro id group hgroup entry hentry part hpart other hleads
    obtain ⟨hlt, rfl⟩ := Array.getElem?_eq_some_iff.mp hgroup
    obtain rfl : id = ⟨0⟩ := by
      cases id
      exact congrArg _ (Nat.lt_one_iff.mp hlt)
    rcases List.mem_cons.mp hentry with rfl | hentry
    · obtain rfl := List.mem_singleton.mp hpart
      obtain rfl := Expr.leads_attribute.mp hleads
      decide
    · obtain rfl := List.mem_singleton.mp hentry
      obtain rfl := List.mem_singleton.mp hpart
      exact absurd hleads Expr.not_leads_string
  obtain ⟨fuel, written, hresult, hmore⟩ := (write_ends nested ⟨0⟩ {}).1 hacyclic
  refine ⟨hacyclic, ⟨fuel, written, ?_, hmore⟩, by decide +kernel⟩
  rcases hresult with ⟨count, hok⟩ | ⟨error, hfailed⟩ | hoverflow
  · exact fun heq => by cases hok.symm.trans heq
  · exact fun heq => by cases hfailed.symm.trans heq
  · exact fun heq => by cases hoverflow.symm.trans heq

/-- A group with a dictionary that refers to itself, and an instance of a template that writes
it. -/
def chasing : Engine :=
  ({} : Engine).after
    [.defineGroup "group" .angle,
      .declare ⟨0⟩ (.dictionary "own" { entries := [("key", .attribute "own")] }),
      .declare ⟨0⟩ (.template "page" none [.expression (.attribute "own") {}]),
      .instanceOf ⟨0⟩ "page"]

/-- Calls lead to an engine of which an instance is not written with any number of levels, although
the stack is bounded. -/
theorem not_ends_chasing :
    chasing.Reachable ∧
      ¬ ∃ fuel, (chasing.writeWithin fuel ⟨0⟩ {}).result ≠ .error .outOfFuel := by
  have hdata : chasing.instance? ⟨0⟩ = some _ := rfl
  have hchases : chasing.groups.Chases ⟨0⟩ ["own"] := by
    intro name hname
    obtain rfl := List.mem_singleton.mp hname
    exact ⟨"key", [], none, "own", List.mem_singleton_self _, rfl⟩
  refine ⟨(Reachable.new {}).after _, ?_⟩
  rintro ⟨fuel, hends⟩
  refine hends (writeWithin_endless hdata rfl hchases (List.mem_singleton_self _) ?_ ?_ fuel {})
  · intro name hname
    obtain rfl := List.mem_singleton.mp hname
    exact ⟨rfl, rfl, rfl⟩
  · decide

end Stencil.Engine
