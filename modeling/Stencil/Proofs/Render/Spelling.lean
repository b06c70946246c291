import Stencil.Proofs.Render.Continuation
import Stencil.Proofs.Render.Evolution
import Stencil.Proofs.Writer.Bare

/-!
# Spelling

Where a name is the text of an expression, the value of the expression is written, and what is
written is the name. If the value is a text, that is what the renderer for texts makes of it,
without carriage returns and with the configured text for each line break. Nothing else comes of it,
so that afterwards a name refers to what it would have referred to before.
-/

namespace Stencil

open Render

/-- Showing a text changes nothing. -/
theorem Store.Tallied.eq_of_string {text : String} {before after : Store}
    (h : before.Tallied (.string text) after) : after = before := by
  have hobjects : after.objects = before.objects :=
    Array.ext_getElem? fun index => h.other ⟨index⟩ nofun
  obtain ⟨hcursors, howners, -⟩ := h
  cases before
  cases after
  cases hcursors
  cases howners
  cases hobjects
  rfl

namespace Store.Evolves

variable {before after : Store} (h : before.Evolves after)
include h

/-- The properties of an object do not change. -/
theorem property?_eq (value : Value) (name : String) :
    after.property? value name = before.property? value name := by
  match value with
  | .absent | .list _ | .mapping _ | .template _ | .iterator _ => rfl
  | .scalar (.string _) | .scalar (.int _) | .scalar (.float _) | .scalar (.bool _) => rfl
  | .scalar (.object id) =>
    have hkept := congrArg (fun known => known.bind fun known => known.2.lookup name) (h.kept id)
    simpa [property?, Option.bind_map, Function.comp_def] using hkept

/-- The type of a value has the same name in both states. -/
theorem typeName_eq (value : Value) : after.typeName value = before.typeName value := by
  match value with
  | .absent | .list _ | .mapping _ | .template _ | .iterator _ => rfl
  | .scalar (.string _) | .scalar (.int _) | .scalar (.float _) | .scalar (.bool _) => rfl
  | .scalar (.object id) =>
    have hkept := congrArg (Option.map Prod.fst) (h.kept id)
    have hname : (after.object? id).map Object.typeName =
        (before.object? id).map Object.typeName := by
      simpa [Function.comp_def] using hkept
    exact congrArg (fun name => name.getD "") hname

end Store.Evolves

namespace Render

variable (setting : Setting) (run : Run) (scope : Scope) (text : String)

/-- What a text is as a name: what the renderer for texts makes of it without a format, as it is
printed. The renderer may fail. -/
def spelling : Except Format.Failure String :=
  (scalarAction setting.groups run.instances scope .string (.string text) none run.store).1.map
    (Text.printed setting.config.newline)

/-- Spells a text. -/
def spell (scope : Scope) (text : String) : Render String := fun setting run =>
  (match spelling setting run scope text with
    | .ok name => .ok name
    | .error failure => .error (.ofFailure failure), run)

variable {setting run scope text}

/-- A writer that captures text begins without indentations. -/
theorem bare_capturing (config : Config) : (capturing config).Bare config.newline :=
  ⟨rfl, rfl, rfl, rfl⟩

/-- No renderer for texts is registered where one is looked for. -/
structure Unrendered (setting : Setting) (run : Run) (scope : Scope) : Prop where
  instances : ∀ id ∈ scope.frames, ∀ data, run.instances[id.index]? = some data →
    data.renderers.find? .string = none
  groups : ∀ data, run.instances[scope.innermost.index]? = some data →
    setting.groups.findRenderer data.group .string = none ∧
      setting.groups.findRenderer data.nativeGroup .string = none

/-- Then texts have the built-in renderer. -/
theorem Unrendered.findRenderer? (h : Unrendered setting run scope) :
    findRenderer? setting.groups run.instances scope .string = some .text := by
  have hinstances : (scope.frames.findSome? fun id =>
      (run.instances[id.index]?).bind fun data => data.renderers.find? .string) = none := by
    refine List.findSome?_eq_none_iff.mpr fun id hid => ?_
    cases hdata : run.instances[id.index]? with
    | none => rfl
    | some data => exact h.instances id hid data hdata
  have hgroups : ((run.instances[scope.innermost.index]?).bind fun data =>
      setting.groups.findRenderer data.group .string <|>
        setting.groups.findRenderer data.nativeGroup .string) = none := by
    cases hdata : run.instances[scope.innermost.index]? with
    | none => rfl
    | some data =>
      obtain ⟨hgroup, hnative⟩ := h.groups data hdata
      rw [Option.bind_some, hgroup, hnative]
      rfl
  rw [Render.findRenderer?, hinstances, hgroups]
  rfl

/-- Where nothing but a group without renderers is given, none is registered. -/
theorem unrendered_ofGroup (templates : List Definition)
    (dictionaries : List (String × MapLiteral Expr)) (definition : Definition)
    (attributes : List (String × Value)) :
    Unrendered (.ofGroup templates dictionaries) (.ofInstances [(definition, attributes)])
      ⟨⟨0⟩, []⟩ where
  instances id hid data hdata := by
    cases List.mem_singleton.mp hid
    cases hdata
    rfl
  groups data hdata := by
    cases hdata
    exact ⟨rfl, rfl⟩

/-- A text is spelled as it is if no renderer for texts is registered, and if it is printed as it
is. -/
theorem Unrendered.spell (h : Unrendered setting run scope) (hreturn : '\r' ∉ text.toList)
    (hfeed : '\n' ∈ text.toList → setting.config.newline = "\n") :
    spell scope text setting run = (.ok text, run) := by
  have hshown : (scalarAction setting.groups run.instances scope .string (.string text) none
      run.store).1 = .ok text := by
    rw [scalarAction, h.findRenderer?]
    rfl
  have hprinted : Text.printed setting.config.newline text = text :=
    Text.printed_eq_self hreturn hfeed
  rw [Render.spell, spelling, hshown, Except.map, hprinted]

end Render

namespace Evaluator

/-- The text of a text is its spelling, and asking for it changes nothing. -/
theorem textOf_string (fuel : Nat) (scope : Scope) (text : String) :
    (upTo (fuel + 1)).textOf scope (.string text) = spell scope text := by
  funext setting run
  let begun : Run := { run with out := capturing setting.config }
  let action := scalarAction setting.groups run.instances scope .string (.string text) none
  have hstore : (action run.store).2 = run.store :=
    ((local_scalarAction _ _ scope .string (.string text) none).effect run.store).eq_of_string
  have htext : scalarText scope (.string text) none setting begun =
      (match (action run.store).1 with
        | .ok shown => .ok shown
        | .error failure => .error (.ofFailure failure), begun) := by
    rw [scalarText_apply, rendering_apply]
    exact Prod.ext rfl (congrArg (fun store => { begun with store }) hstore)
  have hcapture : (upTo (fuel + 1)).textOf scope (.string text) setting run = captured run
      ((scalarText scope (.string text) none >>= fun shown =>
        writing (Writer.writeToken shown none) : Render Nat) setting begun) := rfl
  rw [hcapture, bind_apply, htext, spell, spelling]
  cases (action run.store).1 with
  | error failure => rfl
  | ok shown =>
    obtain ⟨hanswer, -, hprinted⟩ := Writer.prints_writeToken setting.config.newline shown _
      (show begun.out.Bare _ from bare_capturing setting.config)
    change captured run (writing (Writer.writeToken shown none) setting begun) =
      (.ok (Text.printed setting.config.newline shown), run)
    rw [writing_apply, hanswer]
    exact Prod.ext (congrArg Except.ok (hprinted.trans String.empty_append)) rfl

variable {setting : Setting} {run : Run} {scope : Scope} {fuel : Nat}

/-- A call that refers to its template by the text of an expression refers to it by the spelling. -/
theorem callee_computed {α : Type} {expr : Expr} {text : String} {mid : Run}
    (h : (upTo fuel).eval scope expr setting run = (.ok (.string text), mid))
    (next : Definition → Render α) :
    ((upTo fuel).callee scope (.computed expr) >>= next) setting run =
      (spell scope text >>= fun name =>
        (upTo fuel).callee scope (.named name) >>= next) setting mid := by
  obtain _ | fuel := fuel
  · cases h
  simp only [callee, bind_assoc]
  rw [bind_apply_ok _ _ h, textOf_string]

/-- So it is with a property. -/
theorem evalExpr_computedProperty {target expr : Expr} {value : Value} {text : String}
    {met mid : Run} (htarget : (upTo fuel).eval scope target setting run = (.ok value, met))
    (hname : (upTo fuel).eval scope expr setting met = (.ok (.string text), mid)) :
    (upTo fuel).evalExpr scope (.computedProperty target expr) setting run =
      (spell scope text >>= property value) setting mid := by
  obtain _ | fuel := fuel
  · cases htarget
  rw [evalExpr, bind_apply_ok _ _ htarget, bind_apply_ok _ _ hname, textOf_string]

/-- What a name refers to is the same before and after an expression is evaluated. -/
theorem callee_named_continues {data : Instance} {after : Run} (h : run.Continues after)
    (hdata : run.instances[scope.innermost.index]? = some data) (level : Evaluator)
    (name : String) :
    (level.callee scope (.named name) setting after).1 =
      (level.callee scope (.named name) setting run).1 := by
  rw [callee, bind_apply_ok _ _ (getInstance_apply_some _ _ hdata),
    bind_apply_ok _ _ (getInstance_apply_some _ _ (h.getElem? hdata)), definitionFrom,
    bind_apply_ok _ _ (lookup_apply _ _ _ _), bind_apply_ok _ _ (lookup_apply _ _ _ _)]
  cases (setting.groups.findTemplate data.group name).map Prod.fst <;> rfl

/-- A property is the same before and after an expression is evaluated. -/
theorem property_evolves {value : Value} {after : Run} (h : run.Continues after)
    (hstore : run.store.Evolves after.store)
    (hthere : ∀ id, value = .template id → id.index < run.instances.size) (name : String) :
    (property value name setting after).1 = (property value name setting run).1 := by
  cases value with
  | absent | mapping _ => rfl
  | template id =>
    obtain ⟨data, hdata⟩ : ∃ data, run.instances[id.index]? = some data :=
      ⟨_, Array.getElem?_eq_getElem (hthere id rfl)⟩
    rw [property, bind_apply_ok _ _ (getInstance_apply_some _ _ hdata),
      bind_apply_ok _ _ (getInstance_apply_some _ _ (h.getElem? hdata))]
    cases data.attributes.get? name with
    | none => rfl
    | some found =>
      dsimp only
      rw [bind_apply_ok _ _ (noteRead_apply _ _ _ _), bind_apply_ok _ _ (noteRead_apply _ _ _ _)]
      rfl
  | list _ | iterator _ => rfl
  | scalar scalar =>
    change (ownProperty (.scalar scalar) name setting after).1 =
      (ownProperty (.scalar scalar) name setting run).1
    rw [ownProperty_apply, ownProperty_apply, hstore.property?_eq, hstore.typeName_eq]

end Evaluator

end Stencil
