import Stencil.Engine.Render
import Stencil.Proofs.Engine.Reachable
import Stencil.Proofs.Render.Elements
import Stencil.Proofs.Render.Spelling

/-!
# Lists of one element

A list of one element is written like the element, but for an absent one: the null text of a value
is written as it is, while that of an element is a text with a renderer and a format.
-/

namespace Stencil

open Render

namespace Render

variable {setting : Setting} {run : Run} {scope : Scope}

/-- What the renderer for texts makes of a text under a format. -/
def rendered (setting : Setting) (run : Run) (scope : Scope) (text : String)
    (format : Option String) : Except Format.Failure String :=
  (scalarAction setting.groups run.instances scope .string (.string text) format run.store).1

/-- A text is rendered without a trace in the state. -/
theorem scalarText_string (text : String) (format : Option String) :
    scalarText scope (.string text) format setting run =
      (match rendered setting run scope text format with
        | .ok shown => .ok shown
        | .error failure => .error (.ofFailure failure), run) := by
  have hstore : (scalarAction setting.groups run.instances scope .string (.string text) format
      run.store).2 = run.store :=
    ((local_scalarAction _ _ scope .string (.string text) format).effect run.store).eq_of_string
  rw [scalarText_apply, rendering_apply]
  exact Prod.ext rfl (congrArg (fun store => { run with store }) hstore)

/-- Where no renderer for texts is registered, a text without a format stays as it is. -/
theorem Unrendered.rendered (h : Unrendered setting run scope) (text : String) :
    rendered setting run scope text none = .ok text := by
  rw [Render.rendered, scalarAction, h.findRenderer?]
  rfl

end Render

namespace Evaluator

/-- How a list of one element is written, beside the element. -/
structure WritesSingles (setting : Setting) : Prop where
  /-- They are written alike, under whatever options and whether or not with an anchor, if the
  element is not absent, if there is no null text, or if the renderer for texts leaves the null text
  as it is under the format. -/
  same : ∀ fuel scope options anchor value run,
    (value = .absent → ∀ null, options.null = some null →
      rendered setting run scope null options.format = .ok null) →
    anchored anchor ((upTo (fuel + 2)).value scope options (.list [value])) setting run =
      anchored anchor ((upTo (fuel + 1)).value scope options value) setting run
  /-- A null text is left as it is without a format if no renderer for texts is registered. -/
  unchanged : ∀ scope null run, Unrendered setting run scope →
    rendered setting run scope null none = .ok null
  /-- A null text is written as it is for an absent value. -/
  value : ∀ fuel scope options null, options.null = some null →
    (upTo (fuel + 1)).value scope options .absent = writing (Writer.writeToken null options.wrap)
  /-- For an absent element it is written as any text is, with a renderer and under the format. -/
  element : ∀ fuel scope options null run, options.null = some null →
    (upTo (fuel + 2)).value scope options (.list [.absent]) setting run =
      match rendered setting run scope null options.format with
      | .ok text => writing (Writer.writeToken text options.wrap) setting run
      | .error failure => (.error (.ofFailure failure), run)

/-- A list of one value that is not absent is written as the value. -/
theorem value_list_singleton (fuel : Nat) (scope : Scope) (options : WriteOptions) {value : Value}
    (h : value ≠ .absent) : (upTo (fuel + 1)).value scope options (.list [value]) =
      (upTo fuel).value scope options value := by
  have hsurvives : survivors options.null [value] = [value] := by
    cases value with
    | absent => exact absurd rfl h
    | scalar _ | list _ | mapping _ | template _ | iterator _ => rfl
  refine ((upTo fuel).writeElements_eq scope options [value]).trans ?_
  rw [hsurvives, joined_singleton]

/-- A list of an absent value is written as the rendered null text. -/
theorem value_list_absent {options : WriteOptions} {null : String} (h : options.null = some null)
    (setting : Setting) (fuel : Nat) (scope : Scope) (run : Run) :
    (upTo (fuel + 2)).value scope options (.list [.absent]) setting run =
      match rendered setting run scope null options.format with
      | .ok text => writing (Writer.writeToken text options.wrap) setting run
      | .error failure => (.error (.ofFailure failure), run) := by
  have hsurvives : survivors options.null [.absent] = [.string null] := by rw [h]; rfl
  have hlist : (upTo (fuel + 2)).value scope options (.list [.absent]) =
      (upTo (fuel + 1)).value scope options (.string null) := by
    refine ((upTo (fuel + 1)).writeElements_eq scope options [.absent]).trans ?_
    rw [hsurvives, joined_singleton]
  have htext : (upTo (fuel + 1)).value scope options (.string null) =
      scalarText scope (.string null) options.format >>= fun text =>
        writing (Writer.writeToken text options.wrap) := rfl
  rw [hlist, htext, bind_apply, scalarText_string]
  cases rendered setting run scope null options.format <;> rfl

/-- An absent value is written as the null text. -/
theorem value_absent {options : WriteOptions} {null : String} (h : options.null = some null)
    (fuel : Nat) (scope : Scope) : (upTo (fuel + 1)).value scope options .absent =
      writing (Writer.writeToken null options.wrap) := by
  change (upTo fuel).writeValue scope options .absent = _
  rw [writeValue, h]

/-- A list of one value is written as the value unless rendering changes the null text. -/
theorem value_list_eq {setting : Setting} {options : WriteOptions} {scope : Scope} {value : Value}
    (fuel : Nat) (run : Run) (h : value = .absent → ∀ null, options.null = some null →
      rendered setting run scope null options.format = .ok null) :
    (upTo (fuel + 2)).value scope options (.list [value]) setting run =
      (upTo (fuel + 1)).value scope options value setting run := by
  by_cases habsent : value = .absent
  · subst habsent
    cases hnull : options.null with
    | none =>
      have hlist := (upTo (fuel + 1)).writeElements_eq scope options [.absent]
      rw [hnull] at hlist
      have hvalue : (upTo (fuel + 1)).value scope options .absent = pure 0 := by
        change (upTo fuel).writeValue scope options .absent = _
        rw [writeValue, hnull]
      rw [hvalue]
      exact congrFun (congrFun hlist setting) run
    | some null => rw [value_list_absent hnull, value_absent hnull, h rfl null hnull]
  · rw [value_list_singleton _ _ _ habsent]

/-- A list of one element is written like the element, unless it is absent and its null text is
rendered as another text. -/
theorem writesSingles (setting : Setting) : WritesSingles setting where
  same fuel scope options anchor value run h := by
    cases anchor with
    | false => exact value_list_eq fuel run h
    | true =>
      rw [anchored_apply, anchored_apply]
      exact congrArg (cleaned _) (value_list_eq fuel { run with out := run.out.pushAnchor } h)
  unchanged _ null _ h := h.rendered null
  value fuel scope _ _ h := value_absent h fuel scope
  element fuel scope _ _ run h := value_list_absent h setting fuel scope run

/-- Without a format and without a renderer for texts the null text of an element is the null text
of a value, here with an anchor. -/
theorem writesSingles_plain :
    let setting : Setting := .ofGroup []
    let run : Run := .ofInstances [(.template "page" none [], [])]
    let options : WriteOptions := { null := some "n/a" }
    anchored true ((upTo 2).value ⟨⟨0⟩, []⟩ options (.list [.absent])) setting run =
      anchored true ((upTo 1).value ⟨⟨0⟩, []⟩ options .absent) setting run := by
  intro setting run options
  have hsingles := writesSingles setting
  refine hsingles.same 0 _ options true .absent run fun _ null hnull => ?_
  cases hnull
  exact hsingles.unchanged _ "n/a" run (unrendered_ofGroup _ _ _ _)

end Evaluator

namespace Engine

/-- Two instances of a template that writes the attribute `x`, or `n/a` if there is none, with
capital letters. The attribute is absent in the first instance, and a list of an absent element in
the second one. -/
def shouting : Engine :=
  ({} : Engine).after
    [.defineGroup "group" .angle,
      .declare ⟨0⟩ (.template "page" (some [⟨"x", none⟩])
        [.expression (.attribute "x")
          { null := some (.string "n/a"), format := some (.string "upper") }]),
      .instanceOf ⟨0⟩ "page", .instanceOf ⟨0⟩ "page",
      .assign ⟨0⟩ "x" .absent, .assign ⟨1⟩ "x" (.list [.absent])]

/-- The null text of a value has no format, and that of an element has. -/
theorem not_same_shouting :
    (shouting.render ⟨0⟩).1 = .ok "n/a" ∧ (shouting.render ⟨1⟩).1 = .ok "N/A" := by
  decide +kernel

end Engine

end Stencil
