import Stencil.Proofs.Engine.Reachable
import Stencil.Proofs.Render.Spelling

/-!
# References by the text of an expression

A call may refer to its template by an expression, and so may a property to its name. If the
expression comes to a text, the reference is one by the spelling of that text. A text need not be
spelled as it is: then the template of that name, or the property, is not what is referred to.
-/

namespace Stencil

open Render

namespace Evaluator

/-- How references by the text of an expression come to references by name, where the expression
comes to a text. -/
structure RefersByText (level : Evaluator) (setting : Setting) : Prop where
  /-- The definition is the one of the template that is named by the spelling. -/
  callee : ∀ scope expr text begun mid,
    level.eval scope expr setting begun = (.ok (.string text), mid) →
      level.callee scope (.computed expr) setting begun =
        (spell scope text >>= fun name => level.callee scope (.named name)) setting mid
  /-- So is the instance that a call creates. -/
  call : ∀ scope expr text begun mid arguments,
    level.eval scope expr setting begun = (.ok (.string text), mid) →
      level.call scope { callee := .computed expr, arguments } setting begun =
        (spell scope text >>= fun name =>
          level.call scope { callee := .named name, arguments }) setting mid
  /-- So is the instance that an application creates for an element. -/
  applyOne : ∀ scope expr text begun mid arguments item index,
    level.eval scope expr setting begun = (.ok (.string text), mid) →
      level.applyOne scope { callee := .computed expr, arguments } item index setting begun =
        (spell scope text >>= fun name =>
          level.applyOne scope { callee := .named name, arguments } item index) setting mid
  /-- So are the instances of an application to several drivers. -/
  applyParallel : ∀ scope expr text begun mid arguments drivers,
    level.eval scope expr setting begun = (.ok (.string text), mid) →
      level.applyParallel scope drivers [{ callee := .computed expr, arguments }] setting begun =
        (spell scope text >>= fun name =>
          level.applyParallel scope drivers [{ callee := .named name, arguments }]) setting mid
  /-- A name refers to the same before the expression is evaluated. -/
  unmoved : ∀ scope expr text begun mid,
    level.eval scope expr setting begun = (.ok (.string text), mid) →
      ∀ data, begun.instances[scope.innermost.index]? = some data → ∀ name,
        (level.callee scope (.named name) setting mid).1 =
          (level.callee scope (.named name) setting begun).1
  /-- The property is the one that is named by the spelling. -/
  property : ∀ scope target expr value text begun met mid,
    level.eval scope target setting begun = (.ok value, met) →
      level.eval scope expr setting met = (.ok (.string text), mid) →
        level.evalExpr scope (.computedProperty target expr) setting begun =
          (spell scope text >>= property value) setting mid
  /-- The property of a name is the same before the expression is evaluated. -/
  unmovedProperty : ∀ scope target expr value text begun met mid,
    level.eval scope target setting begun = (.ok value, met) →
      level.eval scope expr setting met = (.ok (.string text), mid) →
        setting.callers ≤ begun.instances.size →
          (∀ id, value = .template id → id.index < met.instances.size) → ∀ name,
            (Render.property value name setting mid).1 =
              (level.evalExpr scope (.property target name) setting begun).1
  /-- A text is spelled as it is if no renderer for texts is registered, if it has no carriage
  returns, and if it has no line feeds or they are configured for line breaks. -/
  plain : ∀ scope text (run : Run), Unrendered setting run scope → '\r' ∉ text.toList →
    ('\n' ∈ text.toList → setting.config.newline = "\n") →
      spell scope text setting run = (.ok text, run)

/-- References by the text of an expression are references by the spelling of that text. -/
theorem refersByText (fuel : Nat) (setting : Setting) :
    (upTo fuel).RefersByText setting where
  callee scope expr text begun mid heval := by
    have hcallee := callee_computed heval pure
    simpa only [bind_pure] using hcallee
  call scope expr text begun mid arguments heval := callee_computed heval _
  applyOne scope expr text begun mid arguments item index heval := callee_computed heval _
  applyParallel scope expr text begun mid arguments drivers heval := callee_computed heval _
  unmoved scope expr text begun mid heval data hdata name := by
    have hmid : begun.Continues mid := by
      simpa only [heval] using continues_eval fuel setting scope begun expr
    exact callee_named_continues hmid hdata _ name
  property scope target expr value text begun met mid htarget hname :=
    evalExpr_computedProperty htarget hname
  unmovedProperty scope target expr value text begun met mid htarget hname hcallers hthere
      name := by
    have hmet : begun.Continues met := by
      simpa only [htarget] using continues_eval fuel setting scope begun target
    have hmid : met.Continues mid := by
      simpa only [hname] using continues_eval fuel setting scope met expr
    have hevolves := evolves_eval fuel scope expr (hcallers.trans hmet.size)
    rw [hname] at hevolves
    rw [property_evolves hmid hevolves.store hthere, evalExpr, bind_apply_ok _ _ htarget]
  plain scope text run hunrendered hreturn hfeed := hunrendered.spell hreturn hfeed

/-- A text that is spelled as it is names the template whose name it is. -/
theorem refersByText_unrendered :
    let hello : Definition := .template "hello" none []
    let setting : Setting := .ofGroup [hello]
    let run : Run := .ofInstances
      [(.template "page" (some [{ name := "text" }]) [], [("text", .string "hello")])]
    let found : Except Halt Definition × Run := (.ok { hello with group := some ⟨0⟩ }, run)
    (upTo 1).callee ⟨⟨0⟩, []⟩ (.computed (.attribute "text")) setting run = found ∧
      (upTo 1).callee ⟨⟨0⟩, []⟩ (.named "hello") setting run = found := by
  intro hello setting run found
  have hrefers := refersByText 1 setting
  have hspelled := hrefers.plain ⟨⟨0⟩, []⟩ "hello" run (unrendered_ofGroup _ _ _ _)
    (by decide) (by decide)
  refine ⟨?_, rfl⟩
  rw [hrefers.callee _ _ "hello" run run rfl, bind_apply_ok _ _ hspelled]
  rfl

end Evaluator

namespace Engine

/-- A template that is given a text and writes an expression, beside one that the text names. Texts
have a renderer that shows them in parentheses behind a tag. -/
def referring (text : String) (expr : Expr) : Engine :=
  ({} : Engine).after
    [.defineGroup "group" .angle,
      .declare ⟨0⟩ (.template "hello" (some []) [.literal "hi"]),
      .declare ⟨0⟩ (.template "page" (some [{ name := "text" }]) [.expression expr {}]),
      .declare ⟨0⟩ (.renderer .string (.tagged "T")),
      .instanceOf ⟨0⟩ "page",
      .assign ⟨0⟩ "text" (.string text)]

/-- The text that names a template does not refer to it, since it is spelled with the tag. Nor does
it refer to the entry of a mapping. -/
theorem not_named_referring :
    (((referring "hello" (.call { callee := .computed (.attribute "text") })).render ⟨0⟩).1 =
        .error (.failed (.noSuchTemplate "T(hello)")) ∧
      ((referring "hello" (.call { callee := .named "hello" })).render ⟨0⟩).1 = .ok "hi") ∧
    ((referring "hello" (.computedProperty (.mapping { entries := [("hello", .bool true)] })
        (.attribute "text"))).render ⟨0⟩).1 = .ok "" ∧
      ((referring "hello" (.property (.mapping { entries := [("hello", .bool true)] })
        "hello")).render ⟨0⟩).1 = .ok "true" := by
  decide +kernel

end Engine

end Stencil
