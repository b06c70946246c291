import Stencil.Proofs.Engine.Accounting
import Stencil.Proofs.Render.Tandem
import Stencil.Proofs.Writer.Layout

/-!
# The width of a line

Where lines are wrapped depends on the width of a line, and so do the columns that anchors keep and
the counts that decide which lines vanish. None of this reaches what is visible of the text: if line
breaks and wrap texts are white space, renders under two widths fail in the same way, or their texts
differ in white space only.
-/

namespace Stencil

open Render

namespace Evaluator

/-- The level above an evaluator that withholds a value with a wrap text that is not white space. -/
def strict (below : Evaluator) : Evaluator :=
  { below.next with
    value := fun scope options value =>
      if options.wrap.all Text.isWhite then below.writeValue scope options value
      else throw .withheld }

/-- The evaluator with a given number of such levels. -/
def strictUpTo : Nat → Evaluator
  | 0 => exhausted
  | fuel + 1 =>
    { eval := fun scope expr => (strictUpTo fuel).strict.eval scope expr
      exec := fun outer id => (strictUpTo fuel).strict.exec outer id
      nodes := fun scope line nodes => (strictUpTo fuel).strict.nodes scope line nodes
      value := fun scope options value => (strictUpTo fuel).strict.value scope options value }

variable {below : Evaluator} {scope : Scope} {options : WriteOptions}

/-- Where nothing but white space is wrapped the strict evaluator writes values. -/
theorem strict_value_of_white (h : options.wrap.all Text.isWhite = true) (value : Value) :
    below.strict.value scope options value = below.writeValue scope options value := if_pos h

/-- Anywhere else it withholds them. -/
theorem strict_value_of_not_white (h : ¬ options.wrap.all Text.isWhite = true) (value : Value) :
    below.strict.value scope options value = throw .withheld := if_neg h

end Evaluator

namespace Engine

/-- Whatever value is written while an instance is written, the wrap text that goes with it, if
there is one, is white space: a render that withholds values with any other wrap text is not stopped
so. -/
def WrapsWhite (engine : Engine) (id : InstanceId) (out : Writer) : Prop :=
  ((Evaluator.strictUpTo fuel).exec [] id engine.setting (engine.start out)).1 ≠
    .error .withheld

end Engine

/-! ### Renders that withhold wrap texts -/

/-- At every level the render withholds a wrap text, or it is like any other one. -/
theorem Stopping.sound_strictUpTo (setting : Setting) (fuel : Nat) :
    (withholding setting setting.config.newline).logic.Sound fun i =>
      cond i (Evaluator.upTo fuel) (Evaluator.strictUpTo fuel) := by
  have laws := (withholding setting setting.config.newline).ordinary rfl
  induction fuel with
  | zero =>
    have hthrow {α : Type} : (withholding setting setting.config.newline).Holds
        (throw .outOfFuel : Render α) (throw .outOfFuel) := holds_of_eq fun _ => rfl
    exact ⟨fun _ _ => hthrow, fun _ _ => hthrow, fun _ _ _ => hthrow, fun _ _ _ => hthrow⟩
  | succ fuel ih =>
    have hnext := laws.sound_next ih
    refine ⟨hnext.eval, hnext.exec, hnext.nodes, fun scope options value => ?_⟩
    change Holds _ ((Evaluator.strictUpTo fuel).strict.value scope options value)
      ((Evaluator.upTo fuel).writeValue scope options value)
    by_cases hwhite : options.wrap.all Text.isWhite = true
    · rw [Evaluator.strict_value_of_white hwhite]
      exact hnext.value scope options value
    · rw [Evaluator.strict_value_of_not_white hwhite]
      exact fun run => Or.inl ⟨_, rfl, rfl⟩

/-! ### What is visible -/

/-- Two discreet writers whose sinks have the same visible text, whatever is counted. -/
def Tandem.layout (stopping : Stopping) : Tandem where
  stopping
  Paired := Writer.SameVisible
  Counted _ _ := True

namespace Tandem

variable {stopping : Stopping}

/-- The break that ends a line, or none. -/
theorem exists_shows_writeBreak (line : Line) : ∃ operation,
    Evaluator.writeBreak line = writing operation ∧ Writer.Shows [] operation := by
  cases hkept : line.isKept with
  | true => exact ⟨Writer.write "\n", if_pos hkept, Writer.shows_write "\n"⟩
  | false =>
    refine ⟨pure 0, ?_, Writer.shows_pure 0⟩
    rw [Evaluator.writeBreak, hkept]
    rfl

/-- All that is written keeps the visible text of two discreet writers the same. -/
theorem lawful_layout : (layout stopping).Lawful where
  zero := trivial
  add _ _ := trivial
  empty := rfl
  write text := (Writer.shows_write text).keeps (Writer.shows_write text)
  writeBreak {left right} _ := by
    obtain ⟨operation, heq, hshows⟩ := exists_shows_writeBreak left
    obtain ⟨operation', heq', hshows'⟩ := exists_shows_writeBreak right
    rw [heq, heq']
    exact holds_writing (hshows.keeps hshows')
  pushIndent indent hindent h := h.pushIndent (Text.isWhite_of_isIndent hindent)
  popIndent h := h.popIndent
  pushAnchor h := h.anchored _ _
  popAnchor h := h.anchored _ _

/-- Any options may be used whose wrap text is white space. -/
theorem suits_layout {options : WriteOptions} (h : options.wrap.all Text.isWhite = true) :
    (layout stopping).Suits options where
  separator text _ := (Writer.shows_write text).keeps (Writer.shows_write text)
  wrap text heq width := by
    rw [heq] at h
    exact (Writer.shows_wrap h width).keeps (Writer.shows_wrap h width)
  null := congrFun Option.map_id _
  format := congrFun Option.map_id _

end Tandem

/-- What a strict level writes to one of two discreet writers, and the ordinary level to the other
one, has the same visible text. -/
theorem Tandem.level_strictUpTo (setting : Setting) (fuel : Nat) :
    (layout (.withholding setting setting.config.newline)).Level (Evaluator.strictUpTo fuel)
      (Evaluator.upTo fuel) := by
  have laws : (layout (.withholding setting setting.config.newline)).Lawful := lawful_layout
  have hsound := Stopping.sound_strictUpTo setting
  have hvalue (fuel : Nat) (scope : Scope) (value : Value) :=
    Stopping.Holds.capture rfl ((hsound fuel).value scope {} value)
  have hexec (fuel : Nat) (outer : List InstanceId) (id : InstanceId) :=
    Stopping.Holds.capture rfl ((hsound fuel).exec outer id)
  induction fuel with
  | zero => exact level_exhausted
  | succ fuel ih =>
    refine ⟨evaluates_evalExpr ih.eval (hvalue fuel) (hexec fuel),
      fun scope value => (hvalue (fuel + 1) scope value).agrees, holds_writeInstance laws ih,
      fun scope _ _ nodes hspaced hlines => holds_writeNodes laws ih scope hlines hspaced,
      fun scope options value => ?_⟩
    change Holds _ _ ((Evaluator.strictUpTo fuel).strict.value scope options value) _
    by_cases hwhite : options.wrap.all Text.isWhite = true
    · rw [Evaluator.strict_value_of_white hwhite]
      exact holds_writeValue laws ih scope (suits_layout hwhite) value
    · rw [Evaluator.strict_value_of_not_white hwhite]
      exact fun run left right _ => Or.inl ⟨_, rfl, rfl⟩

namespace Engine

variable (engine : Engine) (id : InstanceId)

/-- Where no wrap text is withheld the strict levels do what all levels do. -/
theorem strict_eq_runWithin {out : Writer} (h : engine.WrapsWhite id out) :
    (Evaluator.strictUpTo fuel).exec [] id engine.setting (engine.start out) =
      engine.runWithin fuel id out := by
  have hruns := (Stopping.sound_strictUpTo engine.setting fuel).exec [] id (engine.start out)
  exact (hruns.resolve_left (mt Stopping.stopped_withholding.mp h)).symm

/-- Two runs that write to discreet writers, which may have lines of two widths. -/
theorem layout_runWithin {left right : Writer} (hleft : left.Discreet) (hright : right.Discreet)
    (htext : Text.visible left.sink.text = Text.visible right.sink.text)
    (hwraps : engine.WrapsWhite id left) :
    (Tandem.layout (.withholding engine.setting engine.config.newline)).Parallel (fun _ _ => True)
      (engine.runWithin fuel id left) (engine.runWithin fuel id right) := by
  have hruns := (Tandem.level_strictUpTo engine.setting fuel).exec [] id (engine.start left) left
    right ⟨hleft, hright, htext⟩
  rw [← strict_eq_runWithin engine id hwraps]
  exact hruns.resolve_left (mt Stopping.stopped_withholding.mp hwraps)

/-- The width of a line changes nothing but the layout. If line breaks are white space, and all wrap
texts that are used with one of two widths are, then renders with the two widths fail in the same
way, or they have texts with the same visible characters in the same order. -/
theorem layout_renderWithWidth (width other : Nat)
    (hnewline : Text.isWhite engine.config.newline = true)
    (hwraps : engine.WrapsWhite id (engine.config.writer width)) :
    (∃ halt, (engine.renderWithWidth id width).1 = .error halt ∧
      (engine.renderWithWidth id other).1 = .error halt) ∨
    ∃ text text', (engine.renderWithWidth id width).1 = .ok text ∧
      (engine.renderWithWidth id other).1 = .ok text' ∧
        Text.visible text = Text.visible text' := by
  have hdiscreet (width : Nat) : (engine.config.writer width).Discreet :=
    ⟨rfl, hnewline, fun _ hmem => by cases hmem⟩
  unfold renderWithWidth write writeWithin
  split
  · exact Or.inl ⟨_, rfl, rfl⟩
  · have hruns := layout_runWithin engine id (hdiscreet width) (hdiscreet other) rfl hwraps
    generalize engine.runWithin fuel id (engine.config.writer width) = left at hruns ⊢
    generalize engine.runWithin fuel id (engine.config.writer other) = right at hruns ⊢
    obtain ⟨run, hresult, -, -, htext⟩ := hruns
    cases hresult with
    | ok _ => exact Or.inr ⟨_, _, rfl, rfl, htext⟩
    | error halt => exact Or.inl ⟨halt, rfl, rfl⟩

/-- The names of a call fit on no line of sixteen columns, and on one line without a width. -/
theorem layout_renderWithWidth_enumerating :
    (enumerating.renderWithWidth ⟨0⟩ 16).1 =
        .ok "call\n  of first, \n     second, \n     third" ∧
      (enumerating.renderWithWidth ⟨0⟩ 0).1 = .ok "call\n  of first, second, third" ∧
      Text.visible "call\n  of first, \n     second, \n     third" =
        Text.visible "call\n  of first, second, third" := by
  have hwraps : enumerating.WrapsWhite ⟨0⟩ (enumerating.config.writer 16) := by
    unfold WrapsWhite
    decide +kernel
  have hlayout := layout_renderWithWidth enumerating ⟨0⟩ 16 0 (by decide) hwraps
  have hnarrow : (enumerating.renderWithWidth ⟨0⟩ 16).1 =
      .ok "call\n  of first, \n     second, \n     third" := by decide +kernel
  have hwide : (enumerating.renderWithWidth ⟨0⟩ 0).1 =
      .ok "call\n  of first, second, third" := by decide +kernel
  refine ⟨hnarrow, hwide, ?_⟩
  rw [hnarrow, hwide] at hlayout
  rcases hlayout with ⟨_, hfailed, -⟩ | ⟨_, _, htext, htext', hsame⟩
  · cases hfailed
  · cases htext
    cases htext'
    exact hsame

end Engine

end Stencil
