import Stencil.Proofs.Engine.Accounting
import Stencil.Proofs.Render.Tandem
import Stencil.Proofs.Writer.Newline

/-!
# The configured line break

The configuration has a text for line breaks. What is written for good is translated into it in the
end, whatever the text is, as long as there is one. But texts that are made on the way, for a
conversion to text, an argument or an option, are written in the same way, and may be written once
more afterwards: then their line breaks are translated twice. So a render that makes no such text is
the translation of the render with plain line breaks, and one that does need not be.
-/

namespace Stencil

open Render

/-- Whether a text has no line break. -/
def Text.isLine (text : String) : Bool := !text.toList.contains '\n'

/-- Whether options have no line breaks. The ones of separators and of wrap texts may not matter. -/
def WriteOptions.isFlat (feed : Bool) (options : WriteOptions) : Bool :=
  options.null.all Text.isLine && options.format.all Text.isLine &&
    (feed || options.separator.all Text.isLine && options.wrap.all Text.isLine)

/-- An action whose answer is withheld when a line break was written. -/
def Render.single (action : Render Nat) : Render Nat := do
  let count ← action
  if Text.isLine (← get).out.sink.text then return count else throw .withheld

namespace Evaluator

/-- An evaluator that writes nothing with a line break. -/
def single (below : Evaluator) : Evaluator :=
  { below with
    exec := fun outer id => Render.single (below.exec outer id)
    value := fun scope options value => Render.single (below.value scope options value) }

/-- The level above an evaluator that withholds values and options with line breaks. All that
evaluation writes is captured. -/
def flat (feed : Bool) (below : Evaluator) : Evaluator :=
  { below.next with
    eval := below.single.evalExpr
    value := fun scope options value =>
      if options.isFlat feed then below.writeValue scope options value else throw .withheld }

/-- The evaluator with a given number of such levels. -/
def flatUpTo (feed : Bool) : Nat → Evaluator
  | 0 => exhausted
  | fuel + 1 =>
    { eval := fun scope expr => ((flatUpTo feed fuel).flat feed).eval scope expr
      exec := fun outer id => ((flatUpTo feed fuel).flat feed).exec outer id
      nodes := fun scope line nodes => ((flatUpTo feed fuel).flat feed).nodes scope line nodes
      value := fun scope options value =>
        ((flatUpTo feed fuel).flat feed).value scope options value }

end Evaluator

namespace Engine

variable (engine : Engine) (id : InstanceId) (width : Nat)

/-- The engine with another text for line breaks. -/
def breaking (newline : String) : Engine :=
  { engine with config := { engine.config with newline } }

/-- The text that an instance writes to a writer with a width and with a text for line breaks. What
is made on the way has the configured line breaks. -/
def outputWith (newline : String) : Except Halt String :=
  let written := engine.write id { engine.config.writer width with newline }
  written.result.map fun _ => written.out.sink.text

/-- No text that is made while an instance is rendered with plain line breaks has one: neither what
becomes a value nor null texts and formats, and separators and wrap texts only if they may. A render
that withholds any other text is not stopped so. -/
def MakesLines (feed : Bool) : Prop :=
  ((Evaluator.flatUpTo feed fuel).exec [] id (engine.breaking "\n").setting
    (engine.start ((engine.breaking "\n").config.writer width))).1 ≠
    .error .withheld

end Engine

/-! ### Two writers -/

/-- Two writers with texts of their own for line breaks. The texts of options may have been
captured with line breaks of their own as well. -/
def Tandem.translation (stopping : Stopping) (captured newline other : String) : Tandem where
  stopping
  Paired := Writer.Translated newline other
  Counted := Writer.EmptyAlike
  rewrite := Text.translate captured

namespace Tandem

variable {stopping : Stopping} {captured newline other : String} (hnewline : newline ≠ "")
  (hother : other ≠ "")
include hnewline hother

/-- All that is written keeps two writers the same but for their line breaks. -/
theorem lawful_translation : (translation stopping captured newline other).Lawful where
  zero := Iff.rfl
  add := Writer.EmptyAlike.add
  empty := rfl
  write text := Writer.keeps_writeChars hnewline hother text.toList
  writeBreak {left right} hlines := by
    have hkept : left.isKept = right.isKept := by
      have hempty : left.written = 0 ↔ right.written = 0 := hlines.written
      rw [Line.isKept, Line.isKept, hlines.fresh]
      congr 2
      exact propext (by omega)
    unfold Evaluator.writeBreak
    rw [hkept]
    split
    · exact holds_writing (Writer.keeps_writeChars hnewline hother "\n".toList)
    · exact holds_pure Iff.rfl
  pushIndent indent hindent h := h.pushIndent (Text.unbroken_of_isIndent hindent)
  popIndent h := h.popIndent
  pushAnchor h := h.pushAnchor
  popAnchor h := h.popAnchor

/-- Options may be used if their texts are translated to themselves, but for separators and wrap
texts, which may have any line breaks if these are line feeds. -/
theorem suits_translation {options : WriteOptions}
    (hnull : options.null.map (Text.translate captured) = options.null)
    (hformat : options.format.map (Text.translate captured) = options.format)
    (hlines : Text.isFeed captured = true ∨
      options.separator.map (Text.translate captured) = options.separator ∧
        options.wrap.map (Text.translate captured) = options.wrap) :
    (translation stopping captured newline other).Suits options where
  separator text heq := by
    have hsame : Writer.write (Text.translate captured text) = Writer.write text := by
      rcases hlines with hfeed | ⟨hseparator, -⟩
      · exact Writer.write_translate hfeed text
      · rw [heq] at hseparator
        rw [Option.some.inj hseparator]
    change Writer.Keeps _ _ (Writer.write text) (Writer.write (Text.translate captured text))
    rw [hsame]
    exact Writer.keeps_writeChars hnewline hother text.toList
  wrap text heq width := by
    have hsame : Writer.wrap (Text.translate captured text) = Writer.wrap text := by
      rcases hlines with hfeed | ⟨-, hwrap⟩
      · exact Writer.wrap_translate hfeed text
      · rw [heq] at hwrap
        rw [Option.some.inj hwrap]
    change Writer.Keeps _ _ (Writer.wrap text width)
      (Writer.wrap (Text.translate captured text) width)
    rw [hsame]
    exact Writer.keeps_wrap hnewline hother text width
  null := hnull
  format := hformat

end Tandem

/-! ### What is made on the way -/

/-- A text that is captured has no line break, or it is withheld. -/
theorem Render.capture_single_apply (action : Render Nat) (setting : Setting) (run : Run) :
    capture (Render.single action) setting run = match capture action setting run with
      | (.ok text, after) =>
        if Text.isLine text then (.ok text, after) else (.error .withheld, after)
      | (.error halt, after) => (.error halt, after) := by
  rw [capture_apply, capture_apply, Render.single, bind_apply]
  rcases action setting { run with out := capturing setting.config } with ⟨_ | count, after⟩
  · rfl
  · simp only [bind_apply, get_apply, captured]
    cases hline : Text.isLine after.out.sink.text <;> simp [hline, Except.map]

/-- A render with plain line breaks that makes no text with a line break, beside one with other line
breaks. -/
abbrev Tandem.breaking (engine : Engine) (newline : String) : Tandem :=
  translation (.withholding (engine.breaking "\n").setting newline) newline "\n" newline

/-- Nothing is translated in a line. -/
theorem Text.translate_of_isLine (newline : String) {text : String} (h : isLine text = true) :
    translate newline text = text :=
  translate_of_unbroken newline (by simpa [isLine] using h)

namespace Tandem

variable {engine : Engine} {newline : String} {first second : Render Nat}

/-- A text that is captured with plain line breaks is captured with other ones by the other
render. -/
theorem agrees_capture (h : (breaking engine newline).Holds (breaking engine newline).Counted
    first second) : (breaking engine newline).stopping.Agrees
      (fun text other => Text.translate newline text = other) (capture first) (capture second) := by
  intro run
  have hpaired : Writer.Translated "\n" newline
      (capturing (breaking engine newline).stopping.setting.config)
      (capturing (breaking engine newline).stopping.other.config) :=
    .intro { indenting := engine.config.indent } 0 0 nofun
  have hboth := h run _ _ hpaired
  rw [capture_apply, capture_apply]
  generalize first _ { run with out := _ } = here at hboth ⊢
  generalize second _ { run with out := _ } = there at hboth ⊢
  rcases hboth with ⟨halt, hstops, hhalt⟩ | ⟨after, hresult, writer, index, count, -⟩
  · obtain ⟨result, after⟩ := here
    obtain rfl : result = .error halt := hhalt
    exact Or.inl ⟨halt, hstops, rfl⟩
  · refine Or.inr ⟨?_, rfl⟩
    cases hresult with
    | ok _ => exact .ok (congrArg _ (Text.translate_plain _))
    | error halt => exact .error halt

/-- If it has no line break it is the same. -/
theorem holds_capture_single (h : (breaking engine newline).Holds (breaking engine newline).Counted
    first second) : (breaking engine newline).stopping.Holds (capture (Render.single first))
      (capture second) := by
  refine Stopping.Agrees.holds fun run => ?_
  have hboth := agrees_capture h run
  rw [capture_single_apply]
  generalize capture first _ run = here at hboth ⊢
  generalize capture second _ run = there at hboth ⊢
  obtain ⟨result, after⟩ := here
  obtain ⟨other, after'⟩ := there
  rcases hboth with ⟨halt, hstops, hhalt⟩ | ⟨hresult, hstate⟩
  · obtain rfl : result = .error halt := hhalt
    exact Or.inl ⟨halt, hstops, rfl⟩
  · obtain rfl : after' = after := hstate
    cases hresult with
    | error halt => exact Or.inr ⟨.error halt, rfl⟩
    | ok heq =>
      dsimp only
      split
      · next hline =>
        exact Or.inr ⟨.ok ((Text.translate_of_isLine newline hline).symm.trans heq), rfl⟩
      · exact Or.inl ⟨_, rfl, rfl⟩

variable {feed : Bool} (hnewline : newline ≠ "") (hfeed : feed = true → Text.isFeed newline = true)
include hnewline hfeed

/-- Options without line breaks are the same in both renders. -/
theorem suits_of_isFlat {options : WriteOptions} (h : options.isFlat feed = true) :
    (breaking engine newline).Suits options := by
  have hline {text : Option String} (h : text.all Text.isLine = true) :
      text.map (Text.translate newline) = text := by
    cases text with
    | none => rfl
    | some text => exact congrArg some (Text.translate_of_isLine newline h)
  simp only [WriteOptions.isFlat, Bool.and_eq_true, Bool.or_eq_true] at h
  obtain ⟨⟨hnull, hformat⟩, hlines⟩ := h
  exact suits_translation (by decide) hnewline (hline hnull) (hline hformat)
    (hlines.imp hfeed fun ⟨hseparator, hwrap⟩ => ⟨hline hseparator, hline hwrap⟩)

/-- What a flat level writes to one of two writers, and the ordinary level to the other one, are
translations of one text. -/
theorem level_flatUpTo (fuel : Nat) : (breaking engine newline).Level
    (Evaluator.flatUpTo feed fuel) (Evaluator.upTo fuel) := by
  have laws : (breaking engine newline).Lawful := lawful_translation (by decide) hnewline
  induction fuel with
  | zero => exact level_exhausted
  | succ fuel ih =>
    have hvalue (scope : Scope) (options : WriteOptions) (value : Value) :
        (breaking engine newline).Holds (breaking engine newline).Counted
          ((Evaluator.flatUpTo feed (fuel + 1)).value scope options value)
          ((Evaluator.upTo (fuel + 1)).value scope
            (options.map (breaking engine newline).rewrite) value) := by
      change Holds _ _ (if options.isFlat feed then _ else _) _
      split
      · next hflat =>
        exact holds_writeValue laws ih scope (suits_of_isFlat hnewline hfeed hflat) value
      · exact fun run left right _ => Or.inl ⟨_, rfl, rfl⟩
    exact ⟨evaluates_evalExpr ih.eval
        (fun scope value => holds_capture_single (ih.value scope {} value))
        fun outer id => holds_capture_single (ih.exec outer id),
      fun scope value => agrees_capture (hvalue scope {} value), holds_writeInstance laws ih,
      fun scope _ _ nodes hspaced hlines => holds_writeNodes laws ih scope hlines hspaced, hvalue⟩

end Tandem

/-! ### What is written -/

/-- The text of a run, if it has one. -/
def textOf (outcome : Except Halt Nat × Run) : Except Halt String :=
  outcome.1.map fun _ => outcome.2.out.sink.text

/-- The text of the second of two runs is the translation of the text of the first one, if that has
plain line breaks. -/
theorem Tandem.textOf_eq {stopping : Stopping} {captured newline : String}
    {left right : Except Halt Nat × Run}
    (h : (translation stopping captured "\n" newline).Parallel
      (translation stopping captured "\n" newline).Counted left right) :
    textOf right = (textOf left).map (Text.translate newline) := by
  obtain ⟨run, hresult, writer, index, count, -⟩ := h
  cases hresult with
  | ok _ => simp [textOf, Writer.breaking, Except.map]
  | error halt => rfl

/-- Two renders with the same settings. -/
def Stopping.never (setting : Setting) : Stopping where
  setting
  Stops _ := False
  uncaught _ _ := id
  bound := Or.inl rfl

/-- Renders with the same settings into writers with different line breaks. -/
theorem Tandem.level_upTo (setting : Setting) {newline : String} (hnewline : newline ≠ "")
    (fuel : Nat) : (translation (.never setting) "\n" "\n" newline).Level (Evaluator.upTo fuel)
      (Evaluator.upTo fuel) := by
  have laws : (translation (.never setting) "\n" "\n" newline).Lawful :=
    lawful_translation (by decide) hnewline
  have hsame (option : Option String) : option.map (Text.translate "\n") = option := by
    cases option with
    | none => rfl
    | some text => exact congrArg some (Text.translate_plain text)
  induction fuel with
  | zero => exact level_exhausted
  | succ fuel ih =>
    exact ⟨evaluates_evalExpr ih.eval (fun _ _ => Stopping.holds_of_eq fun _ => rfl)
        fun _ _ => Stopping.holds_of_eq fun _ => rfl,
      fun _ _ => (Stopping.holds_of_eq fun _ => rfl).agrees.imp fun _ _ heq =>
        (Text.translate_plain _).trans heq,
      holds_writeInstance laws ih,
      fun scope _ _ nodes hspaced hlines => holds_writeNodes laws ih scope hlines hspaced,
      fun scope options value => holds_writeValue laws ih scope
        (suits_translation (by decide) hnewline (hsame _) (hsame _) (Or.inr ⟨hsame _, hsame _⟩))
        value⟩

namespace Engine

variable (engine : Engine) (id : InstanceId) (width : Nat)

/-- What is written is what a run writes, unless there is no such instance. -/
theorem outputWith_eq (newline : String) : engine.outputWith id width newline =
    if (engine.instance? id).isNone then .error (.failed (.invalidInstance id.index))
    else textOf (engine.runWithin fuel id { engine.config.writer width with newline }) := by
  unfold outputWith write writeWithin
  split <;> rfl

/-- Two writers that differ in the newline begin with the same text. -/
theorem translated_writer (newline other : String) :
    Writer.Translated newline other { engine.config.writer width with newline }
      { engine.config.writer width with newline := other } :=
  .intro { indenting := engine.config.indent, lineWidth := width } 0 0 nofun

variable {newline : String} (hnewline : newline ≠ "")
include hnewline

/-- The line breaks of the output are a matter of its writer. -/
theorem translates_outputWith : engine.outputWith id width newline =
    (engine.outputWith id width "\n").map (Text.translate newline) := by
  rw [outputWith_eq, outputWith_eq]
  split
  · rfl
  · have hruns := (Tandem.level_upTo engine.setting hnewline fuel).exec [] id (engine.start {}) _ _
      (translated_writer engine width "\n" newline)
    exact Tandem.textOf_eq (hruns.resolve_left fun ⟨_, hnever, _⟩ => hnever)

/-- The run that withholds texts with line breaks, beside one with other line breaks. -/
theorem textOf_runWithin {feed : Bool} (hfeed : feed = true → Text.isFeed newline = true)
    (h : engine.MakesLines id width feed) :
    textOf ((engine.breaking newline).runWithin fuel id
        ((engine.breaking newline).config.writer width)) =
      (textOf ((Evaluator.flatUpTo feed fuel).exec [] id (engine.breaking "\n").setting
        (engine.start ((engine.breaking "\n").config.writer width)))).map
          (Text.translate newline) := by
  have hlevel : (Tandem.breaking engine newline).Level _ _ :=
    Tandem.level_flatUpTo hnewline hfeed fuel
  have hruns := hlevel.exec [] id (engine.start {}) _ _
    (translated_writer engine width "\n" newline)
  exact Tandem.textOf_eq (hruns.resolve_left (mt Stopping.stopped_withholding.mp h))

/-- Texts that are made on the way and have no line break are the same whatever line breaks are. -/
theorem translates_of_makesLines (h : engine.MakesLines id width (Text.isFeed newline)) :
    ((engine.breaking newline).renderWithWidth id width).1 =
      ((engine.breaking "\n").renderWithWidth id width).1.map (Text.translate newline) := by
  have hrender (newline : String) : ((engine.breaking newline).renderWithWidth id width).1 =
      if (engine.instance? id).isNone then .error (.failed (.invalidInstance id.index))
      else textOf ((engine.breaking newline).runWithin fuel id
        ((engine.breaking newline).config.writer width)) :=
    outputWith_eq (engine.breaking newline) id width newline
  have hplain := textOf_runWithin engine id width (show "\n" ≠ "" by decide) (fun _ => by decide) h
  rw [hrender, hrender]
  split
  · rfl
  · rw [textOf_runWithin engine id width hnewline (fun hfeed => hfeed) h, hplain]
    generalize textOf _ = text
    cases text <;> simp [Except.map]

/-- A text for line breaks that is not empty is nothing but what the line breaks of the output are
translated into. This holds of the writer that the output goes to, whatever line breaks are made on
the way, and of the configured text if no text with a line break is made on the way: then the render
is the translation of the render with plain line breaks. Separators and wrap texts may have line
breaks if the text is a line feed among carriage returns. -/
theorem translates_renderWithWidth :
    engine.outputWith id width newline =
        (engine.outputWith id width "\n").map (Text.translate newline) ∧
      (engine.MakesLines id width (Text.isFeed newline) →
        ((engine.breaking newline).renderWithWidth id width).1 =
          ((engine.breaking "\n").renderWithWidth id width).1.map (Text.translate newline)) :=
  ⟨translates_outputWith engine id width hnewline,
    translates_of_makesLines engine id width hnewline⟩

omit engine id width hnewline

/-- Lines are wrapped and indented alike, whatever ends them. -/
theorem translates_renderWithWidth_enumerating :
    ((enumerating.breaking "\r\n").renderWithWidth ⟨0⟩ 16).1 =
        .ok "call\r\n  of first, \r\n     second, \r\n     third" ∧
      ((enumerating.breaking "\n").renderWithWidth ⟨0⟩ 16).1.map (Text.translate "\r\n") =
        .ok "call\r\n  of first, \r\n     second, \r\n     third" := by
  have hlines : enumerating.MakesLines ⟨0⟩ 16 (Text.isFeed "\r\n") := by
    unfold MakesLines
    decide +kernel
  have htext : ((enumerating.breaking "\r\n").renderWithWidth ⟨0⟩ 16).1 =
      .ok "call\r\n  of first, \r\n     second, \r\n     third" := by decide +kernel
  exact ⟨htext, ((translates_renderWithWidth enumerating ⟨0⟩ 16 (by decide)).2 hlines).symm.trans
    htext⟩

/-- A template that has a text of two lines. -/
def quoting (body : List Chunk) : Engine :=
  ({} : Engine).after
    [.defineGroup "group" .angle,
      .declare ⟨0⟩ (.template "quote" (some [{ name := "text" }]) body),
      .instanceOf ⟨0⟩ "quote",
      .assign ⟨0⟩ "text" (.string "a\nb")]

/-- The text as it is converted to a text, indented and with a format. -/
def conversion (format : Option Expr) : List Chunk :=
  [.literal "  ", .expression (.rendered (.attribute "text")) { format }]

/-- A line with a line break and nothing else, inside another one. -/
def bareBreak : List Chunk :=
  [.literal "ab", .expression (.inline ⟨0, [],
    [.expression (.string "") { wrap := some (.string "\n") }, .literal "\n  ",
      .expression (.string "c") {}]⟩) {}]

/-- A text that is made on the way is translated twice: its line breaks are doubled once more, or
lose the indentation as they are none any more, or have become a part of what is formatted. And if
nothing is written for a line break, a line that has only line breaks vanishes. -/
theorem not_translates_quoting :
    ((((quoting (conversion none)).breaking "\n\n").render ⟨0⟩).1 = .ok "  a\n\n\n\n  b" ∧
      (((quoting (conversion none)).breaking "\n").render ⟨0⟩).1.map (Text.translate "\n\n") =
        .ok "  a\n\n  b") ∧
    ((((quoting (conversion none)).breaking "<br>").render ⟨0⟩).1 = .ok "  a<br>b" ∧
      (((quoting (conversion none)).breaking "\n").render ⟨0⟩).1.map (Text.translate "<br>") =
        .ok "  a<br>  b") ∧
    ((((quoting (conversion (some (.string "url-encode")))).breaking "\r\n").render ⟨0⟩).1 =
        .ok "  a%0D%0Ab" ∧
      (((quoting (conversion (some (.string "url-encode")))).breaking "\n").render ⟨0⟩).1.map
        (Text.translate "\r\n") = .ok "  a%0Ab") ∧
    (((quoting bareBreak).breaking "").renderWithWidth ⟨0⟩ 1).1 = .ok "abc" ∧
      (((quoting bareBreak).breaking "\n").renderWithWidth ⟨0⟩ 1).1.map (Text.translate "") =
        .ok "ab  c" := by
  decide +kernel

end Engine

end Stencil
