import Stencil.Proofs.Body.Literals
import Stencil.Proofs.Engine.Newline

/-!
# Literal text

A template that consists of literals only shows its text, without carriage returns and with the
configured text for each line break, as far as the breaks are written. A break is written if its
line has more than carriage returns, or if the line is empty and comes after a break. So an empty
line with which the template begins vanishes, though others do not.
-/

namespace Stencil

open Render

namespace Render

/-- Where the writer is bare, an action does nothing but append a text, and has an answer. -/
def Prints {α : Type} (newline text : String) (answer : α) (action : Render α) : Prop :=
  ∀ (setting : Setting) (run : Run), run.out.Bare newline → ∃ out,
    action setting run = (.ok answer, { run with out }) ∧ out.Bare newline ∧
      out.sink.text = run.out.sink.text ++ text

variable {α β : Type} {newline text more : String} {answer : α} {result : β}

/-- Nothing is printed by an answer alone. -/
theorem prints_pure (newline : String) (answer : α) : Prints newline "" answer (pure answer) :=
  fun _ run hbare => ⟨run.out, rfl, hbare, String.append_empty.symm⟩

/-- What two actions print stands one after the other. -/
theorem Prints.bind {action : Render α} {next : α → Render β}
    (h : Prints newline text answer action) (hnext : Prints newline more result (next answer)) :
    Prints newline (text ++ more) result (action >>= next) := by
  intro setting run hbare
  obtain ⟨out, heq, hout, htext⟩ := h setting run hbare
  obtain ⟨out', heq', hout', htext'⟩ := hnext setting { run with out } hout
  refine ⟨out', ?_, hout', ?_⟩
  · rw [bind_apply_ok _ _ heq, heq']
  · rw [htext', htext, String.append_assoc]

/-- What comes after it may print nothing. -/
theorem Prints.quietly {action : Render α} {next : α → Render β}
    (h : Prints newline text answer action) (hnext : Prints newline "" result (next answer)) :
    Prints newline text result (action >>= next) :=
  String.append_empty (s := text) ▸ h.bind hnext

/-- What is printed by writing is printed by the render. -/
theorem prints_writing {action : Writer.Writing Nat} {count : Nat}
    (h : Writer.Prints newline text count action) : Prints newline text count (writing action) := by
  intro setting run hbare
  obtain ⟨hanswer, hout, htext⟩ := h run.out hbare
  exact ⟨_, by rw [writing_apply, hanswer], hout, htext⟩

end Render

namespace Evaluator

variable (level : Evaluator) (scope : Scope) (newline : String)

/-- A line of text is written as it is but for its carriage returns. -/
theorem prints_text (state : Line) {line : List Char} (h : '\n' ∉ line) :
    Prints newline (Text.withoutReturns line)
      ((Text.withoutReturns line).length, state.add (Text.withoutReturns line).length)
      (level.writeNode scope state (.text (.ofList line))) := by
  have hwrite := Writer.prints_write newline (.ofList line)
  rw [Text.printed_of_unbroken newline h] at hwrite
  exact (prints_writing hwrite).quietly (prints_pure newline _)

/-- A break prints a newline if the line it ends is kept. -/
theorem prints_newline (state : Line) :
    Prints newline (if state.isKept then newline else "")
      ((if state.isKept then newline else "").length, ({ fresh := true } : Line))
      (level.writeNode scope state .newline) := by
  have hbreak : Prints newline (if state.isKept then newline else "")
      (if state.isKept then newline else "").length (writeBreak state) := by
    unfold writeBreak
    split
    · have hwrite := Writer.prints_write newline "\n"
      rw [show Text.printed newline "\n" = newline from Text.printed_feed newline] at hwrite
      exact prints_writing hwrite
    · exact prints_pure newline 0
  exact hbreak.quietly (prints_pure newline _)

/-- Where a line is not empty, its break is kept if something is written for it. -/
theorem isKept_add {state : Line} (hstate : state.written = 0) {line : List Char} (h : line ≠ [])
    (fresh : Bool) :
    (state.add (Text.withoutReturns line).length).isKept = Text.keepsBreak fresh line := by
  have hlength : (Text.withoutReturns line).length = (line.filter (· != '\r')).length := by
    simp [Text.withoutReturns]
  rw [Bool.eq_iff_iff, Text.keepsBreak, List.isEmpty_eq_false_iff.mpr h, Line.isKept, Line.add,
    hstate, hlength]
  simp [List.length_pos_iff_exists_mem]

variable {level scope newline}

/-- Nodes print one after the other. -/
theorem prints_writeNodes_cons {state next : Line} {node : Node} {rest : List Node}
    {text more : String} {count : Nat} {answer : Nat × Line}
    (h : Prints newline text (count, next) (level.writeNode scope state node))
    (hrest : Prints newline more answer (level.writeNodes scope next rest)) :
    Prints newline (text ++ more) (count + answer.1, answer.2)
      (level.writeNodes scope state (node :: rest)) :=
  h.bind (hrest.quietly (prints_pure newline _))

/-- The nodes of a line are written, and then its break if that is kept. -/
theorem prints_line {state : Line} (hstate : state.written = 0) {line : List Char}
    (h : '\n' ∉ line) {rest : List Node} {more : String} {answer : Nat × Line}
    (hrest : Prints newline more answer (level.writeNodes scope { fresh := true } rest)) :
    ∃ answer, Prints newline (Text.withoutReturns line ++
      (if Text.keepsBreak state.fresh line then newline else "") ++ more) answer
      (level.writeNodes scope state (Node.ofSegment line ++ .newline :: rest)) := by
  by_cases hempty : line = []
  · subst hempty
    have hkept : state.isKept = Text.keepsBreak state.fresh [] := by
      simp [Line.isKept, hstate, Text.keepsBreak]
    have hbreak := prints_newline level scope newline state
    rw [hkept] at hbreak
    rw [Text.withoutReturns_nil, String.empty_append]
    exact ⟨_, prints_writeNodes_cons hbreak hrest⟩
  · have hsegment : Node.ofSegment line = [.text (.ofList line)] := by
      rw [Node.ofSegment, List.isEmpty_eq_false_iff.mpr hempty]
      rfl
    have hbreak := prints_newline level scope newline
      (state.add (Text.withoutReturns line).length)
    rw [isKept_add hstate hempty state.fresh] at hbreak
    rw [hsegment, String.append_assoc]
    exact ⟨_, prints_writeNodes_cons (prints_text level scope newline state h)
      (prints_writeNodes_cons hbreak hrest)⟩

variable (level scope newline)

/-- Lines are written as they are laid out. -/
theorem prints_ofLines {lines : List (List Char)} (h : ∀ line ∈ lines, '\n' ∉ line)
    (state : Line) (hstate : state.written = 0) :
    ∃ answer, Prints newline (Text.layOut newline Text.keepsBreak state.fresh lines) answer
      (level.writeNodes scope state (Node.ofLines lines)) := by
  induction lines generalizing state with
  | nil => exact ⟨_, prints_pure newline _⟩
  | cons line rest ih =>
    obtain ⟨hline, hrest⟩ := List.forall_mem_cons.mp h
    by_cases hlast : rest = []
    · subst hlast
      rw [Text.layOut, Node.ofLines, Node.ofSegment]
      split
      · next hempty =>
        rw [List.isEmpty_iff.mp hempty]
        exact ⟨_, prints_pure newline _⟩
      · have hnone := prints_pure newline (0, state.add (Text.withoutReturns line).length)
        rw [← String.append_empty (s := Text.withoutReturns line)]
        exact ⟨_, prints_writeNodes_cons (prints_text level scope newline state hline) hnone⟩
    · obtain ⟨answer, hanswer⟩ := ih hrest { fresh := true } rfl
      rw [Text.layOut_cons _ _ _ _ hlast, Node.ofLines_cons _ hlast]
      exact prints_line hstate hline hanswer

/-- An instance of a template with literals only is written as its lines are laid out. -/
theorem exec_literals {setting : Setting} {run : Run} {id : InstanceId} {data : Instance}
    (hdata : run.instances[id.index]? = some data) {texts : List String}
    (hbody : data.definition.body = texts.map Chunk.literal)
    (hrefuses : Run.refuses run setting.config.maxDepth id = false)
    (hbare : run.out.Bare newline) (fuel : Nat) (outer : List InstanceId) :
    ∃ count after, (upTo (fuel + 2)).exec outer id setting run = (.ok count, after) ∧
      after.out.sink.text = run.out.sink.text ++
        Text.layOut newline Text.keepsBreak false (Text.lines (String.join texts)) := by
  have hnodes : data.definition.nodes = Node.ofLines (Text.lines (String.join texts)) := by
    rw [Definition.nodes, hbody, Node.ofBody_literals]
  let begun : Run :=
    { run with active := id :: run.active, written := noted setting.callers id run.written }
  have hunbroken : ∀ line ∈ Text.lines (String.join texts), '\n' ∉ line :=
    fun _ => Text.unbroken_of_mem_lines
  obtain ⟨answer, hprints⟩ := prints_ofLines (upTo fuel) ⟨id, outer⟩ newline hunbroken {} rfl
  obtain ⟨out, hwrite, -, htext⟩ := hprints setting begun hbare
  refine ⟨answer.1, { begun with out, active := run.active }, ?_, htext⟩
  have hlevel : (upTo (fuel + 1)).nodes ⟨id, outer⟩ {} data.definition.nodes setting begun =
      (.ok answer, { begun with out }) := hnodes ▸ hwrite
  rw [exec_of_enters setting run hdata (by simp [hrefuses]), writeBody_apply,
    bind_apply_ok _ _ hlevel]
  rfl

end Evaluator

namespace Engine

variable (engine : Engine) {id : InstanceId} {data : Instance}

/-- A template of literals shows its text as its lines are laid out, however wide they are. This is
the text as it is printed if and only if nothing is written for a line break, or every line with a
break after it has more than carriage returns or is empty and not the first one. -/
theorem render_literals (width : Nat) {texts : List String}
    (hdata : engine.instance? id = some data)
    (hbody : data.definition.body = texts.map Chunk.literal) (hdepth : 0 < engine.config.maxDepth) :
    (engine.renderWithWidth id width).1 = .ok (Text.layOut engine.config.newline Text.keepsBreak
        false (Text.lines (String.join texts))) ∧
      ((engine.renderWithWidth id width).1 =
          .ok (Text.printed engine.config.newline (String.join texts)) ↔
        engine.config.newline = "" ∨ ∀ earlier line later,
          Text.lines (String.join texts) = earlier ++ line :: later → later ≠ [] →
            (∃ c ∈ line, c ≠ '\r') ∨ (line = [] ∧ earlier ≠ [])) := by
  obtain ⟨fuel, hfuel⟩ : ∃ fuel, Engine.fuel = fuel + 2 := ⟨_, rfl⟩
  let begun : Run := engine.start (engine.config.writer width)
  have hrefuses : Run.refuses begun engine.setting.config.maxDepth id = false :=
    decide_eq_false (Nat.not_le_of_lt hdepth)
  have hbare : begun.out.Bare engine.config.newline := ⟨rfl, rfl, rfl, rfl⟩
  have hbegun : begun.instances[id.index]? = some data := hdata
  obtain ⟨count, after, hexec, htext⟩ :=
    Evaluator.exec_literals engine.config.newline hbegun hbody hrefuses hbare fuel []
  have hrender : (engine.renderWithWidth id width).1 = .ok (Text.layOut engine.config.newline
      Text.keepsBreak false (Text.lines (String.join texts))) := by
    have houtput : (engine.renderWithWidth id width).1 =
      engine.outputWith id width engine.config.newline := rfl
    have hrun : engine.runWithin Engine.fuel id (engine.config.writer width) =
        (.ok count, after) := hfuel ▸ hexec
    have hthere : ¬ (engine.instance? id).isNone = true := by simp [hdata]
    rw [houtput, outputWith_eq, if_neg hthere]
    change textOf (engine.runWithin Engine.fuel id (engine.config.writer width)) = _
    rw [hrun, textOf, htext]
    exact congrArg Except.ok String.empty_append
  refine ⟨hrender, ?_⟩
  rw [hrender, Except.ok.injEq, Text.layOut_eq_printed_iff]

/-- An instance of a template that consists of some literals. -/
def reciting (texts : List String) : Engine :=
  ({} : Engine).after
    [.defineGroup "group" .angle,
      .declare ⟨0⟩ (.template "text" (some []) (texts.map Chunk.literal)),
      .instanceOf ⟨0⟩ "text"]

/-- An empty line and one of spaces are kept between others, and an empty line at the end is. -/
theorem render_literals_reciting :
    (((reciting ["a\r\n", "\n ", "\nb\n\n"]).breaking "<br>").renderWithWidth ⟨0⟩ 1).1 =
      .ok "a<br><br> <br>b<br><br>" := by
  obtain ⟨data, hdata, hbody⟩ : ∃ data,
      ((reciting ["a\r\n", "\n ", "\nb\n\n"]).breaking "<br>").instance? ⟨0⟩ = some data ∧
        data.definition.body = ["a\r\n", "\n ", "\nb\n\n"].map Chunk.literal := ⟨_, rfl, rfl⟩
  have hrender := (render_literals _ 1 hdata hbody (by decide)).1
  have htext : Text.layOut "<br>" Text.keepsBreak false
      (Text.lines (String.join ["a\r\n", "\n ", "\nb\n\n"])) = "a<br><br> <br>b<br><br>" := by
    decide +kernel
  exact hrender.trans (congrArg Except.ok htext)

/-- An empty line with which the template begins vanishes, and so does a line of nothing but
carriage returns. -/
theorem not_printed_reciting :
    ((reciting ["\nabc"]).render ⟨0⟩).1 = .ok "abc" ∧
      Text.printed "\n" "\nabc" = "\nabc" ∧
      ((reciting ["a\n\r\r\nb"]).render ⟨0⟩).1 = .ok "a\nb" ∧
        Text.printed "\n" "a\n\r\r\nb" = "a\n\nb" := by
  decide +kernel

end Engine

end Stencil
