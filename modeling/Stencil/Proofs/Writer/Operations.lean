import Stencil.Proofs.Writer.Strokes

/-!
# Operations

What a caller does with a writer: indentation strings, anchors and the width of a line are set, and
texts are written. A run is any number of operations one after the other. One that is stopped is no
reason not to go on. The strokes that the operations of a run ask for are its history; if the sink
takes every call, they are what its text consists of and where the writer is on its line.
-/

namespace Stencil.Writer

/-- An operation on a writer. A separator is written like any other text. -/
inductive Operation where
  | pushIndent (indent : String)
  | popIndent
  | pushAnchor
  | popAnchor
  | setLineWidth (width : Nat)
  | write (text : String)
  | wrap (text : String) (width : Nat)
  | writeToken (text : String) (wrapText : Option String)

/-- What an operation answers. -/
inductive Answer where
  | nothing
  /-- The indentation string that was withdrawn, if there was one. -/
  | withdrawn (indent : Option String)
  /-- How many characters were written. -/
  | written (count : Except Refusal Nat)

namespace Operation

/-- Carries out an operation. -/
def perform (writer : Writer) : Operation → Answer × Writer
  | pushIndent indent => (.nothing, writer.pushIndent indent)
  | popIndent => (.withdrawn writer.popIndent.1, writer.popIndent.2)
  | pushAnchor => (.nothing, writer.pushAnchor)
  | popAnchor => (.nothing, writer.popAnchor)
  | setLineWidth width => (.nothing, writer.setLineWidth width)
  | write text => (Writer.write text writer).map .written id
  | wrap text width => (Writer.wrap text width writer).map .written id
  | writeToken text wrapText => (Writer.writeToken text wrapText writer).map .written id

/-- The strokes that an operation asks for. -/
def strokes (writer : Writer) : Operation → List Stroke
  | write text => writer.textStrokes text
  | wrap text width => writer.wrapStrokes text width
  | writeToken text wrapText =>
    (match wrapText with
      | some wrapText => writer.wrapStrokes wrapText (Text.firstLineWidth text)
      | none => []) ++ writer.textStrokes text
  | _ => []

end Operation

/-- The writer after some operations. -/
def run (writer : Writer) : List Operation → Writer
  | [] => writer
  | operation :: rest => (operation.perform writer).2.run rest

/-- The strokes that some operations ask for. -/
def history (writer : Writer) : List Operation → List Stroke
  | [] => []
  | operation :: rest => operation.strokes writer ++ (operation.perform writer).2.history rest

/-- Operations may be run in two parts. -/
theorem run_append (writer : Writer) (operations more : List Operation) :
    writer.run (operations ++ more) = (writer.run operations).run more := by
  induction operations generalizing writer with
  | nil => rfl
  | cons operation rest ih => exact ih _

/-! ### Where a writer is -/

/-- Two writers with the same sink that are in the same place. -/
structure Level (first second : Writer) : Prop where
  sink : second.sink = first.sink
  newline : second.newline = first.newline
  column : second.column = first.column
  atLineStart : second.atLineStart = first.atLineStart
  index : second.index = first.index

/-- A writer is level with itself. -/
theorem Level.refl (writer : Writer) : Level writer writer := ⟨rfl, rfl, rfl, rfl, rfl⟩

/-- An operation either writes, which means that it makes its strokes and answers their count, or it
sets something that makes no difference to where the writer is. -/
theorem Operation.writes_or_sets (operation : Operation) (writer : Writer) :
    (∃ action, writer.Draws (operation.strokes writer) action ∧
      operation.perform writer = (action writer).map Answer.written id) ∨
    (operation.strokes writer = [] ∧ Level writer (operation.perform writer).2) := by
  cases operation with
  | pushIndent indent =>
    refine .inr ⟨rfl, ?_⟩
    change Level writer (writer.pushIndent indent)
    unfold Writer.pushIndent
    split <;> exact ⟨rfl, rfl, rfl, rfl, rfl⟩
  | popIndent =>
    refine .inr ⟨rfl, ?_⟩
    change Level writer writer.popIndent.2
    unfold Writer.popIndent
    split <;> exact ⟨rfl, rfl, rfl, rfl, rfl⟩
  | pushAnchor | popAnchor | setLineWidth => exact .inr ⟨rfl, rfl, rfl, rfl, rfl, rfl⟩
  | write text => exact .inl ⟨_, writer.draws_write text, rfl⟩
  | wrap text width => exact .inl ⟨_, writer.draws_wrap text width, rfl⟩
  | writeToken text wrapText => exact .inl ⟨_, writer.draws_writeToken text wrapText, rfl⟩

/-- An operation leads to where its strokes lead. -/
theorem level_perform (operation : Operation) (writer : Writer) :
    Level (writer.drawAll (operation.strokes writer)).2 (operation.perform writer).2 := by
  obtain ⟨action, hdraws, hperform⟩ | ⟨hstrokes, hlevel⟩ := operation.writes_or_sets writer
  · rw [hperform, hdraws]
    exact .refl _
  · rw [hstrokes]
    exact hlevel

/-- One writer is past some strokes that the sink of another has taken, as it takes all. -/
structure Past (strokes : List Stroke) (before after : Writer) : Prop where
  takesAll : after.sink.TakesAll
  text : after.sink.text = before.sink.text ++ Stroke.texts before.newline strokes
  newline : after.newline = before.newline
  column : after.column = strokes.foldl Stroke.column before.column
  atLineStart : after.atLineStart = strokes.foldl Stroke.atLineStart before.atLineStart
  index : after.index = before.index + (Stroke.texts before.newline strokes).length

/-- A writer that nothing was done to is past no strokes. -/
theorem Past.refl {writer : Writer} (h : writer.sink.TakesAll) : Past [] writer writer :=
  ⟨h, String.append_empty.symm, rfl, rfl, rfl, rfl⟩

/-- A writer may be past strokes in two parts. -/
theorem Past.trans {first second third : Writer} {strokes more : List Stroke}
    (h : Past strokes first second) (h' : Past more second third) :
    Past (strokes ++ more) first third where
  takesAll := h'.takesAll
  text := by rw [h'.text, h.text, h.newline, Stroke.texts_append, String.append_assoc]
  newline := h'.newline.trans h.newline
  column := by rw [h'.column, h.column, List.foldl_append]
  atLineStart := by rw [h'.atLineStart, h.atLineStart, List.foldl_append]
  index := by rw [h'.index, h.index, h.newline, Stroke.texts_append, String.length_append,
    Nat.add_assoc]

/-- An operation leads past its strokes. -/
theorem past_perform {writer : Writer} (h : writer.sink.TakesAll) (operation : Operation) :
    Past (operation.strokes writer) writer (operation.perform writer).2 := by
  obtain ⟨sink, htakes, htext, hdrawn⟩ := drawAll_of_takesAll writer h (operation.strokes writer)
  have hlevel := level_perform operation writer
  rw [hdrawn] at hlevel
  exact ⟨hlevel.sink ▸ htakes, hlevel.sink ▸ htext, hlevel.newline, hlevel.column,
    hlevel.atLineStart, hlevel.index⟩

/-- A run leads past its history. -/
theorem past_run (writer : Writer) (h : writer.sink.TakesAll) (operations : List Operation) :
    Past (writer.history operations) writer (writer.run operations) := by
  induction operations generalizing writer with
  | nil => exact .refl h
  | cons operation rest ih =>
    have hfirst := past_perform h operation
    exact hfirst.trans (ih _ hfirst.takesAll)

/-- A new writer. -/
def fresh (sink : Sink) (indenting : Bool) (newline : String) (lineWidth : Nat) : Writer :=
  { sink, indenting, newline, lineWidth }

end Stencil.Writer
