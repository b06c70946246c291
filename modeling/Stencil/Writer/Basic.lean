import Stencil.Text.Width

/-!
# Writers

A writer stands between the text that a template produces and the place where it is kept. It knows
the indentation strings in force, the columns that wrapped lines return to, the width of a line,
and where on the line it is. This module holds its state; what is done to it stands in
`Stencil.Writer.Output`.
-/

namespace Stencil

/-- The place where text is kept. It takes text in calls and may refuse any single call, in which
case nothing of that call is kept. -/
structure Sink where
  /-- All text of the calls taken so far. -/
  text : String := ""
  /-- How many calls were made, refused ones included. -/
  calls : Nat := 0
  /-- Whether a call is taken, by its number, the text kept before it and its own text. -/
  accepts : Nat → String → String → Bool := fun _ _ _ => true

namespace Sink

/-- A sink that takes every call. -/
def unlimited : Sink := {}

/-- A sink that refuses every call that would bring it above `room` characters. -/
def limited (room : Nat) : Sink :=
  { accepts := fun _ text piece => text.length + piece.length ≤ room }

/-- One call. -/
def put (sink : Sink) (piece : String) : Bool × Sink :=
  if sink.accepts sink.calls sink.text piece then
    (true, { sink with text := sink.text ++ piece, calls := sink.calls + 1 })
  else
    (false, { sink with calls := sink.calls + 1 })

/-- A call that is taken appends its text, and one that is refused changes no text. -/
theorem text_put (sink : Sink) (piece : String) :
    (sink.put piece).2.text = if (sink.put piece).1 then sink.text ++ piece else sink.text := by
  unfold put
  split <;> rfl

/-- A sink without a limit takes every piece. -/
@[simp] theorem put_unlimited (text piece : String) (calls : Nat) :
    put { text, calls } piece = (true, { text := text ++ piece, calls := calls + 1 }) := rfl

end Sink

/-- The state of a writer. -/
structure Writer where
  /-- Where the text goes. -/
  sink : Sink := {}
  /-- Whether indentation strings are honoured at all. -/
  indenting : Bool := true
  /-- The indentation strings in force, innermost first. -/
  indents : List String := []
  /-- The columns that wrapped lines return to, innermost first. -/
  anchors : List Nat := []
  /-- The text written for a line break. -/
  newline : String := "\n"
  /-- The column that a line should not pass; with 0 lines are never wrapped. -/
  lineWidth : Nat := 0
  /-- Whether nothing visible stands on the current line yet. -/
  atLineStart : Bool := true
  /-- The columns taken on the current line. -/
  column : Nat := 0
  /-- How many characters were written. -/
  index : Nat := 0

namespace Writer

/-- Puts an indentation string in force; a writer that does not indent ignores it. -/
def pushIndent (writer : Writer) (indent : String) : Writer :=
  if writer.indenting then { writer with indents := indent :: writer.indents } else writer

/-- Withdraws the innermost indentation string and hands it out; a writer that does not indent has
none to withdraw. -/
def popIndent (writer : Writer) : Option String × Writer :=
  if writer.indenting then
    (writer.indents.head?, { writer with indents := writer.indents.tail })
  else (none, writer)

/-- Makes the current column the one that wrapped lines return to. -/
def pushAnchor (writer : Writer) : Writer :=
  { writer with anchors := writer.column :: writer.anchors }

/-- Withdraws the innermost anchor. -/
def popAnchor (writer : Writer) : Writer := { writer with anchors := writer.anchors.tail }

/-- Changes the width of a line. -/
def setLineWidth (writer : Writer) (width : Nat) : Writer := { writer with lineWidth := width }

/-- How many indentation strings are in force, or nothing for a writer that does not indent. -/
def depth? (writer : Writer) : Option Nat :=
  if writer.indenting then some writer.indents.length else none

/-- An indentation is not written when it is pushed. -/
@[simp] theorem sink_pushIndent (writer : Writer) (indent : String) :
    (writer.pushIndent indent).sink = writer.sink := by
  unfold pushIndent
  split <;> rfl

/-- It is not counted then, either. -/
@[simp] theorem index_pushIndent (writer : Writer) (indent : String) :
    (writer.pushIndent indent).index = writer.index := by
  unfold pushIndent
  split <;> rfl

/-- Nothing is written when an indentation is popped. -/
@[simp] theorem sink_popIndent (writer : Writer) : writer.popIndent.2.sink = writer.sink := by
  unfold popIndent
  split <;> rfl

/-- Nothing is counted then, either. -/
@[simp] theorem index_popIndent (writer : Writer) : writer.popIndent.2.index = writer.index := by
  unfold popIndent
  split <;> rfl

/-- Withdrawing what was just put in force restores the writer. -/
theorem popIndent_pushIndent (writer : Writer) (indent : String) (h : writer.indenting) :
    (writer.pushIndent indent).popIndent = (some indent, writer) := by
  rw [pushIndent, if_pos h, popIndent, if_pos h]
  rfl

/-- A writer that does not indent stays as it is. -/
theorem pushIndent_of_not_indenting (writer : Writer) (indent : String)
    (h : writer.indenting = false) : writer.pushIndent indent = writer := by
  simp [pushIndent, h]

/-- Popping an anchor undoes pushing it. -/
@[simp] theorem popAnchor_pushAnchor (writer : Writer) : writer.pushAnchor.popAnchor = writer :=
  rfl

end Writer

end Stencil
