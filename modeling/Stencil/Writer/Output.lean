import Stencil.Writer.Basic

/-!
# Writing text

Text is written character by character. A line break only marks the start of a line; indentation
comes in front of the first character after it, so a line without characters stays empty. Carriage
returns are dropped, and each line break is written as the configured text.

`wrap` breaks a line before a piece of text that would pass the line width. After such a break the
indentation is written at once.

Every operation answers the number of characters it wrote. When the sink refuses a call the
operation stops there, and the writer stays as the calls before it left it.
-/

namespace Stencil.Writer

/-- A call was refused by the sink. -/
inductive Refusal where
  | refused
deriving DecidableEq, Repr

/-- An operation on a writer, which may be stopped by a refusal. -/
abbrev Writing (α : Type) := ExceptT Refusal (StateM Writer) α

/-- Hands one piece of text to the sink. -/
def put (piece : String) : Writing Unit := do
  let writer ← get
  let (taken, sink) := writer.sink.put piece
  set { writer with sink }
  unless taken do throw .refused

/-- Hands several pieces of text to the sink, each in a call of its own. -/
def putAll : List String → Writing Unit
  | [] => pure ()
  | piece :: rest => do
    put piece
    putAll rest

/-- Ends the line. -/
def endLine : Writing Nat := do
  let newline := (← get).newline
  put newline
  modify fun writer =>
    { writer with index := writer.index + newline.length, column := 0 }
  return newline.length

/-- The columns that the indentation strings in force take. -/
def indentWidth (writer : Writer) : Nat :=
  writer.indents.foldr (fun indent columns => Text.width indent.toList + columns) 0

/-- How many spaces lead from the indentation to the innermost anchor, if it lies further right. -/
def padding (writer : Writer) : Nat := writer.anchors.headD 0 - writer.indentWidth

/-- Writes the indentation of a line: the strings in force, then spaces up to the anchor. -/
def indent : Writing Nat := do
  let writer ← get
  let pieces := writer.indents.reverse ++ List.replicate writer.padding " "
  putAll pieces
  let count := pieces.foldr (fun piece count => piece.length + count) 0
  modify fun after =>
    { after with
      column := after.column + writer.indentWidth + writer.padding
      index := after.index + count }
  return count

/-- Writes one character that is no line break. -/
def putChar (c : Char) : Writing Nat := do
  put c.toString
  modify fun writer =>
    { writer with index := writer.index + 1, column := writer.column + Text.columns c }
  return 1

/-- Writes one character of a text. -/
def writeChar (c : Char) : Writing Nat := do
  if c == '\r' then return 0
  else if c == '\n' then
    let count ← endLine
    modify fun writer => { writer with atLineStart := true }
    return count
  else
    let lead ← if (← get).atLineStart then indent else pure 0
    modify fun writer => { writer with atLineStart := false }
    return lead + (← putChar c)

/-- Writes the characters of a text. -/
def writeChars : List Char → Writing Nat
  | [] => pure 0
  | c :: rest => do
    let count ← writeChar c
    return count + (← writeChars rest)

/-- Writes a text. -/
def write (text : String) : Writing Nat := writeChars text.toList

/-- Writes one character of a wrap text: a line break is followed by the indentation at once. -/
def wrapChar (c : Char) : Writing Nat := do
  if c == '\r' then return 0
  else if c == '\n' then
    let count ← endLine
    return count + (← indent)
  else putChar c

/-- Writes the characters of a wrap text. -/
def wrapChars : List Char → Writing Nat
  | [] => pure 0
  | c :: rest => do
    let count ← wrapChar c
    return count + (← wrapChars rest)

/-- Whether a piece of text of `width` columns may stand where the writer is: lines are not
wrapped, nothing stands on the line yet, or the piece fits. -/
def fits (writer : Writer) (width : Nat) : Bool :=
  writer.lineWidth == 0 || writer.atLineStart || writer.column + width ≤ writer.lineWidth

/-- Writes the wrap text, unless what follows, of `width` columns, may stand on the line. -/
def wrap (text : String) (width : Nat) : Writing Nat := do
  if (← get).fits width then return 0
  wrapChars text.toList

/-- Writes a text as one piece, wrapping in front of it if a wrap text is given and needed. -/
def writeToken (text : String) (wrapText : Option String) : Writing Nat := do
  let lead ← match wrapText with
    | some wrapText => wrap wrapText (Text.firstLineWidth text)
    | none => pure 0
  return lead + (← write text)

end Stencil.Writer
