import Stencil.Proofs.Writer.Strokes

/-!
# Lines

A text is written line by line: its carriage returns are dropped, and between two of its lines comes
the text for a line break. A line that starts at the start of a line comes after the indentation,
unless it is empty. That the writer works character by character does not show: writing a text in
two parts is the same as writing it at once.
-/

namespace Stencil

namespace Text

/-- The lines of a text without its carriage returns. -/
def plainLines (text : String) : List (List Char) :=
  (text.toList.filter (· != '\r')).splitOn '\n'

end Text

namespace Writer

/-- A line with the indentation in front of it, unless it is empty. -/
def indented (writer : Writer) (line : List Char) : String :=
  if line.isEmpty then "" else .join writer.margin ++ .ofList line

/-- The text of some lines, the first of which goes on with the current line if that has begun. -/
def layLines (writer : Writer) : List (List Char) → String
  | [] => ""
  | first :: rest => writer.newline.intercalate <|
    (if writer.atLineStart then writer.indented first else .ofList first) ::
      rest.map writer.indented

/-- A line break in front of further lines. -/
theorem layLines_nil_cons (writer : Writer) {rest : List (List Char)} (h : rest ≠ []) :
    writer.layLines ([] :: rest) =
      writer.newline ++ { writer with atLineStart := true }.layLines rest := by
  obtain ⟨first, rest, rfl⟩ := List.exists_cons_of_ne_nil h
  have hempty : (if writer.atLineStart then writer.indented [] else .ofList []) = "" := by
    split <;> rfl
  rw [layLines, hempty, List.map_cons, String.intercalate_cons_cons, String.empty_append]
  rfl

/-- The first character of a line. -/
theorem layLines_modifyHead (writer : Writer) (c : Char) {lines : List (List Char)}
    (h : lines ≠ []) :
    writer.layLines (lines.modifyHead (c :: ·)) =
      (if writer.atLineStart then .join writer.margin else "") ++ c.toString ++
        { writer with atLineStart := false }.layLines lines := by
  obtain ⟨first, rest, rfl⟩ := List.exists_cons_of_ne_nil h
  have hcons : String.ofList (c :: first) = c.toString ++ .ofList first := by
    apply String.toList_injective
    simp
  rw [List.modifyHead_cons, layLines, layLines, if_neg Bool.false_ne_true]
  split
  · rw [indented, hcons, List.isEmpty_cons, if_neg Bool.false_ne_true, ← String.append_assoc,
      String.intercalate_cons_append]
    rfl
  · rw [hcons, String.intercalate_cons_append, String.empty_append]
    rfl

/-- The strokes of a text lay out its lines. -/
theorem texts_ofText (writer : Writer) (text : List Char) :
    Stroke.texts writer.newline (Stroke.ofText writer.margin writer.atLineStart text) =
      writer.layLines ((text.filter (· != '\r')).splitOn '\n') := by
  induction text generalizing writer with
  | nil =>
    change "" = (if writer.atLineStart then writer.indented [] else .ofList [])
    split <;> rfl
  | cons c rest ih =>
    have hlines : (rest.filter (· != '\r')).splitOn '\n' ≠ [] := by
      rw [List.splitOn_eq_splitOnP]
      exact List.splitOnP_ne_nil _ _
    rw [Stroke.ofText]
    split
    · next hreturn =>
      rw [List.filter_cons_of_neg (by simpa using hreturn)]
      exact ih writer
    next hreturn =>
    rw [List.filter_cons_of_pos (by simpa using hreturn), List.splitOn_eq_splitOnP,
      List.splitOnP_cons_eq_if_modifyHead, ← List.splitOn_eq_splitOnP]
    split
    · next hfeed =>
      rw [layLines_nil_cons _ hlines, ← ih, Stroke.texts_cons, Stroke.text_feed]
      rfl
    · rw [layLines_modifyHead _ _ hlines, ← ih]
      split
      · rw [Stroke.texts_cons, Stroke.texts_cons, Stroke.text_margin, Stroke.text_letter,
          String.append_assoc]
        rfl
      · next hstart =>
        rw [Stroke.texts_cons, Stroke.text_letter, String.empty_append]
        rfl

/-- Characters are written one after the other. -/
theorem writeChars_append (text more : List Char) :
    writeChars (text ++ more) = (do
      let count ← writeChars text
      return count + (← writeChars more)) := by
  induction text with
  | nil => simp only [List.nil_append, writeChars, pure_bind, Nat.zero_add, bind_pure]
  | cons c rest ih =>
    simp only [List.cons_append, writeChars, ih, bind_assoc, pure_bind, Nat.add_assoc]

/-- It does not show that a text is written in two parts. -/
theorem write_append (text more : String) :
    write (text ++ more) = (do
      let count ← write text
      return count + (← write more)) := by
  rw [write, String.toList_append]
  exact writeChars_append text.toList more.toList

/-- Writing a text appends its lines as they are laid out, and answers how many characters these
are. A text that is written in two parts leads to the same writer and the same count. -/
theorem write_lines (writer : Writer) (h : writer.sink.TakesAll) (text more : String) :
    (write text writer).1 = .ok (writer.layLines (Text.plainLines text)).length ∧
      (write text writer).2.sink.text =
        writer.sink.text ++ writer.layLines (Text.plainLines text) ∧
      write (text ++ more) = (do
        let count ← write text
        return count + (← write more)) := by
  obtain ⟨sink, -, htext, hdrawn⟩ := drawAll_of_takesAll writer h (writer.textStrokes text)
  have hlines : Stroke.texts writer.newline (writer.textStrokes text) =
    writer.layLines (Text.plainLines text) := texts_ofText writer text.toList
  have hwrite := writer.draws_write text
  rw [Draws, hdrawn, hlines] at hwrite
  rw [hlines] at htext
  rw [hwrite]
  exact ⟨rfl, htext, write_append text more⟩

/-- Indented by a tab and up to an anchor, in the middle of a line. -/
theorem write_lines_anchored :
    let writer : Writer :=
      { sink := { text := "if " }, indents := ["\t"], anchors := [4, 2], newline := "\r\n"
        atLineStart := false, column := 3, index := 3 }
    (write "x:\r\n\n\r\ny" writer).1 = .ok 13 ∧
      (write "x:\r\n\n\r\ny" writer).2.sink.text = "if x:\r\n\r\n\r\n\t   y" ∧
      write ("x:\r\n" ++ "\n\r\ny") = (do
        let count ← write "x:\r\n"
        return count + (← write "\n\r\ny")) := by
  intro writer
  have hlines : writer.layLines (Text.plainLines "x:\r\n\n\r\ny") =
    "x:\r\n\r\n\r\n\t   y" := by decide +kernel
  obtain ⟨hcount, htext, -⟩ := write_lines writer rfl "x:\r\n\n\r\ny" ""
  obtain ⟨-, -, happend⟩ := write_lines writer rfl "x:\r\n" "\n\r\ny"
  rw [hlines] at hcount htext
  exact ⟨hcount, htext, happend⟩

end Writer

end Stencil
