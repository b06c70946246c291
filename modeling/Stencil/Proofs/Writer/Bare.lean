import Stencil.Proofs.Writer.Balance
import Stencil.Proofs.Writer.Newline

/-!
# Bare writers

A writer without indentation strings and anchors, whose sink takes every call, adds nothing of its
own to what it is given: a text is written as it is, without carriage returns and with the
configured text for each of its line breaks. An operation answers how many characters that are.
-/

namespace Stencil

namespace Text

/-- What a text is printed as: without its carriage returns, and with the text of line breaks for
each of its line feeds. -/
def printed (newline text : String) : String :=
  translate newline (.ofList (text.toList.filter (· != '\r')))

/-- Texts may be printed before or after they are put together. -/
theorem printed_append (newline text more : String) :
    printed newline (text ++ more) = printed newline text ++ printed newline more := by
  simp [printed]

/-- A carriage return is not printed. -/
@[simp] theorem printed_return (newline : String) : printed newline '\r'.toString = "" := by
  simp [printed, translate]

/-- A line feed is printed as the text of line breaks. -/
@[simp] theorem printed_feed (newline : String) : printed newline '\n'.toString = newline := by
  simp [printed, translate]

/-- Any other character is printed as it is. -/
theorem printed_char (newline : String) {c : Char} (hreturn : c ≠ '\r') (hfeed : c ≠ '\n') :
    printed newline c.toString = c.toString := by
  simp [printed, translate, hreturn, hfeed]

/-- A text is printed character by character. -/
theorem printed_ofList_cons (newline : String) (c : Char) (rest : List Char) :
    printed newline (.ofList (c :: rest)) =
      printed newline c.toString ++ printed newline (.ofList rest) := by
  rw [← printed_append]
  congr 1
  apply String.toList_injective
  simp

/-- A text is printed as it is if it has no carriage returns, and no line feeds either that are
printed as something else. -/
theorem printed_eq_self {newline text : String} (hreturn : '\r' ∉ text.toList)
    (hfeed : '\n' ∈ text.toList → newline = "\n") : printed newline text = text := by
  have hkept : text.toList.filter (· != '\r') = text.toList :=
    List.filter_eq_self.mpr fun c hc => bne_iff_ne.mpr fun heq => hreturn (heq ▸ hc)
  rw [printed, hkept, String.ofList_toList]
  exact translate_eq_self hfeed

end Text

namespace Writer

/-- A writer that adds nothing of its own. -/
structure Bare (newline : String) (writer : Writer) : Prop where
  accepts : writer.sink.accepts = fun _ _ _ => true
  indents : writer.indents = []
  anchors : writer.anchors = []
  newline_eq : writer.newline = newline

/-- An operation on a bare writer appends a text, and has an answer. -/
def Prints {α : Type} (newline text : String) (answer : α) (action : Writing α) : Prop :=
  ∀ writer : Writer, writer.Bare newline → (action writer).1 = .ok answer ∧
    (action writer).2.Bare newline ∧ (action writer).2.sink.text = writer.sink.text ++ text

variable {α β : Type} {newline text more : String} {answer : α} {result : β}

/-- An answer prints nothing. -/
theorem prints_pure (newline : String) (answer : α) : Prints newline "" answer (pure answer) :=
  fun _ hwriter => ⟨rfl, hwriter, String.append_empty.symm⟩

/-- What two operations print stands one after the other. -/
theorem Prints.bind {action : Writing α} {next : α → Writing β}
    (h : Prints newline text answer action) (hnext : Prints newline more result (next answer)) :
    Prints newline (text ++ more) result (action >>= next) := by
  intro writer hwriter
  obtain ⟨hanswer, hafter, htext⟩ := h writer hwriter
  rw [bind_apply_ok hanswer]
  obtain ⟨hresult, hend, htext'⟩ := hnext _ hafter
  exact ⟨hresult, hend, by rw [htext', htext, String.append_assoc]⟩

/-- What comes after it may print nothing. -/
theorem Prints.quietly {action : Writing α} {next : α → Writing β}
    (h : Prints newline text answer action) (hnext : Prints newline "" result (next answer)) :
    Prints newline text result (action >>= next) :=
  String.append_empty (s := text) ▸ h.bind hnext

/-- What comes before it may print nothing. -/
theorem Prints.after {action : Writing α} {next : α → Writing β}
    (h : Prints newline "" answer action) (hnext : Prints newline text result (next answer)) :
    Prints newline text result (action >>= next) :=
  String.empty_append (s := text) ▸ h.bind hnext

/-- An operation that depends on the writer. -/
theorem prints_get {next : Writer → Writing α}
    (h : ∀ writer : Writer, writer.Bare newline → Prints newline text answer (next writer)) :
    Prints newline text answer (get >>= next) :=
  fun writer hwriter => h writer hwriter writer hwriter

/-- Where a writer is on its line prints nothing. -/
theorem prints_advance (newline : String) (atLineStart : Writer → Bool)
    (column index : Writer → Nat) :
    Prints newline "" ⟨⟩ (modify fun writer => { writer with
      atLineStart := atLineStart writer, column := column writer, index := index writer }) :=
  fun _ hwriter => ⟨rfl, ⟨hwriter.accepts, hwriter.indents, hwriter.anchors, hwriter.newline_eq⟩,
    String.append_empty.symm⟩

/-- A call prints its piece. -/
theorem prints_put (newline piece : String) : Prints newline piece () (put piece) := by
  intro writer hwriter
  have htaken : (writer.sink.put piece).1 = true := by
    rw [Sink.put, hwriter.accepts]
    rfl
  rw [put_apply, Sink.text_put, if_pos htaken, if_pos htaken]
  refine ⟨rfl, ⟨?_, hwriter.indents, hwriter.anchors, hwriter.newline_eq⟩, rfl⟩
  rw [Sink.put, hwriter.accepts]
  rfl

/-- The end of a line prints the text of line breaks. -/
theorem prints_endLine (newline : String) :
    Prints newline newline newline.length endLine := by
  refine prints_get fun writer hwriter => ?_
  rw [hwriter.newline_eq]
  exact (prints_put newline newline).quietly <|
    (prints_advance newline Writer.atLineStart _ _).quietly (prints_pure _ _)

/-- There is nothing to indent with. -/
theorem prints_indent (newline : String) : Prints newline "" 0 indent := by
  refine prints_get fun writer hwriter => ?_
  have hpieces : writer.indents.reverse ++ List.replicate writer.padding " " = [] := by
    rw [padding, hwriter.indents, hwriter.anchors]
    simp
  rw [hpieces]
  exact (prints_pure newline ()).quietly <|
    (prints_advance newline Writer.atLineStart _ _).quietly (prints_pure _ _)

/-- A character prints itself. -/
theorem prints_putChar (newline : String) (c : Char) :
    Prints newline c.toString 1 (putChar c) :=
  (prints_put newline c.toString).quietly <|
    (prints_advance newline Writer.atLineStart _ _).quietly (prints_pure _ _)

/-- A character of a text prints what the character is printed as, since there is no indentation. -/
theorem prints_writeChar (newline : String) (c : Char) :
    Prints newline (Text.printed newline c.toString) (Text.printed newline c.toString).length
      (writeChar c) := by
  unfold writeChar
  split
  · next hreturn =>
    obtain rfl : c = '\r' := beq_iff_eq.mp hreturn
    rw [Text.printed_return]
    exact prints_pure newline 0
  split
  · next hfeed =>
    obtain rfl : c = '\n' := beq_iff_eq.mp hfeed
    rw [Text.printed_feed]
    exact (prints_endLine newline).quietly <|
      (prints_advance newline (fun _ => true) Writer.column Writer.index).quietly (prints_pure _ _)
  · next hreturn hfeed =>
    have hlength : c.toString.length = 0 + 1 := by simp
    rw [Text.printed_char newline (by simpa using hreturn) (by simpa using hfeed), hlength]
    refine prints_get fun writer _ => ?_
    have hrest : Prints newline c.toString (0 + 1) (do
        modify fun writer => { writer with atLineStart := false }
        return 0 + (← putChar c)) :=
      (prints_advance newline (fun _ => false) Writer.column Writer.index).after <|
        (prints_putChar newline c).quietly (prints_pure _ _)
    cases writer.atLineStart with
    | true => exact (prints_indent newline).after hrest
    | false => exact hrest

/-- The characters of a text print what the text is printed as. -/
theorem prints_writeChars (newline : String) (text : List Char) :
    Prints newline (Text.printed newline (.ofList text))
      (Text.printed newline (.ofList text)).length (writeChars text) := by
  induction text with
  | nil => exact prints_pure newline 0
  | cons c rest ih =>
    rw [Text.printed_ofList_cons, String.length_append]
    exact (prints_writeChar newline c).bind (ih.quietly (prints_pure _ _))

/-- A text is written as what it is printed as. -/
theorem prints_write (newline text : String) :
    Prints newline (Text.printed newline text) (Text.printed newline text).length (write text) := by
  have hchars := prints_writeChars newline text.toList
  rwa [String.ofList_toList] at hchars

/-- So does a token in front of which no wrap is asked for. -/
theorem prints_writeToken (newline text : String) :
    Prints newline (Text.printed newline text) (Text.printed newline text).length
      (writeToken text none) := by
  have htext : Prints newline (Text.printed newline text)
      (0 + (Text.printed newline text).length) (do return 0 + (← write text)) :=
    (prints_write newline text).quietly (prints_pure _ _)
  rwa [Nat.zero_add] at htext

end Writer

end Stencil
