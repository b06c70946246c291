import Stencil.Body.Node
import Stencil.Text.Blank
import Stencil.Proofs.Writer.Pairs

/-!
# Layout

Indentation, padding, line breaks and wraps lay a text out. As long as the text of line breaks and
the indentation strings are blank, all of this adds nothing visible: an operation that writes a text
makes the visible text of the sink longer by the visible characters of what it is given, wherever
the writer is on its line and however wide that line is.
-/

namespace Stencil

namespace Text

/-- The characters of a text that are not white space. -/
def visible (text : String) : List Char := text.toList.filter fun c => !isBlank c

/-- Whether a text is nothing but white space. -/
def isWhite (text : String) : Bool := text.toList.all isBlank

/-- The visible characters of texts stand one after the other. -/
@[simp] theorem visible_append (text more : String) :
    visible (text ++ more) = visible text ++ visible more := by
  simp [visible]

/-- A text without visible characters is white. -/
theorem visible_eq_nil {text : String} : visible text = [] ↔ isWhite text = true := by
  simp [visible, isWhite]

/-- A character is visible unless it is blank. -/
theorem visible_toString (c : Char) : visible c.toString = if isBlank c then [] else [c] := by
  cases hblank : isBlank c <;> simp [visible, hblank]

/-- Spaces and tabs are white space. -/
theorem isWhite_of_isIndent {text : String} (h : Node.isIndent text.toList = true) :
    isWhite text = true := by
  refine List.all_eq_true.mpr fun c hc => ?_
  have hspaces := List.all_eq_true.mp (Bool.and_eq_true_iff.mp h).2 c hc
  rcases Bool.or_eq_true_iff.mp hspaces with heq | heq <;> rw [beq_iff_eq.mp heq] <;> decide

end Text

namespace Writer

/-- A writer that adds nothing visible by itself. -/
structure Discreet (writer : Writer) : Prop where
  accepts : writer.sink.accepts = fun _ _ _ => true
  newline : Text.isWhite writer.newline = true
  indents : ∀ indent ∈ writer.indents, Text.isWhite indent = true

namespace Discreet

variable {writer : Writer} (h : writer.Discreet)
include h

/-- A writer stays discreet with a further blank indentation. -/
theorem pushIndent {indent : String} (hindent : Text.isWhite indent = true) :
    (writer.pushIndent indent).Discreet := by
  unfold Writer.pushIndent
  split
  · exact ⟨h.accepts, h.newline, List.forall_mem_cons.mpr ⟨hindent, h.indents⟩⟩
  · exact h

/-- It stays discreet with one indentation less. -/
theorem popIndent : writer.popIndent.2.Discreet := by
  unfold Writer.popIndent
  split
  · exact ⟨h.accepts, h.newline, fun indent hmem => h.indents indent (List.mem_of_mem_tail hmem)⟩
  · exact h

end Discreet

/-! ### Operations -/

/-- An operation on a discreet writer has an answer, and makes the visible text longer by what is
`shown`. -/
def Shows {α : Type} (shown : List Char) (action : Writing α) : Prop :=
  ∀ writer : Writer, writer.Discreet → (∃ value, (action writer).1 = .ok value) ∧
    (action writer).2.Discreet ∧
      Text.visible (action writer).2.sink.text = Text.visible writer.sink.text ++ shown

variable {α β : Type} {shown more : List Char} {action : Writing α}

/-- An answer shows nothing. -/
theorem shows_pure (value : α) : Shows [] (pure value) :=
  fun _ hwriter => ⟨⟨value, rfl⟩, hwriter, (List.append_nil _).symm⟩

/-- What two operations show stands one after the other. -/
theorem Shows.bind {next : α → Writing β} (h : Shows shown action)
    (hnext : ∀ value, Shows more (next value)) : Shows (shown ++ more) (action >>= next) := by
  intro writer hwriter
  obtain ⟨⟨value, hvalue⟩, hafter, htext⟩ := h writer hwriter
  rw [bind_apply_ok hvalue]
  obtain ⟨hresult, hend, htext'⟩ := hnext value _ hafter
  exact ⟨hresult, hend, by rw [htext', htext, List.append_assoc]⟩

/-- What comes after it may show nothing. -/
theorem Shows.quietly {next : α → Writing β} (h : Shows shown action)
    (hnext : ∀ value, Shows [] (next value)) : Shows shown (action >>= next) :=
  List.append_nil shown ▸ h.bind hnext

/-- An operation that depends on the writer. -/
theorem shows_get {next : Writer → Writing α}
    (h : ∀ writer : Writer, writer.Discreet → Shows shown (next writer)) :
    Shows shown (get >>= next) :=
  fun writer hwriter => h writer hwriter writer hwriter

/-- Where a writer is on its line shows nothing. -/
theorem shows_advance (atLineStart : Writer → Bool) (column index : Writer → Nat) :
    Shows [] (modify fun writer => { writer with
      atLineStart := atLineStart writer, column := column writer, index := index writer }) :=
  fun _ hwriter => ⟨⟨⟨⟩, rfl⟩, ⟨hwriter.accepts, hwriter.newline, hwriter.indents⟩,
    (List.append_nil _).symm⟩

/-- A call shows what is visible in it. -/
theorem shows_put (piece : String) : Shows (Text.visible piece) (put piece) := by
  intro writer hwriter
  have htaken : (writer.sink.put piece).1 = true := by
    rw [Sink.put, hwriter.accepts]
    rfl
  rw [put_apply, Sink.text_put, if_pos htaken, if_pos htaken, Text.visible_append]
  refine ⟨⟨(), rfl⟩, ⟨?_, hwriter.newline, hwriter.indents⟩, rfl⟩
  rw [Sink.put, hwriter.accepts]
  rfl

/-- Blank pieces show nothing. -/
theorem shows_putAll {pieces : List String} (h : ∀ piece ∈ pieces, Text.isWhite piece = true) :
    Shows [] (putAll pieces) := by
  induction pieces with
  | nil => exact shows_pure ()
  | cons piece rest ih =>
    obtain ⟨hpiece, hrest⟩ := List.forall_mem_cons.mp h
    have hput := shows_put piece
    rw [Text.visible_eq_nil.mpr hpiece] at hput
    exact hput.bind fun _ => ih hrest

/-- The end of a line shows nothing. -/
theorem shows_endLine : Shows [] endLine := by
  refine shows_get fun writer hwriter => ?_
  have hput := shows_put writer.newline
  rw [Text.visible_eq_nil.mpr hwriter.newline] at hput
  exact hput.bind fun _ => (shows_advance Writer.atLineStart _ _).bind fun _ => shows_pure _

/-- Indentation strings and padding show nothing. -/
theorem shows_indent : Shows [] indent := by
  refine shows_get fun writer hwriter => ?_
  have hpieces : ∀ piece ∈ writer.indents.reverse ++ List.replicate writer.padding " ",
      Text.isWhite piece = true := by
    refine List.forall_mem_append.mpr ⟨fun piece hmem => ?_, fun piece hmem => ?_⟩
    · exact hwriter.indents piece (List.mem_reverse.mp hmem)
    · rw [List.eq_of_mem_replicate hmem]
      decide
  exact (shows_putAll hpieces).bind fun _ =>
    (shows_advance Writer.atLineStart _ _).bind fun _ => shows_pure _

/-- A character shows itself unless it is blank. -/
theorem shows_putChar (c : Char) : Shows (if Text.isBlank c then [] else [c]) (putChar c) := by
  rw [← Text.visible_toString]
  exact (shows_put c.toString).quietly fun _ =>
    (shows_advance Writer.atLineStart _ _).bind fun _ => shows_pure _

/-- With the indentation in front of it, it shows nothing else. -/
theorem shows_writeChar (c : Char) : Shows (if Text.isBlank c then [] else [c]) (writeChar c) := by
  have hrest (lead : Nat) : Shows (if Text.isBlank c then [] else [c]) (do
      modify fun writer => { writer with atLineStart := false }
      return lead + (← putChar c)) :=
    (shows_advance (fun _ => false) Writer.column Writer.index).bind fun _ =>
      (shows_putChar c).quietly fun _ => shows_pure _
  generalize hshown : (if Text.isBlank c then [] else [c]) = shown at hrest ⊢
  unfold writeChar
  split
  · next heq =>
    obtain rfl : c = '\r' := beq_iff_eq.mp heq
    obtain rfl : [] = shown := hshown
    exact shows_pure 0
  split
  · next heq =>
    obtain rfl : c = '\n' := beq_iff_eq.mp heq
    obtain rfl : [] = shown := hshown
    exact shows_endLine.bind fun _ =>
      (shows_advance (fun _ => true) Writer.column Writer.index).bind fun _ => shows_pure _
  · refine shows_get fun writer _ => ?_
    cases writer.atLineStart with
    | true => exact shows_indent.bind hrest
    | false => exact hrest 0

/-- Characters show the visible ones among them. -/
theorem shows_writeChars (text : List Char) :
    Shows (text.filter fun c => !Text.isBlank c) (writeChars text) := by
  induction text with
  | nil => exact shows_pure 0
  | cons c rest ih =>
    have hfilter : (c :: rest).filter (fun c => !Text.isBlank c) =
        (if Text.isBlank c then [] else [c]) ++ rest.filter fun c => !Text.isBlank c := by
      cases hblank : Text.isBlank c <;> simp [hblank]
    rw [hfilter]
    exact (shows_writeChar c).bind fun _ => ih.quietly fun _ => shows_pure _

/-- A text shows what is visible in it. -/
theorem shows_write (text : String) : Shows (Text.visible text) (write text) :=
  shows_writeChars text.toList

/-- A blank character of a wrap text shows nothing. -/
theorem shows_wrapChar {c : Char} (h : Text.isBlank c = true) : Shows [] (wrapChar c) := by
  unfold wrapChar
  split
  · exact shows_pure 0
  split
  · exact shows_endLine.bind fun _ => shows_indent.bind fun _ => shows_pure _
  · have hput := shows_putChar c
    rwa [if_pos h] at hput

/-- So a blank wrap text shows nothing. -/
theorem shows_wrapChars {text : List Char} (h : ∀ c ∈ text, Text.isBlank c = true) :
    Shows [] (wrapChars text) := by
  induction text with
  | nil => exact shows_pure 0
  | cons c rest ih =>
    obtain ⟨hc, hrest⟩ := List.forall_mem_cons.mp h
    exact (shows_wrapChar hc).bind fun _ => (ih hrest).bind fun _ => shows_pure _

/-- A line may be wrapped or not. -/
theorem shows_wrap {text : String} (h : Text.isWhite text = true) (width : Nat) :
    Shows [] (wrap text width) := by
  refine shows_get fun writer _ => ?_
  cases writer.fits width with
  | true => exact shows_pure 0
  | false => exact shows_wrapChars (List.all_eq_true.mp h)

/-! ### Two writers -/

/-- Two discreet writers whose sinks have the same visible text. -/
structure SameVisible (left right : Writer) : Prop where
  first : left.Discreet
  second : right.Discreet
  text : Text.visible left.sink.text = Text.visible right.sink.text

/-- Operations that show the same, whatever they count. -/
theorem Shows.keeps {other : Writing β} (h : Shows shown action) (h' : Shows shown other) :
    Keeps SameVisible (fun _ _ => True) action other := by
  intro left right hsame
  obtain ⟨⟨value, hvalue⟩, hleft, hshown⟩ := h left hsame.first
  obtain ⟨⟨value', hvalue'⟩, hright, hshown'⟩ := h' right hsame.second
  refine ⟨value, value', trivial, hvalue, hvalue', hleft, hright, ?_⟩
  rw [hshown, hshown', hsame.text]

namespace SameVisible

variable {left right : Writer} (h : SameVisible left right)
include h

/-- Two writers show the same with a further blank indentation. -/
theorem pushIndent {indent : String} (hindent : Text.isWhite indent = true) :
    SameVisible (left.pushIndent indent) (right.pushIndent indent) where
  first := h.first.pushIndent hindent
  second := h.second.pushIndent hindent
  text := by rw [sink_pushIndent, sink_pushIndent, h.text]

/-- They show the same with one indentation less. -/
theorem popIndent : SameVisible left.popIndent.2 right.popIndent.2 where
  first := h.first.popIndent
  second := h.second.popIndent
  text := by rw [sink_popIndent, sink_popIndent, h.text]

/-- Anchors show nothing. -/
theorem anchored (anchors others : List Nat) :
    SameVisible { left with anchors } { right with anchors := others } where
  first := ⟨h.first.accepts, h.first.newline, h.first.indents⟩
  second := ⟨h.second.accepts, h.second.newline, h.second.indents⟩
  text := h.text

end SameVisible

end Writer

end Stencil
