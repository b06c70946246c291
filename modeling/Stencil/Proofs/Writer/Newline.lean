import Stencil.Body.Node
import Stencil.Proofs.Writer.Pairs

/-!
# The text of line breaks

A writer has a text that it writes for a line break. Nothing else that it does depends on this text,
but for one thing: an operation counts the characters of its line breaks, and a break without a
character counts for nothing. So two writers that differ in this text only, and write something for
a line break, write two translations of one text.
-/

namespace Stencil

namespace Text

/-- The text with another text for each of its line breaks. -/
def translate (newline text : String) : String :=
  String.ofList (text.toList.flatMap fun c => if c = '\n' then newline.toList else [c])

/-- Texts may be translated before or after they are put together. -/
@[simp] theorem translate_append (newline text more : String) :
    translate newline (text ++ more) = translate newline text ++ translate newline more := by
  simp [translate]

/-- A line break is translated into the text for one. -/
@[simp] theorem translate_lineBreak (newline : String) : translate newline "\n" = newline := by
  simp [translate]

/-- A text stays as it is if it has no line breaks, or if these are translated into themselves. -/
theorem translate_eq_self {newline text : String}
    (h : '\n' ∈ text.toList → newline = "\n") : translate newline text = text := by
  have hchars : text.toList.map (fun c => if c = '\n' then newline.toList else [c]) =
      text.toList.map fun c => [c] :=
    List.map_congr_left fun c hc => by
      split
      · next heq => rw [h (heq ▸ hc), heq]; rfl
      · rfl
  rw [translate, List.flatMap_def, hchars, ← List.flatMap_def, List.flatMap_singleton',
    String.ofList_toList]

/-- In particular a text without line breaks does. -/
theorem translate_of_unbroken (newline : String) {text : String} (h : '\n' ∉ text.toList) :
    translate newline text = text :=
  translate_eq_self fun hbroken => absurd hbroken h

/-- Plain line breaks are what a text has anyway. -/
@[simp] theorem translate_plain (text : String) : translate "\n" text = text :=
  translate_eq_self fun _ => rfl

/-- Spaces and tabs break no line. -/
theorem unbroken_of_isIndent {indent : String} (h : Node.isIndent indent.toList = true) :
    '\n' ∉ indent.toList := by
  intro hbreak
  have hspaces := List.all_eq_true.mp (Bool.and_eq_true_iff.mp h).2 _ hbreak
  revert hspaces
  decide

end Text

namespace Writer

/-- A writer with another text for line breaks, as if it had always had it. How many characters it
has counted is its own. -/
def breaking (writer : Writer) (newline : String) (index : Nat) : Writer :=
  { writer with
    sink := { text := Text.translate newline writer.sink.text, calls := writer.sink.calls }
    newline
    index }

variable (writer : Writer) (newline : String) (index : Nat)

/-- Pushing an indentation does not depend on the text for line breaks. -/
theorem breaking_pushIndent (indent : String) : (writer.breaking newline index).pushIndent indent =
    (writer.pushIndent indent).breaking newline index := by
  unfold pushIndent
  change (if writer.indenting then _ else _) = _
  split <;> rfl

/-- Nor does popping one. -/
theorem breaking_popIndent : (writer.breaking newline index).popIndent.2 =
    writer.popIndent.2.breaking newline index := by
  unfold popIndent
  change (if writer.indenting then _ else _ : Option String × Writer).2 = _
  split <;> rfl

end Writer

/-! ### Translating twice -/

namespace Text

/-- A line feed, perhaps among carriage returns. -/
def isFeed (newline : String) : Bool := newline.toList.filter (· != '\r') == ['\n']

variable {newline : String} (h : isFeed newline = true)
include h

/-- Where line breaks become line feeds among carriage returns, a text differs from its translation
in carriage returns only. -/
theorem filter_translate (text : String) :
    (translate newline text).toList.filter (· != '\r') = text.toList.filter (· != '\r') := by
  have hnewline : newline.toList.filter (· != '\r') = ['\n'] := beq_iff_eq.mp h
  rw [translate, String.toList_ofList]
  induction text.toList with
  | nil => rfl
  | cons c rest ih =>
    rw [List.flatMap_cons, List.filter_append, ih]
    split
    · next heq => rw [hnewline, heq]; rfl
    · rw [← List.filter_append]; rfl

end Text

namespace Writer

/-- Where characters are written one by one, the ones of which nothing is written may be left
out. -/
theorem filter_returns {step : Char → Writing Nat} {steps : List Char → Writing Nat}
    (hsteps : ∀ c rest, steps (c :: rest) = do
      let count ← step c
      return count + (← steps rest))
    (hreturn : step '\r' = pure 0) (text : List Char) :
    steps (text.filter (· != '\r')) = steps text := by
  induction text with
  | nil => rfl
  | cons c rest ih =>
    rw [List.filter_cons]
    split
    · rw [hsteps, hsteps, ih]
    · next hdropped =>
      obtain rfl : c = '\r' := by simpa using hdropped
      rw [hsteps, hreturn, pure_bind, ih]
      simp only [Nat.zero_add, bind_pure]

section

variable {newline : String} (h : Text.isFeed newline = true) (text : String)
include h

/-- A translated text is written like the text itself. -/
theorem write_translate : write (Text.translate newline text) = write text := by
  have hdrop (text : List Char) : writeChars (text.filter (· != '\r')) = writeChars text :=
    filter_returns (fun _ _ => rfl) rfl text
  rw [write, write, ← hdrop, Text.filter_translate h, hdrop]

/-- Such a translation is written as a wrap text just as the text is, since carriage returns are not
written. -/
theorem wrap_translate : wrap (Text.translate newline text) = wrap text := by
  have hdrop (text : List Char) : wrapChars (text.filter (· != '\r')) = wrapChars text :=
    filter_returns (fun _ _ => rfl) rfl text
  funext width
  rw [wrap, wrap, ← hdrop, Text.filter_translate h, hdrop]

end

end Writer

/-! ### Two writers -/

namespace Writer

/-- Two writers are the same but for the text of their line breaks. What they do not write for line
breaks holds none. -/
inductive Translated (newline other : String) : Writer → Writer → Prop
  | intro (writer : Writer) (index count : Nat)
    (h : ∀ indent ∈ writer.indents, '\n' ∉ indent.toList) :
    Translated newline other (writer.breaking newline index) (writer.breaking other count)

namespace Translated

variable {newline other : String} {left right : Writer} (h : Translated newline other left right)
include h

/-- An indentation without line breaks may be pushed on both writers. -/
theorem pushIndent {indent : String} (hindent : '\n' ∉ indent.toList) :
    Translated newline other (left.pushIndent indent) (right.pushIndent indent) := by
  obtain ⟨writer, index, count, hindents⟩ := h
  rw [breaking_pushIndent, breaking_pushIndent]
  refine .intro _ index count ?_
  unfold Writer.pushIndent
  split
  · exact List.forall_mem_cons.mpr ⟨hindent, hindents⟩
  · exact hindents

/-- The innermost indentation may be popped from both. -/
theorem popIndent : Translated newline other left.popIndent.2 right.popIndent.2 := by
  obtain ⟨writer, index, count, hindents⟩ := h
  rw [breaking_popIndent, breaking_popIndent]
  refine .intro _ index count ?_
  unfold Writer.popIndent
  split
  · exact fun indent hmem => hindents indent (List.mem_of_mem_tail hmem)
  · exact hindents

/-- Both writers are as far along their lines. -/
theorem pushAnchor : Translated newline other left.pushAnchor right.pushAnchor := by
  obtain ⟨writer, index, count, hindents⟩ := h
  exact .intro writer.pushAnchor index count hindents

/-- So may the innermost anchor. -/
theorem popAnchor : Translated newline other left.popAnchor right.popAnchor := by
  obtain ⟨writer, index, count, hindents⟩ := h
  exact .intro writer.popAnchor index count hindents

end Translated

/-! ### Operations -/

/-- Two counts of which both are zero or none is. -/
def EmptyAlike (count further : Nat) : Prop := count = 0 ↔ further = 0

variable {newline other : String}

/-- Where the writers are on their line changes in the same way. -/
theorem keeps_advance (atLineStart : Bool → Bool) (column : Nat → Nat)
    (index count : Writer → Nat) :
    Keeps (Translated newline other) (fun _ _ => True)
      (modify fun writer => { writer with
        atLineStart := atLineStart writer.atLineStart
        column := column writer.column
        index := index writer })
      (modify fun writer => { writer with
        atLineStart := atLineStart writer.atLineStart
        column := column writer.column
        index := count writer }) := by
  refine keeps_modify fun hpaired => ?_
  obtain ⟨writer, before, former, h⟩ := hpaired
  exact .intro { writer with
    atLineStart := atLineStart writer.atLineStart
    column := column writer.column } (index (writer.breaking newline before))
    (count (writer.breaking other former)) h

/-- An operation that depends on the writer. -/
theorem keeps_reading {α : Type} {post : α → α → Prop} {next : Writer → Writing α}
    (h : ∀ (writer : Writer) (index count : Nat),
      (∀ indent ∈ writer.indents, '\n' ∉ indent.toList) →
        Keeps (Translated newline other) post (next (writer.breaking newline index))
          (next (writer.breaking other count))) :
    Keeps (Translated newline other) post (get >>= next) (get >>= next) := by
  refine keeps_get fun _ _ hpaired => ?_
  obtain ⟨writer, index, count, hindents⟩ := hpaired
  exact h writer index count hindents

/-- What the two writers hand on are translations of one text. -/
theorem keeps_put (text : String) : Keeps (Translated newline other) (fun _ _ => True)
    (put (Text.translate newline text)) (put (Text.translate other text)) := by
  rintro _ _ ⟨writer, index, count, hindents⟩
  have hput (newline : String) (index : Nat) :
      put (Text.translate newline text) (writer.breaking newline index) =
        (.ok (), { writer with sink :=
          { text := writer.sink.text ++ text, calls := writer.sink.calls + 1 } }.breaking
            newline index) := by
    rw [put_apply]
    simp only [breaking, Sink.put_unlimited, Text.translate_append]
    rfl
  rw [hput, hput]
  exact ⟨(), (), trivial, rfl, rfl, .intro _ index count hindents⟩

/-- A piece without line breaks may be written to both. -/
theorem keeps_put_of_unbroken {piece : String} (h : '\n' ∉ piece.toList) :
    Keeps (Translated newline other) (fun _ _ => True) (put piece) (put piece) := by
  have hput : Keeps (Translated newline other) (fun _ _ => True)
      (put (Text.translate newline piece)) (put (Text.translate other piece)) := keeps_put piece
  rwa [Text.translate_of_unbroken newline h, Text.translate_of_unbroken other h] at hput

/-- So may several pieces. -/
theorem keeps_putAll {pieces : List String} (h : ∀ piece ∈ pieces, '\n' ∉ piece.toList) :
    Keeps (Translated newline other) (fun _ _ => True) (putAll pieces) (putAll pieces) := by
  induction pieces with
  | nil => exact keeps_pure trivial
  | cons piece rest ih =>
    obtain ⟨hpiece, hrest⟩ := List.forall_mem_cons.mp h
    exact (keeps_put_of_unbroken hpiece).bind fun _ _ _ => ih hrest

/-- Indentation strings and padding are the same for both writers. -/
theorem keeps_indent : Keeps (Translated newline other) EmptyAlike indent indent := by
  refine keeps_reading fun writer _ _ hindents => ?_
  have hpieces : ∀ piece ∈ writer.indents.reverse ++ List.replicate writer.padding " ",
      '\n' ∉ piece.toList := by
    refine List.forall_mem_append.mpr ⟨fun piece hmem => ?_, fun piece hmem => ?_⟩
    · exact hindents piece (List.mem_reverse.mp hmem)
    · rw [List.eq_of_mem_replicate hmem]
      decide
  refine (keeps_putAll hpieces).bind fun _ _ _ => ?_
  exact (keeps_advance id (fun column => column + writer.indentWidth + writer.padding) _ _).bind
    fun _ _ _ => keeps_pure Iff.rfl

/-- So may a character that is no line break. -/
theorem keeps_putChar {c : Char} (h : c ≠ '\n') :
    Keeps (Translated newline other) EmptyAlike (putChar c) (putChar c) := by
  have hpiece : '\n' ∉ c.toString.toList := by simpa using h.symm
  refine (keeps_put_of_unbroken hpiece).bind fun _ _ _ => ?_
  exact (keeps_advance id (fun column => column + Text.columns c) _ _).bind
    fun _ _ _ => keeps_pure Iff.rfl

/-- Sums of such counts are both zero or both not. -/
theorem EmptyAlike.add {count further more rest : Nat} (h : EmptyAlike count further)
    (h' : EmptyAlike more rest) : EmptyAlike (count + more) (further + rest) := by
  unfold EmptyAlike at h h' ⊢
  omega

variable (hnewline : newline ≠ "") (hother : other ≠ "")
include hnewline hother

/-- A line may be ended in both, each with its own text. -/
theorem keeps_endLine : Keeps (Translated newline other) EmptyAlike endLine endLine := by
  refine keeps_reading fun writer _ _ _ => ?_
  have hput : Keeps (Translated newline other) (fun _ _ => True)
      (put (Text.translate newline "\n")) (put (Text.translate other "\n")) := keeps_put "\n"
  rw [Text.translate_lineBreak, Text.translate_lineBreak] at hput
  refine hput.bind fun _ _ _ => ?_
  refine (keeps_advance id (fun _ => 0) _ _).bind fun _ _ _ => keeps_pure ?_
  exact iff_of_false (mt String.length_eq_zero_iff.mp hnewline)
    (mt String.length_eq_zero_iff.mp hother)

/-- A character of a text may be written to both. -/
theorem keeps_writeChar (c : Char) :
    Keeps (Translated newline other) EmptyAlike (writeChar c) (writeChar c) := by
  unfold writeChar
  split
  · exact keeps_pure Iff.rfl
  split
  · exact (keeps_endLine hnewline hother).bind fun _ _ hcount =>
      (keeps_advance (fun _ => true) id index index).bind fun _ _ _ => keeps_pure hcount
  · next hbreak =>
    have hrest (lead further : Nat) (hlead : EmptyAlike lead further) :
        Keeps (Translated newline other) EmptyAlike
          (do
            modify fun writer => { writer with atLineStart := false }
            return lead + (← putChar c))
          (do
            modify fun writer => { writer with atLineStart := false }
            return further + (← putChar c)) := by
      refine (keeps_advance (fun _ => false) id index index).bind fun _ _ _ => ?_
      exact (keeps_putChar (mt beq_iff_eq.mpr hbreak)).bind fun _ _ hcount =>
        keeps_pure (hlead.add hcount)
    refine keeps_reading fun writer _ _ _ => ?_
    change Keeps _ _ (if writer.atLineStart then _ else _) (if writer.atLineStart then _ else _)
    cases writer.atLineStart with
    | true => exact keeps_indent.bind hrest
    | false => exact hrest 0 0 Iff.rfl

/-- So may the characters of a text. -/
theorem keeps_writeChars (text : List Char) :
    Keeps (Translated newline other) EmptyAlike (writeChars text) (writeChars text) := by
  induction text with
  | nil => exact keeps_pure Iff.rfl
  | cons c rest ih =>
    exact (keeps_writeChar hnewline hother c).bind fun _ _ hcount =>
      ih.bind fun _ _ hmore => keeps_pure (hcount.add hmore)

/-- So may a character of a wrap text. -/
theorem keeps_wrapChar (c : Char) :
    Keeps (Translated newline other) EmptyAlike (wrapChar c) (wrapChar c) := by
  unfold wrapChar
  split
  · exact keeps_pure Iff.rfl
  split
  · exact (keeps_endLine hnewline hother).bind fun _ _ hcount =>
      keeps_indent.bind fun _ _ hmore => keeps_pure (hcount.add hmore)
  · next hbreak => exact keeps_putChar (mt beq_iff_eq.mpr hbreak)

/-- So may the characters of a wrap text. -/
theorem keeps_wrapChars (text : List Char) :
    Keeps (Translated newline other) EmptyAlike (wrapChars text) (wrapChars text) := by
  induction text with
  | nil => exact keeps_pure Iff.rfl
  | cons c rest ih =>
    exact (keeps_wrapChar hnewline hother c).bind fun _ _ hcount =>
      ih.bind fun _ _ hmore => keeps_pure (hcount.add hmore)

/-- Both writers are as far along their lines, so that they wrap in the same places. -/
theorem keeps_wrap (text : String) (width : Nat) :
    Keeps (Translated newline other) EmptyAlike (wrap text width) (wrap text width) := by
  refine keeps_reading fun writer _ _ _ => ?_
  change Keeps _ _ (if writer.fits width then _ else _) (if writer.fits width then _ else _)
  cases writer.fits width with
  | true => exact keeps_pure Iff.rfl
  | false => exact keeps_wrapChars hnewline hother text.toList

end Writer

end Stencil
