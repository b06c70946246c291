import Stencil.Proofs.Writer.Truncation

/-!
# Strokes

Whatever a writer writes comes down to strokes: a character, the line break of a text or of a wrap
text, the indentation of a line. Which strokes an operation asks for depends on where the writer is,
but not on its sink. They are made one after the other until the sink refuses a call, and a stroke
moves the writer along and is counted once all of its calls are taken.
-/

namespace Stencil

namespace Text

/-- The columns that some texts take next to each other. -/
def widths : List String → Nat
  | [] => 0
  | piece :: rest => width piece.toList + widths rest

/-- The columns of texts next to each other add up. -/
theorem widths_append (pieces more : List String) :
    widths (pieces ++ more) = widths pieces + widths more := by
  induction pieces with
  | nil => exact (Nat.zero_add _).symm
  | cons piece rest ih => rw [List.cons_append, widths, ih, widths, Nat.add_assoc]

/-- It does not matter in which order the texts stand. -/
theorem widths_reverse (pieces : List String) : widths pieces.reverse = widths pieces := by
  induction pieces with
  | nil => rfl
  | cons piece rest ih =>
    have hpiece : widths [piece] = width piece.toList := Nat.add_zero _
    rw [List.reverse_cons, widths_append, ih, hpiece, widths, Nat.add_comm]

/-- Spaces take a column each. -/
theorem widths_spaces (count : Nat) : widths (List.replicate count " ") = count := by
  have hspace : width " ".toList = 1 := by decide
  induction count with
  | zero => rfl
  | succ count ih => rw [List.replicate_succ, widths, ih, hspace, Nat.add_comm]

end Text

/-- What a writer writes in one go. -/
inductive Stroke where
  /-- A character that is no line break. -/
  | letter (c : Char)
  /-- A line break of a text. -/
  | feed
  /-- A line break of a wrap text. -/
  | turn
  /-- The indentation of a line, in pieces. -/
  | margin (pieces : List String)
deriving DecidableEq

namespace Stroke

/-- The calls that a stroke makes, where line breaks are written as `newline`. -/
def pieces (newline : String) : Stroke → List String
  | letter c => [c.toString]
  | feed | turn => [newline]
  | margin pieces => pieces

/-- The text of a stroke. -/
def text (newline : String) (stroke : Stroke) : String := .join (stroke.pieces newline)

/-- The text of a letter is the character. -/
@[simp] theorem text_letter (newline : String) (c : Char) :
    (letter c).text newline = c.toString := by
  simp [text, pieces]

/-- A line break of a text is written as the configured one. -/
@[simp] theorem text_feed (newline : String) : feed.text newline = newline := by
  simp [text, pieces]

/-- So is a line break of a wrap text. -/
@[simp] theorem text_turn (newline : String) : turn.text newline = newline := by
  simp [text, pieces]

/-- The text of an indentation is that of its pieces. -/
@[simp] theorem text_margin (newline : String) (pieces : List String) :
    (margin pieces).text newline = .join pieces := rfl

/-- The column after a stroke that starts in a given one. -/
def column (start : Nat) : Stroke → Nat
  | letter c => start + Text.columns c
  | feed | turn => 0
  | margin pieces => start + Text.widths pieces

/-- Whether a line has yet to begin after a stroke. A turn leads on to the indentation of the new
line at once. -/
def atLineStart (before : Bool) : Stroke → Bool
  | letter _ | turn => before
  | feed => true
  | margin _ => false

/-- The text of some strokes. -/
def texts (newline : String) (strokes : List Stroke) : String :=
  .join (strokes.map (text newline))

/-- No strokes have no text. -/
@[simp] theorem texts_nil (newline : String) : texts newline [] = "" := rfl

/-- The text of the first stroke comes first. -/
@[simp] theorem texts_cons (newline : String) (stroke : Stroke) (rest : List Stroke) :
    texts newline (stroke :: rest) = stroke.text newline ++ texts newline rest :=
  String.join_cons

/-- The texts of strokes stand one after the other. -/
@[simp] theorem texts_append (newline : String) (strokes more : List Stroke) :
    texts newline (strokes ++ more) = texts newline strokes ++ texts newline more := by
  simp [texts, String.join_append]

end Stroke

/-! ### Sinks -/

namespace Sink

/-- A sink that takes every call. -/
def TakesAll (sink : Sink) : Prop := sink.accepts = fun _ _ _ => true

/-- Pieces that are put behind a text one by one are put there together. -/
theorem foldl_append (pieces : List String) (text : String) :
    pieces.foldl (· ++ ·) text = text ++ String.join pieces := by
  induction pieces generalizing text with
  | nil => exact String.append_empty.symm
  | cons piece rest ih => rw [List.foldl_cons, ih, String.join_cons, String.append_assoc]

/-- A sink that takes every call has all pieces in the end. -/
theorem feed_of_takesAll {sink : Sink} (h : sink.TakesAll) (pieces : List String) :
    sink.feed pieces = (true, { sink with
      text := sink.text ++ String.join pieces, calls := sink.calls + pieces.length }) := by
  have hfreed : sink.freed = sink := by
    rw [freed, ← (h : sink.accepts = _)]
  have hfeed := feed_freed sink pieces
  rwa [hfreed, foldl_append] at hfeed

end Sink

namespace Writer

/-- The pieces of the indentation of a line: the strings in force, outermost first, and a space for
each column up to the anchor. -/
def margin (writer : Writer) : List String :=
  writer.indents.reverse ++ List.replicate writer.padding " "

/-- The writer after some strokes, with another sink. -/
def past (writer : Writer) (strokes : List Stroke) (sink : Sink) : Writer :=
  { writer with
    sink
    column := strokes.foldl Stroke.column writer.column
    atLineStart := strokes.foldl Stroke.atLineStart writer.atLineStart
    index := writer.index + (Stroke.texts writer.newline strokes).length }

/-- Strokes that are made one after the other until a call is refused: whether all calls were taken,
and the writer after the last one. -/
def drawAll (writer : Writer) : List Stroke → Bool × Writer
  | [] => (true, writer)
  | stroke :: rest =>
    let fed := writer.sink.feed (stroke.pieces writer.newline)
    if fed.1 then (writer.past [stroke] fed.2).drawAll rest
    else (false, { writer with sink := fed.2 })

/-! ### Making strokes -/

variable (writer : Writer)

/-- Going past some strokes and then past others is going past all of them. -/
theorem past_past (strokes more : List Stroke) (sink sink' : Sink) :
    (writer.past strokes sink).past more sink' = writer.past (strokes ++ more) sink' := by
  simp [past, List.foldl_append, Nat.add_assoc]

/-- If the first stroke is taken the others go on from where it leads. -/
theorem drawAll_cons_of_taken {stroke : Stroke}
    (h : (writer.sink.feed (stroke.pieces writer.newline)).1 = true) (rest : List Stroke) :
    writer.drawAll (stroke :: rest) =
      (writer.past [stroke] (writer.sink.feed (stroke.pieces writer.newline)).2).drawAll rest :=
  if_pos h

/-- If the first stroke is refused the others are not made, and the writer stays where it is. -/
theorem drawAll_cons_of_refused {stroke : Stroke}
    (h : (writer.sink.feed (stroke.pieces writer.newline)).1 = false) (rest : List Stroke) :
    writer.drawAll (stroke :: rest) =
      (false, { writer with sink := (writer.sink.feed (stroke.pieces writer.newline)).2 }) :=
  if_neg (Bool.not_eq_true _ ▸ h)

/-- The strokes after some that are made are made from where these lead. -/
theorem drawAll_append {strokes : List Stroke} (h : (writer.drawAll strokes).1 = true)
    (more : List Stroke) :
    writer.drawAll (strokes ++ more) = (writer.drawAll strokes).2.drawAll more := by
  induction strokes generalizing writer with
  | nil => rfl
  | cons stroke rest ih =>
    cases htaken : (writer.sink.feed (stroke.pieces writer.newline)).1 with
    | true =>
      rw [drawAll_cons_of_taken _ htaken] at h ⊢
      rw [List.cons_append, drawAll_cons_of_taken _ htaken]
      exact ih _ h
    | false =>
      rw [drawAll_cons_of_refused _ htaken] at h
      cases h

/-- No strokes are made after one that is refused. -/
theorem drawAll_append_of_refused {strokes : List Stroke} (h : (writer.drawAll strokes).1 = false)
    (more : List Stroke) : writer.drawAll (strokes ++ more) = writer.drawAll strokes := by
  induction strokes generalizing writer with
  | nil => cases h
  | cons stroke rest ih =>
    cases htaken : (writer.sink.feed (stroke.pieces writer.newline)).1 with
    | true =>
      rw [drawAll_cons_of_taken _ htaken] at h ⊢
      rw [List.cons_append, drawAll_cons_of_taken _ htaken]
      exact ih _ h
    | false =>
      rw [List.cons_append, drawAll_cons_of_refused _ htaken, drawAll_cons_of_refused _ htaken]

/-- Strokes of which none was refused have led past all of them. -/
theorem drawAll_snd {strokes : List Stroke} (h : (writer.drawAll strokes).1 = true) :
    (writer.drawAll strokes).2 = writer.past strokes (writer.drawAll strokes).2.sink := by
  induction strokes generalizing writer with
  | nil => rfl
  | cons stroke rest ih =>
    cases htaken : (writer.sink.feed (stroke.pieces writer.newline)).1 with
    | true =>
      rw [drawAll_cons_of_taken _ htaken] at h ⊢
      rw [ih _ h, past_past]
      rfl
    | false =>
      rw [drawAll_cons_of_refused _ htaken] at h
      cases h

/-- A sink that takes every call refuses no stroke. -/
theorem drawAll_of_takesAll (h : writer.sink.TakesAll) (strokes : List Stroke) :
    ∃ sink : Sink, sink.TakesAll ∧
      sink.text = writer.sink.text ++ Stroke.texts writer.newline strokes ∧
      writer.drawAll strokes = (true, writer.past strokes sink) := by
  induction strokes generalizing writer with
  | nil => exact ⟨writer.sink, h, String.append_empty.symm, rfl⟩
  | cons stroke rest ih =>
    have hfeed := Sink.feed_of_takesAll h (stroke.pieces writer.newline)
    obtain ⟨sink, htakes, htext, hrest⟩ :=
      ih (writer.past [stroke] (writer.sink.feed (stroke.pieces writer.newline)).2) (by rwa [hfeed])
    refine ⟨sink, htakes, ?_, ?_⟩
    · rw [htext, hfeed, Stroke.texts_cons, ← String.append_assoc]
      rfl
    · rw [drawAll_cons_of_taken _ (congrArg Prod.fst hfeed), hrest, past_past]
      rfl

/-! ### Operations -/

/-- An operation makes some strokes and answers how many characters they are. -/
def Draws (strokes : List Stroke) (action : Writing Nat) : Prop :=
  action writer =
    (if (writer.drawAll strokes).1 then .ok (Stroke.texts writer.newline strokes).length
      else .error .refused, (writer.drawAll strokes).2)

/-- An operation that does nothing makes no strokes. -/
theorem draws_nil : writer.Draws [] (pure 0) := rfl

variable {writer}

/-- An operation has an answer if the sink takes every call. -/
theorem Draws.answer {strokes : List Stroke} {action : Writing Nat}
    (h : writer.Draws strokes action) (htakes : writer.sink.TakesAll) :
    (action writer).1 = .ok (Stroke.texts writer.newline strokes).length := by
  obtain ⟨sink, -, -, hdrawn⟩ := drawAll_of_takesAll writer htakes strokes
  rw [h, hdrawn]
  rfl

/-- The second operation goes on where the first one leads. -/
theorem Draws.add {strokes more : List Stroke} {action next : Writing Nat}
    (h : writer.Draws strokes action)
    (hnext : ∀ sink, (writer.past strokes sink).Draws more next) :
    writer.Draws (strokes ++ more) (do
      let count ← action
      return count + (← next)) := by
  rw [Draws, bind_apply, h]
  cases htaken : (writer.drawAll strokes).1 with
  | true =>
    -- The second operation is known only after `past`, and there the first one has led.
    have hafter := hnext (writer.drawAll strokes).2.sink
    have hnewline : (writer.past strokes (writer.drawAll strokes).2.sink).newline =
      writer.newline := rfl
    rw [Draws, hnewline, ← drawAll_snd _ htaken] at hafter
    simp only [if_true, bind_apply, hafter, drawAll_append _ htaken, Stroke.texts_append,
      String.length_append]
    cases ((writer.drawAll strokes).2.drawAll more).1 <;> rfl
  | false =>
    rw [drawAll_append_of_refused _ htaken, htaken]
    rfl

/-- Calls that are made one by one, until one is refused. -/
theorem putAll_apply (writer : Writer) (pieces : List String) :
    putAll pieces writer = (if (writer.sink.feed pieces).1 then .ok () else .error .refused,
      { writer with sink := (writer.sink.feed pieces).2 }) := by
  induction pieces generalizing writer with
  | nil => rfl
  | cons piece rest ih =>
    rw [putAll, bind_apply, put_apply]
    cases htaken : (writer.sink.put piece).1 with
    | true => simpa [Sink.feed_cons_of_taken _ htaken] using ih _
    | false => simp [Sink.feed_cons_of_refused _ htaken]

/-- One call is a list of calls. -/
theorem put_eq_putAll (piece : String) : put piece = putAll [piece] := by
  rw [putAll, putAll, bind_pure_unit]

/-- In a writer, an operation makes some calls, and once all of them are taken it changes the writer
and answers a count. -/
def Delivers (writer : Writer) (pieces : List String) (change : Writer → Writer) (count : Nat)
    (action : Writing Nat) : Prop :=
  action writer =
    if (writer.sink.feed pieces).1 then
      (.ok count, change { writer with sink := (writer.sink.feed pieces).2 })
    else (.error .refused, { writer with sink := (writer.sink.feed pieces).2 })

/-- Calls with a change after them deliver their pieces. -/
theorem delivers_putAll (writer : Writer) (pieces : List String) (change : Writer → Writer)
    (count : Nat) :
    writer.Delivers pieces change count (do putAll pieces; modify change; return count) := by
  rw [Delivers, bind_apply, putAll_apply]
  cases (writer.sink.feed pieces).1 <;> rfl

/-- A further change comes after the one that an operation makes. -/
theorem Delivers.modify {pieces : List String} {change : Writer → Writer} {count : Nat}
    {action : Writing Nat} (h : writer.Delivers pieces change count action)
    (more : Writer → Writer) :
    writer.Delivers pieces (more ∘ change) count
      (do let count ← action; modify more; return count) := by
  rw [Delivers, bind_apply, h]
  cases (writer.sink.feed pieces).1 <;> rfl

/-- An operation that makes the calls of one stroke. -/
theorem Delivers.draws {stroke : Stroke} {pieces : List String} {change : Writer → Writer}
    {count : Nat} {action : Writing Nat}
    (h : writer.Delivers pieces change count action)
    (hpieces : stroke.pieces writer.newline = pieces)
    (hcount : (stroke.text writer.newline).length = count)
    (hchange : ∀ sink, change { writer with sink } = writer.past [stroke] sink) :
    writer.Draws [stroke] action := by
  subst hpieces hcount
  rw [Draws, h, hchange]
  cases htaken : (writer.sink.feed (stroke.pieces writer.newline)).1 with
  | true =>
    rw [drawAll_cons_of_taken _ htaken, if_pos rfl, Stroke.texts_cons, Stroke.texts_nil,
      String.append_empty]
    rfl
  | false =>
    rw [drawAll_cons_of_refused _ htaken]
    rfl

/-- Past one stroke the column and the start of the line are those after it. -/
theorem past_single (writer : Writer) (stroke : Stroke) (sink : Sink) :
    writer.past [stroke] sink = { writer with
      sink
      column := stroke.column writer.column
      atLineStart := stroke.atLineStart writer.atLineStart
      index := writer.index + (stroke.text writer.newline).length } := by
  simp [past]

/-- The end of a line is one call, after which a new line begins in the first column. -/
theorem delivers_endLine (writer : Writer) :
    writer.Delivers [writer.newline] (fun after =>
      { after with index := after.index + writer.newline.length, column := 0 })
      writer.newline.length endLine := by
  have hput := delivers_putAll writer [writer.newline] (fun after =>
    { after with index := after.index + writer.newline.length, column := 0 }) writer.newline.length
  rwa [← put_eq_putAll] at hput

/-- A line break of a wrap text is one stroke. -/
theorem draws_turn : writer.Draws [.turn] endLine :=
  (delivers_endLine writer).draws rfl (by simp) fun sink => by
    simp [past_single, Stroke.column, Stroke.atLineStart]

/-- So is a line break of a text, after which the line has yet to begin. -/
theorem draws_feed : writer.Draws [.feed] (do
    let count ← endLine
    modify fun writer => { writer with atLineStart := true }
    return count) :=
  ((delivers_endLine writer).modify _).draws rfl (by simp) fun sink => by
    simp [past_single, Stroke.column, Stroke.atLineStart]

/-- A character is one call, and moves the writer by its columns. -/
theorem delivers_putChar (writer : Writer) (c : Char) :
    writer.Delivers [c.toString] (fun after =>
      { after with index := after.index + 1, column := after.column + Text.columns c })
      1 (putChar c) := by
  have hput := delivers_putAll writer [c.toString] (fun after =>
    { after with index := after.index + 1, column := after.column + Text.columns c }) 1
  rwa [← put_eq_putAll] at hput

/-- A character is one stroke. -/
theorem draws_letter (c : Char) : writer.Draws [.letter c] (putChar c) :=
  (delivers_putChar writer c).draws rfl (by simp) fun sink => by
    simp [past_single, Stroke.column, Stroke.atLineStart]

/-- The width of the indentation is that of the strings in force. -/
theorem indentWidth_eq_widths (writer : Writer) :
    writer.indentWidth = Text.widths writer.indents := by
  rw [indentWidth]
  induction writer.indents with
  | nil => rfl
  | cons indent rest ih => rw [List.foldr_cons, ih, Text.widths]

/-- With the spaces up to the anchor it is the width of the margin. -/
theorem widths_margin (writer : Writer) :
    Text.widths writer.margin = writer.indentWidth + writer.padding := by
  rw [margin, Text.widths_append, Text.widths_reverse, Text.widths_spaces, indentWidth_eq_widths]

/-- The lengths of pieces add up to the length of their text. -/
theorem foldr_length (pieces : List String) :
    pieces.foldr (fun piece count => piece.length + count) 0 = (String.join pieces).length := by
  induction pieces with
  | nil => rfl
  | cons piece rest ih => rw [List.foldr_cons, ih, String.join_cons, String.length_append]

/-- An indentation makes a call for each piece of the margin. -/
theorem delivers_indent (writer : Writer) :
    writer.Delivers writer.margin (fun after =>
      { after with
        column := after.column + writer.indentWidth + writer.padding
        index := after.index + (String.join writer.margin).length })
      (String.join writer.margin).length indent := by
  rw [← foldr_length]
  exact delivers_putAll writer writer.margin _ _

/-- An indentation in front of the first character of a line is one stroke. -/
theorem draws_margin : writer.Draws [.margin writer.margin] (do
    let count ← indent
    modify fun writer => { writer with atLineStart := false }
    return count) :=
  ((delivers_indent writer).modify _).draws rfl rfl fun sink => by
    simp [past_single, Stroke.column, Stroke.atLineStart, widths_margin, Nat.add_assoc]

/-- So is an indentation after which the line does not count as begun any more than before. -/
theorem draws_indent (h : writer.atLineStart = false) :
    writer.Draws [.margin writer.margin] indent :=
  (delivers_indent writer).draws rfl rfl fun sink => by
    simp [past_single, Stroke.column, Stroke.atLineStart, widths_margin, Nat.add_assoc, h]

end Writer

/-! ### Texts -/

namespace Stroke

/-- The strokes of a text, with the indentation that its lines get. A line gets it in front of its
first character, so that a line without characters stays empty. -/
def ofText (indentation : List String) : Bool → List Char → List Stroke
  | _, [] => []
  | atLineStart, c :: rest =>
    if c == '\r' then ofText indentation atLineStart rest
    else if c == '\n' then feed :: ofText indentation true rest
    else if atLineStart then margin indentation :: letter c :: ofText indentation false rest
    else letter c :: ofText indentation false rest

/-- The strokes of a wrap text. Each line break is followed by the indentation at once. -/
def ofWrap (indentation : List String) : List Char → List Stroke
  | [] => []
  | c :: rest =>
    if c == '\r' then ofWrap indentation rest
    else if c == '\n' then turn :: margin indentation :: ofWrap indentation rest
    else letter c :: ofWrap indentation rest

end Stroke

namespace Writer

variable {writer : Writer}

/-- A character that begins its line comes after the indentation. -/
theorem draws_writeChar (writer : Writer) {c : Char} (hreturn : ¬(c == '\r') = true)
    (hfeed : ¬(c == '\n') = true) :
    writer.Draws (if writer.atLineStart then [.margin writer.margin, .letter c] else [.letter c])
      (writeChar c) := by
  rw [writeChar, if_neg hreturn, if_neg hfeed]
  change writer.Draws _ (do
    let lead ← if writer.atLineStart then indent else pure 0
    modify fun writer => { writer with atLineStart := false }
    return lead + (← putChar c))
  split
  · have hmargin : writer.Draws ([.margin writer.margin] ++ [.letter c]) (do
        let lead ← (do
          let count ← indent
          modify fun writer => { writer with atLineStart := false }
          return count)
        return lead + (← putChar c)) := draws_margin.add fun _ => draws_letter c
    simp only [bind_assoc, pure_bind] at hmargin
    exact hmargin
  · next hstart =>
    have hsame : { writer with atLineStart := false } = writer := by
      rw [← eq_false_of_ne_true hstart]
    change (do return 0 + (← putChar c) : Writing Nat) { writer with atLineStart := false } = _
    simp only [hsame, Nat.zero_add, bind_pure]
    exact draws_letter c

/-- The characters of a text are written by the strokes of the text. -/
theorem draws_writeChars (text : List Char) :
    writer.Draws (Stroke.ofText writer.margin writer.atLineStart text) (writeChars text) := by
  induction text generalizing writer with
  | nil => exact writer.draws_nil
  | cons c rest ih =>
    -- The induction hypothesis serves for any writer: what is left of the text is written where the
    -- strokes of `c` lead, with the same indentation.
    rw [writeChars, Stroke.ofText]
    split
    · next hreturn =>
      rw [writeChar, if_pos hreturn]
      exact writer.draws_nil.add fun _ => ih
    next hreturn =>
    split
    · next hfeed =>
      rw [writeChar, if_neg hreturn, if_pos hfeed]
      exact draws_feed.add fun _ => ih
    next hfeed =>
    have hchar := writer.draws_writeChar hreturn hfeed
    split
    · next hstart =>
      rw [if_pos hstart] at hchar
      exact hchar.add fun _ => ih
    · next hstart =>
      rw [if_neg hstart] at hchar
      refine hchar.add fun sink => ?_
      have hrest := @ih (writer.past [.letter c] sink)
      rwa [show (writer.past [.letter c] sink).atLineStart = false from
        eq_false_of_ne_true hstart] at hrest

/-- Those of a wrap text are written by the strokes of a wrap. -/
theorem draws_wrapChars (h : writer.atLineStart = false) (text : List Char) :
    writer.Draws (Stroke.ofWrap writer.margin text) (wrapChars text) := by
  induction text generalizing writer with
  | nil => exact writer.draws_nil
  | cons c rest ih =>
    rw [wrapChars, wrapChar, Stroke.ofWrap]
    split
    · exact writer.draws_nil.add fun _ => ih h
    split
    · have hturn : writer.Draws ([.turn] ++ [.margin writer.margin]) (do
          let count ← endLine
          return count + (← indent)) := draws_turn.add fun _ => draws_indent h
      exact hturn.add fun _ => ih rfl
    · exact (draws_letter c).add fun _ => ih h

/-- The strokes of a text. -/
def textStrokes (writer : Writer) (text : String) : List Stroke :=
  Stroke.ofText writer.margin writer.atLineStart text.toList

/-- The strokes of a wrap text in front of a piece of `width` columns, which are none if the piece
may stand where the writer is. -/
def wrapStrokes (writer : Writer) (text : String) (width : Nat) : List Stroke :=
  if writer.fits width then [] else Stroke.ofWrap writer.margin text.toList

/-- A text is written by its strokes. -/
theorem draws_write (writer : Writer) (text : String) :
    writer.Draws (writer.textStrokes text) (write text) :=
  draws_writeChars text.toList

/-- What does not fit on the line does not stand at its start. -/
theorem atLineStart_of_not_fits {width : Nat} (h : ¬writer.fits width) :
    writer.atLineStart = false := by
  simp only [fits, Bool.or_eq_true, not_or, Bool.not_eq_true] at h
  exact h.1.2

/-- A wrap is written by its strokes, which are none if the next piece fits. -/
theorem draws_wrap (writer : Writer) (text : String) (width : Nat) :
    writer.Draws (writer.wrapStrokes text width) (wrap text width) := by
  change writer.Draws _ (if writer.fits width then pure 0 else wrapChars text.toList)
  rw [wrapStrokes]
  split
  · exact writer.draws_nil
  · next hfits => exact draws_wrapChars (atLineStart_of_not_fits hfits) text.toList

/-- A wrap does not lead to the start of a line, since the indentation is written at once. -/
theorem foldl_atLineStart_wrapStrokes (writer : Writer) (text : String) (width : Nat) :
    (writer.wrapStrokes text width).foldl Stroke.atLineStart writer.atLineStart =
      writer.atLineStart := by
  rw [wrapStrokes]
  split
  · rfl
  next hfits =>
  rw [atLineStart_of_not_fits hfits]
  induction text.toList with
  | nil => rfl
  | cons c rest ih =>
    rw [Stroke.ofWrap]
    split
    · exact ih
    split <;> exact ih

/-- A token is written by the strokes of its wrap and those of its text. -/
theorem draws_writeToken (writer : Writer) (text : String) (wrapText : Option String) :
    writer.Draws
      ((match wrapText with
        | some wrapText => writer.wrapStrokes wrapText (Text.firstLineWidth text)
        | none => []) ++ writer.textStrokes text)
      (writeToken text wrapText) := by
  cases wrapText with
  | none => exact writer.draws_nil.add fun _ => draws_write _ text
  | some wrapText =>
    refine (writer.draws_wrap wrapText _).add fun sink => ?_
    have hwrite := draws_write
      (writer.past (writer.wrapStrokes wrapText (Text.firstLineWidth text)) sink) text
    rwa [textStrokes, show Writer.atLineStart (past _ _ _) = writer.atLineStart from
      writer.foldl_atLineStart_wrapStrokes wrapText _] at hwrite

end Writer

end Stencil
