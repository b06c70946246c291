import Mathlib.Data.List.DropRight
import Stencil.Proofs.Writer.Operations

/-!
# Starts of lines

A writer is at the start of a line as long as nothing visible stands on it, with one exception: on a
line that a wrap began its indentation is already written, and the writer takes it for begun. So a
wrap never breaks a line that is still blank, unless an earlier wrap began that line: then a second
wrap leaves a line behind that has nothing on it but its indentation.
-/

namespace Stencil

namespace Stroke

/-- Whether a stroke is a line break. -/
def isBreak : Stroke → Bool
  | feed | turn => true
  | letter _ | margin _ => false

/-- Whether a stroke is visible. -/
def isLetter : Stroke → Bool
  | letter _ => true
  | feed | turn | margin _ => false

/-- The strokes on the current line, which are those after the last line break. -/
def currentLine (strokes : List Stroke) : List Stroke := strokes.rtakeWhile (!·.isBreak)

/-- The line break that began the current line; the first line has none. -/
def lastBreak (strokes : List Stroke) : Option Stroke :=
  (strokes.rdropWhile (!·.isBreak)).getLast?

/-- Nothing visible stands on the current line. -/
def Blank (strokes : List Stroke) : Prop := ∀ stroke ∈ currentLine strokes, stroke.isLetter = false

instance (strokes : List Stroke) : Decidable (Blank strokes) :=
  inferInstanceAs (Decidable (∀ stroke ∈ currentLine strokes, stroke.isLetter = false))

/-- Nothing visible stands on the current line, and it was not a wrap that began it. -/
def Untouched (strokes : List Stroke) : Prop := Blank strokes ∧ lastBreak strokes ≠ some turn

variable (strokes : List Stroke)

/-- A line with a letter is not blank. -/
theorem blank_concat_letter (c : Char) : ¬Blank (strokes ++ [letter c]) := by
  simp [Blank, currentLine, isBreak, isLetter]

/-- An indentation leaves a line as blank as it was. -/
theorem blank_concat_margin (pieces : List String) :
    Blank (strokes ++ [margin pieces]) ↔ Blank strokes := by
  simp [Blank, currentLine, isBreak, isLetter, or_imp, forall_and]

/-- It does not begin a line. -/
theorem lastBreak_concat_margin (pieces : List String) :
    lastBreak (strokes ++ [margin pieces]) = lastBreak strokes := by
  simp [lastBreak, isBreak]

/-- The first line is untouched before anything is written. -/
theorem untouched_nil : Untouched [] := by
  simp [Untouched, Blank, currentLine, lastBreak]

/-- A line break of a text begins an untouched line. -/
theorem untouched_concat_feed : Untouched (strokes ++ [feed]) := by
  simp [Untouched, Blank, currentLine, lastBreak, isBreak]

/-- A wrap begins a line that counts as touched. -/
theorem not_untouched_concat_turn : ¬Untouched (strokes ++ [turn]) := by
  simp [Untouched, lastBreak, isBreak]

/-- A letter touches its line. -/
theorem not_untouched_concat_letter (c : Char) : ¬Untouched (strokes ++ [letter c]) :=
  fun h => blank_concat_letter strokes c h.1

/-- An indentation does not touch its line. -/
theorem untouched_concat_margin (pieces : List String) :
    Untouched (strokes ++ [margin pieces]) ↔ Untouched strokes := by
  rw [Untouched, blank_concat_margin, lastBreak_concat_margin, Untouched]

variable {strokes}

/-- A text keeps it up whether the writer is at the start of an untouched line. -/
theorem untouched_ofText (indentation : List String) (text : List Char) {atStart : Bool}
    (h : atStart = true ↔ Untouched strokes) :
    (ofText indentation atStart text).foldl atLineStart atStart = true ↔
      Untouched (strokes ++ ofText indentation atStart text) := by
  induction text generalizing strokes atStart with
  | nil => rwa [ofText, List.append_nil]
  | cons c rest ih =>
    -- Each character takes its strokes over to those before the text. Between the indentation and
    -- the first character of a line the two sides differ, so these are taken over together.
    have hletter (strokes : List Stroke) : false = true ↔ Untouched (strokes ++ [letter c]) :=
      iff_of_false Bool.false_ne_true (not_untouched_concat_letter strokes c)
    rw [ofText]
    split
    · exact ih h
    split
    · rw [List.append_cons]
      exact ih (iff_of_true rfl (untouched_concat_feed strokes))
    split
    · rw [List.append_cons, List.append_cons]
      exact ih (hletter _)
    · next hstart =>
      rw [eq_false_of_ne_true hstart, List.append_cons]
      exact ih (hletter strokes)

/-- After `past`, no wrap of some strokes breaks an untouched line. -/
def BreaksTouched (past strokes : List Stroke) : Prop :=
  ∀ before after, strokes = before ++ turn :: after → ¬Untouched (past ++ before)

/-- Strokes break touched lines only if the first one does and the others do after it. -/
theorem BreaksTouched.cons {past : List Stroke} {stroke : Stroke}
    (h : stroke = turn → ¬Untouched past) (hrest : BreaksTouched (past ++ [stroke]) strokes) :
    BreaksTouched past (stroke :: strokes) := by
  intro before after heq
  cases before with
  | nil =>
    obtain ⟨hturn, -⟩ := List.cons.inj heq
    rw [List.append_nil]
    exact h hturn
  | cons first before =>
    obtain ⟨rfl, hstrokes⟩ := List.cons.inj heq
    rw [List.append_cons]
    exact hrest before after hstrokes

/-- Strokes that break touched lines only do so one after the other. -/
theorem BreaksTouched.append {past more : List Stroke} (h : BreaksTouched past strokes)
    (hmore : BreaksTouched (past ++ strokes) more) : BreaksTouched past (strokes ++ more) := by
  induction strokes generalizing past with
  | nil => rwa [List.append_nil] at hmore
  | cons stroke rest ih =>
    refine .cons (fun hturn => ?_) (ih (fun before after heq => ?_) ?_)
    · rw [← List.append_nil past]
      exact h [] rest (hturn ▸ rfl)
    · rw [← List.append_cons]
      exact h (stroke :: before) after (heq ▸ rfl)
    · rwa [← List.append_cons]

/-- A text has line breaks of its own only. -/
theorem turn_not_mem_ofText (indentation : List String) (atStart : Bool) (text : List Char) :
    turn ∉ ofText indentation atStart text := by
  induction text generalizing atStart with
  | nil => exact List.not_mem_nil
  | cons c rest ih =>
    rw [ofText]
    split
    · exact ih atStart
    split
    · simp [ih]
    split <;> simp [ih]

/-- Strokes without a wrap break no untouched line. -/
theorem breaksTouched_of_not_mem {past : List Stroke} (h : turn ∉ strokes) :
    BreaksTouched past strokes := by
  rintro before after rfl
  exact (h (by simp)).elim

/-- A wrap text on a line that is not untouched leads to none that is. -/
theorem touched_ofWrap (indentation : List String) (text : List Char) (h : ¬Untouched strokes) :
    ¬Untouched (strokes ++ ofWrap indentation text) ∧
      BreaksTouched strokes (ofWrap indentation text) := by
  induction text generalizing strokes with
  | nil =>
    rw [ofWrap, List.append_nil]
    exact ⟨h, breaksTouched_of_not_mem List.not_mem_nil⟩
  | cons c rest ih =>
    rw [ofWrap]
    split
    · exact ih h
    split
    · have hmargin : ¬Untouched (strokes ++ [turn] ++ [margin indentation]) := by
        rw [untouched_concat_margin]
        exact not_untouched_concat_turn strokes
      obtain ⟨hafter, hbreaks⟩ := ih hmargin
      rw [List.append_cons, List.append_cons]
      exact ⟨hafter, .cons (fun _ => h) (.cons (fun hturn => by cases hturn) hbreaks)⟩
    · obtain ⟨hafter, hbreaks⟩ := ih (not_untouched_concat_letter strokes c)
      rw [List.append_cons]
      exact ⟨hafter, .cons (fun hturn => by cases hturn) hbreaks⟩

end Stroke

namespace Writer

variable {writer : Writer} {past : List Stroke}

/-- After `past`, some strokes lead a writer to the start of a line just if this line is untouched,
and no wrap among them breaks an untouched line. -/
structure TracksLine (writer : Writer) (past strokes : List Stroke) : Prop where
  atLineStart : strokes.foldl Stroke.atLineStart writer.atLineStart = true ↔
    Stroke.Untouched (past ++ strokes)
  breaks : Stroke.BreaksTouched past strokes

/-- Strokes that leave a writer on its line. -/
theorem tracksLine_nil (h : writer.atLineStart = true ↔ Stroke.Untouched past) :
    writer.TracksLine past [] where
  atLineStart := by rwa [List.append_nil]
  breaks := Stroke.breaksTouched_of_not_mem List.not_mem_nil

/-- The strokes of a text keep track of whether the line is untouched. -/
theorem tracksLine_textStrokes (h : writer.atLineStart = true ↔ Stroke.Untouched past)
    (text : String) : writer.TracksLine past (writer.textStrokes text) where
  atLineStart := Stroke.untouched_ofText writer.margin text.toList h
  breaks := Stroke.breaksTouched_of_not_mem (Stroke.turn_not_mem_ofText _ _ _)

/-- So do those of a wrap, which does not take place on an untouched line. -/
theorem tracksLine_wrapStrokes (h : writer.atLineStart = true ↔ Stroke.Untouched past)
    (text : String) (width : Nat) : writer.TracksLine past (writer.wrapStrokes text width) := by
  by_cases hfits : writer.fits width
  · rw [wrapStrokes, if_pos hfits]
    exact tracksLine_nil h
  · have hstart := atLineStart_of_not_fits hfits
    have hsame := writer.foldl_atLineStart_wrapStrokes text width
    have htouched : ¬Stroke.Untouched past := by
      rw [← h, hstart]
      exact Bool.false_ne_true
    rw [wrapStrokes, if_neg hfits] at hsame ⊢
    obtain ⟨hafter, hbreaks⟩ := Stroke.touched_ofWrap writer.margin text.toList htouched
    refine ⟨?_, hbreaks⟩
    rw [hsame, hstart]
    exact iff_of_false Bool.false_ne_true hafter

/-- So do the strokes of every operation. -/
theorem tracksLine_strokes (h : writer.atLineStart = true ↔ Stroke.Untouched past)
    (operation : Operation) : writer.TracksLine past (operation.strokes writer) := by
  cases operation with
  | write text => exact tracksLine_textStrokes h text
  | wrap text width => exact tracksLine_wrapStrokes h text width
  | writeToken text wrapText =>
    cases wrapText with
    | none => exact tracksLine_textStrokes h text
    | some wrapText =>
      have hwrap := tracksLine_wrapStrokes h wrapText (Text.firstLineWidth text)
      have hsame := writer.foldl_atLineStart_wrapStrokes wrapText (Text.firstLineWidth text)
      have hwrite := tracksLine_textStrokes (hsame ▸ hwrap.atLineStart) text
      have hstrokes : (Operation.writeToken text (some wrapText)).strokes writer =
        writer.wrapStrokes wrapText (Text.firstLineWidth text) ++ writer.textStrokes text := rfl
      rw [hstrokes]
      refine ⟨?_, hwrap.breaks.append hwrite.breaks⟩
      rw [List.foldl_append, hsame, ← List.append_assoc]
      exact hwrite.atLineStart
  | pushIndent | popIndent | pushAnchor | popAnchor | setLineWidth => exact tracksLine_nil h

/-- A run leads to the start of a line just if this line is untouched, and no wrap of it breaks an
untouched line. -/
theorem tracksLine_run (writer : Writer) (htakes : writer.sink.TakesAll)
    (h : writer.atLineStart = true ↔ Stroke.Untouched past) (operations : List Operation) :
    ((writer.run operations).atLineStart = true ↔
      Stroke.Untouched (past ++ writer.history operations)) ∧
    Stroke.BreaksTouched past (writer.history operations) := by
  induction operations generalizing writer past with
  | nil =>
    have hnil := tracksLine_nil h
    exact ⟨hnil.atLineStart, hnil.breaks⟩
  | cons operation rest ih =>
    have hfirst := past_perform htakes operation
    have htracks := tracksLine_strokes h operation
    obtain ⟨hstart, hbreaks⟩ := ih _ hfirst.takesAll (hfirst.atLineStart ▸ htracks.atLineStart)
    rw [history, ← List.append_assoc]
    exact ⟨hstart, htracks.breaks.append hbreaks⟩

/-- A wrap at a line break alone. -/
theorem text_wrap (htakes : writer.sink.TakesAll) (h : writer.atLineStart = false) (width : Nat) :
    (wrap "\n" width writer).2.sink.text = writer.sink.text ++
      if writer.lineWidth = 0 ∨ writer.column + width ≤ writer.lineWidth then ""
      else writer.newline ++ .join writer.margin := by
  have hpast := past_perform htakes (.wrap "\n" width)
  have hstrokes : (Operation.wrap "\n" width).strokes writer =
      if writer.lineWidth = 0 ∨ writer.column + width ≤ writer.lineWidth then []
      else [.turn, .margin writer.margin] := by
    simp only [Operation.strokes, wrapStrokes, fits, h, Bool.or_false, Bool.or_eq_true,
      beq_iff_eq, decide_eq_true_eq]
    rfl
  refine hpast.text.trans ?_
  rw [hstrokes]
  split <;> simp

/-- A new writer after any operations. It is at the start of a line just if nothing visible stands
on the current line and no wrap began it, and then a wrap writes nothing. On a blank line that a
wrap began the next wrap breaks the line again, if what follows does not fit. No other blank line is
ever broken by a wrap. -/
theorem atLineStart_iff_untouched (sink : Sink) (htakes : sink.TakesAll) (indenting : Bool)
    (newline : String) (lineWidth : Nat) (operations : List Operation) :
    let writer := (fresh sink indenting newline lineWidth).run operations
    let strokes := (fresh sink indenting newline lineWidth).history operations
    writer.sink.text = sink.text ++ Stroke.texts newline strokes ∧
      (writer.atLineStart = true ↔
        Stroke.Blank strokes ∧ Stroke.lastBreak strokes ≠ some .turn) ∧
      (writer.atLineStart = true → ∀ text width, wrap text width writer = (.ok 0, writer)) ∧
      (Stroke.Blank strokes → Stroke.lastBreak strokes = some .turn → ∀ width,
        (wrap "\n" width writer).2.sink.text = writer.sink.text ++
          if writer.lineWidth = 0 ∨ writer.column + width ≤ writer.lineWidth then ""
          else newline ++ .join writer.margin) ∧
      ∀ before after, strokes = before ++ .turn :: after → Stroke.Blank before →
        Stroke.lastBreak before = some .turn := by
  intro writer strokes
  have hpast : Past strokes (fresh sink indenting newline lineWidth) writer :=
    past_run _ htakes operations
  obtain ⟨hstart, hbreaks⟩ := tracksLine_run (fresh sink indenting newline lineWidth)
    htakes (iff_of_true rfl Stroke.untouched_nil) operations
  refine ⟨hpast.text, hstart, fun hflag text width => ?_, fun _ hturn width => ?_,
    fun before after heq hblank => ?_⟩
  · have hfits : writer.fits width = true := by simp [fits, hflag]
    change (if writer.fits width then pure 0 else wrapChars text.toList : Writing Nat) writer = _
    rw [if_pos hfits]
    rfl
  · -- On a blank line that a wrap began the flag is false, and the next wrap measures the column.
    have hflag : writer.atLineStart = false :=
      eq_false_of_ne_true fun hflag => (hstart.mp hflag).2 hturn
    have htext := text_wrap hpast.takesAll hflag width
    rwa [hpast.newline] at htext
  · by_contra hbreak
    exact hbreaks before after heq ⟨hblank, hbreak⟩

/-- The last line is blank, was not begun by a wrap, and is not wrapped. -/
theorem atLineStart_iff_untouched_token :
    let operations : List Operation :=
      [.pushIndent "  ", .writeToken "abc" (some "\n"), .writeToken "de\n" (some "\n")]
    let writer := (fresh .unlimited true "\n" 6).run operations
    let strokes := (fresh .unlimited true "\n" 6).history operations
    writer.sink.text = "  abc\n  de\n" ∧ Stroke.Blank strokes ∧
      Stroke.lastBreak strokes = some .feed ∧ writer.atLineStart = true ∧
      wrap "\n" 9 writer = (.ok 0, writer) := by
  intro operations writer strokes
  have hblank : Stroke.Blank strokes := by decide +kernel
  have hbreak : Stroke.lastBreak strokes = some .feed := by decide +kernel
  obtain ⟨htext, hstart, hwrap, -, -⟩ :=
    atLineStart_iff_untouched .unlimited rfl true "\n" 6 operations
  have hflag : writer.atLineStart = true := hstart.mpr ⟨hblank, hbreak ▸ nofun⟩
  exact ⟨htext.trans (by decide +kernel), hblank, hbreak, hflag, hwrap hflag "\n" 9⟩

/-- Only indentation stands on the line that a wrap began, but the writer takes the line for begun,
and the next wrap leaves it behind as it is. -/
theorem not_atLineStart_wrapped :
    let operations : List Operation := [.pushIndent "  ", .write "abc", .wrap "\n" 4]
    let writer := (fresh .unlimited true "\n" 3).run operations
    let strokes := (fresh .unlimited true "\n" 3).history operations
    Stroke.Blank strokes ∧ writer.atLineStart = false ∧ writer.sink.text = "  abc\n  " ∧
      (writer.run [.wrap "\n" 4]).sink.text = "  abc\n  \n  " := by
  decide +kernel

end Writer

end Stencil
