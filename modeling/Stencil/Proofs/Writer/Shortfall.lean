import Stencil.Proofs.Writer.Operations

/-!
# The count of a writer and what its sink took

A writer counts a stroke once all of its calls are taken. For a character and for a line break that
is one call, so that a refusal leaves nothing uncounted. The indentation of a line is many calls:
if one of them is refused, those before it stand in the sink, but not in the count. This is the only
way in which a writer loses count, and what it loses it never makes up for.
-/

namespace Stencil

namespace Sink

/-- The calls that are taken, of some that are made until one is refused. -/
def taken (sink : Sink) : List String → List String
  | [] => []
  | piece :: rest => if (sink.put piece).1 then piece :: (sink.put piece).2.taken rest else []

/-- Calls append to the text what is taken of them. -/
theorem text_feed (sink : Sink) (pieces : List String) :
    (sink.feed pieces).2.text = sink.text ++ String.join (sink.taken pieces) := by
  induction pieces generalizing sink with
  | nil => exact String.append_empty.symm
  | cons piece rest ih =>
    have htext := text_put sink piece
    rw [taken]
    cases htaken : (sink.put piece).1 with
    | true =>
      rw [htaken, if_pos rfl] at htext
      rw [feed_cons_of_taken _ htaken, ih, htext, if_pos rfl, String.join_cons,
        String.append_assoc]
    | false =>
      rw [htaken, if_neg Bool.false_ne_true] at htext
      rw [feed_cons_of_refused _ htaken, htext, if_neg Bool.false_ne_true]
      exact String.append_empty.symm

/-- Calls of which none is refused are all taken. -/
theorem taken_eq_self (sink : Sink) {pieces : List String} (h : (sink.feed pieces).1 = true) :
    sink.taken pieces = pieces := by
  induction pieces generalizing sink with
  | nil => rfl
  | cons piece rest ih =>
    rw [taken]
    cases htaken : (sink.put piece).1 with
    | true =>
      rw [feed_cons_of_taken _ htaken] at h
      rw [if_pos rfl, ih _ h]
    | false =>
      rw [feed_cons_of_refused _ htaken] at h
      cases h

end Sink

namespace Stroke

/-- The lines of a text all get the same indentation. -/
theorem eq_of_margin_mem_ofText {indentation pieces : List String} {atStart : Bool}
    {text : List Char} (h : margin pieces ∈ ofText indentation atStart text) :
    pieces = indentation := by
  induction text generalizing atStart with
  | nil => cases h
  | cons c rest ih =>
    rw [ofText] at h
    split at h
    · exact ih h
    split at h
    · obtain _ | ⟨_, hrest⟩ := h
      exact ih hrest
    split at h
    · obtain _ | ⟨_, _ | ⟨_, hrest⟩⟩ := h
      · rfl
      · exact ih hrest
    · obtain _ | ⟨_, hrest⟩ := h
      exact ih hrest

/-- The lines that a wrap text begins all get the same indentation. -/
theorem eq_of_margin_mem_ofWrap {indentation pieces : List String} {text : List Char}
    (h : margin pieces ∈ ofWrap indentation text) : pieces = indentation := by
  induction text with
  | nil => cases h
  | cons c rest ih =>
    rw [ofWrap] at h
    split at h
    · exact ih h
    split at h
    · obtain _ | ⟨_, _ | ⟨_, hrest⟩⟩ := h
      · rfl
      · exact ih hrest
    · obtain _ | ⟨_, hrest⟩ := h
      exact ih hrest

end Stroke

namespace Writer

/-- How many characters of a refused stroke were taken, of strokes that are made one after the
other. -/
def lost (writer : Writer) : List Stroke → Nat
  | [] => 0
  | stroke :: rest =>
    let fed := writer.sink.feed (stroke.pieces writer.newline)
    if fed.1 then (writer.past [stroke] fed.2).lost rest
    else (String.join (writer.sink.taken (stroke.pieces writer.newline))).length

variable (writer : Writer)

/-- A stroke that is taken loses nothing. -/
theorem lost_cons_of_taken {stroke : Stroke}
    (h : (writer.sink.feed (stroke.pieces writer.newline)).1 = true) (rest : List Stroke) :
    writer.lost (stroke :: rest) =
      (writer.past [stroke] (writer.sink.feed (stroke.pieces writer.newline)).2).lost rest :=
  if_pos h

/-- A stroke that is refused loses the text of it that was taken before. -/
theorem lost_cons_of_refused {stroke : Stroke}
    (h : (writer.sink.feed (stroke.pieces writer.newline)).1 = false) (rest : List Stroke) :
    writer.lost (stroke :: rest) =
      (String.join (writer.sink.taken (stroke.pieces writer.newline))).length :=
  if_neg (Bool.not_eq_true _ ▸ h)

/-- Strokes bring the sink further than the count by what is lost. -/
theorem length_text_drawAll (strokes : List Stroke) :
    (writer.drawAll strokes).2.sink.text.length + writer.index =
      writer.sink.text.length + (writer.drawAll strokes).2.index + writer.lost strokes := by
  induction strokes generalizing writer with
  | nil => rfl
  | cons stroke rest ih =>
    have htext := Sink.text_feed writer.sink (stroke.pieces writer.newline)
    cases htaken : (writer.sink.feed (stroke.pieces writer.newline)).1 with
    | true =>
      rw [Sink.taken_eq_self _ htaken] at htext
      rw [drawAll_cons_of_taken _ htaken, lost_cons_of_taken _ htaken]
      generalize (writer.sink.feed (stroke.pieces writer.newline)).2 = sink at htext
      have hrest := ih (writer.past [stroke] sink)
      have hindex : (writer.past [stroke] sink).index =
          writer.index + (stroke.text writer.newline).length := by
        rw [past_single]
      have hsink : (writer.past [stroke] sink).sink.text.length =
          writer.sink.text.length + (stroke.text writer.newline).length := by
        change sink.text.length = _
        rw [htext, String.length_append, Stroke.text]
      omega
    | false =>
      rw [drawAll_cons_of_refused _ htaken, lost_cons_of_refused _ htaken]
      generalize (writer.sink.feed (stroke.pieces writer.newline)).2 = sink at htext
      change sink.text.length + writer.index = writer.sink.text.length + writer.index + _
      rw [htext, String.length_append]
      omega

/-- Something is lost only at a line whose indentation is refused after the beginning of it was
taken. -/
theorem lost_eq_zero_or (strokes : List Stroke) :
    writer.lost strokes = 0 ∨ ∃ lead pieces rest,
      strokes = lead ++ .margin pieces :: rest ∧ (writer.drawAll lead).1 = true ∧
        ((writer.drawAll lead).2.sink.feed pieces).1 = false ∧
        writer.lost strokes =
          (String.join ((writer.drawAll lead).2.sink.taken pieces)).length := by
  induction strokes generalizing writer with
  | nil => exact .inl rfl
  | cons stroke rest ih =>
    cases htaken : (writer.sink.feed (stroke.pieces writer.newline)).1 with
    | true =>
      rw [lost_cons_of_taken _ htaken]
      obtain hzero | ⟨lead, pieces, others, rfl, hlead, hrefused, hlost⟩ :=
        ih (writer.past [stroke] (writer.sink.feed (stroke.pieces writer.newline)).2)
      · exact .inl hzero
      · refine .inr ⟨stroke :: lead, pieces, others, rfl, ?_⟩
        rw [drawAll_cons_of_taken _ htaken]
        exact ⟨hlead, hrefused, hlost⟩
    | false =>
      rw [lost_cons_of_refused _ htaken]
      -- Apart from indentation a stroke is a single call, of which nothing is taken.
      have hsingle {piece : String} (h : (writer.sink.feed [piece]).1 = false) :
          (String.join (writer.sink.taken [piece])).length = 0 := by
        rw [Sink.feed_singleton] at h
        rw [Sink.taken, h]
        rfl
      cases stroke with
      | letter | feed | turn => exact .inl (hsingle htaken)
      | margin pieces => exact .inr ⟨[], pieces, rest, rfl, rfl, htaken, rfl⟩

/-! ### Runs -/

/-- How many characters the operations of a run lose in all. -/
def lostIn (writer : Writer) : List Operation → Nat
  | [] => 0
  | operation :: rest =>
    writer.lost (operation.strokes writer) + (operation.perform writer).2.lostIn rest

variable {writer}

/-- To wrap a text draws no margin but that of the writer. -/
theorem eq_of_margin_mem_wrapStrokes {pieces : List String} {text : String} {width : Nat}
    (h : .margin pieces ∈ writer.wrapStrokes text width) : pieces = writer.margin := by
  rw [wrapStrokes] at h
  split at h
  · cases h
  · exact Stroke.eq_of_margin_mem_ofWrap h

/-- An operation gives each line the indentation that is in force before it. -/
theorem eq_of_margin_mem_strokes {pieces : List String} {operation : Operation}
    (h : .margin pieces ∈ operation.strokes writer) : pieces = writer.margin := by
  cases operation with
  | write text => exact Stroke.eq_of_margin_mem_ofText h
  | wrap text width => exact eq_of_margin_mem_wrapStrokes h
  | writeToken text wrapText =>
    obtain hwrap | hwrite := List.mem_append.mp h
    · cases wrapText with
      | none => cases hwrap
      | some wrapText => exact eq_of_margin_mem_wrapStrokes hwrap
    · exact Stroke.eq_of_margin_mem_ofText hwrite
  | pushIndent | popIndent | pushAnchor | popAnchor | setLineWidth => cases h

/-- An operation answers that it was refused a call if one of its strokes was. -/
theorem answer_perform {operation : Operation}
    (h : (writer.drawAll (operation.strokes writer)).1 = false) :
    (operation.perform writer).1 = .written (.error .refused) := by
  obtain ⟨action, hdraws, hperform⟩ | ⟨hstrokes, -⟩ := operation.writes_or_sets writer
  · rw [hperform, hdraws, h]
    rfl
  · rw [hstrokes] at h
    cases h

/-- An operation that is refused a call within the indentation of a line: all before this line is
written, and the first calls of the indentation are taken. -/
structure Stumbles (writer : Writer) (operation : Operation) : Prop where
  answer : (operation.perform writer).1 = .written (.error .refused)
  margin : ∃ lead rest, operation.strokes writer = lead ++ .margin writer.margin :: rest ∧
    (writer.drawAll lead).1 = true ∧ ((writer.drawAll lead).2.sink.feed writer.margin).1 = false ∧
    writer.lost (operation.strokes writer) =
      (String.join ((writer.drawAll lead).2.sink.taken writer.margin)).length

/-- An operation that loses something stumbles. -/
theorem lost_eq_zero_or_stumbles (operation : Operation) :
    writer.lost (operation.strokes writer) = 0 ∨ writer.Stumbles operation := by
  obtain hzero | ⟨lead, pieces, rest, hstrokes, hlead, hrefused, hlost⟩ :=
    lost_eq_zero_or writer (operation.strokes writer)
  · exact .inl hzero
  have hmem : .margin pieces ∈ operation.strokes writer := hstrokes ▸ by simp
  have hpieces := eq_of_margin_mem_strokes hmem
  subst hpieces
  -- The strokes end at this line, so that the operation is stopped.
  refine .inr ⟨answer_perform ?_, lead, rest, hstrokes, hlead, hrefused, hlost⟩
  rw [hstrokes, drawAll_append _ hlead, drawAll_cons_of_refused _ hrefused]

/-- An operation brings the sink further than the count by what it loses. -/
theorem length_text_perform (writer : Writer) (operation : Operation) :
    (operation.perform writer).2.sink.text.length + writer.index =
      writer.sink.text.length + (operation.perform writer).2.index +
        writer.lost (operation.strokes writer) := by
  have hlevel := level_perform operation writer
  rw [hlevel.sink, hlevel.index]
  exact length_text_drawAll writer (operation.strokes writer)

/-- The text grows by as much as the count and what is lost together. -/
theorem length_text_run (writer : Writer) (operations : List Operation) :
    (writer.run operations).sink.text.length + writer.index =
      writer.sink.text.length + (writer.run operations).index + writer.lostIn operations := by
  induction operations generalizing writer with
  | nil => rfl
  | cons operation rest ih =>
    have hfirst := length_text_perform writer operation
    have hrest := ih (operation.perform writer).2
    rw [run, lostIn]
    omega

/-- Nothing is lost over all if no operation loses anything. -/
theorem lostIn_eq_zero_iff {operations : List Operation} :
    writer.lostIn operations = 0 ↔ ∀ done operation rest,
      operations = done ++ operation :: rest →
        (writer.run done).lost (operation.strokes (writer.run done)) = 0 := by
  induction operations generalizing writer with
  | nil => exact iff_of_true rfl fun done _ _ heq => by cases done <;> cases heq
  | cons operation rest ih =>
    rw [lostIn, Nat.add_eq_zero_iff, ih]
    constructor
    · rintro ⟨hfirst, hrest⟩ done operation' others heq
      cases done with
      | nil =>
        obtain ⟨rfl, rfl⟩ := List.cons.inj heq
        exact hfirst
      | cons first done =>
        obtain ⟨rfl, hothers⟩ := List.cons.inj heq
        exact hrest done operation' others hothers
    · intro h
      exact ⟨h [] operation rest rfl, fun done operation' others heq =>
        h (operation :: done) operation' others (heq ▸ rfl)⟩

/-- A new writer after any operations on a sink that may refuse any call. What the sink took is the
count of the writer and what the operations lost. An operation loses nothing unless it stumbles, and
then it answers that it was refused a call. So the count is right if and only if, wherever an
operation stumbled, nothing of the indentation was taken. -/
theorem length_text_fresh (sink : Sink) (indenting : Bool) (newline : String) (lineWidth : Nat)
    (operations : List Operation) :
    let start := fresh sink indenting newline lineWidth
    let writer := start.run operations
    writer.sink.text.length = sink.text.length + writer.index + start.lostIn operations ∧
      (∀ done operation rest, operations = done ++ operation :: rest →
        (start.run done).lost (operation.strokes (start.run done)) = 0 ∨
          (start.run done).Stumbles operation) ∧
      (writer.sink.text.length = sink.text.length + writer.index ↔
        ∀ done operation rest, operations = done ++ operation :: rest →
          (start.run done).lost (operation.strokes (start.run done)) = 0) := by
  intro start writer
  have htext : writer.sink.text.length =
    sink.text.length + writer.index + start.lostIn operations := length_text_run start operations
  refine ⟨htext, fun done operation _ _ => lost_eq_zero_or_stumbles operation, ?_⟩
  rw [← lostIn_eq_zero_iff]
  omega

/-- The sink takes the first of two indentation strings and refuses the second, and the count does
not know of the first. -/
theorem not_length_text_refused :
    let operations : List Operation := [.pushIndent "  ", .pushIndent "  ", .write "x"]
    let writer := (fresh (.limited 3) true "\n" 0).run operations
    writer.sink.text = "  " ∧ writer.index = 0 := by
  decide +kernel

end Writer

end Stencil
