import Stencil.Proofs.Writer.Balance
import Stencil.Proofs.Writer.Operations

/-!
# Writers that do not indent

A writer that does not indent is an indenting one that nobody gives indentation strings. Whatever
else it is asked for, it makes the same calls on its sink, meets the same refusals and answers the
same: anchors, wraps and the width of a line are for both kinds alike. Indentation strings leave no
trace in it, not even in what it does later.
-/

namespace Stencil.Writer

/-- Whether an operation is about indentation strings. -/
def Operation.isIndentation : Operation → Bool
  | pushIndent _ | popIndent => true
  | _ => false

/-- The operations of a run, each with its answer. -/
def transcript (writer : Writer) : List Operation → List (Operation × Answer)
  | [] => []
  | operation :: rest =>
    (operation, (operation.perform writer).1) :: (operation.perform writer).2.transcript rest

/-- The writer as one that indents. -/
def asIndenting (writer : Writer) : Writer := { writer with indenting := true }

/-! ### What both kinds of writers do alike -/

variable {writer : Writer}

/-- The same strokes lead both kinds of writers to the same place. -/
theorem drawAll_asIndenting (writer : Writer) (strokes : List Stroke) :
    writer.asIndenting.drawAll strokes =
      ((writer.drawAll strokes).1, (writer.drawAll strokes).2.asIndenting) := by
  induction strokes generalizing writer with
  | nil => rfl
  | cons stroke rest ih =>
    cases htaken : (writer.sink.feed (stroke.pieces writer.newline)).1 with
    | true =>
      rw [drawAll_cons_of_taken _ htaken, drawAll_cons_of_taken writer.asIndenting htaken]
      exact ih (writer.past [stroke] (writer.sink.feed (stroke.pieces writer.newline)).2)
    | false =>
      rw [drawAll_cons_of_refused _ htaken, drawAll_cons_of_refused writer.asIndenting htaken]
      rfl

/-- An operation that makes the same strokes on both kinds of writers does the same to them. -/
theorem Draws.asIndenting {strokes : List Stroke} {action : Writing Nat}
    (h : writer.Draws strokes action) (h' : writer.asIndenting.Draws strokes action) :
    action writer.asIndenting = ((action writer).1, (action writer).2.asIndenting) := by
  rw [h, h', drawAll_asIndenting]
  rfl

/-- Both kinds of writers carry out an operation alike, unless it is about indentation strings. -/
theorem perform_asIndenting (writer : Writer) {operation : Operation}
    (h : operation.isIndentation = false) :
    operation.perform writer.asIndenting =
      ((operation.perform writer).1, (operation.perform writer).2.asIndenting) := by
  -- The strokes of an operation depend on what is in force, and not on the kind of the writer.
  have hwriting {strokes : List Stroke} {action : Writing Nat} (h : writer.Draws strokes action)
      (h' : writer.asIndenting.Draws strokes action) :
      (action writer.asIndenting).map Answer.written id =
        (.written (action writer).1, (action writer).2.asIndenting) := by
    rw [h.asIndenting h']
    rfl
  cases operation with
  | pushIndent | popIndent => cases h
  | pushAnchor | popAnchor | setLineWidth => rfl
  | write text => exact hwriting (draws_write writer text) (draws_write writer.asIndenting text)
  | wrap text width =>
    exact hwriting (draws_wrap writer text width) (draws_wrap writer.asIndenting text width)
  | writeToken text wrapText =>
    exact hwriting (draws_writeToken writer text wrapText)
      (draws_writeToken writer.asIndenting text wrapText)

/-! ### What a writer that does not indent does with indentation strings -/

/-- A writer that does not indent, and that has no indentation strings in force. -/
structure Unindented (writer : Writer) : Prop where
  indenting : writer.indenting = false
  indents : writer.indents = []

/-- What leaves indentations balanced leaves a writer unindented. -/
theorem Unindented.of_balanced {after : Writer} (h : writer.Unindented)
    (hbalanced : writer.Balanced after) : after.Unindented :=
  ⟨hbalanced.indenting.trans h.indenting, hbalanced.indents.trans h.indents⟩

/-- A writer without indentations takes none back. -/
theorem popIndent_of_not_indenting (writer : Writer) (h : writer.indenting = false) :
    writer.popIndent = (none, writer) := by
  simp [popIndent, h]

/-- An operation about indentation strings leaves the writer alone. -/
theorem Unindented.perform_of_isIndentation (h : writer.Unindented) {operation : Operation}
    (hoperation : operation.isIndentation) : (operation.perform writer).2 = writer := by
  cases operation with
  | pushIndent indent => exact pushIndent_of_not_indenting writer indent h.indenting
  | popIndent => exact congrArg Prod.snd (popIndent_of_not_indenting writer h.indenting)
  | pushAnchor | popAnchor | setLineWidth | write | wrap | writeToken => cases hoperation

/-- No operation puts an indentation string in force. -/
theorem Unindented.perform (h : writer.Unindented) (operation : Operation) :
    (operation.perform writer).2.Unindented := by
  cases hindentation : operation.isIndentation with
  | true => exact (h.perform_of_isIndentation hindentation).symm ▸ h
  | false =>
    cases operation with
    | pushIndent | popIndent => cases hindentation
    | pushAnchor | popAnchor | setLineWidth => exact ⟨h.indenting, h.indents⟩
    | write text => exact h.of_balanced (balances_write text writer)
    | wrap text width => exact h.of_balanced (balances_wrap text width writer)
    | writeToken text wrapText => exact h.of_balanced (balances_writeToken text wrapText writer)

/-- A writer stays unindented over all operations. -/
theorem Unindented.run (h : writer.Unindented) (operations : List Operation) :
    (writer.run operations).Unindented := by
  induction operations generalizing writer with
  | nil => exact h
  | cons operation rest ih => exact ih (h.perform operation)

/-! ### Runs -/

/-- The operations that are not about indentation strings. -/
def others (operations : List Operation) : List Operation :=
  operations.filter fun operation => !operation.isIndentation

/-- An indenting writer, with only those operations that are not about indentation strings, goes
the way of one that does not indent. -/
theorem Unindented.run_others (h : writer.Unindented) (operations : List Operation) :
    writer.asIndenting.run (others operations) = (writer.run operations).asIndenting ∧
      writer.asIndenting.transcript (others operations) =
        (writer.transcript operations).filter fun entry => !entry.1.isIndentation := by
  induction operations generalizing writer with
  | nil => exact ⟨rfl, rfl⟩
  | cons operation rest ih =>
    obtain ⟨hrun, htranscript⟩ := ih (h.perform operation)
    cases hindentation : operation.isIndentation with
    | true =>
      have hothers : others (operation :: rest) = others rest := by simp [others, hindentation]
      have hsame := h.perform_of_isIndentation hindentation
      rw [hothers, Writer.run, transcript, List.filter_cons_of_neg (by simp [hindentation])]
      rw [hsame] at hrun htranscript ⊢
      exact ⟨hrun, htranscript⟩
    | false =>
      have hothers : others (operation :: rest) = operation :: others rest := by
        simp [others, hindentation]
      rw [hothers, Writer.run, Writer.run, transcript, transcript,
        List.filter_cons_of_pos (by simp [hindentation]), perform_asIndenting writer hindentation,
        htranscript]
      exact ⟨hrun, rfl⟩

/-- To withdraw an indentation string answers that there is none. -/
theorem Unindented.withdraws_none (h : writer.Unindented) (operations : List Operation)
    {answer : Answer} (hmem : (.popIndent, answer) ∈ writer.transcript operations) :
    answer = .withdrawn none := by
  induction operations generalizing writer with
  | nil => cases hmem
  | cons operation rest ih =>
    rw [transcript] at hmem
    rcases List.mem_cons.mp hmem with hfirst | hrest
    · obtain ⟨rfl, rfl⟩ := Prod.mk.inj hfirst
      have hpop := popIndent_of_not_indenting writer h.indenting
      exact congrArg (fun popped => Answer.withdrawn popped.1) hpop
    · exact ih (h.perform operation) hrest

/-- A new writer that does not indent, after any operations on any sink, against an indenting one
after those of them that are not about indentation strings. They differ in nothing but their kind:
the sink with its text, the count, the column, the start of the line and all that is in force are
the same, and so is the answer of each operation. The first one never has an indentation string, and
to withdraw one always answers that there is none. -/
theorem run_unindented (sink : Sink) (newline : String) (lineWidth : Nat)
    (operations : List Operation) :
    let plain := fresh sink false newline lineWidth
    let indenting := fresh sink true newline lineWidth
    indenting.run (others operations) = { plain.run operations with indenting := true } ∧
      indenting.transcript (others operations) =
        (plain.transcript operations).filter (fun entry => !entry.1.isIndentation) ∧
      (plain.run operations).indents = [] ∧
      ∀ answer, (.popIndent, answer) ∈ plain.transcript operations → answer = .withdrawn none := by
  intro plain indenting
  have hplain : plain.Unindented := ⟨rfl, rfl⟩
  obtain ⟨hrun, htranscript⟩ := hplain.run_others operations
  exact ⟨hrun, htranscript, (hplain.run operations).indents,
    fun _ => hplain.withdraws_none operations⟩

end Stencil.Writer
