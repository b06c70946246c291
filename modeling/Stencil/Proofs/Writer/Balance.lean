import Stencil.Writer.Output

/-!
# Writers in balance

Writing text moves a writer along its line, but it neither puts indentation strings or anchors in
force nor withdraws any, and it does not set the width of a line. This holds of each operation up
to the point where the sink refuses a call, so that it holds of writing that is stopped as well.
-/

namespace Stencil.Writer

/-- A writer that is set up as it was before: with the same indentation strings and anchors in
force, in the same order, and with the same width of a line. Where it is on the line, and what its
sink holds, may differ. -/
structure Balanced (before after : Writer) : Prop where
  indenting : after.indenting = before.indenting
  indents : after.indents = before.indents
  anchors : after.anchors = before.anchors
  newline : after.newline = before.newline
  lineWidth : after.lineWidth = before.lineWidth

namespace Balanced

variable {first second third : Writer}

/-- A writer is set up as it is. -/
theorem refl (writer : Writer) : writer.Balanced writer := ⟨rfl, rfl, rfl, rfl, rfl⟩

/-- What is set up as before twice is set up as in the beginning. -/
theorem trans (h : first.Balanced second) (h' : second.Balanced third) : first.Balanced third where
  indenting := h'.indenting.trans h.indenting
  indents := h'.indents.trans h.indents
  anchors := h'.anchors.trans h.anchors
  newline := h'.newline.trans h.newline
  lineWidth := h'.lineWidth.trans h.lineWidth

/-- What was written with a further indentation string in force is balanced once the innermost one
is withdrawn. A writer that does not indent takes no indentation string, and none from it. -/
theorem popIndent {indent : String} (h : (first.pushIndent indent).Balanced second) :
    first.Balanced second.popIndent.2 := by
  cases hindenting : first.indenting with
  | false =>
    rw [pushIndent_of_not_indenting first indent hindenting] at h
    rw [Writer.popIndent, if_neg (by rw [h.indenting, hindenting]; decide)]
    exact h
  | true =>
    rw [pushIndent, if_pos hindenting] at h
    rw [Writer.popIndent, if_pos (h.indenting.trans hindenting)]
    exact { h with indents := congrArg List.tail h.indents }

/-- What was written with a further anchor in force is balanced once the innermost one is
withdrawn. -/
theorem popAnchor (h : first.pushAnchor.Balanced second) : first.Balanced second.popAnchor :=
  { h with anchors := congrArg List.tail h.anchors }

end Balanced

/-! ### Operations -/

/-- An operation leaves every writer in balance, whether it is stopped or not. -/
def Balances {α : Type} (action : Writing α) : Prop :=
  ∀ writer : Writer, writer.Balanced (action writer).2

variable {α β : Type}

/-- The second operation takes place only if the first one is not stopped. -/
theorem bind_apply (action : Writing α) (next : α → Writing β) (writer : Writer) :
    (action >>= next) writer = match action writer with
      | (.ok value, after) => next value after
      | (.error refusal, after) => (.error refusal, after) := by
  change StateT.bind (action : StateM Writer (Except Refusal α)) (ExceptT.bindCont next) writer = _
  unfold StateT.bind
  rcases action writer with ⟨_ | _, _⟩ <;> rfl

/-- After an answer the second operation goes on from where the first one ended. -/
theorem bind_apply_ok {action : Writing α} {next : α → Writing β} {writer : Writer} {value : α}
    (h : (action writer).1 = .ok value) :
    (action >>= next) writer = next value (action writer).2 := by
  have heq : action writer = (.ok value, (action writer).2) := Prod.ext h rfl
  rw [bind_apply, heq]

/-- A call changes the sink alone. -/
theorem put_apply (piece : String) (writer : Writer) :
    put piece writer = (if (writer.sink.put piece).1 then .ok () else .error .refused,
      { writer with sink := (writer.sink.put piece).2 }) := by
  change (unless (writer.sink.put piece).1 do throw .refused : Writing Unit)
    { writer with sink := (writer.sink.put piece).2 } = _
  cases (writer.sink.put piece).1 <;> rfl

/-- An answer leaves a writer as it is. -/
theorem balances_pure (value : α) : Balances (pure value) := Balanced.refl

/-- So does looking at it. -/
theorem balances_get : Balances get := Balanced.refl

/-- A change that leaves the set-up alone leaves a writer in balance. -/
theorem balances_modify {change : Writer → Writer}
    (h : ∀ writer : Writer, writer.Balanced (change writer)) : Balances (modify change) := h

/-- Operations that leave writers in balance do so one after the other. -/
theorem Balances.bind {action : Writing α} {next : α → Writing β} (h : Balances action)
    (hnext : ∀ value, Balances (next value)) : Balances (action >>= next) := by
  intro writer
  have hfirst := h writer
  rw [bind_apply]
  rcases heq : action writer with ⟨_ | value, after⟩ <;> rw [heq] at hfirst
  · exact hfirst
  · exact hfirst.trans (hnext value after)

/-- A call leaves a writer in balance, whether it is taken or not. -/
theorem balances_put (piece : String) : Balances (put piece) := by
  intro writer
  rw [put_apply]
  exact { Balanced.refl writer with }

/-- So do several calls. -/
theorem balances_putAll (pieces : List String) : Balances (putAll pieces) := by
  induction pieces with
  | nil => exact balances_pure ()
  | cons piece rest ih => exact (balances_put piece).bind fun _ => ih

/-- Where a writer is on its line has nothing to do with what is in force. -/
theorem balances_advance (atLineStart : Writer → Bool) (column index : Writer → Nat) :
    Balances (modify fun writer => { writer with
      atLineStart := atLineStart writer, column := column writer, index := index writer }) :=
  balances_modify fun _ => ⟨rfl, rfl, rfl, rfl, rfl⟩

/-- So does the end of a line. -/
theorem balances_endLine : Balances endLine :=
  balances_get.bind fun writer => (balances_put writer.newline).bind fun _ =>
    (balances_advance Writer.atLineStart _ _).bind fun _ => balances_pure _

/-- So does an indentation, which does not change what is in force. -/
theorem balances_indent : Balances indent :=
  balances_get.bind fun _ => (balances_putAll _).bind fun _ =>
    (balances_advance Writer.atLineStart _ _).bind fun _ => balances_pure _

/-- So does a character. -/
theorem balances_putChar (c : Char) : Balances (putChar c) :=
  (balances_put c.toString).bind fun _ =>
    (balances_advance Writer.atLineStart _ _).bind fun _ => balances_pure 1

/-- So does a character with the indentation in front of it. -/
theorem balances_writeChar (c : Char) : Balances (writeChar c) := by
  have hrest (lead : Nat) : Balances (do
      modify fun writer => { writer with atLineStart := false }
      return lead + (← putChar c)) :=
    (balances_advance (fun _ => false) Writer.column Writer.index).bind fun _ =>
      (balances_putChar c).bind fun _ => balances_pure _
  unfold writeChar
  split
  · exact balances_pure 0
  split
  · exact balances_endLine.bind fun _ =>
      (balances_advance (fun _ => true) Writer.column Writer.index).bind fun _ => balances_pure _
  · refine balances_get.bind fun writer => ?_
    cases writer.atLineStart with
    | true => exact balances_indent.bind hrest
    | false => exact hrest 0

/-- So do the characters of a text. -/
theorem balances_writeChars (text : List Char) : Balances (writeChars text) := by
  induction text with
  | nil => exact balances_pure 0
  | cons c rest ih =>
    exact (balances_writeChar c).bind fun _ => ih.bind fun _ => balances_pure _

/-- So does a text. -/
theorem balances_write (text : String) : Balances (write text) := balances_writeChars text.toList

/-- So does a character of a wrap text. -/
theorem balances_wrapChar (c : Char) : Balances (wrapChar c) := by
  unfold wrapChar
  split
  · exact balances_pure 0
  split
  · exact balances_endLine.bind fun _ => balances_indent.bind fun _ => balances_pure _
  · exact balances_putChar c

/-- So do the characters of a wrap text. -/
theorem balances_wrapChars (text : List Char) : Balances (wrapChars text) := by
  induction text with
  | nil => exact balances_pure 0
  | cons c rest ih =>
    exact (balances_wrapChar c).bind fun _ => ih.bind fun _ => balances_pure _

/-- So does a wrap, whether or not it takes place. -/
theorem balances_wrap (text : String) (width : Nat) : Balances (wrap text width) := by
  refine balances_get.bind fun writer => ?_
  cases writer.fits width with
  | true => exact balances_pure 0
  | false => exact balances_wrapChars text.toList

/-- So does a token with the wrap in front of it. -/
theorem balances_writeToken (text : String) (wrapText : Option String) :
    Balances (writeToken text wrapText) := by
  have hrest (lead : Nat) : Balances (do return lead + (← write text)) :=
    (balances_write text).bind fun _ => balances_pure _
  cases wrapText with
  | none => exact hrest 0
  | some wrapText => exact (balances_wrap wrapText _).bind hrest

end Stencil.Writer
