import Mathlib.Data.List.TakeWhile
import Stencil.Proofs.Writer.Operations

/-!
# Tokens on lines of a given width

A token without line breaks is written in one piece: after nothing, after the indentation of its
line, or after a line break and the indentation of the new line. If each token fits on a line of its
own, behind the indentation and the anchor in force, then no line gets wider than it may be.
-/

namespace Stencil

/-- The columns of the characters of a text, each by itself. -/
def Text.columnsOf : List Char → Nat
  | [] => 0
  | c :: rest => columns c + columnsOf rest

namespace Stroke

/-- The strokes of a text without line breaks, apart from the indentation. -/
def letters (text : List Char) : List Stroke := (text.filter (· != '\r')).map letter

/-- A carriage return is no letter. -/
theorem letters_cons (c : Char) (rest : List Char) :
    letters (c :: rest) = if c == '\r' then letters rest else letter c :: letters rest := by
  rw [letters, List.filter_cons]
  by_cases hc : c = '\r' <;> simp [hc, letters]

/-- Letters are written as the text but for its carriage returns. -/
theorem texts_letters (newline : String) (text : List Char) :
    texts newline (letters text) = .ofList (text.filter (· != '\r')) := by
  rw [letters]
  induction text.filter (· != '\r') with
  | nil => rfl
  | cons c rest ih =>
    rw [List.map_cons, texts_cons, text_letter, ih]
    apply String.toList_injective
    simp

/-- Carriage returns take no columns. -/
theorem foldl_column_letters (text : List Char) (start : Nat) :
    (letters text).foldl column start = start + Text.columnsOf text := by
  have hreturn : Text.columns '\r' = 0 := by decide
  induction text generalizing start with
  | nil => rfl
  | cons c rest ih =>
    rw [letters_cons, Text.columnsOf]
    split
    · next hc => rw [ih, beq_iff_eq.mp hc, hreturn, Nat.zero_add]
    · rw [List.foldl_cons, ih, column, Nat.add_assoc]

/-- Letters leave the flag for the start of a line as it is. -/
theorem foldl_atLineStart_letters (text : List Char) (before : Bool) :
    (letters text).foldl atLineStart before = before := by
  rw [letters]
  induction text.filter (· != '\r') with
  | nil => rfl
  | cons c rest ih => exact ih

/-- A text without line breaks in the middle of a line. -/
theorem ofText_letters (indentation : List String) {text : List Char} (h : '\n' ∉ text) :
    ofText indentation false text = letters text := by
  induction text with
  | nil => rfl
  | cons c rest ih =>
    rw [List.mem_cons, not_or] at h
    rw [ofText, letters_cons, ih h.2]
    split
    · rfl
    · rw [if_neg fun hc => h.1 (beq_iff_eq.mp hc).symm, if_neg Bool.false_ne_true]

/-- A text without line breaks at the start of a line. -/
theorem ofText_start (indentation : List String) {text : List Char} (h : '\n' ∉ text) :
    ofText indentation true text =
      if letters text = [] then [] else margin indentation :: letters text := by
  induction text with
  | nil => rfl
  | cons c rest ih =>
    rw [List.mem_cons, not_or] at h
    rw [ofText, letters_cons, ih h.2]
    split
    · rfl
    · rw [if_neg fun hc => h.1 (beq_iff_eq.mp hc).symm, if_pos rfl, ofText_letters _ h.2,
        if_neg (List.cons_ne_nil _ _)]

end Stroke

namespace Writer

variable {writer : Writer}

/-- The indentation of a line takes the columns of the strings in force, or those up to the anchor
if there are more. -/
theorem column_margin (writer : Writer) (start : Nat) :
    (Stroke.margin writer.margin).column start =
      start + max writer.indentWidth (writer.anchors.headD 0) := by
  rw [Stroke.column, widths_margin, padding]
  omega

/-- A token that fits on a line of its own and has no line breaks. Character by character it takes
no more columns than as a whole. -/
structure FitsLine (writer : Writer) (text : String) : Prop where
  unbroken : '\n' ∉ text.toList
  columns : Text.columnsOf text.toList ≤ Text.firstLineWidth text
  room : max writer.indentWidth (writer.anchors.headD 0) + Text.firstLineWidth text ≤
    writer.lineWidth

/-- An operation that sets indentation strings or anchors, or that writes a token which fits on a
line of its own. -/
def Operation.Fits (writer : Writer) : Operation → Prop
  | pushIndent _ | popIndent | pushAnchor | popAnchor => True
  | writeToken text wrapText => wrapText = some "\n" ∧ writer.FitsLine text
  | setLineWidth _ | write _ | wrap _ _ => False

/-- Operations each of which fits where it takes place. -/
def Fits (writer : Writer) : List Operation → Prop
  | [] => True
  | operation :: rest => operation.Fits writer ∧ (operation.perform writer).2.Fits rest

instance (text : String) : Decidable (writer.FitsLine text) :=
  decidable_of_iff ('\n' ∉ text.toList ∧
      Text.columnsOf text.toList ≤ Text.firstLineWidth text ∧
      max writer.indentWidth (writer.anchors.headD 0) + Text.firstLineWidth text ≤
        writer.lineWidth)
    ⟨fun ⟨unbroken, columns, room⟩ => ⟨unbroken, columns, room⟩,
      fun ⟨unbroken, columns, room⟩ => ⟨unbroken, columns, room⟩⟩

instance (writer : Writer) : DecidablePred (Operation.Fits writer)
  | .pushIndent _ | .popIndent | .pushAnchor | .popAnchor => inferInstanceAs (Decidable True)
  | .writeToken text wrapText =>
    inferInstanceAs (Decidable (wrapText = some "\n" ∧ writer.FitsLine text))
  | .setLineWidth _ | .write _ | .wrap _ _ => inferInstanceAs (Decidable False)

instance decidableFits (writer : Writer) : DecidablePred writer.Fits
  | [] => inferInstanceAs (Decidable True)
  | operation :: rest =>
    have := decidableFits (operation.perform writer).2 rest
    inferInstanceAs (Decidable (operation.Fits writer ∧ (operation.perform writer).2.Fits rest))

/-- A writer that is within its line. -/
structure Within (writer : Writer) : Prop where
  column_le : writer.column ≤ writer.lineWidth
  column_start : writer.atLineStart = true → writer.column = 0

/-- What comes before a token: nothing, the indentation of its line, or a line break and the
indentation of the new line. -/
def Leads (writer : Writer) (lead : List Stroke) : Prop :=
  lead = [] ∨ lead = [.margin writer.margin] ∨ lead = [.turn, .margin writer.margin]

/-- A token that fits on a line of its own is written on the current line or on a new one, and stays
within it. -/
theorem exists_lead (hwithin : writer.Within) {text : String} (h : writer.FitsLine text) :
    ∃ lead, (Operation.writeToken text (some "\n")).strokes writer =
        lead ++ Stroke.letters text.toList ∧ writer.Leads lead ∧
      lead.foldl Stroke.column writer.column + Text.columnsOf text.toList ≤
        writer.lineWidth ∧
      (lead.foldl Stroke.atLineStart writer.atLineStart = true →
        lead ++ Stroke.letters text.toList = []) := by
  have hstrokes : (Operation.writeToken text (some "\n")).strokes writer =
      writer.wrapStrokes "\n" (Text.firstLineWidth text) ++ writer.textStrokes text := rfl
  have hroom := h.room
  have hcolumns := h.columns
  rw [hstrokes, wrapStrokes, textStrokes]
  cases hstart : writer.atLineStart with
  | true =>
    rw [if_pos (by simp [fits, hstart]), Stroke.ofText_start _ h.unbroken, List.nil_append]
    have hzero := hwithin.column_start hstart
    split
    · next hletters =>
      refine ⟨[], hletters.symm, .inl rfl, ?_, fun _ => hletters⟩
      rw [List.foldl_nil, hzero]
      omega
    · refine ⟨[.margin writer.margin], rfl, .inr (.inl rfl), ?_,
        fun h => (Bool.false_ne_true h).elim⟩
      rw [List.foldl_cons, List.foldl_nil, column_margin, hzero]
      omega
  | false =>
    rw [Stroke.ofText_letters _ h.unbroken]
    split
    · next hfits =>
      refine ⟨[], rfl, .inl rfl, ?_, fun h => (Bool.false_ne_true h).elim⟩
      have hcolumn := hwithin.column_le
      simp only [fits, hstart, Bool.or_false, Bool.or_eq_true, beq_iff_eq,
        decide_eq_true_eq] at hfits
      rw [List.foldl_nil]
      omega
    · -- The token is moved to a line of its own, where it fits by assumption.
      refine ⟨[.turn, .margin writer.margin], rfl, .inr (.inr rfl), ?_,
        fun h => (Bool.false_ne_true h).elim⟩
      rw [List.foldl_cons, List.foldl_cons, List.foldl_nil, column_margin, Stroke.column]
      omega

/-- An operation that fits leaves a writer within its line. -/
theorem Within.perform (hwithin : writer.Within) (htakes : writer.sink.TakesAll)
    {operation : Operation} (h : operation.Fits writer) :
    (operation.perform writer).2.Within ∧
      (operation.perform writer).2.lineWidth = writer.lineWidth := by
  cases operation with
  | pushIndent indent =>
    change (writer.pushIndent indent).Within ∧ (writer.pushIndent indent).lineWidth = _
    unfold Writer.pushIndent
    split <;> exact ⟨⟨hwithin.column_le, hwithin.column_start⟩, rfl⟩
  | popIndent =>
    change writer.popIndent.2.Within ∧ writer.popIndent.2.lineWidth = _
    unfold Writer.popIndent
    split <;> exact ⟨⟨hwithin.column_le, hwithin.column_start⟩, rfl⟩
  | pushAnchor | popAnchor => exact ⟨⟨hwithin.column_le, hwithin.column_start⟩, rfl⟩
  | writeToken text wrapText =>
    obtain ⟨rfl, hfits⟩ := h
    have hwidth : ((Operation.writeToken text (some "\n")).perform writer).2.lineWidth =
      writer.lineWidth := (balances_writeToken text (some "\n") writer).lineWidth
    have hpast := past_perform htakes (.writeToken text (some "\n"))
    obtain ⟨lead, hstrokes, -, hcolumn, hempty⟩ := exists_lead hwithin hfits
    rw [hstrokes] at hpast
    refine ⟨⟨?_, fun hstart => ?_⟩, hwidth⟩
    · rw [hpast.column, List.foldl_append, Stroke.foldl_column_letters, hwidth]
      exact hcolumn
    · have hbefore := hpast.atLineStart.symm.trans hstart
      rw [List.foldl_append, Stroke.foldl_atLineStart_letters] at hbefore
      -- The writer is at the start of a line only if nothing was drawn.
      rw [hempty hbefore] at hpast
      exact hpast.column.trans (hwithin.column_start (hpast.atLineStart.symm.trans hstart))
  | setLineWidth | write | wrap => exact h.elim

/-- Operations that fit leave a writer within its line. -/
theorem Within.run (hwithin : writer.Within) (htakes : writer.sink.TakesAll)
    {operations : List Operation} (h : writer.Fits operations) :
    (writer.run operations).Within ∧ (writer.run operations).lineWidth = writer.lineWidth := by
  induction operations generalizing writer with
  | nil => exact ⟨hwithin, rfl⟩
  | cons operation rest ih =>
    obtain ⟨hafter, hwidth⟩ := hwithin.perform htakes h.1
    obtain ⟨hend, hwidth'⟩ := ih hafter (past_perform htakes operation).takesAll h.2
    exact ⟨hend, hwidth'.trans hwidth⟩

/-- Operations fit if the first ones do, and the others after them. -/
theorem fits_append {operations more : List Operation} :
    writer.Fits (operations ++ more) ↔
      writer.Fits operations ∧ (writer.run operations).Fits more := by
  induction operations generalizing writer with
  | nil => exact (true_and _).symm ▸ Iff.rfl
  | cons operation rest ih => rw [List.cons_append, Fits, ih, ← and_assoc]; rfl

/-- A writer at its beginning is within its width. -/
theorem within_fresh (sink : Sink) (indenting : Bool) (newline : String) (width : Nat) :
    (fresh sink indenting newline width).Within :=
  ⟨Nat.zero_le width, fun _ => rfl⟩

/-- A new writer writes tokens that fit on lines of their own. No line gets wider than it may be,
and the characters of each token come one right after the other, behind nothing, the indentation of
their line, or a line break and the indentation of the new line. -/
theorem tokens_fit (sink : Sink) (htakes : sink.TakesAll) (indenting : Bool) (newline : String)
    (width : Nat) (operations : List Operation)
    (h : (fresh sink indenting newline width).Fits operations) :
    (∀ done rest, operations = done ++ rest →
      ((fresh sink indenting newline width).run done).column ≤ width) ∧
    ∀ done text wrapText rest, operations = done ++ .writeToken text wrapText :: rest →
      let before := (fresh sink indenting newline width).run done
      ∃ count lead more, (writeToken text wrapText before).1 = .ok count ∧ before.Leads lead ∧
        ((fresh sink indenting newline width).run operations).sink.text =
          before.sink.text ++ Stroke.texts newline lead ++
            .ofList (text.toList.filter (· != '\r')) ++ more := by
  have hfresh := within_fresh sink indenting newline width
  constructor
  · rintro done rest rfl
    obtain ⟨⟨hcolumn, -⟩, hwidth⟩ := hfresh.run htakes (fits_append.mp h).1
    rwa [hwidth] at hcolumn
  · rintro done text wrapText rest rfl before
    obtain ⟨hdone, ⟨rfl, hfits⟩, -⟩ := fits_append.mp h
    obtain ⟨hbefore, -⟩ := hfresh.run htakes hdone
    obtain ⟨lead, hstrokes, hleads, -, -⟩ := exists_lead hbefore hfits
    have hpast := past_run (fresh sink indenting newline width) htakes done
    have hnewline : before.newline = newline := hpast.newline
    have htoken := past_run before hpast.takesAll (.writeToken text (some "\n") :: rest)
    have hanswer := (before.draws_writeToken text (some "\n")).answer hpast.takesAll
    let after := ((Operation.writeToken text (some "\n")).perform before).2
    refine ⟨_, lead, Stroke.texts newline (after.history rest), hanswer, hleads, ?_⟩
    rw [run_append, htoken.text, history, hstrokes, hnewline, Stroke.texts_append,
      Stroke.texts_append, Stroke.texts_letters]
    simp only [String.append_assoc]
    rfl

/-- Wide characters behind an anchor: the line is full after `abc`, and the next token is wrapped to
the anchor, since the indentation is withdrawn by then. -/
theorem tokens_fit_anchored :
    let done : List Operation :=
      [.writeToken "(" (some "\n"), .pushAnchor, .pushIndent "  ", .writeToken "日本" (some "\n")]
    let rest : List Operation := [.popIndent, .writeToken "d" (some "\n")]
    (fresh .unlimited true "\n" 8).Fits (done ++ .writeToken "abc" (some "\n") :: rest) ∧
      ((fresh .unlimited true "\n" 8).run
        (done ++ .writeToken "abc" (some "\n") :: rest)).sink.text = "(日本abc\n d" ∧
      ((fresh .unlimited true "\n" 8).run done).column ≤ 8 ∧
      let before := (fresh .unlimited true "\n" 8).run done
      ∃ count lead more, (writeToken "abc" (some "\n") before).1 = .ok count ∧
        before.Leads lead ∧
          ((fresh .unlimited true "\n" 8).run
            (done ++ .writeToken "abc" (some "\n") :: rest)).sink.text =
            before.sink.text ++ Stroke.texts "\n" lead ++
              .ofList ("abc".toList.filter (· != '\r')) ++ more := by
  intro done rest
  have hfits : (fresh .unlimited true "\n" 8).Fits
    (done ++ .writeToken "abc" (some "\n") :: rest) := by decide +kernel
  obtain ⟨hcolumn, htokens⟩ := tokens_fit .unlimited rfl true "\n" 8 _ hfits
  exact ⟨hfits, by decide +kernel, hcolumn done _ rfl,
    htokens done "abc" (some "\n") rest rfl⟩

end Writer

end Stencil
