import Mathlib.Data.List.Basic
import Stencil.Body.Node
import Stencil.Proofs.Writer.Bare

/-!
# Bodies of literal text

A body that consists of literals only is cut at its line breaks, however its text is divided into
literals. What is written for the lines depends on which of the breaks between them are written.
-/

namespace Stencil

namespace Text

/-- A line of text without its carriage returns. -/
def withoutReturns (line : List Char) : String := .ofList (line.filter (· != '\r'))

/-- The text of some lines, with a text for each break between two of them that is kept. Whether a
break is kept depends on the line before it, and on whether that line comes after a break. -/
def layOut (newline : String) (keeps : Bool → List Char → Bool) (fresh : Bool) :
    List (List Char) → String
  | [] => ""
  | [line] => withoutReturns line
  | line :: next :: rest =>
    withoutReturns line ++ (if keeps fresh line then newline else "") ++
      layOut newline keeps true (next :: rest)

/-- Whether the break after a line of literal text is kept: if the line is empty, it has to come
after a break, and else it has to have more than carriage returns. -/
def keepsBreak (fresh : Bool) (line : List Char) : Bool :=
  if line.isEmpty then fresh else line.any (· != '\r')

/-- The lines of a text. A carriage return in front of a line feed belongs to the break. -/
def lines (text : String) : List (List Char) := (Node.joinBreaks text.toList).splitOn '\n'

/-- The lines of a text are split off from the front. -/
theorem lines_eq (text : String) :
    lines text = (Node.joinBreaks text.toList).splitOnPPrepend (· == '\n') [] := by
  rw [lines, List.splitOn_eq_splitOnP, List.splitOnP_eq_splitOnPPrepend]

/-! ### Lines -/

/-- What is split at line feeds has none, whatever part of it was there before. -/
theorem unbroken_of_mem_splitOnPPrepend {text pending line : List Char}
    (h : line ∈ text.splitOnPPrepend (· == '\n') pending) (hpending : '\n' ∉ pending) :
    '\n' ∉ line := by
  induction text generalizing pending with
  | nil =>
    rw [List.splitOnPPrepend_nil, List.mem_singleton] at h
    rwa [h, List.mem_reverse]
  | cons c rest ih =>
    rw [List.splitOnPPrepend_cons_eq_if] at h
    split at h
    · rcases List.mem_cons.mp h with rfl | h
      · rwa [List.mem_reverse]
      · exact ih (List.splitOnP_eq_splitOnPPrepend ▸ h) List.not_mem_nil
    · next hc =>
      refine ih h fun hmem => ?_
      rcases List.mem_cons.mp hmem with rfl | hmem
      · exact hc rfl
      · exact hpending hmem

/-- A line has no line feeds. -/
theorem unbroken_of_mem_lines {text : String} {line : List Char} (h : line ∈ lines text) :
    '\n' ∉ line :=
  unbroken_of_mem_splitOnPPrepend (lines_eq text ▸ h) List.not_mem_nil

/-! ### Lines that are laid out -/

section

variable (newline : String) (keeps : Bool → List Char → Bool) (fresh : Bool)

/-- A line with others after it is laid out in front of its break. -/
theorem layOut_cons (line : List Char) {rest : List (List Char)} (h : rest ≠ []) :
    layOut newline keeps fresh (line :: rest) =
      withoutReturns line ++ (if keeps fresh line then newline else "") ++
        layOut newline keeps true rest := by
  cases rest with
  | nil => exact absurd rfl h
  | cons next rest => rfl

/-- An empty line has no carriage returns to lose. -/
theorem withoutReturns_nil : withoutReturns [] = "" := rfl

/-- Two parts of a line lose their carriage returns one by one. -/
theorem withoutReturns_append (line more : List Char) :
    withoutReturns (line ++ more) = withoutReturns line ++ withoutReturns more := by
  simp [withoutReturns]

/-- A line is printed as it is but for its carriage returns. -/
theorem printed_of_unbroken {line : List Char} (h : '\n' ∉ line) :
    printed newline (.ofList line) = withoutReturns line := by
  rw [printed, String.toList_ofList, translate_of_unbroken]
  · rfl
  · rw [String.toList_ofList]
    exact fun hmem => h (List.mem_of_mem_filter hmem)

/-- A carriage return in front of a line feed is not printed anyway. -/
theorem printed_joinBreaks (text : List Char) :
    printed newline (.ofList (Node.joinBreaks text)) = printed newline (.ofList text) := by
  have hkept : (Node.joinBreaks text).filter (· != '\r') = text.filter (· != '\r') := by
    induction text using Node.joinBreaks.induct with
    | case1 rest ih => simp [Node.joinBreaks, ih]
    | case2 c rest h ih =>
      rw [Node.joinBreaks]
      · simp [List.filter_cons, ih]
      · exact h
    | case3 => rfl
  rw [printed, printed, String.toList_ofList, String.toList_ofList, hkept]

/-- Lines that are split off are laid out as the text is printed, if each break is kept. -/
theorem layOut_splitOnPPrepend (text pending : List Char) :
    layOut newline (fun _ _ => true) fresh (text.splitOnPPrepend (· == '\n') pending) =
      withoutReturns pending.reverse ++ printed newline (.ofList text) := by
  induction text generalizing fresh pending with
  | nil =>
    have hempty : printed newline (.ofList []) = "" := printed_of_unbroken newline List.not_mem_nil
    rw [List.splitOnPPrepend_nil, layOut, hempty, String.append_empty]
  | cons c rest ih =>
    rw [List.splitOnPPrepend_cons_eq_if, printed_ofList_cons]
    split
    · next hc =>
      obtain rfl : c = '\n' := beq_iff_eq.mp hc
      rw [layOut_cons _ _ _ _ (List.splitOnP_ne_nil _ _), if_pos rfl,
        List.splitOnP_eq_splitOnPPrepend, ih, printed_feed, List.reverse_nil, withoutReturns_nil,
        String.empty_append, String.append_assoc]
    · next hc =>
      have hunbroken : '\n' ∉ [c] := fun hmem =>
        hc (beq_iff_eq.mpr (List.mem_singleton.mp hmem).symm)
      have hchar : printed newline c.toString = withoutReturns [c] :=
        printed_of_unbroken newline hunbroken
      rw [ih, List.reverse_cons, withoutReturns_append, hchar, String.append_assoc]

/-- A text is printed with all of its line breaks. -/
theorem layOut_lines (text : String) :
    layOut newline (fun _ _ => true) fresh (lines text) = printed newline text := by
  rw [lines_eq, layOut_splitOnPPrepend, printed_joinBreaks, String.ofList_toList,
    List.reverse_nil, withoutReturns_nil, String.empty_append]

/-- To lose breaks makes no text longer. -/
theorem length_layOut_le (lines : List (List Char)) :
    (layOut newline keeps fresh lines).length ≤
      (layOut newline (fun _ _ => true) fresh lines).length := by
  induction lines generalizing fresh with
  | nil => exact Nat.le_refl _
  | cons line rest ih =>
    by_cases hrest : rest = []
    · subst hrest
      exact Nat.le_refl _
    · rw [layOut_cons _ _ _ _ hrest, layOut_cons _ _ _ _ hrest, if_pos rfl]
      simp only [String.length_append]
      have hle := ih true
      split
      · omega
      · simp only [String.length_empty]
        omega

/-- Lines are laid out with all of their breaks if and only if each break is kept or nothing is
written for a break. -/
theorem layOut_eq_iff (lines : List (List Char)) :
    layOut newline keeps fresh lines = layOut newline (fun _ _ => true) fresh lines ↔
      newline = "" ∨ ∀ earlier line later, lines = earlier ++ line :: later → later ≠ [] →
        keeps (fresh || !earlier.isEmpty) line := by
  induction lines generalizing fresh with
  | nil =>
    refine iff_of_true rfl (.inr fun earlier line later hsplit => ?_)
    cases earlier <;> cases hsplit
  | cons line rest ih =>
    by_cases hrest : rest = []
    · subst hrest
      refine iff_of_true rfl (.inr fun earlier other later hsplit hlater => ?_)
      have hlength := congrArg List.length hsplit
      simp only [List.length_append, List.length_cons, List.length_nil] at hlength
      exact absurd (List.length_eq_zero_iff.mp (by omega)) hlater
    · -- The line that is split off is the first one or one of the rest.
      have hsplits : (∀ earlier other later, line :: rest = earlier ++ other :: later →
          later ≠ [] → keeps (fresh || !earlier.isEmpty) other) ↔
          keeps fresh line ∧ ∀ earlier other later, rest = earlier ++ other :: later →
            later ≠ [] → keeps true other := by
        constructor
        · intro h
          refine ⟨by simpa using h [] line rest rfl hrest, fun earlier other later hsplit => ?_⟩
          simpa using h (line :: earlier) other later (congrArg _ hsplit)
        · rintro ⟨hline, h⟩ earlier other later hsplit hlater
          cases earlier with
          | nil =>
            cases hsplit
            simpa using hline
          | cons first earlier =>
            cases hsplit
            simpa using h earlier other later rfl hlater
      have hrest' := ih true
      simp only [Bool.true_or] at hrest'
      rw [layOut_cons _ _ _ _ hrest, layOut_cons _ _ _ _ hrest, if_pos rfl, hsplits]
      cases keeps fresh line with
      | true =>
        rw [if_pos rfl, String.append_right_inj, hrest']
        simp
      | false =>
        -- The rest is no longer than with all breaks, so that a lost break shortens the whole.
        have hle := length_layOut_le newline keeps true rest
        constructor
        · intro heq
          have hlength := congrArg String.length heq
          simp only [Bool.false_eq_true, if_false, String.length_append, String.length_empty]
            at hlength
          exact .inl (String.length_eq_zero_iff.mp (by omega))
        · rintro (hnewline | ⟨hfalse, -⟩)
          · rw [hrest'.mpr (.inl hnewline), hnewline]
            simp
          · cases hfalse

end

/-- A break is kept after a line with more than carriage returns, and after an empty line that is
not the first. -/
theorem keepsBreak_iff {fresh : Bool} {line : List Char} :
    keepsBreak fresh line ↔ (∃ c ∈ line, c ≠ '\r') ∨ (line = [] ∧ fresh) := by
  unfold keepsBreak
  cases line with
  | nil => simp
  | cons c rest => simp

/-- A text is laid out as it is printed if and only if nothing is written for a line break, or every
line with a break after it has more than carriage returns or is empty and not the first one. -/
theorem layOut_eq_printed_iff (newline text : String) :
    layOut newline keepsBreak false (lines text) = printed newline text ↔
      newline = "" ∨ ∀ earlier line later, lines text = earlier ++ line :: later → later ≠ [] →
        (∃ c ∈ line, c ≠ '\r') ∨ (line = [] ∧ earlier ≠ []) := by
  rw [← layOut_lines newline false text, layOut_eq_iff]
  simp only [keepsBreak_iff, Bool.false_or, Bool.not_eq_true', List.isEmpty_eq_false_iff]

end Text

namespace Node

/-- Lines of text as nodes, with a break between two of them. -/
def ofLines : List (List Char) → List Node
  | [] => []
  | [line] => ofSegment line
  | line :: next :: rest => ofSegment line ++ .newline :: ofLines (next :: rest)

/-- A line with others after it is a segment with a break after it. -/
theorem ofLines_cons (line : List Char) {rest : List (List Char)} (h : rest ≠ []) :
    ofLines (line :: rest) = ofSegment line ++ .newline :: ofLines rest := by
  cases rest with
  | nil => exact absurd rfl h
  | cons next rest => rfl

/-- An indentation that is nothing but text is a segment like any other. -/
theorem ofLiteral_eq (lineStart : Bool) (pending text : List Char) :
    (ofLiteral lineStart pending text).1 ++ ofEdge (ofLiteral lineStart pending text).2 =
      ofLines (text.splitOnPPrepend (· == '\n') pending) := by
  induction text generalizing lineStart pending with
  | nil =>
    rw [ofLiteral, List.splitOnPPrepend_nil, ofLines]
    split
    · next hindent =>
      have hne : pending.reverse.isEmpty = false := by
        simp only [isIndent, Bool.and_eq_true, Bool.not_eq_true'] at hindent
        exact hindent.2.1
      rw [List.nil_append, ofSegment, hne]
      rfl
    · exact List.append_nil _
  | cons c rest ih =>
    by_cases hc : c = '\n'
    · subst hc
      rw [List.splitOnPPrepend_cons_pos (by rfl), ofLines_cons _ (List.splitOnP_ne_nil _ _),
        List.splitOnP_eq_splitOnPPrepend, ← ih true, ofLiteral, List.append_assoc, List.cons_append]
    · have hne : (c == '\n') = false := beq_false_of_ne hc
      rw [List.splitOnPPrepend_cons_eq_if, if_neg (by rw [hne]; decide), ← ih lineStart, ofLiteral]
      exact hc

/-- It does not matter how the text is divided into literals. -/
theorem ofChunks_literals (lineStart : Bool) (literal : String) (texts : List String) :
    ofChunks lineStart literal (texts.map Chunk.literal) =
      ofLines (Text.lines (literal ++ String.join texts)) := by
  induction texts generalizing literal with
  | nil =>
    rw [List.map_nil, ofChunks, String.join_nil, String.append_empty, Text.lines,
      List.splitOn_eq_splitOnP, List.splitOnP_eq_splitOnPPrepend, ← ofLiteral_eq lineStart]
    rfl
  | cons text rest ih =>
    rw [List.map_cons, ofChunks, ih, String.join_cons, String.append_assoc]

/-- Literals become the lines of the text that they make together. -/
theorem ofBody_literals (texts : List String) :
    ofBody (texts.map Chunk.literal) = ofLines (Text.lines (String.join texts)) := by
  rw [ofBody, ofChunks_literals, String.empty_append]

end Node

end Stencil
