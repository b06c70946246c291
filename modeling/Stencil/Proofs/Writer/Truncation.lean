import Stencil.Proofs.Writer.Balance

/-!
# Sinks that refuse calls

A sink may refuse any of the calls that are made on it. What is written into such a sink is compared
with what is written into one that takes every call and is the same otherwise. As long as no call is
refused there is no difference. Once a call is refused no further one is made, so that the text of
the sink is the beginning of what the other sink holds in the end: a refusal only truncates.

The comparison is the same for operations of a writer and for renders, and for both it is passed on
where one follows the other. An `Outlet` says where in a state the sink is.
-/

namespace Stencil

namespace Sink

/-- The sink made to take every call. -/
def freed (sink : Sink) : Sink := { sink with accepts := fun _ _ _ => true }

/-- Calls that are made one after the other until one is refused: whether all were taken, and the
sink after the last one. -/
def feed (sink : Sink) : List String → Bool × Sink
  | [] => (true, sink)
  | piece :: rest =>
    if (sink.put piece).1 then (sink.put piece).2.feed rest else (false, (sink.put piece).2)

variable (sink : Sink)

/-- No calls change nothing. -/
@[simp] theorem feed_nil : sink.feed [] = (true, sink) := rfl

/-- After a call that is taken the other calls are made. -/
theorem feed_cons_of_taken {piece : String} (h : (sink.put piece).1 = true) (rest : List String) :
    sink.feed (piece :: rest) = (sink.put piece).2.feed rest := if_pos h

/-- After a call that is refused no other call is made. -/
theorem feed_cons_of_refused {piece : String} (h : (sink.put piece).1 = false)
    (rest : List String) : sink.feed (piece :: rest) = (false, (sink.put piece).2) :=
  if_neg (Bool.not_eq_true _ ▸ h)

/-- A call that is taken would also be taken by a sink that takes every call. -/
theorem put_freed_of_taken {piece : String} (h : (sink.put piece).1 = true) :
    sink.freed.put piece = (true, (sink.put piece).2.freed) := by
  unfold put at h ⊢
  split at h
  · next haccepts =>
    rw [if_pos haccepts]
    rfl
  · cases h

/-- One call is a list of calls. -/
theorem feed_singleton (piece : String) : sink.feed [piece] = sink.put piece := by
  cases htaken : (sink.put piece).1 with
  | true => rw [feed_cons_of_taken sink htaken, feed_nil, ← htaken]
  | false => rw [feed_cons_of_refused sink htaken, ← htaken]

/-- What comes after calls that were all taken. -/
theorem feed_append {pieces : List String} (h : (sink.feed pieces).1 = true)
    (more : List String) : sink.feed (pieces ++ more) = (sink.feed pieces).2.feed more := by
  induction pieces generalizing sink with
  | nil => rfl
  | cons piece rest ih =>
    cases htaken : (sink.put piece).1 with
    | true =>
      rw [feed_cons_of_taken sink htaken] at h ⊢
      rw [List.cons_append, feed_cons_of_taken sink htaken]
      exact ih _ h
    | false =>
      rw [feed_cons_of_refused sink htaken] at h
      cases h

/-- Nothing comes after a call that was refused. -/
theorem feed_append_of_refused {pieces : List String} (h : (sink.feed pieces).1 = false)
    (more : List String) : sink.feed (pieces ++ more) = sink.feed pieces := by
  induction pieces generalizing sink with
  | nil => cases h
  | cons piece rest ih =>
    cases htaken : (sink.put piece).1 with
    | true =>
      rw [feed_cons_of_taken sink htaken] at h ⊢
      rw [List.cons_append, feed_cons_of_taken sink htaken]
      exact ih _ h
    | false =>
      rw [List.cons_append, feed_cons_of_refused sink htaken, feed_cons_of_refused sink htaken]

/-- Calls one of which is refused: the sink has the text of those before it, and was made no call
after it. -/
theorem exists_refused {pieces : List String} (h : (sink.feed pieces).1 = false) :
    ∃ taken piece rest, pieces = taken ++ piece :: rest ∧
      sink.accepts (sink.calls + taken.length) (taken.foldl (· ++ ·) sink.text) piece = false ∧
      (sink.feed pieces).2 = { sink with
        text := taken.foldl (· ++ ·) sink.text, calls := sink.calls + taken.length + 1 } := by
  induction pieces generalizing sink with
  | nil => cases h
  | cons first others ih =>
    cases haccepts : sink.accepts sink.calls sink.text first with
    | true =>
      have hput : sink.put first =
          (true, { sink with text := sink.text ++ first, calls := sink.calls + 1 }) :=
        if_pos haccepts
      have htaken : (sink.put first).1 = true := by rw [hput]
      rw [feed_cons_of_taken sink htaken, hput] at h ⊢
      obtain ⟨taken, piece, rest, heq, hrefused, hafter⟩ := ih _ h
      refine ⟨first :: taken, piece, rest, by rw [heq, List.cons_append], ?_⟩
      rw [List.length_cons, Nat.add_comm taken.length, ← Nat.add_assoc]
      exact ⟨hrefused, hafter⟩
    | false =>
      have hput : sink.put first = (false, { sink with calls := sink.calls + 1 }) :=
        if_neg (by rw [haccepts]; decide)
      have hrefused : (sink.put first).1 = false := by rw [hput]
      rw [feed_cons_of_refused sink hrefused, hput]
      exact ⟨[], first, others, rfl, haccepts, rfl⟩

/-- A sink that takes every call keeps the text of all of them. -/
theorem feed_freed (pieces : List String) : sink.freed.feed pieces =
    (true, { sink.freed with
      text := pieces.foldl (· ++ ·) sink.text, calls := sink.calls + pieces.length }) := by
  induction pieces generalizing sink with
  | nil => rfl
  | cons piece rest ih =>
    have hrest := ih { sink with text := sink.text ++ piece, calls := sink.calls + 1 }
    rw [Nat.add_assoc, Nat.add_comm 1] at hrest
    exact hrest

/-- A sink that takes every call still does after some calls. -/
theorem freed_feed (pieces : List String) :
    (sink.freed.feed pieces).2.freed = (sink.freed.feed pieces).2 := by
  rw [feed_freed]
  rfl

/-- On a sink that takes every call, calls go on from where others ended. -/
theorem feed_freed_append (pieces more : List String) :
    (sink.freed.feed (pieces ++ more)).2 = ((sink.freed.feed pieces).2.feed more).2 := by
  have htaken : (sink.freed.feed pieces).1 = true := by rw [feed_freed]
  rw [feed_append _ htaken]

/-- A text that pieces are put behind begins as it did. -/
theorem exists_foldl_append (pieces : List String) (text : String) :
    ∃ rest, pieces.foldl (· ++ ·) text = text ++ rest := by
  induction pieces generalizing text with
  | nil => exact ⟨"", String.append_empty.symm⟩
  | cons piece others ih =>
    obtain ⟨rest, hrest⟩ := ih (text ++ piece)
    exact ⟨piece ++ rest, hrest.trans String.append_assoc⟩

/-- The text of calls that may be refused is the beginning of the text of the same calls where none
is. -/
theorem exists_text_feed (pieces : List String) :
    ∃ rest, (sink.freed.feed pieces).2.text = (sink.feed pieces).2.text ++ rest := by
  rw [feed_freed]
  induction pieces generalizing sink with
  | nil => exact ⟨"", String.append_empty.symm⟩
  | cons piece others ih =>
    have htext := text_put sink piece
    cases htaken : (sink.put piece).1 with
    | true =>
      rw [htaken, if_pos rfl] at htext
      rw [feed_cons_of_taken sink htaken, List.foldl_cons, ← htext]
      exact ih _
    | false =>
      rw [htaken, if_neg Bool.false_ne_true] at htext
      rw [feed_cons_of_refused sink htaken, htext]
      exact exists_foldl_append (piece :: others) sink.text

end Sink

/-! ### Outlets -/

/-- Where states have a sink, and how an action on them is stopped when the sink refuses a call. -/
structure Outlet (σ ε : Type) where
  sink : σ → Sink
  /-- The state with a sink that takes every call. -/
  freed : σ → σ
  refusal : ε
  sink_freed : ∀ state, sink (freed state) = (sink state).freed
  freed_eq : ∀ state, (sink state).freed = sink state → freed state = state

namespace Outlet

variable {σ ε α β : Type} (outlet : Outlet σ ε)

/-- What an action does in a state, compared with what it does in the same state with a sink that
takes every call. There it makes the calls `pieces`; here it stops at the first of them that is
refused. -/
structure Truncated (pieces : List String) (before : σ) (here there : Except ε α × σ) :
    Prop where
  calls : outlet.sink here.2 = ((outlet.sink before).feed pieces).2
  whole : outlet.sink there.2 = ((outlet.sink before).freed.feed pieces).2
  complete : ((outlet.sink before).feed pieces).1 = true → there = (here.1, outlet.freed here.2)
  refused : ((outlet.sink before).feed pieces).1 = false → here.1 = .error outlet.refusal

/-- Refusals only truncate what an action writes. -/
def Truncates (action : σ → Except ε α × σ) : Prop :=
  ∀ before, ∃ pieces,
    outlet.Truncated pieces before (action before) (action (outlet.freed before))

variable {outlet}

/-- An action that makes no calls and does not look at the sink. -/
theorem truncates_of_silent {action : σ → Except ε α × σ}
    (hsink : ∀ before, outlet.sink (action before).2 = outlet.sink before)
    (hfreed : ∀ before,
      action (outlet.freed before) = ((action before).1, outlet.freed (action before).2)) :
    outlet.Truncates action := fun before =>
  ⟨[], hsink before, (hsink _).trans (outlet.sink_freed before), fun _ => hfreed before, nofun⟩

/-- If the first action is refused a call, then the second one does not take place, and what it
would write comes last. -/
theorem Truncates.bind {action : σ → Except ε α × σ} {next : α → σ → Except ε β × σ}
    {both : σ → Except ε β × σ} (h : outlet.Truncates action)
    (hnext : ∀ value, outlet.Truncates (next value))
    (hboth : ∀ before, both before = match action before with
      | (.ok value, after) => next value after
      | (.error halt, after) => (.error halt, after)) : outlet.Truncates both := by
  intro before
  obtain ⟨pieces, hcalls, hwhole, hcomplete, hrefused⟩ := h before
  rw [hboth, hboth]
  cases htaken : ((outlet.sink before).feed pieces).1 with
  | true =>
    -- All calls of the first action are taken, so the second one begins in the same state.
    have hfreed := hcomplete htaken
    rcases hcut : action before with ⟨halt | value, after⟩ <;>
      rw [hcut] at hcalls hfreed <;> rw [hfreed] at hwhole ⊢
    · refine ⟨pieces, hcalls, hwhole, fun _ => rfl, fun hnot => ?_⟩
      rw [htaken] at hnot
      cases hnot
    · obtain ⟨more, hcalls', hwhole', hcomplete', hrefused'⟩ := hnext value after
      have hfeed := Sink.feed_append _ htaken more
      rw [outlet.sink_freed] at hwhole
      refine ⟨pieces ++ more, ?_, ?_, ?_, ?_⟩
      · rw [hfeed, ← hcalls, hcalls']
      · rw [Sink.feed_freed_append, ← hwhole, hwhole']
      · rw [hfeed, ← hcalls]
        exact hcomplete'
      · rw [hfeed, ← hcalls]
        exact hrefused'
  | false =>
    -- One call is refused: the second action takes place only where all calls are taken.
    have hresult := hrefused htaken
    rcases hcut : action before with ⟨result, after⟩
    rw [hcut] at hcalls hresult
    subst hresult
    rcases hfreed : action (outlet.freed before) with ⟨halt | value, after'⟩ <;>
      rw [hfreed] at hwhole
    · refine ⟨pieces, hcalls, hwhole, fun hnot => ?_, fun _ => rfl⟩
      rw [htaken] at hnot
      cases hnot
    · obtain ⟨more, -, hwhole', -, -⟩ := hnext value after'
      have hfixed : (outlet.sink after').freed = outlet.sink after' := by
        rw [hwhole, Sink.freed_feed]
      rw [outlet.freed_eq after' hfixed, hfixed, hwhole] at hwhole'
      have hfeed := Sink.feed_append_of_refused _ htaken more
      refine ⟨pieces ++ more, ?_, ?_, ?_, fun _ => rfl⟩
      · rw [hfeed]
        exact hcalls
      · rw [Sink.feed_freed_append]
        exact hwhole'
      · rw [hfeed, htaken]
        nofun

/-- An action may change the state before another one begins, and its outcome in the end, if it
leaves the sink alone and does not swallow a refusal. -/
theorem Truncates.around {inner : σ → Except ε α × σ} {action : σ → Except ε β × σ}
    (h : outlet.Truncates inner) (prepare : σ → σ)
    (finish : σ → Except ε α × σ → Except ε β × σ)
    (hprepare : ∀ state, outlet.sink (prepare state) = outlet.sink state ∧
      prepare (outlet.freed state) = outlet.freed (prepare state))
    (hfinish : ∀ state outcome, outlet.sink (finish state outcome).2 = outlet.sink outcome.2 ∧
      finish (outlet.freed state) (outcome.1, outlet.freed outcome.2) =
        ((finish state outcome).1, outlet.freed (finish state outcome).2))
    (hrefusal : ∀ state outcome, outcome.1 = .error outlet.refusal →
      (finish state outcome).1 = .error outlet.refusal)
    (happly : ∀ before, action before = finish before (inner (prepare before))) :
    outlet.Truncates action := by
  intro before
  obtain ⟨pieces, hcalls, hwhole, hcomplete, hrefused⟩ := h (prepare before)
  obtain ⟨hsink, hfreed⟩ := hprepare before
  rw [hsink] at hcalls hwhole hcomplete hrefused
  rw [happly, happly, hfreed]
  refine ⟨pieces, ?_, ?_, fun htaken => ?_, fun htaken => hrefusal _ _ (hrefused htaken)⟩
  · rw [(hfinish _ _).1, hcalls]
  · rw [(hfinish _ _).1, hwhole]
  · rw [hcomplete htaken, (hfinish _ _).2]

end Outlet

/-! ### Operations of a writer -/

namespace Writer

/-- The writer with a sink that takes every call. -/
def freed (writer : Writer) : Writer := { writer with sink := writer.sink.freed }

/-- Pushing an indentation does not depend on what the sink takes. -/
theorem freed_pushIndent (writer : Writer) (indent : String) :
    writer.freed.pushIndent indent = (writer.pushIndent indent).freed := by
  cases hindenting : writer.indenting <;> simp [pushIndent, freed, hindenting]

/-- Nor does popping one. -/
theorem freed_popIndent (writer : Writer) :
    writer.freed.popIndent.2 = writer.popIndent.2.freed := by
  cases hindenting : writer.indenting <;> simp [popIndent, freed, hindenting]

/-- The sink of a writer. -/
def outlet : Outlet Writer Refusal where
  sink := Writer.sink
  freed := freed
  refusal := .refused
  sink_freed _ := rfl
  freed_eq writer h := congrArg (fun sink => { writer with sink }) h

/-- Refusals only truncate what an operation writes. -/
abbrev Truncates {α : Type} (action : Writing α) : Prop := outlet.Truncates action

variable {α β : Type}

/-- If refusals only truncate what two operations write, they do so with one after the other. -/
theorem Truncates.bind {action : Writing α} {next : α → Writing β} (h : Truncates action)
    (hnext : ∀ value, Truncates (next value)) : Truncates (action >>= next) := by
  refine Outlet.Truncates.bind h hnext fun writer => ?_
  rw [bind_apply]
  rcases action writer with ⟨_ | _, _⟩ <;> rfl

/-- An operation that makes no call is not truncated. -/
theorem truncates_pure (value : α) : Truncates (pure value) :=
  Outlet.truncates_of_silent (fun _ => rfl) fun _ => rfl

/-- Nor is a change of the writer that does not look at the sink. -/
theorem truncates_modify {change : Writer → Writer}
    (hsink : ∀ writer, (change writer).sink = writer.sink)
    (hfreed : ∀ writer, change writer.freed = (change writer).freed) :
    Truncates (modify change) :=
  Outlet.truncates_of_silent hsink fun writer => Prod.ext rfl (hfreed writer)

/-- An operation may depend on anything about the writer but its sink. -/
theorem truncates_get {next : Writer → Writing α} (hnext : ∀ writer, Truncates (next writer))
    (hfreed : ∀ writer, next writer.freed = next writer) : Truncates (get >>= next) := by
  intro writer
  change ∃ pieces, outlet.Truncated pieces writer (next writer writer)
    (next writer.freed writer.freed)
  rw [hfreed]
  exact hnext writer writer

/-! ### Operations of a writer, one by one -/

/-- One call is made, or it is refused. -/
theorem truncates_put (piece : String) : Truncates (put piece) := by
  intro writer
  have hfeed := Sink.feed_singleton writer.sink piece
  refine ⟨[piece], ?_, ?_, fun htaken => ?_, fun hrefused => ?_⟩
  · rw [put_apply]
    exact congrArg Prod.snd hfeed.symm
  · rw [put_apply]
    exact congrArg Prod.snd (Sink.feed_singleton writer.sink.freed piece).symm
  · have hput : (writer.sink.put piece).1 = true := hfeed ▸ htaken
    have hfreed : (outlet.freed writer).sink.put piece = (true, (writer.sink.put piece).2.freed) :=
      Sink.put_freed_of_taken _ hput
    simp only [put_apply, hfreed, hput]
    rfl
  · have hput : (writer.sink.put piece).1 = false := hfeed ▸ hrefused
    rw [put_apply, hput]
    rfl

/-- Refusals only truncate calls that are made one by one. -/
theorem truncates_putAll (pieces : List String) : Truncates (putAll pieces) := by
  induction pieces with
  | nil => exact truncates_pure ()
  | cons piece rest ih => exact (truncates_put piece).bind fun _ => ih

/-- They only truncate the end of a line. -/
theorem truncates_endLine : Truncates endLine := by
  refine truncates_get (fun writer => ?_) fun _ => rfl
  refine (truncates_put writer.newline).bind fun _ => ?_
  exact Truncates.bind (truncates_modify (fun _ => rfl) fun _ => rfl) fun _ => truncates_pure _

/-- They only truncate an indentation, which is several calls. -/
theorem truncates_indent : Truncates indent := by
  refine truncates_get (fun writer => ?_) fun _ => rfl
  refine (truncates_putAll _).bind fun _ => ?_
  exact Truncates.bind (truncates_modify (fun _ => rfl) fun _ => rfl) fun _ => truncates_pure _

/-- They only truncate a character. -/
theorem truncates_putChar (c : Char) : Truncates (putChar c) := by
  refine (truncates_put c.toString).bind fun _ => ?_
  exact Truncates.bind (truncates_modify (fun _ => rfl) fun _ => rfl) fun _ => truncates_pure _

/-- A note on the start of the line makes no call. -/
theorem truncates_atLineStart (atLineStart : Bool) :
    Truncates (modify fun writer => { writer with atLineStart }) :=
  truncates_modify (fun _ => rfl) fun _ => rfl

/-- Refusals only truncate a character with the indentation in front of it. -/
theorem truncates_writeChar (c : Char) : Truncates (writeChar c) := by
  have hrest (lead : Nat) : Truncates (do
      modify fun writer => { writer with atLineStart := false }
      return lead + (← putChar c)) :=
    (truncates_atLineStart false).bind fun _ =>
      (truncates_putChar c).bind fun _ => truncates_pure _
  unfold writeChar
  split
  · exact truncates_pure 0
  split
  · exact truncates_endLine.bind fun _ =>
      (truncates_atLineStart true).bind fun _ => truncates_pure _
  · refine truncates_get (fun writer => ?_) fun _ => rfl
    cases writer.atLineStart with
    | true => exact truncates_indent.bind hrest
    | false => exact hrest 0

/-- They only truncate characters one after the other. -/
theorem truncates_writeChars (text : List Char) : Truncates (writeChars text) := by
  induction text with
  | nil => exact truncates_pure 0
  | cons c rest ih =>
    exact (truncates_writeChar c).bind fun _ => ih.bind fun _ => truncates_pure _

/-- They only truncate a text. -/
theorem truncates_write (text : String) : Truncates (write text) :=
  truncates_writeChars text.toList

/-- They only truncate a character of a wrap text. -/
theorem truncates_wrapChar (c : Char) : Truncates (wrapChar c) := by
  unfold wrapChar
  split
  · exact truncates_pure 0
  split
  · exact truncates_endLine.bind fun _ => truncates_indent.bind fun _ => truncates_pure _
  · exact truncates_putChar c

/-- They only truncate a wrap text. -/
theorem truncates_wrapChars (text : List Char) : Truncates (wrapChars text) := by
  induction text with
  | nil => exact truncates_pure 0
  | cons c rest ih =>
    exact (truncates_wrapChar c).bind fun _ => ih.bind fun _ => truncates_pure _

/-- They only truncate a wrap, which takes place under the same condition for any sink. -/
theorem truncates_wrap (text : String) (width : Nat) : Truncates (wrap text width) := by
  refine truncates_get (fun writer => ?_) fun _ => rfl
  cases writer.fits width with
  | true => exact truncates_pure 0
  | false => exact truncates_wrapChars text.toList

/-- They only truncate a token with the wrap in front of it. -/
theorem truncates_writeToken (text : String) (wrapText : Option String) :
    Truncates (writeToken text wrapText) := by
  have hrest (lead : Nat) : Truncates (do return lead + (← write text)) :=
    (truncates_write text).bind fun _ => truncates_pure _
  cases wrapText with
  | none => exact hrest 0
  | some wrapText => exact (truncates_wrap wrapText _).bind hrest

end Writer

end Stencil
