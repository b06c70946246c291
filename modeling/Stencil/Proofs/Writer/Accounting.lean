import Stencil.Proofs.Writer.Balance

/-!
# What writers count

A writer counts the characters that it hands to its sink, and each operation answers how many they
were. Indentation, padding, line breaks and wraps are counted in different places, and in each of
them the count is kept apart from the text. This module shows that the two go together: an operation
that is not stopped answers the number of characters by which the text of the sink, and the
writer's own count, have grown.
-/

namespace Stencil.Writer

/-- The writer is `count` characters further: by so many the text of its sink has grown, and by so
many its own count. -/
structure Advances (count : Nat) (before after : Writer) : Prop where
  text : ∃ added : String, added.length = count ∧ after.sink.text = before.sink.text ++ added
  index : after.index = before.index + count

namespace Advances

variable {first second third : Writer} {count more : Nat}

/-- A writer advances by nothing where nothing is written. -/
theorem refl (writer : Writer) : Advances 0 writer writer :=
  ⟨⟨"", rfl, String.append_empty.symm⟩, rfl⟩

/-- Advances add up. -/
theorem trans (h : Advances count first second) (h' : Advances more second third) :
    Advances (count + more) first third where
  text := by
    obtain ⟨added, hcount, htext⟩ := h.text
    obtain ⟨added', hmore, htext'⟩ := h'.text
    refine ⟨added ++ added', ?_, ?_⟩
    · rw [String.length_append, hcount, hmore]
    · rw [htext', htext, String.append_assoc]
  index := by rw [h'.index, h.index, Nat.add_assoc]

/-- Only the sink and the count matter. -/
theorem congr {before after : Writer} (h : Advances count first second)
    (hsink : before.sink = first.sink) (hindex : before.index = first.index)
    (hsink' : after.sink = second.sink) (hindex' : after.index = second.index) :
    Advances count before after where
  text := by
    rw [hsink, hsink']
    exact h.text
  index := by rw [hindex', h.index, hindex]

end Advances

/-! ### Operations -/

/-- An operation that answers has written as many characters as the count of its answer says, less
the `start` that were counted before it. -/
def Accounts {α : Type} (start : Nat) (action : Writing α) (count : α → Nat) : Prop :=
  ∀ (writer : Writer) (value : α), (action writer).1 = .ok value →
    ∃ more, count value = start + more ∧ Advances more writer (action writer).2

/-- An operation hands on `count` characters without counting them. -/
def HandsOn (count : Nat) (action : Writing Unit) : Prop :=
  ∀ writer : Writer, (action writer).1 = .ok () → (action writer).2.index = writer.index ∧
    ∃ added : String, added.length = count ∧
      (action writer).2.sink.text = writer.sink.text ++ added

variable {α β : Type} {start : Nat} {action : Writing α} {count : α → Nat}

/-- An answer accounts for what was counted before. -/
theorem accounts_pure {value : α} (h : count value = start) :
    Accounts start (pure value) count := by
  intro writer result hresult
  cases hresult
  exact ⟨0, h, .refl writer⟩

/-- The second operation goes on counting where the first one stops. -/
theorem Accounts.bind {next : α → Writing β} {count' : β → Nat} (h : Accounts start action count)
    (hnext : ∀ value, Accounts (count value) (next value) count') :
    Accounts start (action >>= next) count' := by
  intro writer result hresult
  have hfirst := h writer
  rw [bind_apply] at hresult ⊢
  rcases heq : action writer with ⟨_ | value, after⟩ <;> rw [heq] at hfirst hresult
  · cases hresult
  · obtain ⟨more, hmore, hadvances⟩ := hfirst value rfl
    obtain ⟨further, hfurther, hadvances'⟩ := hnext value after result hresult
    refine ⟨more + further, ?_, hadvances.trans hadvances'⟩
    rw [hfurther, hmore, Nat.add_assoc]

/-- Where an operation starts to count does not matter to what it counts. -/
theorem Accounts.after (h : Accounts 0 action count) (start : Nat) :
    Accounts start action fun value => start + count value := by
  intro writer value hvalue
  obtain ⟨more, hmore, hadvances⟩ := h writer value hvalue
  exact ⟨more, congrArg (start + ·) (hmore.trans (Nat.zero_add more)), hadvances⟩

/-- Whether a line has begun is no matter of counting. -/
theorem accounts_atLineStart (atLineStart : Bool) (start : Nat) :
    Accounts start (modify fun writer => { writer with atLineStart }) fun _ => start :=
  fun writer _ _ => ⟨0, rfl, (Advances.refl writer).congr rfl rfl rfl rfl⟩

/-- So does looking at the writer. -/
theorem accounts_get (start : Nat) : Accounts start get fun _ => start :=
  fun writer _ _ => ⟨0, rfl, .refl writer⟩

/-- A call hands on the characters of its piece. -/
theorem handsOn_put (piece : String) : HandsOn piece.length (put piece) := by
  intro writer hresult
  rw [put_apply] at hresult ⊢
  cases htaken : (writer.sink.put piece).1 with
  | true =>
    refine ⟨rfl, piece, rfl, ?_⟩
    rw [Sink.text_put, if_pos htaken]
  | false => simp [htaken] at hresult

/-- The characters of some pieces of text. -/
theorem handsOn_putAll (pieces : List String) :
    HandsOn (pieces.foldr (fun piece count => piece.length + count) 0) (putAll pieces) := by
  induction pieces with
  | nil => exact fun _ _ => ⟨rfl, "", rfl, String.append_empty.symm⟩
  | cons piece rest ih =>
    intro writer hresult
    have hfirst := handsOn_put piece writer
    rw [putAll, bind_apply] at hresult ⊢
    rcases heq : put piece writer with ⟨_ | _, after⟩ <;> rw [heq] at hfirst hresult
    · cases hresult
    · obtain ⟨hindex, added, hlength, htext⟩ := hfirst rfl
      obtain ⟨hindex', added', hlength', htext'⟩ := ih after hresult
      refine ⟨hindex'.trans hindex, added ++ added', ?_, ?_⟩
      · rw [String.length_append, hlength, hlength', List.foldr_cons]
      · rw [htext', htext, String.append_assoc]

/-- What was handed on is counted after it. -/
theorem HandsOn.counted {action : Writing Unit} {count : Nat} (h : HandsOn count action)
    {change : Writer → Writer} (hsink : ∀ writer, (change writer).sink = writer.sink)
    (hindex : ∀ writer, (change writer).index = writer.index + count) :
    Accounts 0 (do action; modify change; return count) id := by
  intro writer result hresult
  have hhanded := h writer
  rw [bind_apply] at hresult ⊢
  rcases heq : action writer with ⟨_ | _, after⟩ <;> rw [heq] at hhanded hresult
  · cases hresult
  · obtain ⟨hkept, added, hlength, htext⟩ := hhanded rfl
    cases hresult
    refine ⟨count, (Nat.zero_add _).symm, ⟨added, hlength, ?_⟩, ?_⟩
    · exact (congrArg Sink.text (hsink after)).trans htext
    · exact (hindex after).trans (congrArg (· + count) hkept)

/-- The end of a line accounts for the characters of the line break. -/
theorem accounts_endLine : Accounts 0 endLine id :=
  (accounts_get 0).bind fun writer =>
    (handsOn_put writer.newline).counted (fun _ => rfl) fun _ => rfl

/-- An indentation accounts for the characters of its pieces. -/
theorem accounts_indent : Accounts 0 indent id :=
  (accounts_get 0).bind fun _ => (handsOn_putAll _).counted (fun _ => rfl) fun _ => rfl

/-- A character accounts for itself. -/
theorem accounts_putChar (c : Char) : Accounts 0 (putChar c) id := by
  have hlength : c.toString.length = 1 := by simp
  exact (hlength ▸ handsOn_put c.toString).counted (fun _ => rfl) fun _ => rfl

/-- A character accounts for itself and for the indentation in front of it. -/
theorem accounts_writeChar (c : Char) : Accounts 0 (writeChar c) id := by
  have hrest (lead : Nat) : Accounts lead (do
      modify fun writer => { writer with atLineStart := false }
      return lead + (← putChar c)) id :=
    (accounts_atLineStart false lead).bind fun _ =>
      ((accounts_putChar c).after lead).bind fun _ => accounts_pure rfl
  unfold writeChar
  split
  · exact accounts_pure rfl
  split
  · exact accounts_endLine.bind fun count =>
      (accounts_atLineStart true count).bind fun _ => accounts_pure rfl
  · refine (accounts_get 0).bind fun writer => ?_
    cases writer.atLineStart with
    | true => exact accounts_indent.bind hrest
    | false => exact hrest 0

/-- The characters of a text account for themselves one after the other. -/
theorem accounts_writeChars (text : List Char) : Accounts 0 (writeChars text) id := by
  induction text with
  | nil => exact accounts_pure rfl
  | cons c rest ih =>
    exact (accounts_writeChar c).bind fun count =>
      (ih.after count).bind fun _ => accounts_pure rfl

/-- A text accounts for its characters, its line breaks and its indentation. -/
theorem accounts_write (text : String) : Accounts 0 (write text) id :=
  accounts_writeChars text.toList

/-- So does a character of a wrap text. -/
theorem accounts_wrapChar (c : Char) : Accounts 0 (wrapChar c) id := by
  unfold wrapChar
  split
  · exact accounts_pure rfl
  split
  · exact accounts_endLine.bind fun count =>
      (accounts_indent.after count).bind fun _ => accounts_pure rfl
  · exact accounts_putChar c

/-- So do the characters of a wrap text. -/
theorem accounts_wrapChars (text : List Char) : Accounts 0 (wrapChars text) id := by
  induction text with
  | nil => exact accounts_pure rfl
  | cons c rest ih =>
    exact (accounts_wrapChar c).bind fun count =>
      (ih.after count).bind fun _ => accounts_pure rfl

/-- So does a wrap, which counts for nothing if it does not take place. -/
theorem accounts_wrap (text : String) (width : Nat) : Accounts 0 (wrap text width) id := by
  refine (accounts_get 0).bind fun writer => ?_
  cases writer.fits width with
  | true => exact accounts_pure rfl
  | false => exact accounts_wrapChars text.toList

/-- So does a token with the wrap in front of it. -/
theorem accounts_writeToken (text : String) (wrapText : Option String) :
    Accounts 0 (writeToken text wrapText) id := by
  have hrest (lead : Nat) : Accounts lead (do return lead + (← write text)) id :=
    ((accounts_write text).after lead).bind fun _ => accounts_pure rfl
  cases wrapText with
  | none => exact hrest 0
  | some wrapText => exact (accounts_wrap wrapText _).bind hrest

end Stencil.Writer
