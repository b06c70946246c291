/-!
# Entities

Characters with a meaning of their own in marked-up text are written as entities. `decode` turns
the entities back in one pass from left to right.
-/

namespace Stencil.Text.Entity

/-- The written form of one character. -/
def encodeChar : Char → List Char
  | '&' => ['&', 'a', 'm', 'p', ';']
  | '<' => ['&', 'l', 't', ';']
  | '>' => ['&', 'g', 't', ';']
  | '"' => ['&', 'q', 'u', 'o', 't', ';']
  | '\'' => ['&', 'a', 'p', 'o', 's', ';']
  | c => [c]

/-- The written form of some characters. -/
def encodeChars (text : List Char) : List Char := text.flatMap encodeChar

/-- The written form of a text. -/
def encode (text : String) : String := .ofList (encodeChars text.toList)

/-- The characters that a written form stands for. -/
def decode : List Char → List Char
  | '&' :: 'a' :: 'm' :: 'p' :: ';' :: rest => '&' :: decode rest
  | '&' :: 'l' :: 't' :: ';' :: rest => '<' :: decode rest
  | '&' :: 'g' :: 't' :: ';' :: rest => '>' :: decode rest
  | '&' :: 'q' :: 'u' :: 'o' :: 't' :: ';' :: rest => '"' :: decode rest
  | '&' :: 'a' :: 'p' :: 'o' :: 's' :: ';' :: rest => '\'' :: decode rest
  | c :: rest => c :: decode rest
  | [] => []

/-- A character that begins no entity stands for itself. -/
theorem decode_cons_of_ne {c : Char} (h : c ≠ '&') (rest : List Char) :
    decode (c :: rest) = c :: decode rest := by
  rw [decode] <;> simp [h]

/-- The written form of a character is read as that character, whatever follows. -/
theorem decode_encodeChar_append (c : Char) (rest : List Char) :
    decode (encodeChar c ++ rest) = c :: decode rest := by
  unfold encodeChar
  split
  case h_6 h _ _ _ _ => exact decode_cons_of_ne h rest
  all_goals simp [decode]

/-- Reading a written form gives back what was written. -/
@[simp] theorem decode_encodeChars (text : List Char) : decode (encodeChars text) = text := by
  induction text with
  | nil => rfl
  | cons c rest ih =>
    rw [encodeChars, List.flatMap_cons, decode_encodeChar_append]
    exact congrArg (c :: ·) ih

end Stencil.Text.Entity
