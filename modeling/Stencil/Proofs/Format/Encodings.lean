import Mathlib.Logic.Function.Basic
import Stencil.Format.Renderer

/-!
# Encoded texts

Two of the text formats write a text so that it can stand within another one: the form encoding and
the encoding with entities. Neither leaves a character that has a meaning around it, and both can be
read back, so that no two texts have the same encoding.
-/

namespace Stencil

namespace Text.Form

/-- The digits of an escape. -/
def hexDigits : List Char :=
  ['0', '1', '2', '3', '4', '5', '6', '7', '8', '9', 'A', 'B', 'C', 'D', 'E', 'F']

/-- A text of letters, digits, a few other characters, and percent signs with two hexadecimal
digits. -/
inductive Escaped : List Char → Prop
  | nil : Escaped []
  | plain {c : Char} {rest : List Char} (hc : c.isAlphanum ∨ c ∈ ['-', '_', '.', '*', '+'])
      (h : Escaped rest) : Escaped (c :: rest)
  | escape {high low : Char} {rest : List Char} (hhigh : high ∈ hexDigits)
      (hlow : low ∈ hexDigits) (h : Escaped rest) : Escaped ('%' :: high :: low :: rest)

/-- A digit is one of sixteen. -/
theorem hexDigit_mem {n : Nat} (h : n < 16) : hexDigit n ∈ hexDigits := by
  have all : ∀ n : Fin 16, hexDigit n ∈ hexDigits := by decide
  exact all ⟨n, h⟩

/-- A byte that stands for itself is a letter, a digit or one of four other characters. -/
theorem plain_of_isPlain {byte : UInt8} (h : isPlain byte) :
    (Char.ofNat byte.toNat).isAlphanum ∨ Char.ofNat byte.toNat ∈ ['-', '_', '.', '*', '+'] := by
  have all : ∀ n : Fin 123, isPlain (.ofNat n) →
      (Char.ofNat n).isAlphanum ∨ Char.ofNat n ∈ ['-', '_', '.', '*', '+'] := by
    decide
  exact all ⟨byte.toNat, (bounds_of_isPlain h).2.1⟩ (by simpa using h)

/-- The encoding of a byte goes well with what follows. -/
theorem escaped_encodeByte_append (byte : UInt8) {rest : List Char} (h : Escaped rest) :
    Escaped (encodeByte byte ++ rest) := by
  have hsize : byte.toNat < 256 := byte.toNat_lt_size
  unfold encodeByte
  split
  · next hplain => exact .plain (plain_of_isPlain hplain) h
  · split
    · exact .plain (.inr (by decide)) h
    · exact .escape (hexDigit_mem (by omega)) (hexDigit_mem (by omega)) h

/-- Bytes are encoded by allowed characters and escapes. -/
theorem escaped_encodeBytes (bytes : List UInt8) : Escaped (encodeBytes bytes) := by
  induction bytes with
  | nil => exact .nil
  | cons byte bytes ih =>
    rw [encodeBytes, List.flatMap_cons]
    exact escaped_encodeByte_append byte ih

/-- The encoding of a text is read as the text. -/
@[simp] theorem decode_encode (text : String) : decode (encode text) = some text := by
  have hbytes : String.fromUTF8? text.toUTF8 = some text := dif_pos text.isValidUTF8
  simpa [decode, encode] using hbytes

end Text.Form

namespace Text.Entity

/-- The characters that are written as entities. -/
def marks : List Char := ['&', '<', '>', '"', '\'']

/-- The entities. -/
def entities : List (List Char) :=
  ["&amp;".toList, "&lt;".toList, "&gt;".toList, "&quot;".toList, "&apos;".toList]

/-- The written form of a character is an entity, which has no character with a meaning of its own
but the ampersand that it begins with, or the character itself, which has none then. -/
theorem encodeChar_cases (c : Char) :
    (∃ rest, encodeChar c = '&' :: rest ∧ '&' :: rest ∈ entities ∧ ∀ mark ∈ marks, mark ∉ rest) ∨
      encodeChar c = [c] ∧ c ∉ marks := by
  unfold encodeChar
  split
  case h_6 hamp hless hgreater hquote hapos =>
    exact .inr ⟨rfl, by simpa [marks] using ⟨hamp, hless, hgreater, hquote, hapos⟩⟩
  all_goals exact .inl ⟨_, rfl, by decide, by simp [marks]⟩

/-- An encoding has no character with a meaning of its own but the ampersand. -/
theorem not_mem_encodeChars {mark : Char} (h : mark ∈ marks) (hne : mark ≠ '&')
    (text : List Char) : mark ∉ encodeChars text := by
  intro hmem
  obtain ⟨c, -, hmem⟩ := List.mem_flatMap.mp hmem
  rcases encodeChar_cases c with ⟨rest, hentity, -, hrest⟩ | ⟨hself, hc⟩
  · rw [hentity] at hmem
    exact (List.mem_cons.mp hmem).elim hne (hrest mark h)
  · rw [hself, List.mem_singleton] at hmem
    exact hc (hmem ▸ h)

/-- An element that is not in the first part of a list is in the second one. -/
theorem suffix_of_not_mem {c : Char} {rest first second : List Char} (hc : c ∉ first)
    (h : c :: rest <:+ first ++ second) : c :: rest <:+ second := by
  induction first with
  | nil => exact h
  | cons d first ih =>
    rcases List.suffix_cons_iff.mp h with heq | h
    · exact absurd (List.mem_cons.mpr (.inl (List.cons.inj heq).1)) hc
    · exact ih (fun hmem => hc (List.mem_cons_of_mem d hmem)) h

/-- Every ampersand of an encoding begins an entity. -/
theorem exists_entity_of_suffix {text after : List Char}
    (h : '&' :: after <:+ encodeChars text) :
    ∃ entity ∈ entities, entity <+: '&' :: after := by
  induction text with
  | nil => cases List.suffix_nil.mp h
  | cons c text ih =>
    rw [encodeChars, List.flatMap_cons, ← encodeChars] at h
    rcases encodeChar_cases c with ⟨rest, hentity, hmem, hrest⟩ | ⟨hself, hc⟩
    · rw [hentity, List.cons_append, List.suffix_cons_iff] at h
      rcases h with heq | h
      · exact ⟨_, hmem, encodeChars text, heq.symm⟩
      · exact ih (suffix_of_not_mem (hrest '&' (by decide)) h)
    · rw [hself] at h
      refine ih (suffix_of_not_mem (fun hamp => hc ?_) h)
      rw [← List.mem_singleton.mp hamp]
      decide

end Text.Entity

open Text

namespace Renderer

variable {name : String} {change : String → String}

/-- A text format is applied to what the scalar shows. -/
theorem format_text (h : textFormat? name = some change) (scalar : Scalar) (store : Store) :
    text.format scalar (some name) store =
      (.ok (change (store.display scalar).1), (store.display scalar).2) := by
  simp only [text, h]
  rfl

/-- The form encoding of a text has no characters but those that it may have, and it is read as the
text; so no two texts have the same encoding. -/
theorem text_form_decodes (store : Store) :
    (∀ s, ∃ encoded, text.format (.string s) (some "url-encode") store = (.ok encoded, store) ∧
      Form.Escaped encoded.toList ∧ Form.decode encoded = some s) ∧
    Function.Injective fun s => (text.format (.string s) (some "url-encode") store).1 := by
  have hformat (s : String) : text.format (.string s) (some "url-encode") store =
      (.ok (Form.encode s), store) :=
    format_text rfl (.string s) store
  refine ⟨fun s => ⟨Form.encode s, hformat s, ?_, Form.decode_encode s⟩, fun s t h => ?_⟩
  · rw [Form.encode, String.toList_ofList]
    exact Form.escaped_encodeBytes _
  · simp only [hformat, Except.ok.injEq] at h
    exact Option.some.inj ((Form.decode_encode s).symm.trans (h ▸ Form.decode_encode t))

/-- The encoding of a text with entities has none of the characters that are written as entities but
ampersands that begin them, and it is read as the text. -/
theorem text_entities_decode (s : String) (store : Store) :
    ∃ encoded, text.format (.string s) (some "xml-encode") store = (.ok encoded, store) ∧
      (∀ mark ∈ ['<', '>', '"', '\''], mark ∉ encoded.toList) ∧
      (∀ after, '&' :: after <:+ encoded.toList →
        ∃ entity ∈ Entity.entities, entity <+: '&' :: after) ∧
      Entity.decode encoded.toList = s.toList := by
  refine ⟨Entity.encode s, format_text rfl (.string s) store, ?_⟩
  rw [Entity.encode, String.toList_ofList]
  refine ⟨fun mark hmark => ?_, fun after => Entity.exists_entity_of_suffix,
    Entity.decode_encodeChars s.toList⟩
  have hne : mark ≠ '&' := ne_of_mem_of_not_mem hmark (by decide)
  exact Entity.not_mem_encodeChars (List.mem_cons_of_mem _ hmark) hne s.toList

end Renderer

end Stencil
