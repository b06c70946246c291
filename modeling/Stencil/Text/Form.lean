/-!
# Form encoding

The encoding of texts in the query part of an address. Letters, digits and the characters
`-`, `_`, `.` and `*` stand for themselves, a space becomes a plus sign, and every other byte of
the text's UTF-8 form becomes a percent sign with two hexadecimal digits. `decode` reads the
encoding back.
-/

namespace Stencil.Text.Form

/-- Whether a byte stands for itself. -/
def isPlain (byte : UInt8) : Bool :=
  let n := byte.toNat
  (65 ≤ n && n ≤ 90) || (97 ≤ n && n ≤ 122) || (48 ≤ n && n ≤ 57) ||
    n == 45 || n == 95 || n == 46 || n == 42

/-- The hexadecimal digit of a number below 16. -/
def hexDigit (n : Nat) : Char := if n < 10 then .ofNat (48 + n) else .ofNat (55 + n)

/-- The number of a hexadecimal digit with capital letters. -/
def hexValue? (c : Char) : Option Nat :=
  if '0' ≤ c ∧ c ≤ '9' then some (c.toNat - 48)
  else if 'A' ≤ c ∧ c ≤ 'F' then some (c.toNat - 55)
  else none

/-- The encoding of one byte. -/
def encodeByte (byte : UInt8) : List Char :=
  if isPlain byte then [.ofNat byte.toNat]
  else if byte = 32 then ['+']
  else ['%', hexDigit (byte.toNat / 16), hexDigit (byte.toNat % 16)]

/-- The encoding of some bytes. -/
def encodeBytes (bytes : List UInt8) : List Char := bytes.flatMap encodeByte

/-- The encoding of a text. -/
def encode (text : String) : String := .ofList (encodeBytes text.toUTF8.data.toList)

/-- The bytes that an encoding stands for. -/
def decodeBytes : List Char → Option (List UInt8)
  | [] => some []
  | '%' :: high :: low :: rest => do
    return .ofNat (16 * (← hexValue? high) + (← hexValue? low)) :: (← decodeBytes rest)
  | c :: rest => do
    let byte ← if c = '+' then some 32
      else if c.toNat < 128 ∧ isPlain (.ofNat c.toNat) then some (.ofNat c.toNat)
      else none
    return byte :: (← decodeBytes rest)

/-- The text that an encoding stands for. -/
def decode (text : String) : Option String := do
  String.fromUTF8? ⟨(← decodeBytes text.toList).toArray⟩

/-- A digit is read back as its value. -/
theorem hexValue?_hexDigit {n : Nat} (h : n < 16) : hexValue? (hexDigit n) = some n := by
  have all : ∀ n : Fin 16, hexValue? (hexDigit n) = some n.val := by decide
  exact all ⟨n, h⟩

/-- Small numbers are the codes of the characters that they are made into. -/
theorem toNat_ofNat {n : Nat} (h : n < 123) : (Char.ofNat n).toNat = n := by
  have all : ∀ n : Fin 123, (Char.ofNat n.val).toNat = n.val := by decide
  exact all ⟨n, h⟩

/-- The codes of the bytes that stand for themselves; a plus sign and a percent sign are none. -/
theorem bounds_of_isPlain {byte : UInt8} (h : isPlain byte) :
    42 ≤ byte.toNat ∧ byte.toNat < 123 ∧ byte.toNat ≠ 43 := by
  simp [isPlain] at h
  omega

/-- The encoding of a byte is read as that byte, whatever follows. -/
theorem decodeBytes_encodeByte_append (byte : UInt8) (rest : List Char) :
    decodeBytes (encodeByte byte ++ rest) = (decodeBytes rest).map (byte :: ·) := by
  unfold encodeByte
  split
  case isTrue h =>
    obtain ⟨low, high, plus⟩ := bounds_of_isPlain h
    have code := toNat_ofNat high
    have ne (c : Char) (hc : byte.toNat ≠ c.toNat) : Char.ofNat byte.toNat ≠ c :=
      fun same => hc (by rw [← same, code])
    rw [List.singleton_append, decodeBytes]
    · simp only [ne '+' plus, if_false, code, UInt8.ofNat_toNat, h,
        show byte.toNat < 128 by omega, and_self, if_true]
      cases decodeBytes rest <;> rfl
    · intro _ _ _ same
      exact absurd same (ne '%' (by change byte.toNat ≠ 37; omega))
  case isFalse =>
    split
    case isTrue h =>
      rw [List.singleton_append, decodeBytes]
      · simp only [if_true, h]
        cases decodeBytes rest <;> rfl
      · simp
    case isFalse =>
      have size : byte.toNat < 256 := byte.toNat_lt_size
      simp only [List.cons_append, List.nil_append, decodeBytes,
        hexValue?_hexDigit (show byte.toNat / 16 < 16 by omega),
        hexValue?_hexDigit (show byte.toNat % 16 < 16 by omega), Option.bind_eq_bind,
        Option.bind_some, Nat.div_add_mod, UInt8.ofNat_toNat]
      cases decodeBytes rest <;> rfl

/-- Reading an encoding gives back the bytes. -/
@[simp] theorem decodeBytes_encodeBytes (bytes : List UInt8) :
    decodeBytes (encodeBytes bytes) = some bytes := by
  induction bytes with
  | nil => rfl
  | cons byte rest ih =>
    rw [encodeBytes, List.flatMap_cons, decodeBytes_encodeByte_append, ← encodeBytes, ih]
    rfl

end Stencil.Text.Form
