import Stencil.Config.Basic
import Stencil.Text.Numeral

/-!
# Settings in JSON

A reader of JSON texts that keeps what settings can depend on, and the settings that such a text
gives. They are given by an object with named fields, or by an array of values.
-/

namespace Stencil.Config

/-- A JSON value, as far as settings can depend on it. -/
inductive Json where
  | null
  | bool (truth : Bool)
  /-- A number; known if it is written as a natural number. -/
  | number (natural : Option Nat)
  /-- A string; unknown if half of a surrogate pair stands alone in it. -/
  | string (text : Option String)
  | array (items : List Json)
  | object (fields : List (Option String × Json))

namespace Json

/-- Characters between the parts of a value. -/
def isBlank (c : Char) : Bool := c == ' ' || c == '\n' || c == '\r' || c == '\t'

/-- Skips blanks. -/
def skip (text : List Char) : List Char := text.dropWhile isBlank

/-- The code of an escape letter. -/
def escapeCode? : Char → Option Nat
  | '"' => some 34
  | '\\' => some 92
  | '/' => some 47
  | 'b' => some 8
  | 'f' => some 12
  | 'n' => some 10
  | 'r' => some 13
  | 't' => some 9
  | _ => none

/-- Reads the codes of a string after its opening quote, up to and with the closing one. -/
def stringCodes? : List Char → Option (List Nat × List Char)
  | '"' :: rest => some ([], rest)
  | '\\' :: 'u' :: a :: b :: c :: d :: rest => do
    let code ← Text.numeral? 16 [a, b, c, d]
    let (codes, rest) ← stringCodes? rest
    return (code :: codes, rest)
  | '\\' :: letter :: rest => do
    let code ← escapeCode? letter
    let (codes, rest) ← stringCodes? rest
    return (code :: codes, rest)
  | c :: rest => do
    if c.toNat < 32 then none
    let (codes, rest) ← stringCodes? rest
    return (c.toNat :: codes, rest)
  | [] => none

/-- The characters of some codes, where surrogates come in pairs. -/
def characters? : List Nat → Option (List Char)
  | [] => some []
  | high :: rest =>
    if 0xD800 ≤ high ∧ high < 0xDC00 then
      match rest with
      | low :: rest =>
        if 0xDC00 ≤ low ∧ low < 0xE000 then
          (characters? rest).map
            (.ofNat (0x10000 + (high - 0xD800) * 0x400 + (low - 0xDC00)) :: ·)
        else none
      | [] => none
    else if 0xDC00 ≤ high ∧ high < 0xE000 then none
    else (characters? rest).map (.ofNat high :: ·)

/-- Reads a string after its opening quote. -/
def string? (text : List Char) : Option (Option String × List Char) :=
  (stringCodes? text).map fun (codes, rest) => ((characters? codes).map String.ofList, rest)

/-- Reads at least one digit. -/
def digits? (text : List Char) : Option (List Char × List Char) :=
  let (digits, rest) := text.span Char.isDigit
  if digits.isEmpty then none else some (digits, rest)

/-- Skips the places after the point of a number, if there is one. -/
def skipPlaces? : List Char → Option (Bool × List Char)
  | '.' :: rest => (digits? rest).map fun (_, rest) => (true, rest)
  | rest => some (false, rest)

/-- Skips the exponent of a number, if there is one. -/
def skipExponent? : List Char → Option (Bool × List Char)
  | c :: rest =>
    if c == 'e' || c == 'E' then
      let rest := match rest with
        | sign :: more => if sign == '+' || sign == '-' then more else rest
        | [] => []
      (digits? rest).map fun (_, rest) => (true, rest)
    else some (false, c :: rest)
  | [] => some (false, [])

/-- Reads a number. -/
def number? (text : List Char) : Option (Json × List Char) := do
  let (negative, text) := match text with
    | '-' :: rest => (true, rest)
    | _ => (false, text)
  let (digits, rest) ← digits? text
  if digits.length > 1 && digits.head? == some '0' then none
  let (places, rest) ← skipPlaces? rest
  let (exponent, rest) ← skipExponent? rest
  let natural := digits.foldl (fun number digit => 10 * number + (digit.toNat - 48)) 0
  return (.number (if negative || places || exponent then none else some natural), rest)

mutual

/-- Reads a value; `fuel` bounds how deep and how long it may be. -/
def value? : Nat → List Char → Option (Json × List Char)
  | 0, _ => none
  | fuel + 1, text =>
    match skip text with
    | 'n' :: 'u' :: 'l' :: 'l' :: rest => some (.null, rest)
    | 't' :: 'r' :: 'u' :: 'e' :: rest => some (.bool true, rest)
    | 'f' :: 'a' :: 'l' :: 's' :: 'e' :: rest => some (.bool false, rest)
    | '"' :: rest => (string? rest).map fun (text, rest) => (.string text, rest)
    | '[' :: rest =>
      match skip rest with
      | ']' :: rest => some (.array [], rest)
      | rest => (items? fuel rest).map fun (items, rest) => (.array items, rest)
    | '\x7b' :: rest =>
      match skip rest with
      | '\x7d' :: rest => some (.object [], rest)
      | rest => (fields? fuel rest).map fun (fields, rest) => (.object fields, rest)
    | rest => number? rest

/-- Reads the items of an array up to and with its closing bracket. -/
def items? : Nat → List Char → Option (List Json × List Char)
  | 0, _ => none
  | fuel + 1, text => do
    let (item, rest) ← value? fuel text
    match skip rest with
    | ',' :: rest =>
      let (items, rest) ← items? fuel rest
      return (item :: items, rest)
    | ']' :: rest => return ([item], rest)
    | _ => none

/-- Reads the fields of an object up to and with its closing brace. -/
def fields? : Nat → List Char → Option (List (Option String × Json) × List Char)
  | 0, _ => none
  | fuel + 1, text =>
    match skip text with
    | '"' :: rest => do
      let (name, rest) ← string? rest
      match skip rest with
      | ':' :: rest =>
        let (item, rest) ← value? fuel rest
        match skip rest with
        | ',' :: rest =>
          let (fields, rest) ← fields? fuel rest
          return ((name, item) :: fields, rest)
        | '\x7d' :: rest => return ([(name, item)], rest)
        | _ => none
      | _ => none
    | _ => none

end

/-- Reads a whole text. -/
def parse? (text : String) : Option Json := do
  let (json, rest) ← value? (2 * text.length + 2) text.toList
  if (skip rest).isEmpty then some json else none

/-- How JSON gives settings. -/
def reader : Reader Json where
  number?
    | .number (some n) => if n < UInt64.size then some n else none
    | _ => none
  text?
    | .string text => text
    | _ => none
  truth?
    | .bool truth => some truth
    | _ => none

end Json

/-- The settings that a JSON value gives; every name in it has to be a text. -/
def ofJsonValue? : Json → Option Config
  | .object fields => do
    let named ← fields.mapM fun field => field.1.map fun name => (name, field.2)
    ofEntries Json.reader named
  | .array items => ofValues Json.reader items
  | _ => none

/-- The settings that a JSON text gives. -/
def ofJson (text : String) : Except Failure Config :=
  ((Json.parse? text).bind ofJsonValue?).elim (.error .json) .ok

end Stencil.Config
