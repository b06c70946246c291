import Stencil.Text.Numeral

/-!
# Scalars in YAML

A scalar is written plainly, or in double or single quotes. Where it goes over several lines the
line breaks are folded: blanks around them fall away, a single one becomes a space, and of several
the first falls away (`spread`).

A reader of a scalar takes the characters that follow its beginning and hands out the text and the
characters that are left.
-/

namespace Stencil.Config.Yaml

/-- Blanks within a line. -/
def isBlank (c : Char) : Bool := c == ' ' || c == '\t'

/-- Blanks and line breaks. -/
def isSpace (c : Char) : Bool := isBlank c || c == '\n'

/-- Whether a word ends here. -/
def endsWord (text : List Char) : Bool := text.head?.all isSpace

/-- Whether nothing but a comment stands here. -/
def isVoid (text : List Char) : Bool := (text.dropWhile isBlank).head?.all (· == '#')

/-- Whether nothing but a comment set off by a blank stands here. -/
def isTail (text : List Char) : Bool := text.head?.all isBlank && isVoid text

/-- What a run of blanks and line breaks stands for within a scalar. -/
def spread (run : List Char) : List Char :=
  match run.count '\n' with
  | 0 => run
  | 1 => [' ']
  | breaks + 2 => List.replicate (breaks + 1) '\n'

/-! ## Numbers -/

/-- The number that a plain scalar writes: in decimal without leading zeros, or with the prefix of
another base. -/
def natural? (text : List Char) : Option Nat :=
  let unsigned := match text with
    | '+' :: rest => rest
    | rest => rest
  match unsigned with
  | '0' :: 'x' :: rest => Text.numeral? 16 rest
  | '0' :: 'o' :: rest => Text.numeral? 8 rest
  | '0' :: 'b' :: rest => Text.numeral? 2 rest
  | '0' :: _ :: _ => none
  | rest => Text.numeral? 10 rest

/-! ## Quotes -/

/-- The character that a letter stands for behind a backslash. -/
def escape? : Char → Option Char
  | '0' => some '\x00'
  | 'a' => some '\x07'
  | 'b' => some '\x08'
  | 't' => some '\t'
  | '\t' => some '\t'
  | 'n' => some '\n'
  | 'v' => some '\x0b'
  | 'f' => some '\x0c'
  | 'r' => some '\r'
  | 'e' => some '\x1b'
  | ' ' => some ' '
  | '"' => some '"'
  | '/' => some '/'
  | '\\' => some '\\'
  | 'N' => some (.ofNat 0x85)
  | '_' => some (.ofNat 0xA0)
  | 'L' => some (.ofNat 0x2028)
  | 'P' => some (.ofNat 0x2029)
  | _ => none

/-- The character with the code that some hexadecimal digits give. -/
def codePoint? (digits : List Char) : Option Char := do
  let code ← Text.numeral? 16 digits
  if code.isValidChar then some (.ofNat code) else none

/-- What a run stands for, where one behind an escaped line break keeps every break it has. -/
def spreadBehind (escaped : Bool) (run : List Char) : List Char :=
  if escaped then List.replicate (run.count '\n') '\n' else spread run

/-- Reads a text in double quotes; `run` holds the blanks and line breaks before it, which follow an
escaped line break if `escaped` is set. -/
def doubleQuotedFrom (escaped : Bool) (run : List Char) :
    List Char → Option (List Char × List Char)
  | '"' :: rest => some (spreadBehind escaped run, rest)
  | '\\' :: '\n' :: rest => do
    let (text, rest) ← doubleQuotedFrom true [] rest
    return (spreadBehind escaped run ++ text, rest)
  | '\\' :: 'x' :: a :: b :: rest => do
    let c ← codePoint? [a, b]
    let (text, rest) ← doubleQuotedFrom false [] rest
    return (spreadBehind escaped run ++ c :: text, rest)
  | '\\' :: 'u' :: a :: b :: c :: d :: rest => do
    let c ← codePoint? [a, b, c, d]
    let (text, rest) ← doubleQuotedFrom false [] rest
    return (spreadBehind escaped run ++ c :: text, rest)
  | '\\' :: 'U' :: a :: b :: c :: d :: e :: f :: g :: h :: rest => do
    let c ← codePoint? [a, b, c, d, e, f, g, h]
    let (text, rest) ← doubleQuotedFrom false [] rest
    return (spreadBehind escaped run ++ c :: text, rest)
  | '\\' :: letter :: rest => do
    let c ← escape? letter
    let (text, rest) ← doubleQuotedFrom false [] rest
    return (spreadBehind escaped run ++ c :: text, rest)
  | c :: rest =>
    if isSpace c then doubleQuotedFrom escaped (run ++ [c]) rest
    else do
      let (text, rest) ← doubleQuotedFrom false [] rest
      return (spreadBehind escaped run ++ c :: text, rest)
  | [] => none

/-- Reads a text in double quotes, after the opening one. -/
def doubleQuoted? (text : List Char) : Option (List Char × List Char) :=
  doubleQuotedFrom false [] text

/-- Reads a text in single quotes; `run` holds the blanks and line breaks before it. -/
def singleQuotedFrom (run : List Char) : List Char → Option (List Char × List Char)
  | '\'' :: '\'' :: rest => do
    let (text, rest) ← singleQuotedFrom [] rest
    return (spread run ++ '\'' :: text, rest)
  | '\'' :: rest => some (spread run, rest)
  | c :: rest =>
    if isSpace c then singleQuotedFrom (run ++ [c]) rest
    else do
      let (text, rest) ← singleQuotedFrom [] rest
      return (spread run ++ c :: text, rest)
  | [] => none

/-- Reads a text in single quotes, after the opening one. -/
def singleQuoted? (text : List Char) : Option (List Char × List Char) := singleQuotedFrom [] text

/-! ## Plain scalars -/

/-- Characters that end a plain scalar within brackets. -/
def isFlowMark (c : Char) : Bool := ",[]\x7b\x7d".toList.contains c

/-- Whether a plain scalar may begin here. -/
def beginsPlain : List Char → Bool
  | [] => false
  | c :: rest =>
    if c == '-' || c == '?' || c == ':' then !(endsWord rest)
    else !(isSpace c) && !(isFlowMark c) && !("#&*!|>'\"%@\x60".toList.contains c)

/-- Reads the raw text of a plain scalar up to a colon at the end of a word or a comment, and if it
stands within brackets up to a mark of theirs. -/
def plain (bracketed : Bool) : List Char → List Char × List Char
  | [] => ([], [])
  | c :: rest =>
    let ends :=
      (bracketed && isFlowMark c) ||
      (c == ':' && (endsWord rest || (bracketed && rest.head?.any isFlowMark))) ||
      (isSpace c && rest.head? == some '#')
    if ends then ([], c :: rest)
    else
      let (text, rest) := plain bracketed rest
      (c :: text, rest)

/-- The text that a raw plain scalar stands for; `run` holds the blanks and line breaks before it.
Those at its end fall away. -/
def foldPlain (run : List Char) : List Char → List Char
  | [] => []
  | c :: rest =>
    if isSpace c then foldPlain (run ++ [c]) rest else spread run ++ c :: foldPlain [] rest

end Stencil.Config.Yaml
