import Stencil.Config.Yaml.Scalar

/-!
# Values in YAML

A value of a setting is a scalar. A list or a mapping is none, so only its extent is read. A value
can be given a name by an anchor in front of it, and an alias stands for the value of that name.
Tags are passed over: whether a scalar is plain decides what it can mean.

This module reads values in flow style, which stand on one line or within brackets.
-/

namespace Stencil.Config

/-- A YAML value, as far as settings can depend on it. -/
inductive Yaml where
  /-- A scalar; only a plain one can be a number or a truth value. -/
  | scalar (plain : Bool) (text : String)
  /-- The value that an anchor has named. -/
  | alias (name : String)
  /-- A list or a mapping. -/
  | collection

namespace Yaml

/-- A value and the name that an anchor gives to it. -/
structure Anchored where
  anchor : Option String := none
  value : Yaml

/-- A plain scalar without characters. -/
def empty : Yaml := .scalar true ""

/-- Whether a character may stand in the name of an anchor. -/
def isNameChar (c : Char) : Bool := c.isAlphanum || c == '-' || c == '_'

/-- Reads the anchor and the tag in front of a value, at most `count` of them. A tag has one or two
exclamation marks, and those in front; another mark would end a prefix that is not known. -/
def properties? : Nat → Option String → List Char → Option (Option String × List Char)
  | 0, anchor, text => some (anchor, text)
  | count + 1, anchor, text =>
    match text with
    | '&' :: rest =>
      let (name, rest) := rest.span isNameChar
      if name.isEmpty || !endsWord rest then none
      else properties? count (some (.ofList name)) (rest.dropWhile isBlank)
    | '!' :: rest =>
      let (tag, rest) := rest.span fun c => !(isSpace c || isFlowMark c)
      if (tag.drop 1).contains '!' then none
      else properties? count anchor (rest.dropWhile isBlank)
    | text => some (anchor, text)

/-- Skips blanks, line breaks and comments within brackets; `fuel` bounds the comments. -/
def skip : Nat → List Char → List Char
  | 0, text => text
  | fuel + 1, text =>
    match text.dropWhile isSpace with
    | '#' :: rest => skip fuel (rest.dropWhile (· != '\n'))
    | rest => rest

mutual

/-- Reads a value within brackets; `fuel` bounds how deep and how long it may be. -/
def flowValue? : Nat → List Char → Option (Anchored × List Char)
  | 0, _ => none
  | fuel + 1, text => do
    let (anchor, text) ← properties? 2 none text
    let text := skip fuel text
    let (value, rest) ← match text with
      | '"' :: rest => (doubleQuoted? rest).map fun (text, rest) =>
          (.scalar false (.ofList text), rest)
      | '\'' :: rest => (singleQuoted? rest).map fun (text, rest) =>
          (.scalar false (.ofList text), rest)
      | '*' :: rest =>
        let (name, rest) := rest.span isNameChar
        if name.isEmpty then none else some (.alias (.ofList name), rest)
      | '[' :: rest => (flowItems? fuel (skip fuel rest)).map (.collection, ·)
      | '\x7b' :: rest => (flowFields? fuel (skip fuel rest)).map fun (_, rest) =>
          (.collection, rest)
      | text =>
        if beginsPlain text then
          let (raw, rest) := plain true text
          some (.scalar true (.ofList (foldPlain [] raw)), rest)
        else if text.head?.any isFlowMark then some (empty, text)
        else none
    return (⟨anchor, value⟩, rest)

/-- Reads items up to and with the closing bracket. -/
def flowItems? : Nat → List Char → Option (List Char)
  | 0, _ => none
  | _, ']' :: rest => some rest
  | _, ',' :: _ => none
  | fuel + 1, text => do
    let (_, rest) ← flowValue? fuel text
    match skip fuel rest with
    | ',' :: rest => flowItems? fuel (skip fuel rest)
    | ']' :: rest => return rest
    | _ => none

/-- Reads fields up to and with the closing brace. A field without a colon has an empty value. -/
def flowFields? : Nat → List Char → Option (List (String × Anchored) × List Char)
  | 0, _ => none
  | _, '\x7d' :: rest => some ([], rest)
  | _, ',' :: _ => none
  | fuel + 1, text => do
    let (⟨_, .scalar _ name⟩, rest) ← flowValue? fuel text | none
    let (value, rest) ← match skip fuel rest with
      | ':' :: rest => flowValue? fuel (skip fuel rest)
      | rest => some (⟨none, empty⟩, rest)
    match skip fuel rest with
    | ',' :: rest =>
      let (fields, rest) ← flowFields? fuel (skip fuel rest)
      return ((name, value) :: fields, rest)
    | '\x7d' :: rest => return ([(name, value)], rest)
    | _ => none

end

end Yaml

end Stencil.Config
