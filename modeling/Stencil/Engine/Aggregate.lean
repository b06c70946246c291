import Stencil.Text.Blank

/-!
# Aggregate specifications

An aggregate is a mapping that is assigned in one go. Its specification names the attribute and the
entries: `items.{first,last}`.
-/

namespace Stencil

/-- The attribute and the entries that a specification names. -/
structure Aggregate where
  name : String
  entries : List String
deriving DecidableEq, Repr

namespace Aggregate

/-- The text before the first dot with an opening brace, and the text after them. -/
def cut : List Char → Option (List Char × List Char)
  | '.' :: '\x7b' :: rest => some ([], rest)
  | c :: rest => (cut rest).map fun (before, after) => (c :: before, after)
  | [] => none

/-- The parts of a text between commas, without the white space around each; `part` is what was
read of the first one, last character first. -/
def parts (part : List Char) : List Char → List (List Char)
  | [] => [Text.trim part.reverse]
  | ',' :: rest => Text.trim part.reverse :: parts [] rest
  | c :: rest => parts (c :: part) rest

/-- Whether a part can name an entry. -/
def isName (part : List Char) : Bool :=
  !part.isEmpty && part.all fun c => c != '.' && c != '\x7b' && c != '\x7d'

/-- Reads a specification. -/
def parse? (spec : String) : Option Aggregate := do
  let (name, rest) ← cut spec.toList
  if rest.getLast? ≠ some '\x7d' then none
  let names := parts [] rest.dropLast
  if name.isEmpty || !names.all isName then none
  return { name := .ofList (Text.trim name), entries := names.map String.ofList }

end Aggregate

end Stencil
