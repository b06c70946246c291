import Stencil.Text.Case.Mappings

/-!
# Upper and lower case

The full case mappings of texts. Each character is mapped on its own, with one exception: a capital
sigma that ends a word becomes the final form of the small letter.
-/

namespace Stencil.Text

namespace Case

/-- The image of a character under a mapping that is given by expansions and runs. -/
def image (expansions : List (Nat × List Nat)) (runs : List (Nat × Nat × Nat × Nat)) (c : Char) :
    List Char :=
  match expansions.lookup c.toNat with
  | some codes => codes.map Char.ofNat
  | none =>
    match runs.find? fun (first, last, step, _) =>
        first ≤ c.toNat && c.toNat ≤ last && (c.toNat - first) % step == 0 with
    | some (first, _, _, target) => [.ofNat (target + (c.toNat - first))]
    | none => [c]

/-- The upper case of a character. -/
def upper (c : Char) : List Char := image upperExpansions upperRuns c

/-- The lower case of a character that stands alone. -/
def lower (c : Char) : List Char := image lowerExpansions lowerRuns c

/-- The capital letter sigma. -/
def capitalSigma : Char := .ofNat 0x3A3

/-- The small letter sigma within a word. -/
def smallSigma : Char := .ofNat 0x3C3

/-- The small letter sigma at the end of a word. -/
def finalSigma : Char := .ofNat 0x3C2

/-- Whether the first character that is not skipped is a letter with case. -/
def meetsCased (text : List Char) : Bool :=
  match text.dropWhile ignorable.contains with
  | c :: _ => cased.contains c
  | [] => false

/-- The lower case of the characters of a text, given the characters before them, last first. -/
def lowerAfter (before : List Char) : List Char → List Char
  | [] => []
  | c :: rest =>
    let mapped :=
      if c = capitalSigma then
        [if meetsCased before && !meetsCased rest then finalSigma else smallSigma]
      else lower c
    mapped ++ lowerAfter (c :: before) rest

end Case

/-- The text in upper case. -/
def toUpper (text : String) : String := .ofList (text.toList.flatMap Case.upper)

/-- The text in lower case. -/
def toLower (text : String) : String := .ofList (Case.lowerAfter [] text.toList)

/-- The text with its first character in upper case. -/
def capitalize (text : String) : String :=
  match text.toList with
  | [] => ""
  | c :: rest => .ofList (Case.upper c ++ rest)

end Stencil.Text
