import Stencil.Config.Basic
import Stencil.Config.Yaml.Block

/-!
# Settings in YAML

A reader of small YAML texts of one document that holds one mapping, in block or in flow style, and
the settings that such a text gives. What stands under a name that is no setting may be anything.
-/

namespace Stencil.Config

namespace Yaml

/-- Whether a character may stand in a text at all. -/
def isAllowed (c : Char) : Bool :=
  let n := c.toNat
  n == 0x9 || n == 0xA || n == 0xD || (0x20 ≤ n && n ≤ 0x7E) || n == 0x85 ||
    (0xA0 ≤ n && n ≤ 0xFFFD && n != 0xFEFF) || 0x10000 ≤ n

/-- Whether a line is the given marker of three characters, alone or before a blank. -/
def isMarker (marker : String) (line : List Char) : Bool :=
  line.take 3 == marker.toList && endsWord (line.drop 3)

/-- Whether a line is a directive of a known kind. -/
def isDirective (line : List Char) : Bool :=
  ["%YAML 1.1", "%YAML 1.2", "%TAG"].any fun known =>
    line.take known.length == known.toList && endsWord (line.drop known.length)

/-- The lines of a document without the marker that opens it, and whether something stands on the
line of the marker. Directives have to be followed by the marker. -/
def opened? (source : List (List Char)) : Option (Bool × List (List Char)) :=
  let source := source.dropWhile isIdle
  let directed := source.head?.any (·.head? == some '%')
  match source.dropWhile fun line => isDirective line || isIdle line with
  | line :: rest =>
    if isMarker "---" line then
      let after := line.drop 3
      some (!isVoid after, after :: rest)
    else if directed then none else some (false, line :: rest)
  | [] => if directed then none else some (false, [])

/-- The lines of the only document of a text, and whether its first one follows a marker. A line of
nothing stands for the marker that ends the document. -/
def document? (source : List (List Char)) : Option (Bool × List (List Char)) := do
  let (marked, source) ← opened? source
  let (body, rest) := source.span fun line => !(isMarker "---" line || isMarker "..." line)
  if rest.all fun line => isIdle line || isMarker "..." line then
    return (marked, if rest.isEmpty then body else body ++ [[]])
  else none

/-- The values under their names, where aliases have been replaced; `known` are the values that have
been named so far. -/
def resolve? (known : List (String × Yaml)) :
    List (String × Anchored) → Option (List (String × Yaml))
  | [] => some []
  | (name, given) :: rest => do
    let value ← match given.value with
      | .alias anchor => known.lookup anchor
      | value => some value
    let known := match given.anchor with
      | some anchor => (anchor, value) :: known
      | none => known
    return (name, value) :: (← resolve? known rest)

/-- Reads the mapping that a text holds; a text without content has no entries. -/
def parse? (text : String) : Option (List (String × Yaml)) := do
  let source := match text.toList with
    | '\uFEFF' :: rest => rest
    | rest => rest
  if !source.all isAllowed then none
  let fuel := 2 * source.length + 2
  let (marked, body) ← document? (lines source)
  match body.dropWhile isIdle with
  | [] => return []
  | line :: rest =>
    match line.dropWhile isBlank with
    | '\x7b' :: content =>
      let (fields, rest) ← flowFields? fuel (skip fuel (join (content :: rest)))
      if (← linesAfter? rest).all isIdle then resolve? [] fields else none
    | _ => if marked then none else resolve? [] (← entries? (indentOf line) fuel (line :: rest))

/-- How YAML gives settings. -/
def reader : Reader Yaml where
  number?
    | .scalar true text => do
      let number ← natural? text.toList
      if number < UInt64.size then some number else none
    | _ => none
  text?
    | .scalar _ text => some text
    | _ => none
  truth?
    | .scalar true "true" | .scalar true "True" | .scalar true "TRUE" => some true
    | .scalar true "false" | .scalar true "False" | .scalar true "FALSE" => some false
    | _ => none

end Yaml

/-- The settings that a YAML text gives. -/
def ofYaml (text : String) : Except Failure Config :=
  ((Yaml.parse? text).bind (ofEntries Yaml.reader)).elim (.error .yaml) .ok

end Stencil.Config
