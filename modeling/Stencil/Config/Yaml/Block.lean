import Stencil.Config.Yaml.Flow

/-!
# Mappings in YAML

A mapping in block style has one entry a line, and what is indented further belongs to the value of
the entry above it. The source is taken as a list of lines; the last of them is not ended by a line
break, and every other one is.
-/

namespace Stencil.Config.Yaml

/-- Whether a character breaks a line; a carriage return before a line feed is one break with it. -/
def isBreak (c : Char) : Bool := c == '\n' || c == '\r' || c.toNat == 0x85

/-- The lines of a text. -/
def lines : List Char → List (List Char)
  | [] => [[]]
  | '\r' :: '\n' :: rest => [] :: lines rest
  | c :: rest =>
    if isBreak c then [] :: lines rest
    else match lines rest with
      | line :: more => (c :: line) :: more
      | [] => [[c]]

/-- The text that some lines make up. -/
def join : List (List Char) → List Char
  | [] => []
  | [line] => line
  | line :: rest => line ++ '\n' :: join rest

/-- The indentation of a line. -/
def indentOf (line : List Char) : Nat := (line.takeWhile (· == ' ')).length

/-- Whether a line can be passed over: it holds at most a comment, and a tab does not stand where
its indentation would. -/
def isIdle (line : List Char) : Bool := (line.drop (indentOf line)).head?.all (· == '#')

/-- Splits off the lines that belong to the value of a name which is indented by `indent`: those
that are indented further, and list items at the same indentation when `items` is set. -/
def childLines (indent : Nat) (items : Bool) :
    List (List Char) → List (List Char) × List (List Char)
  | [] => ([], [])
  | line :: rest =>
    let content := line.drop (indentOf line)
    let item := items && indentOf line == indent && content.head? == some '-' &&
      endsWord content.tail
    if isIdle line || indentOf line > indent || item then
      let (children, rest) := childLines indent items rest
      (line :: children, rest)
    else ([], line :: rest)

/-! ## Blocks of text -/

/-- How a block of text begins: what to do with the line breaks at its end, and by how much it is
indented, if that is said. -/
structure BlockHeader where
  /-- Whether single line breaks are folded into spaces. -/
  folded : Bool
  /-- A plus sign to keep all line breaks at the end, a minus sign to keep none. -/
  chomping : Option Char := none
  /-- The indentation against the name. -/
  indent : Option Nat := none

/-- Reads the indicators of a block of text. -/
def BlockHeader.read? (header : BlockHeader) : List Char → Option BlockHeader
  | c :: rest =>
    if isBlank c then if isTail (c :: rest) then some header else none
    else if (c == '+' || c == '-') && header.chomping.isNone then
      read? { header with chomping := some c } rest
    else if '1' ≤ c && c ≤ '9' && header.indent.isNone then
      read? { header with indent := some (c.toNat - 48) } rest
    else none
  | [] => some header

/-- The lines of a block of text, one after another. `previous` says of the line before whether it
began with a blank, if there was one, and `gaps` counts the empty lines since. -/
def joinBlock (folded : Bool) (previous : Option Bool) (gaps : Nat) : List (List Char) → List Char
  | [] => []
  | [] :: rest => joinBlock folded previous (gaps + 1) rest
  | (c :: line) :: rest =>
    let between := match previous with
      | none => List.replicate gaps '\n'
      | some previous =>
        if folded && !previous && !isBlank c then
          if gaps = 0 then [' '] else List.replicate gaps '\n'
        else List.replicate (gaps + 1) '\n'
    between ++ c :: line ++ joinBlock folded (some (isBlank c)) 0 rest

/-- Whether a line holds only spaces. -/
def isEmptyLine (line : List Char) : Bool := line.all (· == ' ')

/-- The text of a block under a name that is indented by `indent`. `ended` says whether a line break
stands at the end of its last line. -/
def blockText? (header : BlockHeader) (indent : Nat) (ended : Bool) (block : List (List Char)) :
    Option (List Char) :=
  let margin := match header.indent with
    | some more => indent + more
    | none => ((block.find? fun line => !isEmptyLine line).map indentOf).getD 0
  if block.any fun line => !isEmptyLine line && indentOf line < margin then none else
  let block := block.map (List.drop margin)
  let content := (block.reverse.dropWhile List.isEmpty).reverse
  let breaks := if ended then block.length - content.length + 1 else block.length - content.length
  let kept := match header.chomping with
    | some '-' => 0
    | some _ => if content.isEmpty then breaks - 1 else breaks
    | none => if content.isEmpty then 0 else min 1 breaks
  some (joinBlock header.folded none 0 content ++ List.replicate kept '\n')

/-! ## Entries -/

/-- Whether a line opens a mapping or a list. -/
def opensCollection (content : List Char) : Bool :=
  match content with
  | '-' :: rest => endsWord rest
  | '[' :: _ => true
  | '\x7b' :: _ => true
  | content => (plain false content).2.head? == some ':'

/-- What is left after a value has been read: the lines after the one on which it ended, where
nothing else may stand. -/
def linesAfter? (rest : List Char) : Option (List (List Char)) :=
  match lines rest with
  | line :: rest => if isTail line then some rest else none
  | [] => some []

/-- Reads the raw text of a plain scalar from the lines that it may cover. -/
def plainLines? : List (List Char) → Option (List Char)
  | [] => some []
  | line :: rest => do
    let (text, left) := if isVoid line then ([], line) else plain false line
    if left.all isBlank then return text ++ '\n' :: (← plainLines? rest)
    else if isTail left || isVoid line then
      if rest.all isVoid then some text else none
    else none

/-- Reads a scalar that begins on its first line, where `covered` are the further lines that it may
cover if it is plain, and `following` those after them. -/
def blockScalar? (fuel : Nat) (content : List Char) (covered following : List (List Char)) :
    Option (Yaml × List (List Char)) := do
  if beginsPlain content then
    let raw ← plainLines? (content :: covered)
    return (.scalar true (.ofList (foldPlain [] raw)), following)
  else
    let (value, rest) ← flowValue? fuel (join (content :: covered ++ following))
    return (value.value, ← linesAfter? rest)

/-- Reads the value behind a colon, without its properties. -/
def blockValue? (indent fuel : Nat) (content : List Char) (following : List (List Char)) :
    Option (Yaml × List (List Char)) :=
  if isVoid content then
    let (children, rest) := childLines indent true following
    match children.dropWhile isIdle with
    | [] => some (empty, rest)
    | line :: further =>
      let content := line.drop (indentOf line)
      if opensCollection content then some (.collection, rest)
      else blockScalar? fuel content further rest
  else
    let block? (folded : Bool) (indicators : List Char) := do
      let header ← BlockHeader.read? { folded } indicators
      let (block, rest) := following.span fun line => isEmptyLine line || indentOf line > indent
      let text ← blockText? header indent (!rest.isEmpty) block
      return (.scalar false (.ofList text), rest)
    match content with
    | '|' :: indicators => block? false indicators
    | '>' :: indicators => block? true indicators
    | content =>
      let (children, rest) := childLines indent false following
      blockScalar? fuel content children rest

/-- Reads the name that opens a line of a mapping, and what stands behind its colon. -/
def name? (content : List Char) : Option (String × List Char) := do
  let (name, rest) ← match content with
    | '"' :: rest => doubleQuoted? rest
    | '\'' :: rest => singleQuoted? rest
    | content =>
      if beginsPlain content then
        let (raw, rest) := plain false content
        some (foldPlain [] raw, rest)
      else none
  match rest.dropWhile isBlank with
  | ':' :: rest => if endsWord rest then some (.ofList name, rest.dropWhile isBlank) else none
  | _ => none

/-- Reads the entries of a mapping whose names are indented by `indent`; `fuel` bounds their
number. -/
def entries? (indent : Nat) : Nat → List (List Char) → Option (List (String × Anchored))
  | 0, _ => none
  | fuel + 1, source =>
    match source.dropWhile isIdle with
    | [] => some []
    | line :: following => do
      if indentOf line ≠ indent then none
      let (name, content) ← name? (line.drop indent)
      let (anchor, content) ← properties? 2 none content
      let (value, rest) ← blockValue? indent fuel content following
      return (name, ⟨anchor, value⟩) :: (← entries? indent fuel rest)

end Stencil.Config.Yaml
