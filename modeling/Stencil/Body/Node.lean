import Stencil.Body.Syntax

/-!
# Nodes

Before a body is written its literals are cut at line breaks. Spaces and tabs that open a line
right before an expression, a conditional or a region become the indentation of that node; all
other text stays text. Adjacent literals are joined first, so that it does not matter how text is
divided into literals.
-/

namespace Stencil

/-- The pieces that are written one after the other. -/
inductive Node where
  | text (text : String)
  | newline
  | expression (expr : Expr) (options : Options Expr) (indent : Option String)
  | conditional (branches : List (Branch Expr Node)) (otherwise : List Node)
      (indent : Option String)
  | region (name : String) (ascending : Bool) (indent : Option String)

namespace Node

/-- Text without carriage returns in front of line feeds. -/
def joinBreaks : List Char → List Char
  | '\r' :: '\n' :: rest => '\n' :: joinBreaks rest
  | c :: rest => c :: joinBreaks rest
  | [] => []

/-- Whether a segment can be an indentation. -/
def isIndent (segment : List Char) : Bool :=
  !segment.isEmpty && segment.all fun c => c == ' ' || c == '\t'

/-- A segment of a line as a node, unless it is empty. -/
def ofSegment (segment : List Char) : List Node :=
  if segment.isEmpty then [] else [.text (.ofList segment)]

/-- What a literal leaves behind it. -/
structure Edge where
  /-- Whether nothing stands on the current line yet but what `indent` holds. -/
  lineStart : Bool
  /-- The indentation with which the literal ends. -/
  indent : Option String
deriving DecidableEq, Repr

/-- The nodes of the text since the last line feed was met, and the edge after it. -/
def ofLiteral (lineStart : Bool) : (pending : List Char) → (text : List Char) → List Node × Edge
  | pending, [] =>
    let segment := pending.reverse
    if lineStart && isIndent segment then ([], ⟨true, some (.ofList segment)⟩)
    else (ofSegment segment, ⟨lineStart && segment.isEmpty, none⟩)
  | pending, '\n' :: rest =>
    let (nodes, edge) := ofLiteral true [] rest
    (ofSegment pending.reverse ++ .newline :: nodes, edge)
  | pending, c :: rest => ofLiteral lineStart (c :: pending) rest

/-- The nodes of joined literals and the edge after them. -/
def ofText (lineStart : Bool) (text : String) : List Node × Edge :=
  ofLiteral lineStart [] (joinBreaks text.toList)

/-- An indentation that nothing followed is text after all. -/
def ofEdge (edge : Edge) : List Node := (edge.indent.map Node.text).toList

mutual

/-- The nodes of a body, where `literal` was read already and `lineStart` says whether it stands at
the start of a line. -/
def ofChunks (lineStart : Bool) (literal : String) : List Chunk → List Node
  | [] =>
    let (nodes, edge) := ofText lineStart literal
    nodes ++ ofEdge edge
  | .literal more :: rest => ofChunks lineStart (literal ++ more) rest
  | .expression expr options :: rest =>
    let (nodes, edge) := ofText lineStart literal
    nodes ++ .expression expr options edge.indent :: ofChunks false "" rest
  | .conditional branches otherwise :: rest =>
    let (nodes, edge) := ofText lineStart literal
    let inner := edge.lineStart && edge.indent.isNone
    nodes ++ .conditional (ofBranches inner branches) (ofOption inner otherwise) edge.indent ::
      ofChunks false "" rest
  | .region name ascending _ :: rest =>
    let (nodes, edge) := ofText lineStart literal
    nodes ++ .region name ascending edge.indent :: ofChunks false "" rest

/-- The branches of a conditional, with nodes for bodies. -/
def ofBranches (lineStart : Bool) : List (Branch Expr Chunk) → List (Branch Expr Node)
  | [] => []
  | ⟨test, body⟩ :: rest => ⟨test, ofChunks lineStart "" body⟩ :: ofBranches lineStart rest

/-- The nodes of an optional body. -/
def ofOption (lineStart : Bool) : Option (List Chunk) → List Node
  | none => []
  | some body => ofChunks lineStart "" body

end

/-- The nodes of a body that begins at the start of a line. -/
def ofBody (body : List Chunk) : List Node := ofChunks true "" body

end Node

end Stencil
