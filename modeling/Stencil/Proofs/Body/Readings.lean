import Mathlib.Data.List.DropRight
import Stencil.Proofs.Body.Literals
import Stencil.Proofs.Render.Indentation

/-!
# Reading nodes back

A body is read as its characters, with a mark for each chunk that is not literal text. Its nodes
read the same, so nothing gets lost where a body is cut into nodes, and the nodes depend on nothing
but the reading. What stands between a line feed and a mark becomes an indentation if it is spaces
and tabs.
-/

namespace Stencil

/-- What a body consists of, with the literals taken to pieces. -/
inductive Sign where
  | char (c : Char)
  | expression (expr : Expr) (options : Options Expr)
  | conditional (branches : List (Branch Expr Sign)) (otherwise : List Sign)
  | region (name : String) (ascending : Bool)

namespace Sign

/-- The signs of a text. -/
def ofText (text : List Char) : List Sign := text.map char

/-- Signs without carriage returns in front of line feeds. -/
def joinBreaks : List Sign → List Sign
  | .char '\r' :: .char '\n' :: rest => .char '\n' :: joinBreaks rest
  | sign :: rest => sign :: joinBreaks rest
  | [] => []

mutual

/-- The signs of chunks one after the other. -/
def ofChunks : List Chunk → List Sign
  | [] => []
  | .literal text :: rest => ofText text.toList ++ ofChunks rest
  | .expression expr options :: rest => .expression expr options :: ofChunks rest
  | .conditional branches otherwise :: rest =>
    .conditional (ofBranches branches) (ofOption otherwise) :: ofChunks rest
  | .region name ascending _ :: rest => .region name ascending :: ofChunks rest

/-- The branches of a conditional, with readings for bodies. -/
def ofBranches : List (Branch Expr Chunk) → List (Branch Expr Sign)
  | [] => []
  | ⟨test, body⟩ :: rest => ⟨test, joinBreaks (ofChunks body)⟩ :: ofBranches rest

/-- The reading of an optional body. -/
def ofOption : Option (List Chunk) → List Sign
  | none => []
  | some body => joinBreaks (ofChunks body)

end

/-- The reading of a body: adjacent literals are one text, and a carriage return in front of a line
feed belongs to the break. -/
def ofBody (body : List Chunk) : List Sign := joinBreaks (ofChunks body)

/-- An indentation as signs. -/
def ofIndent (indent : Option String) : List Sign := ofText (indent.elim [] String.toList)

mutual

/-- The signs of nodes one after the other: a text as itself, a break as a line feed, and any other
node as its indentation with a mark after it. -/
def ofNodes : List Node → List Sign
  | [] => []
  | .text text :: rest => ofText text.toList ++ ofNodes rest
  | .newline :: rest => .char '\n' :: ofNodes rest
  | .expression expr options indent :: rest =>
    ofIndent indent ++ .expression expr options :: ofNodes rest
  | .conditional branches otherwise indent :: rest =>
    ofIndent indent ++ .conditional (ofNodeBranches branches) (ofNodes otherwise) :: ofNodes rest
  | .region name ascending indent :: rest =>
    ofIndent indent ++ .region name ascending :: ofNodes rest

/-- The branches of a node, with signs for bodies. -/
def ofNodeBranches : List (Branch Expr Node) → List (Branch Expr Sign)
  | [] => []
  | ⟨test, body⟩ :: rest => ⟨test, ofNodes body⟩ :: ofNodeBranches rest

end

/-! ### Text among signs -/

/-- Texts one after the other have the signs of both. -/
theorem ofText_append (text more : List Char) :
    ofText (text ++ more) = ofText text ++ ofText more :=
  List.map_append

/-- So have nodes. -/
theorem ofNodes_append (nodes more : List Node) :
    ofNodes (nodes ++ more) = ofNodes nodes ++ ofNodes more := by
  induction nodes with
  | nil => rw [List.nil_append, ofNodes, List.nil_append]
  | cons node rest ih =>
    rw [List.cons_append]
    cases node <;> simp only [ofNodes, ih, List.append_assoc, List.cons_append]

/-- What comes after a text without a line feed first parts the text from what comes after it. -/
theorem joinBreaks_append (text : List Char) {rest : List Sign}
    (hrest : ∀ more, rest ≠ .char '\n' :: more) :
    joinBreaks (ofText text ++ rest) = ofText (Node.joinBreaks text) ++ joinBreaks rest := by
  induction text using Node.joinBreaks.induct with
  | case1 text ih => exact congrArg (char '\n' :: ·) ih
  | case2 c text htext ih =>
    have hbreak : ∀ more, char c = char '\r' → ofText text ++ rest = char '\n' :: more → False := by
      intro more hc hmore
      cases text with
      | nil => exact hrest more hmore
      | cons next text =>
        cases hc
        cases hmore
        exact htext text rfl rfl
    rw [Node.joinBreaks]
    · exact (joinBreaks.eq_2 _ _ hbreak).trans (congrArg (char c :: ·) ih)
    · exact htext
  | case3 => rfl

/-- Breaks are joined in signs as they are in text. -/
theorem joinBreaks_ofText (text : List Char) :
    joinBreaks (ofText text) = ofText (Node.joinBreaks text) := by
  have hnil : ∀ more, ([] : List Sign) ≠ .char '\n' :: more := nofun
  have h := joinBreaks_append text hnil
  rwa [joinBreaks, List.append_nil, List.append_nil] at h

/-! ### Nodes read as their chunks -/

/-- A segment of a line reads as its text. -/
theorem ofNodes_ofSegment (segment : List Char) :
    ofNodes (Node.ofSegment segment) = ofText segment := by
  unfold Node.ofSegment
  split
  · next hempty =>
    rw [List.isEmpty_iff.mp hempty, ofNodes]
    rfl
  · rw [ofNodes, ofNodes, List.append_nil, String.toList_ofList]

/-- An edge reads as the indentation that is left over. -/
theorem ofNodes_ofEdge (edge : Node.Edge) : ofNodes (Node.ofEdge edge) = ofIndent edge.indent := by
  obtain ⟨lineStart, indent⟩ := edge
  cases indent with
  | none =>
    rw [Node.ofEdge, Option.map_none, Option.toList_none, ofNodes]
    rfl
  | some indent =>
    rw [Node.ofEdge, Option.map_some, Option.toList_some, ofNodes, ofNodes, List.append_nil]
    rfl

/-- The text of a literal is in its nodes and in the indentation that it leaves behind. -/
theorem ofNodes_ofLiteral (lineStart : Bool) (pending text : List Char) :
    ofNodes (Node.ofLiteral lineStart pending text).1 ++
        ofIndent (Node.ofLiteral lineStart pending text).2.indent =
      ofText (pending.reverse ++ text) := by
  fun_induction Node.ofLiteral lineStart pending text with
  | case1 lineStart pending segment hindent =>
    rw [ofNodes, List.nil_append, List.append_nil, ofIndent, Option.elim_some,
      String.toList_ofList]
  | case2 lineStart pending segment =>
    rw [ofNodes_ofSegment, List.append_nil]
    exact List.append_nil _
  | case3 lineStart pending rest nodes edge heq ih =>
    rw [heq] at ih
    rw [ofNodes_append, ofNodes, ofNodes_ofSegment, List.append_assoc, List.cons_append, ih,
      List.reverse_nil, List.nil_append, ofText_append]
    rfl
  | case4 lineStart pending c rest hc ih =>
    rw [ih, List.reverse_cons, List.append_assoc, List.singleton_append]

/-- The nodes of a text read as the text, with the indentation after it. -/
theorem ofNodes_ofText (lineStart : Bool) (text : String) :
    ofNodes (Node.ofText lineStart text).1 ++ ofIndent (Node.ofText lineStart text).2.indent =
      ofText (Node.joinBreaks text.toList) :=
  ofNodes_ofLiteral lineStart [] _

/-- A literal in front of a node and what comes after it. -/
theorem ofNodes_node {lineStart : Bool} {literal : String} {node : Node} {mark : Sign}
    {rest : List Node} {more : List Sign}
    (hnode : ofNodes (node :: rest) =
      ofIndent (Node.ofText lineStart literal).2.indent ++ mark :: ofNodes rest)
    (hmark : ∀ c, mark ≠ .char c) (hrest : ofNodes rest = joinBreaks more) :
    ofNodes ((Node.ofText lineStart literal).1 ++ node :: rest) =
      joinBreaks (ofText literal.toList ++ mark :: more) := by
  have hjoin : joinBreaks (mark :: more) = mark :: joinBreaks more :=
    joinBreaks.eq_2 _ _ fun _ hc _ => hmark _ hc
  have hfeed : ∀ other, mark :: more ≠ .char '\n' :: other := by
    rintro other heq
    exact hmark _ (List.cons.inj heq).1
  rw [ofNodes_append, hnode, ← List.append_assoc, ofNodes_ofText, hrest, joinBreaks_append _ hfeed,
    hjoin]

mutual

/-- The nodes of chunks read as the chunks. -/
theorem ofNodes_ofChunks (lineStart : Bool) (literal : String) : ∀ body : List Chunk,
    ofNodes (Node.ofChunks lineStart literal body) =
      joinBreaks (ofText literal.toList ++ ofChunks body)
  | [] => by
    rw [Node.ofChunks, ofChunks, List.append_nil, joinBreaks_ofText, ofNodes_append, ofNodes_ofEdge]
    exact ofNodes_ofText lineStart literal
  | .literal more :: rest => by
    rw [Node.ofChunks, ofChunks, ofNodes_ofChunks lineStart (literal ++ more) rest,
      String.toList_append, ofText_append, List.append_assoc]
  | .expression expr options :: rest => by
    rw [Node.ofChunks, ofChunks]
    exact ofNodes_node (ofNodes.eq_4 ..) nofun (ofNodes_ofChunks false "" rest)
  | .conditional branches otherwise :: rest => by
    rw [Node.ofChunks, ofChunks]
    refine ofNodes_node ?_ nofun (ofNodes_ofChunks false "" rest)
    rw [ofNodes, ofNodes_ofBranches _ branches, ofNodes_ofOption _ otherwise]
    rfl
  | .region name ascending body :: rest => by
    rw [Node.ofChunks, ofChunks]
    exact ofNodes_node (ofNodes.eq_6 ..) nofun (ofNodes_ofChunks false "" rest)

/-- The nodes of branches read as the branches. -/
theorem ofNodes_ofBranches (lineStart : Bool) : ∀ branches : List (Branch Expr Chunk),
    ofNodeBranches (Node.ofBranches lineStart branches) = ofBranches branches
  | [] => by rw [Node.ofBranches, ofNodeBranches, ofBranches]
  | ⟨test, body⟩ :: rest => by
    rw [Node.ofBranches, ofNodeBranches, ofBranches, ofNodes_ofChunks lineStart "" body,
      ofNodes_ofBranches lineStart rest]
    rfl

/-- The nodes of what is done otherwise read as that. -/
theorem ofNodes_ofOption (lineStart : Bool) : ∀ otherwise : Option (List Chunk),
    ofNodes (Node.ofOption lineStart otherwise) = ofOption otherwise
  | none => by rw [Node.ofOption, ofNodes, ofOption]
  | some body => by
    rw [Node.ofOption, ofOption, ofNodes_ofChunks lineStart "" body]
    rfl

end

end Sign

/-! ### Nodes made from a reading -/

namespace Node

mutual

/-- The nodes of signs, where `pending` is the text in front of them. -/
def ofSigns (lineStart : Bool) (pending : List Char) : List Sign → List Node
  | [] =>
    let (nodes, edge) := ofLiteral lineStart [] pending
    nodes ++ ofEdge edge
  | .char c :: rest => ofSigns lineStart (pending ++ [c]) rest
  | .expression expr options :: rest =>
    let (nodes, edge) := ofLiteral lineStart [] pending
    nodes ++ .expression expr options edge.indent :: ofSigns false [] rest
  | .conditional branches otherwise :: rest =>
    let (nodes, edge) := ofLiteral lineStart [] pending
    let inner := edge.lineStart && edge.indent.isNone
    nodes ++ .conditional (ofSignBranches inner branches) (ofSigns inner [] otherwise)
      edge.indent :: ofSigns false [] rest
  | .region name ascending :: rest =>
    let (nodes, edge) := ofLiteral lineStart [] pending
    nodes ++ .region name ascending edge.indent :: ofSigns false [] rest

/-- The branches of a conditional, with nodes for readings. -/
def ofSignBranches (lineStart : Bool) : List (Branch Expr Sign) → List (Branch Expr Node)
  | [] => []
  | ⟨test, body⟩ :: rest => ⟨test, ofSigns lineStart [] body⟩ :: ofSignBranches lineStart rest

end

/-- Signs of text are added to the text in front of them. -/
theorem ofSigns_append (lineStart : Bool) (pending text : List Char) (rest : List Sign) :
    ofSigns lineStart pending (Sign.ofText text ++ rest) =
      ofSigns lineStart (pending ++ text) rest := by
  induction text generalizing pending with
  | nil => rw [List.append_nil, Sign.ofText, List.map_nil, List.nil_append]
  | cons c text ih =>
    rw [List.append_cons, ← ih, Sign.ofText, List.map_cons, List.cons_append, ofSigns]
    rfl

/-- The signs of a literal and of a chunk after it as nodes. -/
theorem ofSigns_mark (lineStart : Bool) (literal : String) {mark : Sign}
    (hmark : ∀ c, mark ≠ .char c)
    (more : List Sign) :
    ofSigns lineStart [] (Sign.joinBreaks (Sign.ofText literal.toList ++ mark :: more)) =
      ofSigns lineStart (joinBreaks literal.toList) (mark :: Sign.joinBreaks more) := by
  have hjoin : Sign.joinBreaks (mark :: more) = mark :: Sign.joinBreaks more :=
    Sign.joinBreaks.eq_2 _ _ fun _ hc _ => hmark _ hc
  have hfeed : ∀ other, mark :: more ≠ .char '\n' :: other := by
    rintro other heq
    exact hmark _ (List.cons.inj heq).1
  rw [Sign.joinBreaks_append _ hfeed, hjoin, ofSigns_append, List.nil_append]

mutual

/-- The nodes of chunks are made from the reading of the chunks. -/
theorem ofChunks_eq_ofSigns (lineStart : Bool) (literal : String) : ∀ body : List Chunk,
    ofChunks lineStart literal body =
      ofSigns lineStart [] (Sign.joinBreaks (Sign.ofText literal.toList ++ Sign.ofChunks body))
  | [] => by
    rw [Sign.ofChunks, List.append_nil, Sign.joinBreaks_ofText, ← List.append_nil (Sign.ofText _),
      ofSigns_append, ofSigns, ofChunks]
    rfl
  | .literal more :: rest => by
    rw [ofChunks, Sign.ofChunks, ofChunks_eq_ofSigns lineStart (literal ++ more) rest,
      String.toList_append, Sign.ofText_append, List.append_assoc]
  | .expression expr options :: rest => by
    rw [ofChunks, Sign.ofChunks, ofSigns_mark, ofSigns, ofChunks_eq_ofSigns false "" rest]
    · rfl
    · nofun
  | .conditional branches otherwise :: rest => by
    rw [ofChunks, Sign.ofChunks, ofSigns_mark, ofSigns, ofChunks_eq_ofSigns false "" rest]
    · simp only [ofBranches_eq_ofSigns _ branches, ofOption_eq_ofSigns _ otherwise]
      rfl
    · nofun
  | .region name ascending body :: rest => by
    rw [ofChunks, Sign.ofChunks, ofSigns_mark, ofSigns, ofChunks_eq_ofSigns false "" rest]
    · rfl
    · nofun

/-- Branches are cut into nodes by their signs alone. -/
theorem ofBranches_eq_ofSigns (lineStart : Bool) : ∀ branches : List (Branch Expr Chunk),
    ofBranches lineStart branches = ofSignBranches lineStart (Sign.ofBranches branches)
  | [] => by rw [ofBranches, Sign.ofBranches, ofSignBranches]
  | ⟨test, body⟩ :: rest => by
    rw [ofBranches, Sign.ofBranches, ofSignBranches, ofChunks_eq_ofSigns lineStart "" body,
      ofBranches_eq_ofSigns lineStart rest]
    rfl

/-- So is what is done otherwise. -/
theorem ofOption_eq_ofSigns (lineStart : Bool) : ∀ otherwise : Option (List Chunk),
    ofOption lineStart otherwise = ofSigns lineStart [] (Sign.ofOption otherwise)
  | none => by
    rw [ofOption, Sign.ofOption, ofSigns]
    cases lineStart <;> rfl
  | some body => by
    rw [ofOption, Sign.ofOption, ofChunks_eq_ofSigns lineStart "" body]
    rfl

end

end Node

end Stencil
