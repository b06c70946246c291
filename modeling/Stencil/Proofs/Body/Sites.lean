import Stencil.Proofs.Body.Cutting

/-!
# Lines of their own

A body may be given a further line after any of its line breaks, in the bodies of conditionals too.
If the line holds nothing but one chunk with spaces and tabs in front of it, then the nodes of the
body are given the node of that chunk and a break, at a place that comes after a break, and are the
same otherwise.
-/

namespace Stencil

/-- A place in a body right after a line break. -/
inductive Site where
  /-- Inside a literal, where `left` and a line feed are in front of the place. -/
  | here (before : List Chunk) (left right : String) (after : List Chunk)
  /-- In the body of a branch. -/
  | branch (before : List Chunk) (front : List (Branch Expr Chunk)) (test : Expr) (inner : Site)
    (back : List (Branch Expr Chunk)) (otherwise : Option (List Chunk)) (after : List Chunk)
  /-- In what is written if no test holds. -/
  | instead (before : List Chunk) (branches : List (Branch Expr Chunk)) (inner : Site)
    (after : List Chunk)

/-- The body of a place, where `cut` makes chunks of the text on both sides of it. -/
def Site.rebuild (cut : String → String → List Chunk) : Site → List Chunk
  | .here before left right after => before ++ cut (left ++ "\n") right ++ after
  | .branch before front test inner back otherwise after =>
    before ++ .conditional (front ++ ⟨test, inner.rebuild cut⟩ :: back) otherwise :: after
  | .instead before branches inner after =>
    before ++ .conditional branches (some (inner.rebuild cut)) :: after

/-- The body that has the place. -/
def Site.body : Site → List Chunk := rebuild fun left right => [.literal (left ++ right)]

/-- A source line that holds nothing but one chunk. -/
structure SoleLine where
  /-- What stands in front of the chunk. -/
  indent : String
  chunk : Chunk
  /-- The line break after the chunk. -/
  ending : String
  blank : ∀ c ∈ indent.toList, c = ' ' ∨ c = '\t'
  unquoted : ∀ text, chunk ≠ .literal text
  breaks : ending = "\n" ∨ ending = "\r\n"

/-- The body with a further line. -/
def Site.withLine (line : SoleLine) : Site → List Chunk :=
  rebuild fun left right =>
    [.literal (left ++ line.indent), line.chunk, .literal (line.ending ++ right)]

/-- A place among nodes. -/
inductive Spot where
  | here (before after : List Node)
  | branch (before : List Node) (front : List (Branch Expr Node)) (test : Expr) (inner : Spot)
    (back : List (Branch Expr Node)) (otherwise : List Node) (indent : Option String)
    (after : List Node)
  | instead (before : List Node) (branches : List (Branch Expr Node)) (inner : Spot)
    (indent : Option String) (after : List Node)

/-- The nodes around a place, with some nodes put there. -/
def Spot.fill (added : List Node) : Spot → List Node
  | .here before after => before ++ added ++ after
  | .branch before front test inner back otherwise indent after =>
    before ++ .conditional (front ++ ⟨test, inner.fill added⟩ :: back) otherwise indent :: after
  | .instead before branches inner indent after =>
    before ++ .conditional branches (inner.fill added) indent :: after

/-- Whether a break comes right before a place. -/
def Spot.FollowsBreak : Spot → Prop
  | .here before _ => ∃ earlier, before = earlier ++ [.newline]
  | .branch _ _ _ inner _ _ _ _ | .instead _ _ inner _ _ => inner.FollowsBreak

/-- What stands on a line of its own is not literal text. -/
theorem SoleLine.isSome_node? (line : SoleLine) (inner : Bool) (indent : Option String) :
    (line.chunk.node? inner indent).isSome := by
  cases hchunk : line.chunk with
  | literal text => exact absurd hchunk (line.unquoted text)
  | expression _ _ | conditional _ _ | region _ _ _ => rfl

/-- The node of the chunk of a line, which has what stands in front of it for its indentation. -/
def SoleLine.node (line : SoleLine) : Node :=
  (line.chunk.node? line.indent.isEmpty
    (if line.indent.isEmpty then none else some line.indent)).get (line.isSome_node? _ _)

/-- Its node is no break. -/
theorem SoleLine.node_ne_newline (line : SoleLine) : line.node ≠ .newline := by
  have hnode := Option.some_get (line.isSome_node? line.indent.isEmpty
    (if line.indent.isEmpty then none else some line.indent))
  intro heq
  rw [← SoleLine.node, heq] at hnode
  cases hchunk : line.chunk <;> rw [hchunk] at hnode <;> cases hnode

/-- A place of a body is at this place among the nodes: after a break, and wherever a further line
has its node and its break. -/
structure Site.Lowers (site : Site) (lineStart : Bool) (literal : String) (spot : Spot) : Prop where
  follows : spot.FollowsBreak
  body : Node.ofChunks lineStart literal site.body = spot.fill []
  withLine : ∀ line : SoleLine,
    Node.ofChunks lineStart literal (site.withLine line) = spot.fill [line.node, .newline]

namespace Node

/-! ### Line breaks in literals -/

/-- The breaks in front of a line feed do not depend on what is after it. -/
theorem joinBreaks_feed (text : List Char) :
    ∃ front, ∀ rest, joinBreaks (text ++ '\n' :: rest) = front ++ '\n' :: joinBreaks rest := by
  induction text using joinBreaks.induct with
  | case1 text ih =>
    obtain ⟨front, hfront⟩ := ih
    exact ⟨'\n' :: front, fun rest => congrArg ('\n' :: ·) (hfront rest)⟩
  | case2 c text htext ih =>
    obtain ⟨front, hfront⟩ := ih
    by_cases hreturn : c = '\r' ∧ text = []
    · obtain ⟨rfl, rfl⟩ := hreturn
      exact ⟨[], fun rest => rfl⟩
    · refine ⟨c :: front, fun rest => ?_⟩
      rw [List.cons_append, joinBreaks, hfront, List.cons_append]
      intro more hc hmore
      cases text with
      | nil => exact hreturn ⟨hc, rfl⟩
      | cons next text =>
        cases hmore
        exact htext text hc rfl
  | case3 => exact ⟨[], fun rest => rfl⟩

/-- The nodes in front of a line feed do not depend on what is after it. -/
theorem ofLiteral_feed (lineStart : Bool) (pending front : List Char) :
    ∃ nodes, ∀ rest, ofLiteral lineStart pending (front ++ '\n' :: rest) =
      (nodes ++ .newline :: (ofLiteral true [] rest).1, (ofLiteral true [] rest).2) := by
  induction front generalizing lineStart pending with
  | nil => exact ⟨ofSegment pending.reverse, fun rest => by rw [List.nil_append, ofLiteral]⟩
  | cons c front ih =>
    by_cases hc : c = '\n'
    · subst hc
      obtain ⟨nodes, hnodes⟩ := ih true []
      refine ⟨ofSegment pending.reverse ++ .newline :: nodes, fun rest => ?_⟩
      rw [List.cons_append, ofLiteral, hnodes, List.append_assoc, List.cons_append]
    · obtain ⟨nodes, hnodes⟩ := ih lineStart (c :: pending)
      refine ⟨nodes, fun rest => ?_⟩
      rw [List.cons_append, ofLiteral, hnodes]
      exact hc

/-- Text without breaks may be pending as well. -/
theorem ofLiteral_unbroken (lineStart : Bool) (pending : List Char) {text : List Char}
    (h : '\n' ∉ text) :
    ofLiteral lineStart pending text = ofLiteral lineStart (text.reverse ++ pending) [] := by
  induction text generalizing pending with
  | nil => rfl
  | cons c text ih =>
    have hrest : '\n' ∉ text := fun hmem => h (.tail _ hmem)
    have hstep : ofLiteral lineStart pending (c :: text) =
        ofLiteral lineStart (c :: pending) text := by
      rw [ofLiteral]
      exact fun hc => h (hc ▸ .head _)
    rw [hstep, ih _ hrest, List.reverse_cons, List.append_assoc, List.singleton_append]

/-- After a line feed a text is cut as if it began there. -/
theorem ofText_feed (lineStart : Bool) (text : String) :
    ∃ nodes, ∀ rest, ofText lineStart (text ++ "\n" ++ rest) =
      (nodes ++ .newline :: (ofText true rest).1, (ofText true rest).2) := by
  obtain ⟨front, hfront⟩ := joinBreaks_feed text.toList
  obtain ⟨nodes, hnodes⟩ := ofLiteral_feed lineStart [] front
  refine ⟨nodes, fun rest => ?_⟩
  have htext : (text ++ "\n" ++ rest).toList = text.toList ++ '\n' :: rest.toList := by
    simp [String.toList_append]
  rw [ofText, htext, hfront, hnodes, ofText]

/-- A break in front of a text is a node of its own, and a line begins after it. -/
theorem ofText_ending (lineStart : Bool) {ending : String} (h : ending = "\n" ∨ ending = "\r\n")
    (rest : String) : ofText lineStart (ending ++ rest) =
      ([.newline] ++ (ofText true rest).1, (ofText true rest).2) := by
  have hjoin : joinBreaks (ending ++ rest).toList = '\n' :: joinBreaks rest.toList := by
    rw [String.toList_append]
    obtain rfl | rfl := h <;> rfl
  rw [ofText, hjoin, ofLiteral, ofText]
  rfl

/-- What comes after a text is cut as it is without the text, if the text leaves nothing open. -/
theorem ofChunks_text {lineStart starts : Bool} {text : String} {nodes : List Node}
    (h : ∀ rest, ofText lineStart (text ++ rest) =
      (nodes ++ (ofText starts rest).1, (ofText starts rest).2))
    (rest : String) (after : List Chunk) :
    ofChunks lineStart (text ++ rest) after = nodes ++ ofChunks starts rest after := by
  induction after generalizing rest with
  | nil =>
    rw [ofChunks, ofChunks, h]
    exact List.append_assoc _ _ _
  | cons chunk after ih =>
    cases chunk with
    | literal more => rw [ofChunks, ofChunks, String.append_assoc, ih]
    | expression expr options | conditional branches otherwise | region name ascending body =>
      rw [ofChunks, ofChunks, h]
      exact List.append_assoc _ _ _

/-- Chunks leave nodes behind them, and a text that is joined with what comes after them. -/
theorem exists_before (lineStart : Bool) (literal : String) (before : List Chunk) :
    ∃ nodes starts text, ∀ rest, ofChunks lineStart literal (before ++ rest) =
      nodes ++ ofChunks starts text rest := by
  induction before generalizing lineStart literal with
  | nil => exact ⟨[], lineStart, literal, fun rest => rfl⟩
  | cons chunk before ih =>
    by_cases hchunk : ∃ text, chunk = .literal text
    · obtain ⟨more, rfl⟩ := hchunk
      obtain ⟨nodes, starts, text, hnodes⟩ := ih lineStart (literal ++ more)
      refine ⟨nodes, starts, text, fun rest => ?_⟩
      rw [List.cons_append, ofChunks, hnodes]
    · obtain ⟨node, -, hnode⟩ := ofChunks_cons lineStart literal fun text heq => hchunk ⟨text, heq⟩
      obtain ⟨nodes, starts, text, hnodes⟩ := ih false ""
      refine ⟨(ofText lineStart literal).1 ++ node :: nodes, starts, text, fun rest => ?_⟩
      rw [List.cons_append, hnode, hnodes, List.append_assoc, List.cons_append]

/-- A conditional becomes a node with the nodes of its bodies. -/
theorem ofChunks_conditional (lineStart : Bool) (literal : String)
    (branches : List (Branch Expr Chunk)) (otherwise : Option (List Chunk)) (after : List Chunk) :
    ofChunks lineStart literal (.conditional branches otherwise :: after) =
      (ofText lineStart literal).1 ++
        .conditional (ofBranches (ofText lineStart literal).2.inner branches)
          (ofOption (ofText lineStart literal).2.inner otherwise)
          (ofText lineStart literal).2.indent :: ofChunks false "" after := by
  rw [ofChunks]
  rfl

/-- Branches become nodes one by one. -/
theorem ofBranches_append (inner : Bool) (branches more : List (Branch Expr Chunk)) :
    ofBranches inner (branches ++ more) = ofBranches inner branches ++ ofBranches inner more := by
  induction branches with
  | nil => rw [List.nil_append, ofBranches, List.nil_append]
  | cons branch rest ih =>
    obtain ⟨test, body⟩ := branch
    rw [List.cons_append, ofBranches, ofBranches, ih, List.cons_append]

end Node

namespace SoleLine

variable (line : SoleLine)

/-- The spaces and tabs of a line become the indentation of its node. -/
theorem ofText_indent : Node.ofText true line.indent =
    ([], ⟨true, if line.indent.isEmpty then none else some line.indent⟩) := by
  have hunbroken : '\n' ∉ line.indent.toList := fun hmem => by
    obtain h | h := line.blank _ hmem <;> cases h
  have hspaces : line.indent.toList.all (fun c => c == ' ' || c == '\t') = true :=
    List.all_eq_true.mpr fun c hc => by simpa using line.blank c hc
  rw [Node.ofText, Text.joinBreaks_of_unbroken hunbroken, Node.ofLiteral_unbroken true [] hunbroken,
    List.append_nil, Node.ofLiteral, List.reverse_reverse, String.ofList_toList, Node.isIndent,
    hspaces, Bool.true_and, Bool.and_true]
  by_cases hempty : line.indent = ""
  · rw [hempty]
    rfl
  · have hnonempty : line.indent.toList.isEmpty = false := by
      simpa using hempty
    have hindent : line.indent.isEmpty = false := by
      simpa using hempty
    rw [hnonempty, hindent]
    rfl

/-- After a line break a line is cut into its node and a break. -/
theorem ofChunks (right : String) (after : List Chunk) :
    Node.ofChunks true line.indent (line.chunk :: .literal (line.ending ++ right) :: after) =
      line.node :: .newline :: Node.ofChunks true right after := by
  obtain ⟨node, hnode, hcut⟩ := Node.ofChunks_cons true line.indent line.unquoted
  have hinner : (Node.ofText true line.indent).2.inner = line.indent.isEmpty := by
    rw [line.ofText_indent, Node.Edge.inner]
    cases line.indent.isEmpty <;> rfl
  rw [hinner, line.ofText_indent] at hnode
  have hsame : line.node = node := Option.get_of_eq_some _ hnode
  rw [hcut, line.ofText_indent, hsame, Node.ofChunks, String.empty_append,
    Node.ofChunks_text (Node.ofText_ending false line.breaks)]
  rfl

end SoleLine

namespace Site

/-- Every place of a body has a place among the nodes of the body. -/
theorem exists_lowers (lineStart : Bool) (literal : String) (site : Site) :
    ∃ spot, site.Lowers lineStart literal spot := by
  induction site generalizing lineStart literal with
  | here before left right after =>
    obtain ⟨front, starts, text, hfront⟩ := Node.exists_before lineStart literal before
    obtain ⟨nodes, hnodes⟩ := Node.ofText_feed starts (text ++ left)
    -- The line feed in front of the site cuts off all that comes before it.
    have hcut (rest : String) (later : List Chunk) :
        Node.ofChunks lineStart literal (before ++ .literal (left ++ "\n" ++ rest) :: later) =
          front ++ nodes ++ [.newline] ++ Node.ofChunks true rest later := by
      have htext : ∀ rest, Node.ofText starts (text ++ left ++ "\n" ++ rest) =
          (nodes ++ [.newline] ++ (Node.ofText true rest).1, (Node.ofText true rest).2) := by
        intro rest
        rw [hnodes, List.append_assoc, List.singleton_append]
      have hassoc : text ++ (left ++ "\n" ++ rest) = text ++ left ++ "\n" ++ rest := by
        simp only [String.append_assoc]
      rw [hfront, Node.ofChunks, hassoc, Node.ofChunks_text htext]
      simp only [List.append_assoc]
    refine ⟨.here (front ++ nodes ++ [.newline]) (Node.ofChunks true right after),
      ⟨_, rfl⟩, ?_, fun line => ?_⟩
    · rw [body, rebuild, List.append_assoc, List.singleton_append, hcut, Spot.fill, List.append_nil]
    · rw [withLine, rebuild, List.append_assoc]
      simp only [List.cons_append, List.nil_append]
      rw [hcut, line.ofChunks, Spot.fill, List.append_assoc _ [line.node, .newline]]
      rfl
  | branch before front test inner back otherwise after ih =>
    obtain ⟨nodes, starts, text, hnodes⟩ := Node.exists_before lineStart literal before
    -- A body inside begins anew, without a literal in front of it.
    obtain ⟨spot, hfollows, hbody, hline⟩ := ih (Node.ofText starts text).2.inner ""
    refine ⟨.branch (nodes ++ (Node.ofText starts text).1)
      (Node.ofBranches (Node.ofText starts text).2.inner front) test spot
      (Node.ofBranches (Node.ofText starts text).2.inner back)
      (Node.ofOption (Node.ofText starts text).2.inner otherwise) (Node.ofText starts text).2.indent
      (Node.ofChunks false "" after), hfollows, ?_, fun line => ?_⟩
    · rw [body, rebuild, hnodes, Node.ofChunks_conditional, Node.ofBranches_append, Node.ofBranches,
        ← body, hbody, Spot.fill, List.append_assoc]
    · rw [withLine, rebuild, hnodes, Node.ofChunks_conditional, Node.ofBranches_append,
        Node.ofBranches, ← withLine, hline line, Spot.fill, List.append_assoc]
  | instead before branches inner after ih =>
    obtain ⟨nodes, starts, text, hnodes⟩ := Node.exists_before lineStart literal before
    obtain ⟨spot, hfollows, hbody, hline⟩ := ih (Node.ofText starts text).2.inner ""
    refine ⟨.instead (nodes ++ (Node.ofText starts text).1)
      (Node.ofBranches (Node.ofText starts text).2.inner branches) spot
      (Node.ofText starts text).2.indent (Node.ofChunks false "" after), hfollows, ?_,
      fun line => ?_⟩
    · rw [body, rebuild, hnodes, Node.ofChunks_conditional, Node.ofOption, ← body, hbody,
        Spot.fill, List.append_assoc]
    · rw [withLine, rebuild, hnodes, Node.ofChunks_conditional, Node.ofOption, ← withLine,
        hline line, Spot.fill, List.append_assoc]

end Site

end Stencil
