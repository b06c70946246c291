import Stencil.Proofs.Body.Readings

/-!
# Bodies cut into nodes

Nodes are the reading of a body, cut at its line breaks, and each chunk that is not literal text has
a node. The text since the last line feed before it is its indentation if it begins a line and is
nothing but spaces and tabs.
-/

namespace Stencil

/-- The text after the last line feed. -/
def Text.lastLine (text : List Char) : List Char := text.rtakeWhile (· != '\n')

/-- A chunk that is not literal text as a node, where `inner` says whether what is inside it stands
at the start of a line. -/
def Chunk.node? (inner : Bool) (indent : Option String) : Chunk → Option Node
  | .literal _ => none
  | .expression expr options => some (.expression expr options indent)
  | .conditional branches otherwise =>
    some (.conditional (Node.ofBranches inner branches) (Node.ofOption inner otherwise) indent)
  | .region name ascending _ => some (.region name ascending indent)

namespace Text

/-- What is in front of a line feed does not matter for the last line. -/
theorem lastLine_append_feed (before after : List Char) :
    lastLine (before ++ '\n' :: after) = lastLine after := by
  induction after using List.reverseRecOn with
  | nil =>
    rw [lastLine, List.rtakeWhile_concat]
    rfl
  | append_singleton after c ih =>
    rw [lastLine, lastLine, ← List.cons_append, ← List.append_assoc, List.rtakeWhile_concat,
      List.rtakeWhile_concat]
    exact congrArg (fun line => if (c != '\n') then line ++ [c] else []) ih

/-- A text without line feeds is its own last line. -/
theorem lastLine_of_unbroken {text : List Char} (h : '\n' ∉ text) : lastLine text = text :=
  List.rtakeWhile_eq_self_iff.mpr fun _ hc => bne_iff_ne.mpr fun heq => h (heq ▸ hc)

/-- Joining breaks neither adds a line feed nor takes one away. -/
theorem mem_joinBreaks {text : List Char} : '\n' ∈ Node.joinBreaks text ↔ '\n' ∈ text := by
  induction text using Node.joinBreaks.induct with
  | case1 rest ih => simp [Node.joinBreaks]
  | case2 c rest hrest ih =>
    rw [Node.joinBreaks, List.mem_cons, List.mem_cons, ih]
    exact hrest
  | case3 => rfl

/-- A text without line feeds has no breaks to join. -/
theorem joinBreaks_of_unbroken {text : List Char} (h : '\n' ∉ text) :
    Node.joinBreaks text = text := by
  induction text using Node.joinBreaks.induct with
  | case1 rest ih => exact absurd (.tail _ (.head _)) h
  | case2 c rest hrest ih =>
    rw [Node.joinBreaks, ih fun hmem => h (.tail _ hmem)]
    exact hrest
  | case3 => rfl

/-- A character in front of a line feed does not matter for the last line. -/
theorem lastLine_cons_of_mem (c : Char) {text : List Char} (h : '\n' ∈ text) :
    lastLine (c :: text) = lastLine text := by
  obtain ⟨before, after, rfl⟩ := List.append_of_mem h
  rw [lastLine_append_feed, ← List.cons_append, lastLine_append_feed]

/-- A carriage return that belongs to a break is in no last line. -/
theorem lastLine_joinBreaks (text : List Char) :
    lastLine (Node.joinBreaks text) = lastLine text := by
  induction text using Node.joinBreaks.induct with
  | case1 rest ih =>
    rw [Node.joinBreaks]
    exact (lastLine_append_feed [] _).trans (ih.trans (lastLine_append_feed ['\r'] rest).symm)
  | case2 c rest hrest ih =>
    have hjoin : Node.joinBreaks (c :: rest) = c :: Node.joinBreaks rest := by
      rw [Node.joinBreaks]
      exact hrest
    rw [hjoin]
    by_cases hfeed : '\n' ∈ rest
    · rw [lastLine_cons_of_mem c hfeed, lastLine_cons_of_mem c (mem_joinBreaks.mpr hfeed), ih]
    · rw [joinBreaks_of_unbroken hfeed]
  | case3 => rfl

end Text

namespace Node

/-- The edge after a last line, where `starts` says whether it begins a line. -/
def Edge.after (starts : Bool) (line : List Char) : Edge :=
  if starts && isIndent line then ⟨true, some (.ofList line)⟩ else ⟨starts && line.isEmpty, none⟩

/-- The edge after literal text depends on its last line, and on whether there are other ones. -/
theorem ofLiteral_edge (lineStart : Bool) {pending : List Char} (text : List Char)
    (hpending : '\n' ∉ pending) :
    (ofLiteral lineStart pending text).2 =
      .after (lineStart || text.contains '\n') (Text.lastLine (pending.reverse ++ text)) := by
  induction text generalizing lineStart pending with
  | nil =>
    have hline : Text.lastLine pending.reverse = pending.reverse :=
      Text.lastLine_of_unbroken fun hmem => hpending (List.mem_reverse.mp hmem)
    rw [List.append_nil, hline, List.contains_nil, Bool.or_false, ofLiteral, Edge.after]
    split <;> rfl
  | cons c rest ih =>
    by_cases hc : c = '\n'
    · subst hc
      have hfeed : (lineStart || ('\n' :: rest).contains '\n') = true := by simp
      rw [Text.lastLine_append_feed, ofLiteral, hfeed]
      exact (ih true List.not_mem_nil).trans (by rw [Bool.true_or]; rfl)
    · have hcontains : (c :: rest).contains '\n' = rest.contains '\n' := by
        simp [Ne.symm hc]
      have hmore : '\n' ∉ c :: pending := fun hmem =>
        (List.mem_cons.mp hmem).elim (fun heq => hc heq.symm) hpending
      rw [hcontains, ofLiteral, ih lineStart hmore, List.reverse_cons, List.append_assoc,
        List.singleton_append]
      exact hc

/-- The edge after a text depends on its last line, and on whether there are other ones. -/
theorem ofText_edge (lineStart : Bool) (text : String) :
    (ofText lineStart text).2 =
      .after (lineStart || text.toList.contains '\n') (Text.lastLine text.toList) := by
  have hcontains : (joinBreaks text.toList).contains '\n' = text.toList.contains '\n' := by
    rw [Bool.eq_iff_iff, List.contains_iff_mem, List.contains_iff_mem, Text.mem_joinBreaks]
  rw [ofText, ofLiteral_edge lineStart _ List.not_mem_nil, hcontains, List.reverse_nil,
    List.nil_append, Text.lastLine_joinBreaks]

/-- Whether the bodies of a conditional with this edge before it stand at the start of a line. -/
def Edge.inner (edge : Edge) : Bool := edge.lineStart && edge.indent.isNone

/-- A chunk that is not literal text becomes a node, and the text after it begins anew. -/
theorem ofChunks_cons (lineStart : Bool) (literal : String) {chunk : Chunk}
    (hchunk : ∀ text, chunk ≠ .literal text) :
    ∃ node, chunk.node? (ofText lineStart literal).2.inner (ofText lineStart literal).2.indent =
        some node ∧
      ∀ after, ofChunks lineStart literal (chunk :: after) =
        (ofText lineStart literal).1 ++ node :: ofChunks false "" after := by
  cases chunk with
  | literal text => exact absurd rfl (hchunk text)
  | expression expr options => exact ⟨_, rfl, fun after => by rw [ofChunks]⟩
  | conditional branches otherwise => exact ⟨_, rfl, fun after => by rw [ofChunks]; rfl⟩
  | region name ascending body => exact ⟨_, rfl, fun after => by rw [ofChunks]⟩

/-- Nothing but literals is joined with the literals after it. -/
theorem ofChunks_append (lineStart : Bool) (literal : String) {before : List Chunk}
    (hbefore : before ≠ []) (hlast : ∀ text, before.getLast? ≠ some (.literal text))
    (after : List Chunk) :
    ofChunks lineStart literal (before ++ after) =
      ofChunks lineStart literal before ++ ofChunks false "" after := by
  induction before generalizing lineStart literal with
  | nil => exact absurd rfl hbefore
  | cons chunk rest ih =>
    rw [List.cons_append]
    by_cases hrest : rest = []
    · subst hrest
      have hchunk : ∀ text, chunk ≠ .literal text := fun text heq =>
        hlast text (congrArg some heq)
      obtain ⟨node, -, hnode⟩ := ofChunks_cons lineStart literal hchunk
      have hnil : ofChunks false "" [] = [] := by rw [ofChunks]; rfl
      rw [List.nil_append, hnode, hnode, hnil, List.append_assoc, List.singleton_append]
    · have hlast' : ∀ text, rest.getLast? ≠ some (.literal text) := fun text heq =>
        hlast text (by rw [List.getLast?_cons, heq]; rfl)
      by_cases hchunk : ∃ text, chunk = .literal text
      · obtain ⟨text, rfl⟩ := hchunk
        rw [ofChunks, ofChunks, ih _ _ hrest hlast']
      · obtain ⟨node, -, hnode⟩ :=
          ofChunks_cons lineStart literal fun text heq => hchunk ⟨text, heq⟩
        rw [hnode, hnode, ih _ _ hrest hlast', List.append_assoc, List.cons_append]

/-- Literals in front of another chunk are one text. -/
theorem ofChunks_literals_append (lineStart : Bool) (literal : String) (texts : List String)
    (after : List Chunk) :
    ofChunks lineStart literal (texts.map Chunk.literal ++ after) =
      ofChunks lineStart (literal ++ String.join texts) after := by
  induction texts generalizing literal with
  | nil => rw [List.map_nil, List.nil_append, String.join_nil, String.append_empty]
  | cons text rest ih =>
    rw [List.map_cons, List.cons_append, ofChunks, ih, String.join_cons, String.append_assoc]

end Node

/-- Whether the last line of a text begins a line, where `before` are the chunks in front of the
text. -/
def Chunk.Begins (lineStart : Bool) (before : List Chunk) (text : List Char) : Prop :=
  (before = [] ∧ lineStart) ∨ '\n' ∈ text

/-- What the nodes of chunks say of the chunks, and what it is in a chunk that they depend on. -/
structure Node.Faithful (cut : Bool → List Chunk → List Node) : Prop where
  /-- The nodes read as the chunks. -/
  reads : ∀ lineStart body, Sign.ofNodes (cut lineStart body) = Sign.ofBody body
  /-- They depend on nothing else. -/
  determined : ∀ lineStart body other,
    cut lineStart body = cut lineStart other ↔ Sign.ofBody body = Sign.ofBody other
  /-- So it does not matter how a text is divided into literals, not even between a carriage return
  and a line feed. -/
  divided : ∀ lineStart before texts more after, String.join texts = String.join more →
    cut lineStart (before ++ texts.map Chunk.literal ++ after) =
      cut lineStart (before ++ more.map Chunk.literal ++ after)
  /-- A chunk that is not literal text has a node, with the last line of the text in front of it for
  its indentation if that line begins a line and consists of spaces and tabs. What is inside the
  chunk stands at the start of a line if it begins a line without indentation. -/
  indents : ∀ lineStart before texts chunk after,
    (∀ text, before.getLast? ≠ some (.literal text)) → (∀ text, chunk ≠ .literal text) →
      ∃ earlier node, ∃ inner : Bool, ∃ indent, chunk.node? inner indent = some node ∧
        cut lineStart (before ++ texts.map Chunk.literal ++ chunk :: after) =
          earlier ++ node :: cut false after ∧
        Sign.ofNodes earlier ++ Sign.ofIndent indent =
          Sign.ofBody (before ++ texts.map Chunk.literal) ∧
        (∀ spaces, indent = some spaces ↔
          Chunk.Begins lineStart before (String.join texts).toList ∧
            isIndent (Text.lastLine (String.join texts).toList) ∧
            spaces.toList = Text.lastLine (String.join texts).toList) ∧
        (inner ↔ Chunk.Begins lineStart before (String.join texts).toList ∧
          Text.lastLine (String.join texts).toList = [])

namespace Node

/-- A line without characters is no indentation. -/
theorem isIndent_nil : isIndent [] = false := rfl

/-- An indentation is left over if and only if it is the last line and begins it. -/
theorem Edge.after_indent_iff {starts : Bool} {line : List Char} {spaces : String} :
    (Edge.after starts line).indent = some spaces ↔
      starts ∧ isIndent line ∧ spaces.toList = line := by
  rw [Edge.after]
  split
  · next h =>
    rw [Bool.and_eq_true] at h
    rw [Option.some_inj, ← String.toList_inj, String.toList_ofList, eq_comm]
    exact ⟨fun heq => ⟨h.1, h.2, heq⟩, fun h => h.2.2⟩
  · next h =>
    refine ⟨nofun, fun heq => ?_⟩
    exact absurd (Bool.and_eq_true_iff.mpr ⟨heq.1, heq.2.1⟩) h

/-- What follows stands at the start of a line if and only if nothing is in front of it there. -/
theorem Edge.after_inner_iff {starts : Bool} {line : List Char} :
    (Edge.after starts line).inner ↔ starts ∧ line = [] := by
  rw [Edge.after, Edge.inner]
  split
  · next h =>
    refine ⟨nofun, fun heq => ?_⟩
    rw [heq.2, isIndent_nil, Bool.and_false] at h
    exact Bool.noConfusion h
  · simp only [Option.isNone_none, Bool.and_true, Bool.and_eq_true, List.isEmpty_iff]

/-- Chunks that do not end with a literal, with whatever comes after them. -/
theorem exists_front (lineStart : Bool) {before : List Chunk}
    (hlast : ∀ text, before.getLast? ≠ some (.literal text)) :
    ∃ front, ∃ starts : Bool, (starts ↔ before = [] ∧ lineStart) ∧
      ∀ rest, ofChunks lineStart "" (before ++ rest) = front ++ ofChunks starts "" rest := by
  by_cases hbefore : before = []
  · subst hbefore
    exact ⟨[], lineStart, by simp, fun rest => rfl⟩
  · exact ⟨ofChunks lineStart "" before, false, by simp [hbefore],
      fun rest => ofChunks_append lineStart "" hbefore hlast rest⟩

/-- The last line begins if a break is in front of it or nothing at all. -/
theorem begins_iff {lineStart starts : Bool} {before : List Chunk}
    (hstarts : starts ↔ before = [] ∧ lineStart) (text : List Char) :
    (starts || text.contains '\n') ↔ Chunk.Begins lineStart before text := by
  rw [Bool.or_eq_true, hstarts, List.contains_iff_mem, Chunk.Begins]

/-- Two bodies are cut into the same nodes if and only if they consist of the same signs. -/
theorem ofChunks_eq_iff (lineStart : Bool) (body other : List Chunk) :
    ofChunks lineStart "" body = ofChunks lineStart "" other ↔
      Sign.ofBody body = Sign.ofBody other := by
  constructor
  · intro heq
    have hreads := congrArg Sign.ofNodes heq
    rwa [Sign.ofNodes_ofChunks, Sign.ofNodes_ofChunks] at hreads
  · intro heq
    rw [ofChunks_eq_ofSigns, ofChunks_eq_ofSigns]
    exact congrArg (ofSigns lineStart []) heq

/-- Literals of the same text are cut alike wherever they stand. -/
theorem ofChunks_divided (lineStart : Bool) (literal : String) (before : List Chunk)
    {texts more : List String} (hjoin : String.join texts = String.join more) (after : List Chunk) :
    ofChunks lineStart literal (before ++ texts.map Chunk.literal ++ after) =
      ofChunks lineStart literal (before ++ more.map Chunk.literal ++ after) := by
  induction before generalizing lineStart literal with
  | nil =>
    rw [List.nil_append, List.nil_append, ofChunks_literals_append, ofChunks_literals_append, hjoin]
  | cons chunk rest ih =>
    rw [List.cons_append, List.cons_append, List.cons_append, List.cons_append]
    by_cases hchunk : ∃ text, chunk = .literal text
    · obtain ⟨text, rfl⟩ := hchunk
      rw [ofChunks, ofChunks, ih]
    · obtain ⟨node, -, hnode⟩ := ofChunks_cons lineStart literal fun text heq => hchunk ⟨text, heq⟩
      rw [hnode, hnode, ih]

/-- Bodies are cut into nodes without a loss, and nothing but spaces and tabs that begin a line
right in front of a chunk becomes an indentation. -/
theorem faithful_ofChunks : Faithful fun lineStart => ofChunks lineStart "" where
  reads lineStart body := Sign.ofNodes_ofChunks lineStart "" body
  determined := ofChunks_eq_iff
  divided lineStart before _ _ after hjoin := ofChunks_divided lineStart "" before hjoin after
  indents lineStart before texts chunk after hlast hchunk := by
    obtain ⟨front, starts, hstarts, hfront⟩ := exists_front lineStart hlast
    obtain ⟨node, hnode, hcut⟩ := ofChunks_cons starts (String.join texts) hchunk
    have hliterals : ∀ rest, ofChunks lineStart "" (before ++ texts.map Chunk.literal ++ rest) =
        front ++ ofChunks starts (String.join texts) rest := fun rest => by
      rw [List.append_assoc, hfront, ofChunks_literals_append, String.empty_append]
    have hbegins := begins_iff hstarts (String.join texts).toList
    refine ⟨front ++ (ofText starts (String.join texts)).1, node, _, _, hnode, ?_, ?_, ?_, ?_⟩
    · rw [hliterals, hcut, List.append_assoc]
    · have hreads := Sign.ofNodes_ofChunks lineStart "" (before ++ texts.map Chunk.literal ++ [])
      rw [hliterals, ofChunks, Sign.ofNodes_append, Sign.ofNodes_append, Sign.ofNodes_ofEdge,
        List.append_nil] at hreads
      rw [Sign.ofNodes_append, List.append_assoc]
      exact hreads
    · intro spaces
      rw [ofText_edge, Edge.after_indent_iff, hbegins]
    · rw [ofText_edge, Edge.after_inner_iff, hbegins]

end Node

end Stencil
