import Stencil.Proofs.Render.Writing

/-!
# The indentation of nodes

The indentation of a node is cut off from the text of a body, where it stands right before the node.
So it consists of spaces and tabs, in the branches of conditionals as well.
-/

namespace Stencil.Node

/-- The indentation of a node, if it has one. -/
def indent? : Node → Option String
  | .expression _ _ indent | .conditional _ _ indent | .region _ _ indent => indent
  | .text _ | .newline => none

/-- Indentation is nothing but spaces and tabs, in a node and in all nodes inside it. -/
inductive Spaced : Node → Prop where
  | intro {node : Node} (hindent : ∀ indent, node.indent? = some indent → isIndent indent.toList)
    (hinner : ∀ body ∈ node.bodies, ∀ inner ∈ body, Spaced inner) : Spaced node

/-- The indentation of a node consists of spaces and tabs. -/
theorem Spaced.isIndent_of_indent? {node : Node} {indent : String} (h : node.Spaced)
    (hindent : node.indent? = some indent) : isIndent indent.toList := by
  obtain ⟨hspaces, -⟩ := h
  exact hspaces indent hindent

/-- So does that of the nodes inside it. -/
theorem Spaced.inner {node inner : Node} {body : List Node} (h : node.Spaced)
    (hbody : body ∈ node.bodies) (hinner : inner ∈ body) : inner.Spaced := by
  obtain ⟨-, hspaced⟩ := h
  exact hspaced body hbody inner hinner

/-- A node without nodes inside it. -/
theorem Spaced.leaf {node : Node} (hbodies : node.bodies = [])
    (hindent : ∀ indent, node.indent? = some indent → isIndent indent.toList) : node.Spaced :=
  .intro hindent (hbodies ▸ nofun)

/-- Text has no indentation. -/
theorem spaced_text (text : String) : (Node.text text).Spaced :=
  .leaf rfl nofun

/-- Neither has a break. -/
theorem spaced_newline : Node.newline.Spaced := .leaf rfl nofun

/-- Neither has a segment of a line. -/
theorem spaced_ofSegment (segment : List Char) : ∀ node ∈ ofSegment segment, node.Spaced := by
  intro node hnode
  unfold ofSegment at hnode
  split at hnode
  · cases hnode
  · exact List.mem_singleton.mp hnode ▸ spaced_text _

/-- What a literal leaves behind it as indentation is nothing but spaces and tabs. -/
theorem ofLiteral_spaced (lineStart : Bool) (pending text : List Char) :
    (∀ node ∈ (ofLiteral lineStart pending text).1, node.Spaced) ∧
      ∀ indent, (ofLiteral lineStart pending text).2.indent = some indent →
        isIndent indent.toList := by
  fun_induction ofLiteral lineStart pending text with
  | case1 lineStart pending segment hindent =>
    refine ⟨nofun, fun indent heq => ?_⟩
    cases heq
    rw [String.toList_ofList]
    exact (Bool.and_eq_true_iff.mp hindent).2
  | case2 lineStart pending segment => exact ⟨spaced_ofSegment _, nofun⟩
  | case3 lineStart pending rest nodes edge heq ih =>
    rw [heq] at ih
    refine ⟨fun node hnode => ?_, ih.2⟩
    rcases List.mem_append.mp hnode with hnode | hnode
    · exact spaced_ofSegment _ node hnode
    · rcases List.mem_cons.mp hnode with rfl | hnode
      · exact spaced_newline
      · exact ih.1 node hnode
  | case4 lineStart pending c rest hc ih => exact ih

variable {lineStart : Bool} {literal : String} {nodes : List Node} {edge : Edge}

/-- A literal in front of a node and what comes after it. -/
theorem forall_spaced (htext : ofText lineStart literal = (nodes, edge)) {node : Node}
    {rest : List Node} (hindent : node.indent? = edge.indent)
    (hinner : ∀ body ∈ node.bodies, ∀ inner ∈ body, inner.Spaced)
    (hrest : ∀ other ∈ rest, other.Spaced) : ∀ other ∈ nodes ++ node :: rest, other.Spaced := by
  have hspaced := ofLiteral_spaced lineStart [] (joinBreaks literal.toList)
  rw [← ofText, htext] at hspaced
  have hnode : node.Spaced :=
    .intro (fun indent heq => hspaced.2 indent (hindent.symm.trans heq)) hinner
  exact List.forall_mem_append.mpr ⟨hspaced.1, List.forall_mem_cons.mpr ⟨hnode, hrest⟩⟩

mutual

/-- The nodes of chunks are indented by spaces and tabs. -/
theorem spaced_ofChunks (lineStart : Bool) (literal : String) :
    ∀ body : List Chunk, ∀ node ∈ ofChunks lineStart literal body, node.Spaced
  | [] => by
    have hspaced := ofLiteral_spaced lineStart [] (joinBreaks literal.toList)
    rw [ofChunks]
    refine List.forall_mem_append.mpr ⟨hspaced.1, fun node hnode => ?_⟩
    obtain ⟨text, -, rfl⟩ := Option.map_eq_some_iff.mp (Option.mem_toList.mp hnode)
    exact spaced_text text
  | .literal more :: rest => by
    rw [ofChunks]
    exact spaced_ofChunks lineStart (literal ++ more) rest
  | .expression expr options :: rest => by
    rw [ofChunks]
    exact forall_spaced rfl rfl nofun (spaced_ofChunks false "" rest)
  | .conditional branches otherwise :: rest => by
    rw [ofChunks]
    refine forall_spaced rfl rfl ?_ (spaced_ofChunks false "" rest)
    exact List.forall_mem_cons.mpr ⟨spaced_ofOption _ otherwise, spaced_ofBranches _ branches⟩
  | .region name ascending body :: rest => by
    rw [ofChunks]
    exact forall_spaced rfl rfl nofun (spaced_ofChunks false "" rest)

/-- So are those of branches. -/
theorem spaced_ofBranches (lineStart : Bool) : ∀ branches : List (Branch Expr Chunk),
    ∀ body ∈ (ofBranches lineStart branches).map Branch.body, ∀ node ∈ body, node.Spaced
  | [] => by
    rw [ofBranches]
    nofun
  | ⟨test, body⟩ :: rest => by
    rw [ofBranches]
    exact List.forall_mem_cons.mpr
      ⟨spaced_ofChunks lineStart "" body, spaced_ofBranches lineStart rest⟩

/-- So are those of what is done otherwise. -/
theorem spaced_ofOption (lineStart : Bool) : ∀ otherwise : Option (List Chunk),
    ∀ node ∈ ofOption lineStart otherwise, node.Spaced
  | none => by
    rw [ofOption]
    nofun
  | some body => by
    rw [ofOption]
    exact spaced_ofChunks lineStart "" body

end

/-- The nodes of a definition are indented by spaces and tabs only. -/
theorem spaced_nodes (definition : Definition) : ∀ node ∈ definition.nodes, node.Spaced :=
  spaced_ofChunks true "" definition.body

end Stencil.Node
