import Stencil.Proofs.Body.Parts

/-!
# Places of regions

A place of a region is open if the search for the regions of a body comes to it. Hidden places are
those in an option of an expression, in the default of an argument, and in the body of another
region. The search finds exactly the open places.
-/

namespace Stencil

/-- The template that a callee writes in place. -/
def Callee.inlines : Callee Expr Chunk → List (Inline Expr Chunk)
  | .inline template => [template]
  | .named _ | .inherited _ | .computed _ => []

/-- The templates that an expression writes in place, without those of its parts. -/
def Expr.inlines : Expr → List (Inline Expr Chunk)
  | .inline template => [template]
  | .call inner => inner.callee.inlines
  | .apply _ calls => calls.flatMap fun inner => inner.callee.inlines
  | _ => []

mutual

/-- An expression has a place for a region, with what it says about the body of the region; where
`hidden` holds the hidden places count as well. -/
inductive Expr.HasPlace (hidden : Prop) (mention : Mention) : Expr → Prop where
  | part {expr part : Expr} (hpart : part ∈ expr.parts) (h : Expr.HasPlace hidden mention part) :
    Expr.HasPlace hidden mention expr
  | inline {expr : Expr} {template : Inline Expr Chunk} (hinline : template ∈ expr.inlines)
    (h : Chunk.HasPlace hidden mention template.body) : Expr.HasPlace hidden mention expr
  | default {expr : Expr} {template : Inline Expr Chunk} {formal : Formal Expr} {default : Expr}
    (hhidden : hidden) (hinline : template ∈ expr.inlines) (hformal : formal ∈ template.formals)
    (hdefault : formal.default = some default) (h : Expr.HasPlace hidden mention default) :
    Expr.HasPlace hidden mention expr

/-- A body has a place for a region. -/
inductive Chunk.HasPlace (hidden : Prop) (mention : Mention) : List Chunk → Prop where
  | region {body : List Chunk} (hchunk : .region mention.1 false mention.2 ∈ body) :
    Chunk.HasPlace hidden mention body
  | expression {body : List Chunk} {expr : Expr} {options : Options Expr}
    (hchunk : .expression expr options ∈ body) (h : Expr.HasPlace hidden mention expr) :
    Chunk.HasPlace hidden mention body
  | option {body : List Chunk} {expr option : Expr} {options : Options Expr} (hhidden : hidden)
    (hchunk : .expression expr options ∈ body) (hoption : option ∈ options.parts)
    (h : Expr.HasPlace hidden mention option) : Chunk.HasPlace hidden mention body
  | test {body : List Chunk} {branches : List (Branch Expr Chunk)}
    {otherwise : Option (List Chunk)} {branch : Branch Expr Chunk}
    (hchunk : .conditional branches otherwise ∈ body) (hbranch : branch ∈ branches)
    (h : Expr.HasPlace hidden mention branch.test) : Chunk.HasPlace hidden mention body
  | branch {body : List Chunk} {branches : List (Branch Expr Chunk)}
    {otherwise : Option (List Chunk)} {branch : Branch Expr Chunk}
    (hchunk : .conditional branches otherwise ∈ body) (hbranch : branch ∈ branches)
    (h : Chunk.HasPlace hidden mention branch.body) : Chunk.HasPlace hidden mention body
  | otherwise {body : List Chunk} {branches : List (Branch Expr Chunk)} {rest : List Chunk}
    (hchunk : .conditional branches (some rest) ∈ body) (h : Chunk.HasPlace hidden mention rest) :
    Chunk.HasPlace hidden mention body
  | embedded {body inner : List Chunk} {name : String} {ascending : Bool} (hhidden : hidden)
    (hchunk : .region name ascending (some inner) ∈ body)
    (h : Chunk.HasPlace hidden mention inner) : Chunk.HasPlace hidden mention body

end

variable {mention : Mention}

/-! ### What the search comes to -/

/-- The mentions of several expressions are those of each of them. -/
theorem Expr.mem_mentionsAll {exprs : List Expr} :
    mention ∈ Expr.mentionsAll exprs ↔ ∃ expr ∈ exprs, mention ∈ expr.mentions := by
  induction exprs with
  | nil => simp [Expr.mentionsAll]
  | cons expr rest ih => simp [Expr.mentionsAll, ih]

/-- Those of some entries are those of their expressions. -/
theorem Expr.mem_mentionsEntries {entries : List (String × Expr)} :
    mention ∈ Expr.mentionsEntries entries ↔
      ∃ expr ∈ entries.map Prod.snd, mention ∈ expr.mentions := by
  induction entries with
  | nil => simp [Expr.mentionsEntries]
  | cons entry rest ih =>
    obtain ⟨name, expr⟩ := entry
    simp only [Expr.mentionsEntries, List.mem_append, ih, List.map_cons, List.mem_cons,
      exists_eq_or_imp]

/-- Those of a fallback are those of its expression, if it has one. -/
theorem Fallback.mem_mentions {fallback : Option (Fallback Expr)} :
    mention ∈ Fallback.mentions fallback ↔
      ∃ expr ∈ Fallback.parts fallback, mention ∈ expr.mentions := by
  rcases fallback with _ | ⟨expr | _⟩ <;> simp [Fallback.mentions, Fallback.parts]

/-- Those of a template that is written in place are those of its body. -/
theorem Inline.mentions_eq (template : Inline Expr Chunk) :
    Inline.mentions template = Chunk.mentionsAll template.body := by
  cases template
  rfl

/-- Those of a call are those of its parts and of the template that it writes in place. -/
theorem Call.mem_mentions {inner : Call Expr Chunk} :
    mention ∈ Call.mentions inner ↔ (∃ part ∈ inner.parts, mention ∈ part.mentions) ∨
      ∃ template ∈ inner.callee.inlines, mention ∈ Chunk.mentionsAll template.body := by
  obtain ⟨callee, positional, named, passThrough⟩ := inner
  have hcallee : mention ∈ Callee.mentions callee ↔
      (∃ part ∈ callee.parts, mention ∈ part.mentions) ∨
        ∃ template ∈ callee.inlines, mention ∈ Chunk.mentionsAll template.body := by
    cases callee <;> simp [Callee.mentions, Callee.parts, Callee.inlines, Inline.mentions_eq]
  simp only [Call.mentions, Call.parts, Arguments.parts, List.mem_append, Expr.mem_mentionsAll,
    Expr.mem_mentionsEntries, hcallee, or_and_right, exists_or, or_assoc, or_comm, or_left_comm]

/-- Those of several calls are those of each of them. -/
theorem Call.mem_mentionsAll {calls : List (Call Expr Chunk)} :
    mention ∈ Call.mentionsAll calls ↔ ∃ inner ∈ calls, mention ∈ Call.mentions inner := by
  induction calls with
  | nil => simp [Call.mentionsAll]
  | cons inner rest ih => simp [Call.mentionsAll, ih]

/-- An expression mentions what its parts and the templates that it writes in place mention. -/
theorem Expr.mem_mentions {expr : Expr} :
    mention ∈ expr.mentions ↔ (∃ part ∈ expr.parts, mention ∈ part.mentions) ∨
      ∃ template ∈ expr.inlines, mention ∈ Chunk.mentionsAll template.body := by
  cases expr with
  | call inner => simp only [Expr.mentions, Expr.parts, Expr.inlines, Call.mem_mentions]
  | apply drivers calls =>
    simp only [Expr.mentions, Expr.parts, Expr.inlines, List.mem_append, Expr.mem_mentionsAll,
      Call.mem_mentionsAll, Call.mem_mentions, List.mem_flatMap]
    grind
  | mapping literal =>
    obtain ⟨entries, fallback⟩ := literal
    simp only [Expr.mentions, Expr.parts, Expr.inlines, MapLiteral.parts, List.mem_append,
      Expr.mem_mentionsEntries, Fallback.mem_mentions, or_and_right, exists_or]
    simp
  | concat items => simp [Expr.mentions, Expr.parts, Expr.inlines, Expr.mem_mentionsAll]
  | _ => simp [Expr.mentions, Expr.parts, Expr.inlines, Inline.mentions_eq]

/-- Those of a body are those of its chunks. -/
theorem Chunk.mem_mentionsAll {body : List Chunk} :
    mention ∈ Chunk.mentionsAll body ↔ ∃ chunk ∈ body, mention ∈ chunk.mentions := by
  induction body with
  | nil => simp [Chunk.mentionsAll]
  | cons chunk rest ih => simp [Chunk.mentionsAll, ih]

/-- Those of branches are those of their tests and of their bodies. -/
theorem Branch.mem_mentionsAll {branches : List (Branch Expr Chunk)} :
    mention ∈ Branch.mentionsAll branches ↔ ∃ branch ∈ branches,
      mention ∈ branch.test.mentions ∨ mention ∈ Chunk.mentionsAll branch.body := by
  induction branches with
  | nil => simp [Branch.mentionsAll]
  | cons branch rest ih =>
    obtain ⟨test, body⟩ := branch
    simp only [Branch.mentionsAll, List.mem_append, ih, List.mem_cons, exists_eq_or_imp]

/-- A chunk mentions a region if it is a place for it, or if one of the expressions and bodies in it
that are not hidden does. -/
theorem Chunk.mem_mentions {chunk : Chunk} :
    mention ∈ chunk.mentions ↔
      chunk = .region mention.1 false mention.2 ∨
      (∃ expr options, chunk = .expression expr options ∧ mention ∈ expr.mentions) ∨
      ∃ branches otherwise, chunk = .conditional branches otherwise ∧
        ((∃ branch ∈ branches, mention ∈ branch.test.mentions ∨
          mention ∈ Chunk.mentionsAll branch.body) ∨
        ∃ rest, otherwise = some rest ∧ mention ∈ Chunk.mentionsAll rest) := by
  cases chunk with
  | literal text => simp [Chunk.mentions]
  | expression expr options => simp [Chunk.mentions]
  | conditional branches otherwise =>
    cases otherwise <;>
      simp [Chunk.mentions, Chunk.mentionsOption, Branch.mem_mentionsAll, and_assoc]
  | region name ascending body =>
    obtain ⟨region, given⟩ := mention
    cases ascending <;> simp [Chunk.mentions, eq_comm]

/-! ### The search finds the open places -/

mutual

/-- An open place for a region in an expression is mentioned. -/
theorem Expr.HasPlace.mem_mentions :
    {expr : Expr} → expr.HasPlace False mention → mention ∈ expr.mentions
  | _, .part hpart h => Expr.mem_mentions.mpr (Or.inl ⟨_, hpart, h.mem_mentions⟩)
  | _, .inline hinline h => Expr.mem_mentions.mpr (Or.inr ⟨_, hinline, h.mem_mentionsAll⟩)

/-- So is one in a body. -/
theorem Chunk.HasPlace.mem_mentionsAll :
    {body : List Chunk} → Chunk.HasPlace False mention body → mention ∈ Chunk.mentionsAll body
  | _, .region hchunk =>
    Chunk.mem_mentionsAll.mpr ⟨_, hchunk, Chunk.mem_mentions.mpr (Or.inl rfl)⟩
  | _, .expression hchunk h =>
    Chunk.mem_mentionsAll.mpr ⟨_, hchunk,
      Chunk.mem_mentions.mpr (Or.inr (Or.inl ⟨_, _, rfl, h.mem_mentions⟩))⟩
  | _, .test hchunk hbranch h =>
    Chunk.mem_mentionsAll.mpr ⟨_, hchunk, Chunk.mem_mentions.mpr
      (Or.inr (Or.inr ⟨_, _, rfl, Or.inl ⟨_, hbranch, Or.inl h.mem_mentions⟩⟩))⟩
  | _, .branch hchunk hbranch h =>
    Chunk.mem_mentionsAll.mpr ⟨_, hchunk, Chunk.mem_mentions.mpr
      (Or.inr (Or.inr ⟨_, _, rfl, Or.inl ⟨_, hbranch, Or.inr h.mem_mentionsAll⟩⟩))⟩
  | _, .otherwise hchunk h =>
    Chunk.mem_mentionsAll.mpr ⟨_, hchunk, Chunk.mem_mentions.mpr
      (Or.inr (Or.inr ⟨_, _, rfl, Or.inr ⟨_, rfl, h.mem_mentionsAll⟩⟩))⟩

end

/-- The body of a template that is written in place is smaller than the template. -/
theorem Inline.sizeOf_body (template : Inline Expr Chunk) :
    sizeOf template.body < sizeOf template := by
  obtain ⟨label, formals, body⟩ := template
  simp only [Inline.mk.sizeOf_spec]
  omega

/-- A template that a call writes in place is smaller than the call. -/
theorem Call.sizeOf_inlines {inner : Call Expr Chunk} {template : Inline Expr Chunk}
    (h : template ∈ inner.callee.inlines) : sizeOf template < sizeOf inner := by
  obtain ⟨callee, arguments⟩ := inner
  cases callee with
  | inline other =>
    obtain rfl := List.mem_singleton.mp h
    simp only [Call.mk.sizeOf_spec, Callee.inline.sizeOf_spec]
    omega
  | named _ | inherited _ | computed _ => cases h

/-- A template that an expression writes in place is smaller than the expression. -/
theorem Expr.sizeOf_inlines {expr : Expr} {template : Inline Expr Chunk}
    (h : template ∈ expr.inlines) : sizeOf template < sizeOf expr := by
  cases expr with
  | inline other =>
    obtain rfl := List.mem_singleton.mp h
    simp only [Expr.inline.sizeOf_spec]
    omega
  | call inner =>
    have := Call.sizeOf_inlines h
    simp only [Expr.call.sizeOf_spec]
    omega
  | apply drivers calls =>
    obtain ⟨inner, hinner, htemplate⟩ := List.mem_flatMap.mp h
    have := List.sizeOf_lt_of_mem hinner
    have := Call.sizeOf_inlines htemplate
    simp only [Expr.apply.sizeOf_spec]
    omega
  | _ => cases h

/-- A test and a body are smaller than the branch that they are in. -/
theorem Branch.sizeOf_test_body (branch : Branch Expr Chunk) :
    sizeOf branch.test < sizeOf branch ∧ sizeOf branch.body < sizeOf branch := by
  obtain ⟨test, body⟩ := branch
  simp only [Branch.mk.sizeOf_spec]
  omega

mutual

/-- What an expression mentions has a place in it. -/
theorem Expr.hasPlace_of_mem (hidden : Prop) (expr : Expr) (h : mention ∈ expr.mentions) :
    expr.HasPlace hidden mention := by
  rcases Expr.mem_mentions.mp h with ⟨part, hpart, h⟩ | ⟨template, hinline, h⟩
  · have := Expr.sizeOf_parts hpart
    exact .part hpart (Expr.hasPlace_of_mem hidden part h)
  · have := Expr.sizeOf_inlines hinline
    have := template.sizeOf_body
    exact .inline hinline (Chunk.hasPlace_of_mem hidden template.body h)
termination_by sizeOf expr

/-- What a body mentions has a place in it. -/
theorem Chunk.hasPlace_of_mem (hidden : Prop) (body : List Chunk)
    (h : mention ∈ Chunk.mentionsAll body) : Chunk.HasPlace hidden mention body := by
  obtain ⟨chunk, hchunk, hmem⟩ := Chunk.mem_mentionsAll.mp h
  have hsize := List.sizeOf_lt_of_mem hchunk
  rcases Chunk.mem_mentions.mp hmem with rfl | ⟨expr, options, rfl, h⟩ |
    ⟨branches, otherwise, rfl, ⟨branch, hbranch, h⟩ | ⟨rest, rfl, h⟩⟩
  · exact .region hchunk
  · have hlt : sizeOf expr < sizeOf body := by
      simp only [Chunk.expression.sizeOf_spec] at hsize
      omega
    exact .expression hchunk (Expr.hasPlace_of_mem hidden expr h)
  · have hlt : sizeOf branch < sizeOf body := by
      have := List.sizeOf_lt_of_mem hbranch
      simp only [Chunk.conditional.sizeOf_spec] at hsize
      omega
    obtain ⟨htest, hbody⟩ := branch.sizeOf_test_body
    rcases h with h | h
    · exact .test hchunk hbranch (Expr.hasPlace_of_mem hidden branch.test h)
    · exact .branch hchunk hbranch (Chunk.hasPlace_of_mem hidden branch.body h)
  · have hlt : sizeOf rest < sizeOf body := by
      simp only [Chunk.conditional.sizeOf_spec, Option.some.sizeOf_spec] at hsize
      omega
    exact .otherwise hchunk (Chunk.hasPlace_of_mem hidden rest h)
termination_by sizeOf body

end

/-- The mentions of a body are its open places. -/
theorem Chunk.mem_mentionsAll_iff {body : List Chunk} :
    mention ∈ Chunk.mentionsAll body ↔ Chunk.HasPlace False mention body :=
  ⟨Chunk.hasPlace_of_mem False body, Chunk.HasPlace.mem_mentionsAll⟩

end Stencil
