import Stencil.Body.Syntax

/-!
# Regions of a body

A body mentions a region where it leaves a place for it, perhaps with a body for the region. Places
in the branches of a conditional count, and so do places in templates that are written in place.
What options, argument defaults and the bodies of other regions hold does not count.
-/

namespace Stencil

/-- A region that a body mentions, with the body it is given there. -/
abbrev Mention := String × Option (List Chunk)

mutual

/-- The regions that an expression mentions. -/
def Expr.mentions : Expr → List Mention
  | .attribute _ | .string _ | .bool _ => []
  | .property target _ => target.mentions
  | .computedProperty target name => target.mentions ++ name.mentions
  | .call call => Call.mentions call
  | .apply drivers calls => Expr.mentionsAll drivers ++ Call.mentionsAll calls
  | .inline template => Inline.mentions template
  | .mapping ⟨entries, fallback⟩ =>
    Expr.mentionsEntries entries ++ Fallback.mentions fallback
  | .concat items => Expr.mentionsAll items
  | .operator _ operand => operand.mentions
  | .rendered inner | .not inner => inner.mentions
  | .and left right | .or left right => left.mentions ++ right.mentions

/-- The regions that some expressions mention. -/
def Expr.mentionsAll : List Expr → List Mention
  | [] => []
  | expr :: rest => expr.mentions ++ Expr.mentionsAll rest

/-- The regions that named expressions mention. -/
def Expr.mentionsEntries : List (String × Expr) → List Mention
  | [] => []
  | (_, expr) :: rest => expr.mentions ++ Expr.mentionsEntries rest

/-- The regions that the fallback of a mapping mentions. -/
def Fallback.mentions : Option (Fallback Expr) → List Mention
  | some (.value expr) => expr.mentions
  | some .key | none => []

/-- The regions that a template written in place mentions. -/
def Inline.mentions : Inline Expr Chunk → List Mention
  | ⟨_, _, body⟩ => Chunk.mentionsAll body

/-- The regions that a call mentions, first for its template, then for its arguments. -/
def Call.mentions : Call Expr Chunk → List Mention
  | ⟨callee, ⟨positional, named, _⟩⟩ =>
    Callee.mentions callee ++ Expr.mentionsAll positional ++ Expr.mentionsEntries named

/-- The regions that the template of a call mentions. -/
def Callee.mentions : Callee Expr Chunk → List Mention
  | .named _ | .inherited _ => []
  | .computed name => name.mentions
  | .inline template => Inline.mentions template

/-- The regions that some calls mention. -/
def Call.mentionsAll : List (Call Expr Chunk) → List Mention
  | [] => []
  | call :: rest => Call.mentions call ++ Call.mentionsAll rest

/-- The regions that a chunk mentions. -/
def Chunk.mentions : Chunk → List Mention
  | .literal _ => []
  | .expression expr _ => expr.mentions
  | .conditional branches otherwise =>
    Branch.mentionsAll branches ++ Chunk.mentionsOption otherwise
  | .region name ascending body => if ascending then [] else [(name, body)]

/-- The regions that some chunks mention. -/
def Chunk.mentionsAll : List Chunk → List Mention
  | [] => []
  | chunk :: rest => chunk.mentions ++ Chunk.mentionsAll rest

/-- The regions that an optional body mentions. -/
def Chunk.mentionsOption : Option (List Chunk) → List Mention
  | none => []
  | some body => Chunk.mentionsAll body

/-- The regions that the branches of a conditional mention. -/
def Branch.mentionsAll : List (Branch Expr Chunk) → List Mention
  | [] => []
  | ⟨test, body⟩ :: rest =>
    test.mentions ++ Chunk.mentionsAll body ++ Branch.mentionsAll rest

end

namespace Region

/-- The first mention of each region. -/
def firsts : List Mention → List Mention
  | [] => []
  | mention :: rest => mention :: (firsts rest).filter fun other => other.1 ≠ mention.1

/-- The regions of a body, each as it is mentioned first. -/
def ofBody (body : List Chunk) : List Mention := firsts (Chunk.mentionsAll body)

/-- The name under which a group keeps the body of a template's region. -/
def key (template region : String) : String := "region__" ++ template ++ "__" ++ region

end Region

end Stencil
