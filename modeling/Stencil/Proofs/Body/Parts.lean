import Stencil.Definition

/-!
# Parts of expressions

The parts of an expression are the expressions that are evaluated together with it, in the same
scope. A template that is written in place is not a part: it is evaluated when it is written, in a
scope of its own.

Evaluation looks names up. Which names an expression may look up depends on what the templates that
it calls are: a call that passes its scope through looks up their formal arguments.
-/

namespace Stencil

/-- The expressions of the arguments of a call. -/
def Arguments.parts (arguments : Arguments Expr) : List Expr :=
  arguments.positional ++ arguments.named.map Prod.snd

/-- The expression that a call names its template by. -/
def Callee.parts : Callee Expr Chunk → List Expr
  | .computed name => [name]
  | .named _ | .inherited _ | .inline _ => []

/-- The expressions of a call. -/
def Call.parts (call : Call Expr Chunk) : List Expr := call.callee.parts ++ call.arguments.parts

/-- The expression of a fallback. -/
def Fallback.parts : Option (Fallback Expr) → List Expr
  | some (.value expr) => [expr]
  | some .key | none => []

/-- The expressions of a mapping that is written down. -/
def MapLiteral.parts (literal : MapLiteral Expr) : List Expr :=
  literal.entries.map Prod.snd ++ Fallback.parts literal.fallback

/-- The expressions of options. -/
def Options.parts (options : Options Expr) : List Expr :=
  options.separator.toList ++ options.wrap.toList ++ options.null.toList ++ options.format.toList

/-- The parts of an expression. -/
def Expr.parts : Expr → List Expr
  | .attribute _ | .string _ | .bool _ | .inline _ => []
  | .property target _ => [target]
  | .computedProperty target name => [target, name]
  | .call inner => inner.parts
  | .apply drivers calls => drivers ++ calls.flatMap Call.parts
  | .mapping literal => MapLiteral.parts literal
  | .concat items => items
  | .operator _ operand => [operand]
  | .rendered inner | .not inner => [inner]
  | .and left right | .or left right => [left, right]

/-- The calls of an expression. -/
def Expr.calls : Expr → List (Call Expr Chunk)
  | .call inner => [inner]
  | .apply _ calls => calls
  | _ => []

/-- The definitions that a call may refer to, where `stored` says what names may stand for. -/
def Callee.Refers (stored : String → Definition → Prop) :
    Callee Expr Chunk → Definition → Prop
  | .named name, definition | .inherited name, definition => stored name definition
  | .computed _, definition => ∃ name, stored name definition
  | .inline template, definition => ∃ owner, definition = Definition.inline template owner

/-- A name that the evaluation of a call may look up: a formal argument of what it calls, if it
passes its scope through. -/
def Call.Reads (stored : String → Definition → Prop) (inner : Call Expr Chunk) (name : String) :
    Prop :=
  inner.arguments.passThrough = true ∧ ∃ definition, inner.callee.Refers stored definition ∧
    ∃ formal ∈ definition.parameters, formal.name = name

/-- A name that the evaluation of an expression may look up by itself, not for one of its parts. -/
def Expr.Reads (stored : String → Definition → Prop) (expr : Expr) (name : String) : Prop :=
  expr = .attribute name ∨ ∃ inner ∈ expr.calls, Call.Reads stored inner name

/-- A name that the evaluation of an expression may look up, for itself or for a part. -/
inductive Expr.Leads (stored : String → Definition → Prop) : Expr → String → Prop where
  | reads {expr : Expr} {name : String} (h : expr.Reads stored name) : Leads stored expr name
  | part {expr part : Expr} {name : String} (hpart : part ∈ expr.parts)
      (h : Leads stored part name) : Leads stored expr name

/-- A name leads to itself alone. -/
theorem Expr.leads_attribute {stored : String → Definition → Prop} {name other : String} :
    (Expr.attribute name).Leads stored other ↔ other = name := by
  constructor
  · rintro (hreads | ⟨hpart, -⟩)
    · rcases hreads with heq | ⟨inner, hinner, -⟩
      · exact (Expr.attribute.inj heq).symm
      · cases hinner
    · cases hpart
  · rintro rfl
    exact .reads (Or.inl rfl)

/-- A text leads to nothing. -/
theorem Expr.not_leads_string {stored : String → Definition → Prop} {text other : String} :
    ¬ (Expr.string text).Leads stored other := by
  rintro (hreads | ⟨hpart, -⟩)
  · rcases hreads with heq | ⟨inner, hinner, -⟩
    · cases heq
    · cases hinner
  · cases hpart

/-- Every part of a callee is smaller than the callee. -/
theorem Callee.sizeOf_parts {callee : Callee Expr Chunk} {part : Expr} (h : part ∈ callee.parts) :
    sizeOf part < sizeOf callee := by
  cases callee with
  | computed name =>
    have heq : part = name := by simpa [Callee.parts] using h
    simp [heq]
  | named _ | inherited _ | inline _ => cases h

/-- Every part of arguments is smaller than these. -/
theorem Arguments.sizeOf_parts {arguments : Arguments Expr} {part : Expr}
    (h : part ∈ arguments.parts) : sizeOf part < sizeOf arguments := by
  obtain ⟨positional, named, passThrough⟩ := arguments
  rcases List.mem_append.mp h with (h : part ∈ positional) | h
  · have := List.sizeOf_lt_of_mem h
    simp only [Arguments.mk.sizeOf_spec]
    omega
  · obtain ⟨entry, hentry, rfl⟩ := List.mem_map.mp h
    have := List.sizeOf_lt_of_mem hentry
    obtain ⟨name, expr⟩ := entry
    simp only [Prod.mk.sizeOf_spec, Arguments.mk.sizeOf_spec] at this ⊢
    omega

/-- Every part of a call is smaller than the call. -/
theorem Call.sizeOf_parts {call : Call Expr Chunk} {part : Expr} (h : part ∈ call.parts) :
    sizeOf part < sizeOf call := by
  obtain ⟨callee, arguments⟩ := call
  simp only [Call.mk.sizeOf_spec]
  rcases List.mem_append.mp h with (h : part ∈ callee.parts) | (h : part ∈ arguments.parts)
  · have := Callee.sizeOf_parts h
    omega
  · have := Arguments.sizeOf_parts h
    omega

/-- Every part of a mapping that is written down is smaller than the mapping. -/
theorem MapLiteral.sizeOf_parts {literal : MapLiteral Expr} {part : Expr}
    (h : part ∈ literal.parts) : sizeOf part < sizeOf literal := by
  obtain ⟨entries, fallback⟩ := literal
  rcases List.mem_append.mp h with h | h
  · obtain ⟨entry, hentry, rfl⟩ := List.mem_map.mp h
    have := List.sizeOf_lt_of_mem hentry
    obtain ⟨name, expr⟩ := entry
    simp only [Prod.mk.sizeOf_spec, MapLiteral.mk.sizeOf_spec] at this ⊢
    omega
  · match fallback with
    | some (.value expr) =>
      have heq : part = expr := by simpa [Fallback.parts] using h
      subst heq
      simp only [MapLiteral.mk.sizeOf_spec, Option.some.sizeOf_spec, Fallback.value.sizeOf_spec]
      omega
    | some .key | none => cases h

/-- A part is smaller than the expression that it is a part of. -/
theorem Expr.sizeOf_parts {expr part : Expr} (h : part ∈ expr.parts) :
    sizeOf part < sizeOf expr := by
  cases expr with
  | «attribute» _ | string _ | bool _ | inline _ => cases h
  | call inner =>
    have := Call.sizeOf_parts h
    simp only [Expr.call.sizeOf_spec]
    omega
  | apply drivers calls =>
    simp only [Expr.apply.sizeOf_spec]
    rcases List.mem_append.mp h with h | h
    · have := List.sizeOf_lt_of_mem h
      omega
    · -- A part of a call is smaller than the call, and the call than the list.
      obtain ⟨inner, hinner, hpart⟩ := List.mem_flatMap.mp h
      have := List.sizeOf_lt_of_mem hinner
      have := Call.sizeOf_parts hpart
      omega
  | mapping literal =>
    have := MapLiteral.sizeOf_parts h
    simp only [Expr.mapping.sizeOf_spec]
    omega
  | concat items =>
    have hmem : part ∈ items := h
    have := List.sizeOf_lt_of_mem hmem
    simp only [Expr.concat.sizeOf_spec]
    omega
  | property _ _ | operator _ _ | rendered _ | not _ =>
    have heq := List.mem_singleton.mp h
    subst heq
    simp only [Expr.property.sizeOf_spec, Expr.operator.sizeOf_spec, Expr.rendered.sizeOf_spec,
      Expr.not.sizeOf_spec]
    omega
  | computedProperty _ _ | and _ _ | or _ _ =>
    simp only [Expr.computedProperty.sizeOf_spec, Expr.and.sizeOf_spec, Expr.or.sizeOf_spec]
    rcases List.mem_cons.mp h with rfl | h
    · omega
    · cases List.mem_singleton.mp h
      omega

end Stencil
