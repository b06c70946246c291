import Stencil.Value.Operator

/-!
# Template bodies

The body of a template is a list of chunks: literal text, expressions with options, conditionals
and regions. Bodies arrive already parsed. Expressions and chunks refer to each other, because an
expression may hold a template that is written in place.
-/

namespace Stencil

/-- A formal argument, with an expression for its value when it is not set. -/
structure Formal (E : Type) where
  name : String
  default : Option E := none

/-- The arguments of a call. -/
structure Arguments (E : Type) where
  /-- Values for the formal arguments in their order. -/
  positional : List E := []
  /-- Values for named attributes. -/
  named : List (String × E) := []
  /-- Whether formal arguments that are not set take what the caller sees under their name. -/
  passThrough : Bool := false

/-- Whether there are no arguments at all. -/
def Arguments.isEmpty {E : Type} (arguments : Arguments E) : Bool :=
  arguments.positional.isEmpty && arguments.named.isEmpty && !arguments.passThrough

/-- A template written in place. The label tells occurrences of one template from copies: what is
one and the same template has one label. -/
structure Inline (E C : Type) where
  label : Nat
  formals : List (Formal E)
  body : List C

/-- How a call names its template. -/
inductive Callee (E C : Type) where
  /-- By its name. -/
  | named (name : String)
  /-- By its name, looked up from the super-group on. -/
  | inherited (name : String)
  /-- By the text of an expression. -/
  | computed (name : E)
  /-- By writing it in place. -/
  | inline (template : Inline E C)

/-- A call of a template. -/
structure Call (E C : Type) where
  callee : Callee E C
  arguments : Arguments E := {}

/-- A mapping that is written down. A name may occur repeatedly. -/
structure MapLiteral (E : Type) where
  entries : List (String × E) := []
  fallback : Option (Fallback E) := none

/-- The options of an expression. All but the anchor are expressions themselves. -/
structure Options (E : Type) where
  /-- Written between elements. -/
  separator : Option E := none
  /-- Written where a line is wrapped. -/
  wrap : Option E := none
  /-- Whether wrapped lines return to the column where the expression begins. -/
  anchor : Bool := false
  /-- Written for absent values. -/
  null : Option E := none
  /-- The format for renderers. -/
  format : Option E := none

/-- Whether no option is given. -/
def Options.isEmpty {E : Type} (options : Options E) : Bool :=
  options.separator.isNone && options.wrap.isNone && !options.anchor && options.null.isNone &&
    options.format.isNone

/-- A test with what is written if it is the first to hold. -/
structure Branch (E C : Type) where
  test : E
  body : List C

mutual

/-- Expressions. -/
inductive Expr where
  /-- The value under a name. -/
  | attribute (name : String)
  | string (text : String)
  | bool (truth : Bool)
  /-- A property of a value. -/
  | property (target : Expr) (name : String)
  /-- The property of a value that the text of another one names. -/
  | computedProperty (target name : Expr)
  /-- An instance of a template. -/
  | call (call : Call Expr Chunk)
  /-- Templates applied to the elements of one driver, or one template to several drivers in
  step. -/
  | apply (drivers : List Expr) (calls : List (Call Expr Chunk))
  /-- An instance of a template that is written in place. -/
  | inline (template : Inline Expr Chunk)
  | mapping (mapping : MapLiteral Expr)
  /-- Values put together, as a list if one of them is a list, else as text. -/
  | concat (items : List Expr)
  | operator (operator : Operator) (operand : Expr)
  /-- The text of a value. -/
  | rendered (inner : Expr)
  | not (inner : Expr)
  | and (left right : Expr)
  | or (left right : Expr)

/-- The pieces of a body. -/
inductive Chunk where
  | literal (text : String)
  | expression (expr : Expr) (options : Options Expr)
  /-- The first branch whose test holds, or what is written otherwise. -/
  | conditional (branches : List (Branch Expr Chunk)) (otherwise : Option (List Chunk))
  /-- A region, perhaps with a body; `ascending` asks for the body that the super-group has. -/
  | region (name : String) (ascending : Bool) (body : Option (List Chunk))

end

/-- Whether a template written in place is nothing but the text of an expression. -/
def Inline.isText (template : Inline Expr Chunk) : Bool :=
  match template.formals, template.body with
  | [], [.expression (.rendered _) options] => options.isEmpty
  | _, _ => false

end Stencil
