/-!
# Configuration

The settings that every render of an engine follows, and how they are taken from named entries of a
document. A setting that the document does not mention keeps its default, a name that is not known
is passed over, and a setting that is given twice is refused.
-/

namespace Stencil

/-- The settings of renders. -/
structure Config where
  /-- The column that a line should not pass; with 0 lines are never wrapped. -/
  lineWidth : Nat := 0
  /-- The text written for a line break. -/
  newline : String := "\n"
  /-- Whether to trace recursion and to warn of attributes that are not used. -/
  lint : Bool := false
  /-- How many instances may be rendered inside one another. -/
  maxDepth : Nat := 256
  /-- Whether to indent. -/
  indent : Bool := true
deriving DecidableEq, Repr

namespace Config

/-- The settings, by themselves. -/
inductive Field where
  | lineWidth
  | newline
  | lint
  | maxDepth
  | indent
deriving DecidableEq, Repr

/-- The settings in the order in which a list of values gives them. -/
def Field.all : List Field := [.lineWidth, .newline, .lint, .maxDepth, .indent]

/-- The setting of a given name. -/
def Field.ofName? : String → Option Field
  | "line_width" => some .lineWidth
  | "newline" => some .newline
  | "lint" => some .lint
  | "max_depth" => some .maxDepth
  | "indent" => some .indent
  | _ => none

/-- How a document gives the three types of settings. -/
structure Reader (α : Type) where
  /-- Reads a number of 64 bits without a sign. -/
  number? : α → Option Nat
  /-- Reads a text. -/
  text? : α → Option String
  /-- Reads a truth value. -/
  truth? : α → Option Bool

/-- Changes one setting to what a document gives for it. -/
def set? {α : Type} (reader : Reader α) (config : Config) (field : Field) (given : α) :
    Option Config :=
  match field with
  | .lineWidth => (reader.number? given).map fun width => { config with lineWidth := width }
  | .newline => (reader.text? given).map fun newline => { config with newline }
  | .lint => (reader.truth? given).map fun lint => { config with lint }
  | .maxDepth => (reader.number? given).map fun depth => { config with maxDepth := depth }
  | .indent => (reader.truth? given).map fun indent => { config with indent }

/-- The settings that named entries give, where `seen` were given before. -/
def ofEntriesFrom {α : Type} (reader : Reader α) (config : Config) (seen : List Field) :
    List (String × α) → Option Config
  | [] => some config
  | (name, given) :: rest =>
    match Field.ofName? name with
    | none => ofEntriesFrom reader config seen rest
    | some field =>
      if field ∈ seen then none
      else match config.set? reader field given with
        | some config => ofEntriesFrom reader config (field :: seen) rest
        | none => none

/-- The settings that named entries give. -/
def ofEntries {α : Type} (reader : Reader α) (entries : List (String × α)) : Option Config :=
  ofEntriesFrom reader {} [] entries

/-- The settings that a list of values gives: as many of them as there are values. -/
def ofValues {α : Type} (reader : Reader α) (values : List α) : Option Config :=
  if values.length > Field.all.length then none
  else
    (Field.all.zip values).foldlM (fun config (field, given) => config.set? reader field given) {}

/-- A document that gives no settings, by the language it should be in. -/
inductive Failure where
  | json
  | yaml
deriving DecidableEq, Repr

/-- The wording of a failure. -/
def Failure.message : Failure → String
  | .json => "invalid JSON config"
  | .yaml => "invalid YAML config"

end Config

end Stencil
