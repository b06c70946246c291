import Stencil.Proofs.Render.Steps
import Stencil.Proofs.Value.Equality

/-!
# Mappings that are written down

A literal has expressions under names, and it may have one for a fallback. They are evaluated one
after the other, and if all of them come to values these fill a mapping in the same order. No
expression sees the mapping that its value is for.
-/

namespace Stencil

open Render

namespace Evaluator

variable (below : Evaluator) (setting : Setting) (scope : Scope)

/-- The expressions under some names come to values, one after the other. -/
inductive Furnishes : List (String × Expr) → Run → List (String × Value) → Run → Prop
  | nil (run : Run) : Furnishes [] run [] run
  | cons {name expr rest run value mid pairs ended} :
    below.eval scope expr setting run = (.ok value, mid) → Furnishes rest mid pairs ended →
      Furnishes ((name, expr) :: rest) run ((name, value) :: pairs) ended

/-- What is written down as a fallback comes to one. -/
inductive FallsBackOn : Option (Fallback Expr) → Run → Option (Fallback Value) → Run → Prop
  | none (run : Run) : FallsBackOn none run none run
  | key (run : Run) : FallsBackOn (some .key) run (some .key) run
  | value {expr run value ended} : below.eval scope expr setting run = (.ok value, ended) →
      FallsBackOn (some (.value expr)) run (some (.value value)) ended

/-- A mapping that is written down comes to a mapping: the values of its entries are inserted one
after the other, and then it is given the fallback. -/
def Fills (literal : MapLiteral Expr) (begun : Run) (mapping : Mapping Value) (ended : Run) :
    Prop :=
  ∃ pairs fallback mid, below.Furnishes setting scope literal.entries begun pairs mid ∧
    below.FallsBackOn setting scope literal.fallback mid fallback ended ∧
    mapping = Mapping.insertAll { fallback } pairs

variable {below setting scope} {run begun ended : Run} {mapping : Mapping Value}

/-- The entries of a literal come to the values of their expressions. -/
theorem evalEntries_eq_ok_iff {entries : List (String × Expr)} {pairs : List (String × Value)} :
    below.evalEntries scope entries setting run = (.ok pairs, ended) ↔
      below.Furnishes setting scope entries run pairs ended := by
  induction entries generalizing run pairs with
  | nil =>
    constructor
    · intro h
      cases h
      exact .nil _
    · intro h
      cases h
      rfl
  | cons entry rest ih =>
    constructor
    · intro h
      obtain ⟨value, mid, heval, h⟩ := (bind_eq_ok _ _).mp h
      obtain ⟨values, last, hrest, h⟩ := (bind_eq_ok _ _).mp h
      cases h
      exact .cons heval (ih.mp hrest)
    · intro h
      cases h with
      | cons heval hrest =>
        rw [evalEntries, bind_apply_ok _ _ heval, bind_apply_ok _ _ (ih.mpr hrest)]
        rfl

/-- The fallback of a literal comes to what is written down for it. -/
theorem evalFallback_eq_ok_iff {written : Option (Fallback Expr)}
    {fallback : Option (Fallback Value)} :
    below.evalFallback scope written setting run = (.ok fallback, ended) ↔
      below.FallsBackOn setting scope written run fallback ended := by
  constructor
  · intro h
    rcases written with _ | _ | expr
    · cases h
      exact .none run
    · cases h
      exact .key run
    · obtain ⟨value, last, heval, h⟩ := (bind_eq_ok _ _).mp h
      cases h
      exact .value heval
  · intro h
    cases h with
    | none run => rfl
    | key run => rfl
    | value heval =>
      rw [evalFallback, bind_apply_ok _ _ heval]
      rfl

/-- A literal comes to a mapping just if its expressions come to the values that fill it. -/
theorem evalMapping_eq_ok_iff {literal : MapLiteral Expr} :
    below.evalMapping scope literal setting begun = (.ok mapping, ended) ↔
      below.Fills setting scope literal begun mapping ended := by
  constructor
  · intro h
    obtain ⟨pairs, mid, hpairs, h⟩ := (bind_eq_ok _ _).mp h
    obtain ⟨fallback, last, hfallback, h⟩ := (bind_eq_ok _ _).mp h
    cases h
    refine ⟨pairs, fallback, mid, evalEntries_eq_ok_iff.mp hpairs,
      evalFallback_eq_ok_iff.mp hfallback, ?_⟩
    rw [Mapping.insertAll_eq]
  · rintro ⟨pairs, fallback, mid, hpairs, hfallback, rfl⟩
    rw [evalMapping, bind_apply_ok _ _ (evalEntries_eq_ok_iff.mpr hpairs),
      bind_apply_ok _ _ (evalFallback_eq_ok_iff.mpr hfallback), Mapping.insertAll_eq]
    rfl

/-- So the value of a literal is a mapping that it fills. -/
theorem literal_eq_ok_iff {literal : MapLiteral Expr} {value : Value} :
    (do return .mapping (← below.evalMapping scope literal) : Render Value) setting begun =
        (.ok value, ended) ↔
      ∃ mapping, value = .mapping mapping ∧
        below.Fills setting scope literal begun mapping ended := by
  constructor
  · intro h
    obtain ⟨mapping, last, hmapping, h⟩ := (bind_eq_ok _ _).mp h
    cases h
    exact ⟨mapping, rfl, evalMapping_eq_ok_iff.mp hmapping⟩
  · rintro ⟨mapping, rfl, hmapping⟩
    rw [bind_apply_ok _ _ (evalMapping_eq_ok_iff.mpr hmapping)]
    rfl

end Evaluator

end Stencil
