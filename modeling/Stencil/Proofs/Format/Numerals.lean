import Stencil.Format.Renderer
import Stencil.Proofs.Format.Parts

/-!
# Numerals in formats

A format whose numerals are in range is not supported, or they are taken at their values and the
answer is the text with these. At a numeral that is out of range the program ends: nobody gets an
answer, not even that the format is not supported. It does not matter for this whether the format
has a directive, and for which scalars it is.
-/

namespace Stencil

namespace Format

/-- Whether a conversion is for a scalar. -/
def Conversion.isFor : Conversion → Scalar → Bool
  | .plain, _ => true
  | .decimal, .int _ | .decimal, .float _ | .fixed, .int _ | .fixed, .float _ => true
  | .hex, .int _ | .upperHex, .int _ | .octal, .int _ => true
  | _, _ => false

/-- The text of a scalar that a directive fills up: what the scalar shows, if the conversion is
plain. -/
def Directive.bodyIn? (directive : Directive) (scalar : Scalar) (store : Store) : Option String :=
  if directive.conversion = .plain then some (store.display scalar).1 else directive.body? scalar

/-- Whether there is a text to fill up does not depend on the numerals. -/
theorem Directive.isSome_bodyIn? (directive : Directive) (scalar : Scalar) (store : Store) :
    (directive.bodyIn? scalar store).isSome = directive.conversion.isFor scalar := by
  unfold bodyIn? body?
  cases directive.conversion <;> cases scalar <;> rfl

variable {format : String} {directive : Directive} {scalar : Scalar}

/-- A number format is not supported for a scalar. -/
def Refused (format : String) (scalar : Scalar) : Prop :=
  ∀ store, Renderer.number.format scalar (some format) store =
    (.error (.raised (.unsupportedFormat format (store.scalarType scalar).name)), store)

/-- A format without a directive is not supported. -/
theorem refused_of_parse_none (h : Directive.parse format = .ok none) (scalar : Scalar) :
    Refused format scalar := by
  intro store
  simp only [Renderer.number, h]
  rfl

/-- A format with a directive that is not plain gives the text of the number, filled up. -/
theorem number_of_body? (h : Directive.parse format = .ok (some directive))
    (hplain : directive.conversion ≠ .plain) {body : String}
    (hbody : directive.body? scalar = some body) (store : Store) :
    Renderer.number.format scalar (some format) store = (.ok (directive.text body), store) := by
  simp only [Renderer.number, h, hplain, if_false, hbody]
  rfl

/-- A format with a directive gives the text that the directive fills up. -/
theorem number_of_parse (h : Directive.parse format = .ok (some directive)) {store : Store}
    {body : String} (hbody : directive.bodyIn? scalar store = some body) :
    (Renderer.number.format scalar (some format) store).1 = .ok (directive.text body) := by
  unfold Directive.bodyIn? at hbody
  split at hbody
  · next hplain =>
    cases hbody
    simp only [Renderer.number, h, hplain, if_true]
    rfl
  · next hplain => rw [number_of_body? h hplain hbody]

/-- A directive is not supported for a scalar that its conversion is not for. -/
theorem refused_of_parse (h : Directive.parse format = .ok (some directive))
    (hfor : directive.conversion.isFor scalar = false) : Refused format scalar := by
  intro store
  rw [← directive.isSome_bodyIn? scalar store, Option.isSome_eq_false_iff,
    Option.isNone_iff_eq_none, Directive.bodyIn?] at hfor
  split at hfor
  · cases hfor
  · next hplain =>
    simp only [Renderer.number, h, hplain, if_false, hfor]
    rfl

/-- At a numeral that is out of range the program ends, whatever the scalar is. -/
theorem number_of_overflow (h : Directive.parse format = .error {}) (scalar : Scalar)
    (store : Store) :
    Renderer.number.format scalar (some format) store = (.error .overflow, store) := by
  simp only [Renderer.number, h]
  rfl

open Directive

/-- A number format is not supported for a scalar, or else each of its numerals is taken at its
value, without a number out of range on the way, and the answer is the text with these values. -/
def TakesExactly (format : String) (scalar : Scalar) : Prop :=
  Refused format scalar ∨ ∃ parts, Spells format.toList parts ∧ parts.toOpening.InRange ∧
    parse format = .ok (some parts.directive) ∧
      ∀ store, ∃ body ∈ parts.directive.bodyIn? scalar store,
        (Renderer.number.format scalar (some format) store).1 = .ok (parts.directive.text body)

/-- A format that is read is not supported, or it is taken exactly. -/
theorem takesExactly_of_parse {found : Option Directive} (h : parse format = .ok found)
    (scalar : Scalar) : TakesExactly format scalar := by
  cases found with
  | none => exact .inl (refused_of_parse_none h scalar)
  | some directive =>
    obtain ⟨parts, hparts, hrange, rfl⟩ := parse_eq_some_iff.mp h
    cases hfor : parts.conversion.isFor scalar with
    | false => exact .inl (refused_of_parse h hfor)
    | true =>
      refine .inr ⟨parts, hparts, hrange, h, fun store => ?_⟩
      obtain ⟨body, hbody⟩ := Option.isSome_iff_exists.mp
        ((parts.directive.isSome_bodyIn? scalar store).trans hfor)
      exact ⟨body, hbody, number_of_parse h hbody⟩

/-- A format at which the program ends is neither refused nor taken exactly. -/
theorem not_takesExactly_of_parse (h : parse format = .error {}) (scalar : Scalar) :
    ¬ TakesExactly format scalar := by
  rintro (hrefused | ⟨parts, -, -, hparse, -⟩)
  · have hanswer := hrefused {}
    rw [number_of_overflow h scalar] at hanswer
    cases hanswer
  · rw [h] at hparse
    cases hparse

/-- The numerals of every format are taken at their values, or the format is not supported, just if
the numerals with which it opens are in range. Otherwise the program ends at them. -/
theorem takesExactly_iff (format : String) (scalar : Scalar) :
    (TakesExactly format scalar ↔ ∀ opening rest, Opens format.toList opening rest →
      value opening.width < UInt64.size ∧
        ∀ digits ∈ opening.precision, value digits < UInt64.size) ∧
    (¬ TakesExactly format scalar → ∀ store,
      Renderer.number.format scalar (some format) store = (.error .overflow, store)) := by
  by_cases hmem : '%' ∈ format.toList
  · obtain ⟨opening, rest, hopens⟩ := exists_opens hmem
    by_cases hrange : opening.InRange
    · have hexact := takesExactly_of_parse (hopens.parse_of_inRange hrange) scalar
      refine ⟨iff_of_true hexact fun other further hother => ?_, absurd hexact⟩
      rw [(hopens.unique hother).1]
      exact Opening.inRange_iff.mp hrange
    · have hparse := hopens.parse_of_not_inRange hrange
      refine ⟨iff_of_false (not_takesExactly_of_parse hparse scalar) fun hvalues => ?_,
        fun _ => number_of_overflow hparse scalar⟩
      exact hrange (Opening.inRange_iff.mpr (hvalues opening rest hopens))
  · have hexact := takesExactly_of_parse (parse_of_not_mem hmem) scalar
    refine ⟨iff_of_true hexact fun opening rest hopens => ?_, absurd hexact⟩
    exact absurd (hopens.spelled ▸ List.mem_append_right _ List.mem_cons_self) hmem

/-- One more than the 64 bits hold numbers, as a width, as a precision, and before a letter that no
conversion has. -/
theorem not_takesExactly_overflowing :
    (¬ TakesExactly "%18446744073709551617d" (.int 7) ∧
      (Renderer.number.format (.int 7) (some "%18446744073709551617d") {}).1 =
        .error .overflow) ∧
    (¬ TakesExactly "%.18446744073709551617f" (.int 3) ∧
      (Renderer.number.format (.int 3) (some "%.18446744073709551617f") {}).1 =
        .error .overflow) ∧
    ¬ TakesExactly "%18446744073709551617q" (.int 7) := by
  have hwidth : parse "%18446744073709551617d" = .error {} := by decide +kernel
  have hprecision : parse "%.18446744073709551617f" = .error {} := by decide +kernel
  have hletter : parse "%18446744073709551617q" = .error {} := by decide +kernel
  exact ⟨⟨not_takesExactly_of_parse hwidth _, congrArg Prod.fst (number_of_overflow hwidth _ _)⟩,
    ⟨not_takesExactly_of_parse hprecision _,
      congrArg Prod.fst (number_of_overflow hprecision _ _)⟩,
    not_takesExactly_of_parse hletter _⟩

end Format

end Stencil
