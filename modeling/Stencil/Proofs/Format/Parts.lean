import Mathlib.Data.List.TakeDrop
import Mathlib.Data.List.TakeWhile
import Stencil.Format.Directive

/-!
# The parts of a format

A format with a percent sign opens in one way: with a text without a percent sign, the percent sign,
flags, the digits of a width, and a point with the digits of a precision, where each of them goes on
as far as it can. If one of the two numerals is out of range nothing else of the format matters.
Otherwise the format has a directive just if the letter of a conversion comes next, and the
directive says what the parts say.
-/

namespace Stencil.Format

/-! ### Numerals -/

/-- The value of decimal digits. -/
def value (digits : List Char) : Nat := Nat.ofDigitChars 10 digits 0

/-- The number does not become smaller with more digits. -/
theorem le_ofDigitChars (digits : List Char) (start : Nat) :
    start ≤ Nat.ofDigitChars 10 digits start := by
  induction digits generalizing start with
  | nil => rfl
  | cons digit digits ih =>
    rw [Nat.ofDigitChars_cons]
    exact le_trans (by omega) (ih _)

/-- No number on the way through the digits is out of range. -/
def InRange (digits : List Char) : Prop :=
  ∀ read, read <+: digits → value read < UInt64.size

/-- A number on the way can only be out of range if the last one is. -/
theorem inRange_iff {digits : List Char} : InRange digits ↔ value digits < UInt64.size := by
  refine ⟨fun h => h digits List.prefix_rfl, fun h read hread => ?_⟩
  obtain ⟨rest, rfl⟩ := hread
  rw [value, Nat.ofDigitChars_append] at h
  exact (le_ofDigitChars rest (value read)).trans_lt h

/-- The digits are read up to the first number that is out of range. -/
theorem foldlM_checked_eq (digits : List Char) {start : Nat} (hstart : start < UInt64.size) :
    digits.foldlM (fun number digit => checked (number * 10 + (digit.toNat - 48))) start =
      checked (Nat.ofDigitChars 10 digits start) := by
  induction digits generalizing start with
  | nil => exact (if_pos hstart).symm
  | cons digit digits ih =>
    have hdigit : start * 10 + (digit.toNat - 48) = 10 * start + (digit.toNat - '0'.toNat) := by
      rw [Nat.mul_comm]
      rfl
    rw [List.foldlM_cons, Nat.ofDigitChars_cons, hdigit]
    by_cases hnext : 10 * start + (digit.toNat - '0'.toNat) < UInt64.size
    · rw [checked, if_pos hnext]
      exact ih hnext
    · have hlast := mt (le_ofDigitChars digits _).trans_lt hnext
      rw [checked, if_neg hnext, checked, if_neg hlast]
      rfl

/-- A numeral is read as its value if that is in range, and not at all if it is not. -/
theorem numeral_eq (digits : List Char) : numeral digits = checked (value digits) :=
  foldlM_checked_eq digits (by decide)

/-! ### Letters and flags -/

/-- The letter of a conversion. -/
def Conversion.letter : Conversion → Char
  | .decimal => 'd'
  | .hex => 'x'
  | .upperHex => 'X'
  | .octal => 'o'
  | .fixed => 'f'
  | .plain => 's'

/-- A conversion is the one with a given letter just if the letter is its own. -/
theorem Conversion.ofChar?_eq_some_iff {c : Char} {conversion : Conversion} :
    ofChar? c = some conversion ↔ c = conversion.letter := by
  constructor
  · intro h
    unfold ofChar? at h
    split at h <;> cases h <;> rfl
  · rintro rfl
    cases conversion <;> rfl

/-- No letter of a conversion is a flag, a digit or a point. -/
theorem Conversion.letter_separates (conversion : Conversion) :
    isFlag conversion.letter = false ∧ conversion.letter.isDigit = false ∧
      conversion.letter ≠ '.' := by
  cases conversion <;> decide

/-- Of the digits only the zero is a flag. -/
theorem isFlag_of_isDigit {c : Char} (hdigit : c.isDigit) (hzero : c ≠ '0') :
    isFlag c = false := by
  have hsign (other : Char) (hother : other.isDigit = false) : c ≠ other := by
    rintro rfl
    exact Bool.false_ne_true (hother.symm.trans hdigit)
  simp [isFlag, hzero, hsign '-' rfl, hsign '+' rfl]

/-- A list is divided where the first element fails a test. -/
theorem span_eq_iff {α : Type} {p : α → Bool} {list first rest : List α} :
    list.span p = (first, rest) ↔
      list = first ++ rest ∧ (∀ a ∈ first, p a) ∧ ∀ a ∈ rest.head?, p a = false := by
  rw [List.span_eq_takeWhile_dropWhile, Prod.mk.injEq]
  constructor
  · rintro ⟨rfl, rfl⟩
    refine ⟨List.takeWhile_append_dropWhile.symm, fun a ha => List.mem_takeWhile_imp ha, ?_⟩
    intro a ha
    have := List.head?_dropWhile_not p list
    rw [Option.mem_def.mp ha] at this
    simpa using this
  · rintro ⟨rfl, hfirst, hrest⟩
    rw [List.takeWhile_append_of_pos hfirst, List.dropWhile_append_of_pos hfirst]
    cases rest with
    | nil => simp
    | cons a rest => simp [hrest a rfl]

/-- A list is divided in this way. -/
theorem exists_span {α : Type} (p : α → Bool) (list : List α) : ∃ first rest,
    list = first ++ rest ∧ (∀ a ∈ first, p a) ∧ ∀ a ∈ rest.head?, p a = false :=
  ⟨_, _, span_eq_iff.mp (Prod.eta (list.span p)).symm⟩

namespace Directive

/-- What a format with a percent sign opens with. -/
@[ext]
structure Opening where
  /-- The text before the percent sign. -/
  lead : List Char
  flags : List Char
  /-- The digits of the width. -/
  width : List Char
  /-- The digits of the precision, if there is a point. -/
  precision : Option (List Char)
deriving DecidableEq

namespace Opening

/-- The point with the digits of the precision. -/
def point (opening : Opening) : List Char := (opening.precision.map ('.' :: ·)).getD []

/-- A format that opens in this way and goes on with a rest. -/
def text (opening : Opening) (rest : List Char) : List Char :=
  opening.lead ++ '%' :: (opening.flags ++ (opening.width ++ (opening.point ++ rest)))

/-- No number on the way through the numerals is out of range. -/
def InRange (opening : Opening) : Prop :=
  Format.InRange opening.width ∧ ∀ digits ∈ opening.precision, Format.InRange digits

/-- The numerals are in range just if their values are. -/
theorem inRange_iff {opening : Opening} :
    opening.InRange ↔ value opening.width < UInt64.size ∧
      ∀ digits ∈ opening.precision, value digits < UInt64.size := by
  simp only [InRange, Format.inRange_iff]

/-- Without a precision only the width has to be in range. -/
theorem inRange_iff_of_precision {opening : Opening} (h : opening.precision = none) :
    opening.InRange ↔ value opening.width < UInt64.size := by
  simp [inRange_iff, h]

end Opening

/-- A format opens in some way before a rest. The flags and the numerals go on as far as they
can. -/
structure Opens (format : List Char) (opening : Opening) (rest : List Char) : Prop where
  spelled : format = opening.text rest
  lead : '%' ∉ opening.lead
  flags : ∀ c ∈ opening.flags, isFlag c
  afterFlags : ∀ c ∈ (opening.width ++ (opening.point ++ rest)).head?, isFlag c = false
  width : ∀ c ∈ opening.width, c.isDigit
  afterWidth : ∀ c ∈ (opening.point ++ rest).head?, c.isDigit = false
  precision : ∀ digits ∈ opening.precision, ∀ c ∈ digits, c.isDigit
  afterPrecision : ∀ c ∈ rest.head?, if opening.precision.isSome then c.isDigit = false else c ≠ '.'

/-- The parts of a format with a directive. -/
structure Parts extends Opening where
  conversion : Conversion
  /-- The text after the letter. -/
  trail : List Char
deriving DecidableEq

/-- The directive that the parts say. -/
def Parts.directive (parts : Parts) : Directive where
  lead := parts.lead
  zero := parts.flags.contains '0'
  left := parts.flags.contains '-'
  plus := parts.flags.contains '+'
  width := value parts.width
  precision := parts.precision.map value
  conversion := parts.conversion
  trail := parts.trail

/-- A format is put together from parts: the letter of the conversion comes after the opening. -/
def Spells (format : List Char) (parts : Parts) : Prop :=
  Opens format parts.toOpening (parts.conversion.letter :: parts.trail)

/-- A format without a precision. -/
theorem spells_of_width {lead flags width : List Char} (conversion : Conversion)
    (trail : List Char) (hlead : '%' ∉ lead) (hflags : ∀ c ∈ flags, isFlag c)
    (hwidth : ∀ c ∈ width, c.isDigit) (hsignificant : width.head? ≠ some '0') :
    Spells (lead ++ '%' :: (flags ++ width ++ conversion.letter :: trail))
      ⟨⟨lead, flags, width, none⟩, conversion, trail⟩ where
  spelled := by simp [Opening.text, Opening.point]
  lead := hlead
  flags := hflags
  afterFlags c hc := by
    cases width with
    | nil =>
      cases hc
      exact conversion.letter_separates.1
    | cons digit width =>
      cases hc
      exact isFlag_of_isDigit (hwidth _ List.mem_cons_self) fun hzero =>
        hsignificant (congrArg some hzero)
  width := hwidth
  afterWidth c hc := by
    cases hc
    exact conversion.letter_separates.2.1
  precision := nofun
  afterPrecision c hc := by
    cases hc
    exact conversion.letter_separates.2.2

variable {format rest : List Char} {opening : Opening}

namespace Opens

/-- The percent sign ends the text before it. -/
theorem span_lead (h : Opens format opening rest) :
    format.span (· != '%') =
      (opening.lead, '%' :: (opening.flags ++ (opening.width ++ (opening.point ++ rest)))) :=
  span_eq_iff.mpr ⟨h.spelled, fun c hc => bne_iff_ne.mpr (ne_of_mem_of_not_mem hc h.lead),
    by rintro c ⟨⟩; rfl⟩

/-- The flags end at the first character that is none. -/
theorem span_flags (h : Opens format opening rest) :
    (opening.flags ++ (opening.width ++ (opening.point ++ rest))).span isFlag =
      (opening.flags, opening.width ++ (opening.point ++ rest)) :=
  span_eq_iff.mpr ⟨rfl, h.flags, h.afterFlags⟩

/-- The width ends at the first character that is no digit. -/
theorem span_width (h : Opens format opening rest) :
    (opening.width ++ (opening.point ++ rest)).span Char.isDigit =
      (opening.width, opening.point ++ rest) :=
  span_eq_iff.mpr ⟨rfl, h.width, h.afterWidth⟩

/-- The precision, if there is one, ends at the first character that is no digit. -/
theorem span_precision (h : Opens format opening rest) {digits : List Char}
    (hdigits : opening.precision = some digits) :
    (digits ++ rest).span Char.isDigit = (digits, rest) :=
  span_eq_iff.mpr ⟨rfl, h.precision digits hdigits, fun c hc => by
    simpa [hdigits] using h.afterPrecision c hc⟩

/-- Without a precision no point comes next. -/
theorem head?_ne_point (h : Opens format opening rest) (hnone : opening.precision = none) :
    rest.head? ≠ some '.' :=
  fun hpoint => by simpa [hnone] using h.afterPrecision '.' hpoint

/-- A format opens in one way only. -/
theorem unique (h : Opens format opening rest) {other : Opening} {further : List Char}
    (hother : Opens format other further) : other = opening ∧ further = rest := by
  obtain ⟨hlead, hafterLead⟩ := Prod.mk.inj (hother.span_lead.symm.trans h.span_lead)
  obtain ⟨hflags, hafterFlags⟩ := Prod.mk.inj
    (hother.span_flags.symm.trans ((List.cons.inj hafterLead).2 ▸ h.span_flags))
  obtain ⟨hwidth, hafterWidth⟩ := Prod.mk.inj
    (hother.span_width.symm.trans (hafterFlags ▸ h.span_width))
  suffices hprecision : other.precision = opening.precision ∧ further = rest from
    ⟨Opening.ext hlead hflags hwidth hprecision.1, hprecision.2⟩
  unfold Opening.point at hafterWidth
  cases hhere : opening.precision with
  | none =>
    cases hthere : other.precision with
    | none =>
      rw [hhere, hthere] at hafterWidth
      exact ⟨rfl, hafterWidth⟩
    | some digits =>
      rw [hhere, hthere] at hafterWidth
      exact absurd (congrArg List.head? hafterWidth.symm) (h.head?_ne_point hhere)
  | some digits =>
    cases hthere : other.precision with
    | none =>
      rw [hhere, hthere] at hafterWidth
      exact absurd (congrArg List.head? hafterWidth) (hother.head?_ne_point hthere)
    | some digits' =>
      rw [hhere, hthere] at hafterWidth
      have hafterPoint : digits' ++ further = digits ++ rest := (List.cons.inj hafterWidth).2
      have hspan := hother.span_precision hthere
      rw [hafterPoint, h.span_precision hhere, Prod.mk.injEq] at hspan
      exact ⟨congrArg some hspan.1.symm, hspan.2.symm⟩

/-! ### What is read -/

/-- The precision is read if it is in range. -/
theorem readPrecision_of_inRange (h : Opens format opening rest)
    (hrange : ∀ digits ∈ opening.precision, value digits < UInt64.size) :
    readPrecision (opening.point ++ rest) = .ok (opening.precision.map value, rest) := by
  cases hprecision : opening.precision with
  | none =>
    rw [Opening.point, hprecision]
    change readPrecision rest = _
    unfold readPrecision
    split
    · exact absurd rfl (h.head?_ne_point hprecision)
    · rfl
  | some digits =>
    have hspan := h.span_precision hprecision
    rw [List.span_eq_takeWhile_dropWhile, Prod.mk.injEq] at hspan
    rw [Opening.point, hprecision]
    simp only [Option.map_some, Option.getD_some, List.cons_append, readPrecision, hspan.1, hspan.2,
      numeral_eq, checked, if_pos (hrange digits hprecision)]
    rfl

/-- The precision is not read if it is out of range. -/
theorem readPrecision_of_not_inRange (h : Opens format opening rest) {digits : List Char}
    (hdigits : opening.precision = some digits) (hrange : ¬ value digits < UInt64.size) :
    readPrecision (opening.point ++ rest) = .error {} := by
  have hspan := h.span_precision hdigits
  rw [List.span_eq_takeWhile_dropWhile, Prod.mk.injEq] at hspan
  rw [Opening.point, hdigits]
  simp only [Option.map_some, Option.getD_some, List.cons_append, readPrecision, hspan.1,
    numeral_eq, checked, if_neg hrange]
  rfl

end Opens

variable {format : String}

/-- If the numerals of a format are in range, a letter decides whether it has a directive. -/
theorem Opens.parse_of_inRange (h : Opens format.toList opening rest) (hrange : opening.InRange) :
    parse format = .ok (do
      let letter ← rest.head?
      let conversion ← Conversion.ofChar? letter
      return Parts.directive ⟨opening, conversion, rest.tail⟩) := by
  obtain ⟨hwidth, hprecision⟩ := Opening.inRange_iff.mp hrange
  simp only [parse, h.span_lead, List.tail_cons, h.span_flags, h.span_width, numeral_eq, checked,
    if_pos hwidth, h.readPrecision_of_inRange hprecision]
  rfl

/-- If they are not, nothing else matters. -/
theorem Opens.parse_of_not_inRange (h : Opens format.toList opening rest)
    (hrange : ¬ opening.InRange) : parse format = .error {} := by
  simp only [parse, h.span_lead, List.tail_cons, h.span_flags, h.span_width, numeral_eq, checked]
  by_cases hwidth : value opening.width < UInt64.size
  · have hprecision : ∃ digits, opening.precision = some digits ∧
        ¬ value digits < UInt64.size := by
      simpa [Opening.inRange_iff, hwidth] using hrange
    obtain ⟨digits, hdigits, hlarge⟩ := hprecision
    rw [if_pos hwidth, h.readPrecision_of_not_inRange hdigits hlarge]
    rfl
  · rw [if_neg hwidth]
    rfl

/-- After the point, if there is one, come the digits of the precision. -/
theorem exists_precision (text : List Char) : ∃ (precision : Option (List Char)) (rest : List Char),
    text = (precision.map ('.' :: ·)).getD [] ++ rest ∧
      (∀ digits ∈ precision, ∀ c ∈ digits, c.isDigit) ∧
      ∀ c ∈ rest.head?, if precision.isSome then c.isDigit = false else c ≠ '.' := by
  by_cases hpoint : text.head? = some '.'
  · obtain ⟨afterPoint, rfl⟩ := List.head?_eq_some_iff.mp hpoint
    obtain ⟨digits, rest, rfl, hdigits, hafter⟩ := exists_span Char.isDigit afterPoint
    refine ⟨some digits, rest, rfl, ?_, hafter⟩
    rintro _ ⟨⟩
    exact hdigits
  · refine ⟨none, text, rfl, nofun, fun c hc => ?_⟩
    rintro rfl
    exact hpoint hc

/-- A format with a percent sign opens in some way. -/
theorem exists_opens {format : List Char} (h : '%' ∈ format) :
    ∃ opening rest, Opens format opening rest := by
  obtain ⟨lead, afterLead, hformat, hlead, hpercent⟩ := exists_span (· != '%') format
  have hfree : '%' ∉ lead := fun hmem => by simpa using hlead '%' hmem
  cases afterLead with
  | nil =>
    rw [hformat, List.append_nil] at h
    exact absurd h hfree
  | cons percent afterPercent =>
    obtain rfl : percent = '%' := by simpa using hpercent percent rfl
    obtain ⟨flags, afterFlags, hflags, hisFlag, hnoFlag⟩ := exists_span isFlag afterPercent
    obtain ⟨width, afterWidth, hwidth, hisDigit, hnoDigit⟩ := exists_span Char.isDigit afterFlags
    obtain ⟨precision, rest, hprecision, hdigits, hafter⟩ := exists_precision afterWidth
    subst hprecision hwidth hflags
    exact ⟨⟨lead, flags, width, precision⟩, rest, hformat, hfree, hisFlag, hnoFlag, hisDigit,
      hnoDigit, hdigits, hafter⟩

/-- A format without a percent sign has no directive. -/
theorem parse_of_not_mem (h : '%' ∉ format.toList) : parse format = .ok none := by
  have hspan : format.toList.span (· != '%') = (format.toList, []) :=
    span_eq_iff.mpr ⟨(List.append_nil _).symm,
      fun c hc => bne_iff_ne.mpr (ne_of_mem_of_not_mem hc h), nofun⟩
  rw [parse, hspan]
  rfl

/-- A format that is put together from parts in range has the directive that the parts say. -/
theorem Spells.parse {parts : Parts} (h : Spells format.toList parts)
    (hrange : parts.toOpening.InRange) : parse format = .ok (some parts.directive) := by
  rw [Opens.parse_of_inRange h hrange]
  simp only [List.head?_cons, List.tail_cons, Option.bind_eq_bind, Option.bind_some,
    Conversion.ofChar?_eq_some_iff.mpr rfl]
  rfl

/-- A format has a directive just if it is put together from parts in range that say it. -/
theorem parse_eq_some_iff {directive : Directive} : parse format = .ok (some directive) ↔
    ∃ parts : Parts, Spells format.toList parts ∧ parts.toOpening.InRange ∧
      directive = parts.directive := by
  constructor
  · intro h
    by_cases hmem : '%' ∈ format.toList
    · obtain ⟨opening, rest, hopens⟩ := exists_opens hmem
      by_cases hrange : opening.InRange
      · rw [hopens.parse_of_inRange hrange, Except.ok.injEq] at h
        obtain ⟨letter, hletter, h⟩ := Option.bind_eq_some_iff.mp h
        obtain ⟨conversion, hconversion, h⟩ := Option.bind_eq_some_iff.mp h
        rw [Conversion.ofChar?_eq_some_iff] at hconversion
        obtain ⟨trail, rfl⟩ := List.head?_eq_some_iff.mp hletter
        subst hconversion
        exact ⟨⟨opening, conversion, trail⟩, hopens, hrange, (Option.some.inj h).symm⟩
      · rw [hopens.parse_of_not_inRange hrange] at h
        cases h
    · rw [parse_of_not_mem hmem] at h
      cases h
  · rintro ⟨parts, h, hrange, rfl⟩
    exact h.parse hrange

end Directive

end Stencil.Format
