import Mathlib.Data.List.DropRight
import Stencil.Proofs.Format.Numerals
import Stencil.Text.Numeral

/-!
# Integers under a format

An integer is written with its digits in the base of the conversion, after a sign if there is one,
and is filled up to the width: with spaces on the right, with zeros between the sign and the digits,
or with spaces on the left. Without the spaces it can be read back, since zeros in front of digits
do not matter.
-/

namespace Stencil

namespace Text

/-- Every digit in a base has the character of a number below the base. -/
theorem exists_digitChar_of_mem {base n : Nat} (hbase : 1 < base) :
    ∀ c ∈ Nat.toDigits base n, ∃ digit < base, c = Nat.digitChar digit := by
  induction n using Nat.base_induction base hbase with
  | single n hn =>
    intro c hc
    rw [Nat.toDigits_of_lt_base hn, List.mem_singleton] at hc
    exact ⟨n, hn, hc⟩
  | digit n digit hdigit hn ih =>
    intro c hc
    rw [← Nat.toDigits_append_toDigits hbase hn hdigit, Nat.toDigits_of_lt_base hdigit,
      List.mem_append, List.mem_singleton] at hc
    rcases hc with hc | hc
    · exact ih c hc
    · exact ⟨digit, hdigit, hc⟩

/-- The digits of a number, spelled in some way, are read as the number, also with zeros in
front. -/
theorem numeral?_toDigits {base : Nat} (hbase : 1 < base) {spell : Char → Char}
    (hspell : ∀ digit < base, digitValue? (spell (Nat.digitChar digit)) = some digit)
    (fill n : Nat) :
    numeral? base (List.replicate fill '0' ++ (Nat.toDigits base n).map spell) = some n := by
  have hne : (List.replicate fill '0' ++ (Nat.toDigits base n).map spell).isEmpty = false := by
    simp [Nat.toDigits_ne_nil]
  rw [numeral?, hne, if_neg Bool.false_ne_true, List.foldlM_append]
  clear hne
  -- Zeros leave the number at nothing; after them the digits come one by one.
  induction fill with
  | succ fill ih => simpa [List.replicate_succ, digitValue?, show 0 < base by omega] using ih
  | zero =>
    induction n using Nat.base_induction base hbase with
    | single n hn => simp [Nat.toDigits_of_lt_base hn, hspell n hn, hn]
    | digit n digit hdigit hn ih =>
      rw [← Nat.toDigits_append_toDigits hbase hn hdigit, Nat.toDigits_of_lt_base hdigit]
      simp only [List.replicate_zero, List.foldlM_nil, pure_bind, List.map_append,
        List.foldlM_append] at ih ⊢
      rw [ih]
      simp [hspell digit hdigit, hdigit]

end Text

namespace Format

/-- The base in which a conversion writes integers, if it does. -/
def Conversion.base? : Conversion → Option Nat
  | .decimal => some 10
  | .hex | .upperHex => some 16
  | .octal => some 8
  | .fixed | .plain => none

/-- The integer that a conversion writes: the number itself in base ten, and in the other bases the
number modulo two to the power of 64, which is read off its two's complement. -/
def Conversion.image (conversion : Conversion) (number : Int64) : Int :=
  if conversion = .decimal then number.toInt else number.toInt % UInt64.size

/-- The digits of a number in the base of a conversion; one conversion has capital letters. -/
def Conversion.digits (conversion : Conversion) (base n : Nat) : List Char :=
  (Nat.toDigits base n).map (if conversion = .upperHex then Char.toUpper else id)

/-- The sign of a numeral under flags. -/
def signUnder (flags : List Char) (n : Int) : List Char :=
  if n < 0 then ['-'] else if '+' ∈ flags then ['+'] else []

/-- A numeral that is filled up in the way that the flags say. -/
def filled (flags sign digits : List Char) (fill : Nat) : List Char :=
  if '-' ∈ flags then sign ++ digits ++ List.replicate fill ' '
  else if '0' ∈ flags then sign ++ List.replicate fill '0' ++ digits
  else List.replicate fill ' ' ++ sign ++ digits

/-- A text without the spaces at both ends. -/
def unfilled (text : List Char) : List Char :=
  (text.dropWhile (· == ' ')).rdropWhile (· == ' ')

/-- Reads an integer; a sign may stand in front of its digits. -/
def integer? (base : Nat) : List Char → Option Int
  | '-' :: digits => (Text.numeral? base digits).map fun n : Nat => -(n : Int)
  | '+' :: digits => (Text.numeral? base digits).map fun n : Nat => (n : Int)
  | digits => (Text.numeral? base digits).map fun n : Nat => (n : Int)

namespace Conversion

variable {conversion : Conversion} {base : Nat}

/-- Every base has more than one digit. -/
theorem one_lt_base (h : conversion.base? = some base) : 1 < base := by
  cases conversion <;> cases h <;> decide

/-- A conversion that has a base is not the plain one. -/
theorem ne_plain (h : conversion.base? = some base) : conversion ≠ .plain := by
  rintro rfl
  cases h

/-- Every digit of a base is read as its value. -/
theorem digitValue?_digits (h : conversion.base? = some base) : ∀ digit < base,
    Text.digitValue? ((if conversion = .upperHex then Char.toUpper else id)
      (Nat.digitChar digit)) = some digit := by
  cases conversion <;> cases h <;> decide

/-- The digits are read as the number, also with zeros in front. -/
theorem numeral?_digits (h : conversion.base? = some base) (fill n : Nat) :
    Text.numeral? base (List.replicate fill '0' ++ conversion.digits base n) = some n :=
  Text.numeral?_toDigits (one_lt_base h) (digitValue?_digits h) fill n

/-- A character without a value is no digit. -/
theorem not_mem_digits (h : conversion.base? = some base) {c : Char}
    (hc : Text.digitValue? c = none) (zeros n : Nat) :
    c ∉ List.replicate zeros '0' ++ conversion.digits base n := by
  intro hmem
  rcases List.mem_append.mp hmem with hmem | hmem
  · rw [List.eq_of_mem_replicate hmem] at hc
    cases hc
  · obtain ⟨_, hspelled, rfl⟩ := List.mem_map.mp hmem
    obtain ⟨digit, hdigit, rfl⟩ := Text.exists_digitChar_of_mem (one_lt_base h) _ hspelled
    rw [digitValue?_digits h digit hdigit] at hc
    cases hc

end Conversion

/-- Spaces in front do not count. -/
theorem dropWhile_replicate_append (before : Nat) (text : List Char) :
    (List.replicate before ' ' ++ text).dropWhile (· == ' ') = text.dropWhile (· == ' ') :=
  List.dropWhile_append_of_pos (by simp)

/-- A text without spaces begins with none. -/
theorem dropWhile_eq_self {text : List Char} (htext : ' ' ∉ text) :
    text.dropWhile (· == ' ') = text := by
  rw [List.dropWhile_eq_self_iff]
  intro hpos hspace
  exact htext (beq_iff_eq.mp hspace ▸ List.getElem_mem hpos)

/-- Spaces at the ends do not count, if there are none within. -/
theorem unfilled_append {text : List Char} (htext : ' ' ∉ text) (before after : Nat) :
    unfilled (List.replicate before ' ' ++ text ++ List.replicate after ' ') = text := by
  cases text with
  | nil => simp [unfilled]
  | cons c text =>
    have hc : c ≠ ' ' := ne_of_mem_of_not_mem List.mem_cons_self htext
    have hfront : (c :: text ++ List.replicate after ' ').dropWhile (· == ' ') =
        c :: text ++ List.replicate after ' ' := by
      simp [hc]
    rw [unfilled, List.append_assoc, dropWhile_replicate_append, hfront, List.rdropWhile,
      List.reverse_append, List.reverse_replicate, dropWhile_replicate_append,
      dropWhile_eq_self (fun hmem => htext (List.mem_reverse.mp hmem)), List.reverse_reverse]

/-- Without the spaces that it was filled up with there are only zeros in a numeral that were not in
it before, between the sign and the digits. -/
theorem exists_unfilled_filled {sign digits : List Char} (hsign : ' ' ∉ sign)
    (hdigits : ' ' ∉ digits) (flags : List Char) (fill : Nat) :
    ∃ zeros, unfilled (filled flags sign digits fill) =
      sign ++ (List.replicate zeros '0' ++ digits) := by
  have hfree (zeros : Nat) : ' ' ∉ sign ++ (List.replicate zeros '0' ++ digits) := by
    simp [hsign, hdigits]
  unfold filled
  split
  · exact ⟨0, by simpa using unfilled_append (hfree 0) 0 fill⟩
  · split
    · exact ⟨fill, by simpa using unfilled_append (hfree fill) 0 0⟩
    · exact ⟨0, by simpa using unfilled_append (hfree 0) fill 0⟩

/-- A sign and digits are read as an integer. -/
theorem integer?_append {base : Nat} {digits : List Char} {n : Int}
    (hdigits : Text.numeral? base digits = some n.natAbs) (hminus : '-' ∉ digits)
    (hplus : '+' ∉ digits) (flags : List Char) :
    integer? base (signUnder flags n ++ digits) = some n := by
  unfold signUnder
  split_ifs with hn hflag
  · change (Text.numeral? base digits).map _ = _
    rw [hdigits, Option.map_some, Option.some_inj]
    omega
  · change (Text.numeral? base digits).map _ = _
    rw [hdigits, Option.map_some, Option.some_inj]
    omega
  · rw [List.nil_append]
    unfold integer?
    split
    · exact absurd List.mem_cons_self hminus
    · exact absurd List.mem_cons_self hplus
    · rw [hdigits, Option.map_some, Option.some_inj]
      omega

/-- A numeral is read back, whatever it was filled up with. -/
theorem integer?_unfilled_filled {conversion : Conversion} {base : Nat}
    (h : conversion.base? = some base) (flags : List Char) (n : Int) (fill : Nat) :
    integer? base (unfilled (filled flags (signUnder flags n)
      (conversion.digits base n.natAbs) fill)) = some n := by
  have hsign : ' ' ∉ signUnder flags n := by
    unfold signUnder
    split_ifs <;> decide
  have hdigits : ' ' ∉ conversion.digits base n.natAbs :=
    Conversion.not_mem_digits h (by decide) 0 n.natAbs
  obtain ⟨zeros, hzeros⟩ := exists_unfilled_filled hsign hdigits flags fill
  rw [hzeros]
  exact integer?_append (Conversion.numeral?_digits h zeros n.natAbs)
    (Conversion.not_mem_digits h (by decide) zeros n.natAbs)
    (Conversion.not_mem_digits h (by decide) zeros n.natAbs) flags

/-- A number below zero has a minus sign under all flags. -/
theorem signUnder_of_neg (flags : List Char) {n : Int} (h : n < 0) :
    signUnder flags n = ['-'] :=
  if_pos h

/-- Any other number has no sign without flags. -/
theorem signUnder_nil_of_nonneg {n : Int} (h : ¬n < 0) : signUnder [] n = [] := by
  simp [signUnder, h]

/-- The text of an integer is a minus sign, if it has one, and its digits in base ten. -/
theorem toString_int (n : Int) :
    toString n = .ofList (signUnder [] n ++ Nat.toDigits 10 n.natAbs) := by
  rw [Int.toString_eq_repr, Int.repr_eq_if, Nat.repr_eq_ofList_toDigits,
    Nat.repr_eq_ofList_toDigits]
  by_cases hn : n < 0
  · rw [if_neg (Int.not_le.mpr hn), signUnder_of_neg [] hn, String.ofList_append,
      show (-n).toNat = n.natAbs by omega]
  · rw [if_pos (Int.not_lt.mp hn), signUnder_nil_of_nonneg hn, List.nil_append,
      show n.toNat = n.natAbs by omega]

/-- Outside base ten the bits of a number are written. -/
theorem Conversion.image_of_ne {conversion : Conversion} (h : conversion ≠ .decimal)
    (number : Int64) : conversion.image number = (number.toUInt64.toNat : Int) := by
  have hbits : number.toUInt64.toNat = number.toBitVec.toNat := rfl
  have hlt : number.toBitVec.toNat < UInt64.size := number.toBitVec.isLt
  rw [image, if_neg h, hbits, ← Int64.toInt_toBitVec, BitVec.toInt_eq_toNat_bmod, Int.bmod_emod,
    Int.emod_eq_of_lt (Int.natCast_nonneg _) (Int.ofNat_lt.mpr hlt)]

namespace Directive

variable {directive : Directive} {base : Nat}

/-- The text of an integer under a conversion: a minus sign, if it has one, and its digits. -/
theorem body?_int (h : directive.conversion.base? = some base) (number : Int64) :
    directive.body? (.int number) =
      some (.ofList (signUnder [] (directive.conversion.image number) ++
        directive.conversion.digits base (directive.conversion.image number).natAbs)) := by
  unfold body? complementDigits
  cases hconversion : directive.conversion <;> rw [hconversion] at h <;> cases h
  case decimal =>
    simp only [toString_int, Conversion.image, Conversion.digits, if_true, reduceCtorEq, if_false,
      List.map_id]
  all_goals
    rw [Conversion.image_of_ne (by decide), signUnder_nil_of_nonneg (by omega),
      Int.natAbs_natCast]
    simp [Conversion.digits]

/-- Digits without a minus sign get the plus sign of the directive. -/
theorem signOf_of_not_mem {digits : List Char} (hminus : '-' ∉ digits)
    (hplain : directive.conversion ≠ .plain) :
    directive.signOf digits = (if directive.plus then ['+'] else [], digits) := by
  unfold signOf
  split
  · exact absurd List.mem_cons_self hminus
  · simp [hplain]

/-- The sign and the digits that are taken from an integer's text. -/
theorem signOf_append {flags : List Char} (h : directive.conversion.base? = some base)
    (hplus : directive.plus = flags.contains '+') (n : Int) :
    directive.signOf (signUnder [] n ++ directive.conversion.digits base n.natAbs) =
      (signUnder flags n, directive.conversion.digits base n.natAbs) := by
  have hminus : '-' ∉ directive.conversion.digits base n.natAbs :=
    Conversion.not_mem_digits h (by decide) 0 n.natAbs
  by_cases hn : n < 0
  · rw [signUnder_of_neg [] hn, signUnder_of_neg flags hn]
    rfl
  · rw [signUnder_nil_of_nonneg hn, List.nil_append,
      signOf_of_not_mem hminus (Conversion.ne_plain h), hplus]
    simp [signUnder, hn]

/-- An integer's text is filled up in the way that the flags say. -/
theorem pad_append {flags : List Char} (h : directive.conversion.base? = some base)
    (hzero : directive.zero = flags.contains '0') (hleft : directive.left = flags.contains '-')
    (hplus : directive.plus = flags.contains '+') (n : Int) :
    let sign := signUnder flags n
    let digits := directive.conversion.digits base n.natAbs
    directive.pad (signUnder [] n ++ digits) =
      filled flags sign digits (directive.width - (sign.length + digits.length)) := by
  intro sign digits
  simp only [pad, filled, digits, signOf_append h hplus, hleft, hzero]
  simp [sign, Conversion.ne_plain h]

end Directive

open Directive

/-- An integer under a format that is put together from parts. -/
theorem Directive.Spells.number_int {format : String} {parts : Parts} {base width : Nat}
    (h : Spells format.toList parts) (hrange : parts.toOpening.InRange)
    (hbase : parts.conversion.base? = some base) (hwidth : value parts.width = width)
    (number : Int64) (store : Store) :
    let n := parts.conversion.image number
    let sign := signUnder parts.flags n
    let digits := parts.conversion.digits base n.natAbs
    Renderer.number.format (.int number) (some format) store =
      (.ok (.ofList (parts.lead ++
        filled parts.flags sign digits (width - (sign.length + digits.length)) ++ parts.trail)),
        store) := by
  intro n sign digits
  subst hwidth
  have hbody : parts.directive.body? (.int number) = some (.ofList (signUnder [] n ++ digits)) :=
    body?_int hbase number
  rw [number_of_body? (h.parse hrange) (Conversion.ne_plain hbase) hbody, Directive.text,
    String.toList_ofList]
  have hpad : parts.directive.pad (signUnder [] n ++ digits) = _ :=
    pad_append hbase rfl rfl rfl n
  rw [hpad]
  rfl

/-- Filling up adds what it is said to add. -/
theorem length_filled (flags sign digits : List Char) (fill : Nat) :
    (filled flags sign digits fill).length = fill + (sign ++ digits).length := by
  unfold filled
  split_ifs <;> simp only [List.length_append, List.length_replicate] <;> omega

/-- A width of zero fills nothing in. -/
@[simp] theorem filled_zero (flags sign digits : List Char) :
    filled flags sign digits 0 = sign ++ digits := by
  simp [filled]

/-- An integer is written with its digits in the base of the conversion after its sign, filled up to
the width in the way that the flags say, and it can be read back. -/
theorem number_int_filled (number : Int64) {conversion : Conversion} {base : Nat}
    (hbase : conversion.base? = some base) {lead flags width : List Char} (trail : List Char)
    (hlead : '%' ∉ lead) (hflags : ∀ c ∈ flags, c = '0' ∨ c = '-' ∨ c = '+')
    (hwidth : ∀ c ∈ width, c.isDigit) (hzero : width.head? = some '0' → width = ['0'])
    (hrange : value width < UInt64.size) (store : Store) :
    let n := conversion.image number
    let sign := signUnder flags n
    let digits := conversion.digits base n.natAbs
    ∃ fill,
      Renderer.number.format (.int number)
          (some (.ofList (lead ++ '%' :: (flags ++ width ++ conversion.letter :: trail)))) store =
        (.ok (.ofList (lead ++ filled flags sign digits fill ++ trail)), store) ∧
      (filled flags sign digits fill).length = max (value width) (sign ++ digits).length ∧
      integer? base (unfilled (filled flags sign digits fill)) = some n := by
  intro n sign digits
  have hisFlag : ∀ c ∈ flags, isFlag c := by
    intro c hc
    rcases hflags c hc with rfl | rfl | rfl <;> rfl
  refine ⟨value width - (sign ++ digits).length, ?_, ?_,
    integer?_unfilled_filled hbase flags n _⟩
  · by_cases hsignificant : width.head? = some '0'
    · -- A lone zero is read as a flag, and there is nothing to fill up to.
      obtain rfl := hzero hsignificant
      have hzeros : ∀ c ∈ flags ++ ['0'], isFlag c :=
        List.forall_mem_append.mpr ⟨hisFlag, by simp [isFlag]⟩
      have hspells := spells_of_width conversion trail hlead hzeros (List.forall_mem_nil _)
        (by simp)
      rw [List.append_nil, ← String.toList_ofList (l := lead ++ _)] at hspells
      have hnone : value [] < UInt64.size := by decide
      have hnumber := hspells.number_int ((Opening.inRange_iff_of_precision rfl).mpr hnone) hbase
        (show value [] = 0 from rfl) number store
      have hsign : signUnder (flags ++ ['0']) n = sign := by simp [signUnder, sign]
      simp only [Nat.zero_sub, filled_zero] at hnumber
      rw [hnumber, show value ['0'] = 0 from rfl, Nat.zero_sub, filled_zero, hsign]
    · have hspells := spells_of_width conversion trail hlead hisFlag hwidth hsignificant
      rw [← String.toList_ofList (l := lead ++ _)] at hspells
      rw [List.length_append]
      exact hspells.number_int ((Opening.inRange_iff_of_precision rfl).mpr hrange) hbase rfl number
        store
  · rw [length_filled]
    omega

/-- The bits of a negative number, with zeros after a plus sign. -/
theorem number_int_filled_hex :
    Conversion.hex.base? = some 16 ∧ '%' ∉ "n=".toList ∧
      (∀ c ∈ "+0".toList, c = '0' ∨ c = '-' ∨ c = '+') ∧ (∀ c ∈ "20".toList, c.isDigit) ∧
      ("20".toList.head? = some '0' → "20".toList = ['0']) ∧ value "20".toList < UInt64.size ∧
      (Renderer.number.format (.int (-42)) (some "n=%+020x%d") {}).1 =
        .ok "n=+000ffffffffffffffd6%d" ∧
      integer? 16 (unfilled "+000ffffffffffffffd6".toList) =
        some (Conversion.hex.image (-42)) := by
  have hbase : Conversion.hex.base? = some 16 := rfl
  have hlead : '%' ∉ "n=".toList := by decide +kernel
  have hflags : ∀ c ∈ "+0".toList, c = '0' ∨ c = '-' ∨ c = '+' := by simp
  have hwidth : ∀ c ∈ "20".toList, c.isDigit := List.all_eq_true.mp (by decide +kernel)
  have hzero : "20".toList.head? = some '0' → "20".toList = ['0'] := by decide +kernel
  have hrange : value "20".toList < UInt64.size := by decide +kernel
  obtain ⟨fill, hformat, hlength, hread⟩ := number_int_filled (-42) hbase "%d".toList hlead hflags
    hwidth hzero hrange {}
  have hnumeral : (signUnder "+0".toList (Conversion.hex.image (-42)) ++
      Conversion.hex.digits 16 (Conversion.hex.image (-42)).natAbs).length = 17 := by
    decide +kernel
  rw [length_filled, hnumeral, show value "20".toList = 20 by decide +kernel] at hlength
  obtain rfl : fill = 3 := by omega
  have hfilled : filled "+0".toList (signUnder "+0".toList (Conversion.hex.image (-42)))
      (Conversion.hex.digits 16 (Conversion.hex.image (-42)).natAbs) 3 =
      "+000ffffffffffffffd6".toList := by
    decide +kernel
  rw [hfilled] at hformat hread
  have htext : String.ofList ("n=".toList ++ '%' :: ("+0".toList ++ "20".toList ++
      Conversion.hex.letter :: "%d".toList)) = "n=%+020x%d" := by
    decide +kernel
  rw [htext] at hformat
  exact ⟨hbase, hlead, hflags, hwidth, hzero, hrange, by rw [hformat]; decide +kernel, hread⟩

end Format

end Stencil
