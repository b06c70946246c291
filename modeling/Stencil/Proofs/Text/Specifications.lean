import Stencil.Engine.Aggregate

/-!
# How specifications of aggregates are read

A specification is a name, a dot, and the names of entries in braces with commas between them. It
can be read in one way only: the first dot with an opening brace ends the name, the last character
is the closing brace, and every comma between them divides two entries. White space around a name
does not count.
-/

namespace Stencil

namespace Text

/-! ### Texts between separators -/

variable {separator c : Char} {text part : List Char}

/-- A separator in front has an empty part before it. -/
theorem splitOn_cons_self (separator : Char) (text : List Char) :
    (separator :: text).splitOn separator = [] :: text.splitOn separator := by
  simp [List.splitOn, List.splitOnP_cons_eq_if_modifyHead]

/-- Any other character in front belongs to the first part. -/
theorem splitOn_cons_of_ne (h : c ≠ separator) (text : List Char) :
    (c :: text).splitOn separator = (text.splitOn separator).modifyHead (c :: ·) := by
  simp [List.splitOn, List.splitOnP_cons_eq_if_modifyHead, h]

/-- What stands between separators has none itself. -/
theorem not_mem_of_mem_splitOn (h : part ∈ text.splitOn separator) : separator ∉ part := by
  induction text generalizing part with
  | nil =>
    rw [List.splitOn_nil, List.mem_singleton] at h
    exact h ▸ List.not_mem_nil
  | cons c rest ih =>
    by_cases hc : c = separator
    · subst hc
      rw [splitOn_cons_self] at h
      rcases List.mem_cons.mp h with rfl | h
      · exact List.not_mem_nil
      · exact ih h
    · rw [splitOn_cons_of_ne hc] at h
      cases hsplit : rest.splitOn separator with
      | nil =>
        rw [hsplit] at h
        cases h
      | cons first others =>
        rw [hsplit] at h ih
        rcases List.mem_cons.mp h with rfl | h
        · exact List.not_mem_cons_of_ne_of_not_mem (Ne.symm hc) (ih List.mem_cons_self)
        · exact ih (List.mem_cons_of_mem _ h)

end Text

namespace Aggregate

/-- A text is the specification of a name and of entries, which may have white space around them. -/
structure Spells (text name : List Char) (parts : List (List Char)) : Prop where
  spelled : text = name ++ '.' :: '\x7b' :: ([','].intercalate parts ++ ['\x7d'])
  /-- The name goes on to the first dot with an opening brace. -/
  first : ¬['.', '\x7b'] <:+: name
  nonempty : parts ≠ []
  divided : ∀ part ∈ parts, ',' ∉ part

/-- The text is divided at the first dot with an opening brace. -/
theorem cut_eq_some_iff {text before after : List Char} :
    cut text = some (before, after) ↔
      text = before ++ '.' :: '\x7b' :: after ∧ ¬['.', '\x7b'] <:+: before := by
  fun_induction cut text generalizing before with
  | case1 rest =>
    -- The text begins with the dot and the brace, so nothing can stand before them.
    constructor
    · intro h
      cases h
      simp
    · rintro ⟨heq, hfirst⟩
      match before, heq, hfirst with
      | [], heq, _ => simp_all
      | [_], heq, _ => simp at heq
      | _ :: _ :: before, heq, hfirst =>
        simp only [List.cons_append, List.cons.injEq] at heq
        obtain ⟨rfl, rfl, -⟩ := heq
        exact absurd ⟨[], before, rfl⟩ hfirst
  | case2 c rest hpattern ih =>
    have hother (more : List Char) (hc : c = '.') : rest ≠ '\x7b' :: more := hpattern more hc
    rw [Option.map_eq_some_iff]
    constructor
    · rintro ⟨⟨lead, tail⟩, hcut, heq⟩
      cases heq
      obtain ⟨rfl, hfirst⟩ := ih.mp hcut
      refine ⟨rfl, fun hinfix => ?_⟩
      rcases List.infix_cons_iff.mp hinfix with hprefix | hinfix
      · cases lead with
        | nil => simp [List.cons_prefix_cons] at hprefix
        | cons d lead =>
          simp only [List.cons_prefix_cons, List.nil_prefix, and_true] at hprefix
          exact hother _ hprefix.1.symm (by rw [← hprefix.2]; rfl)
      · exact hfirst hinfix
    · rintro ⟨heq, hfirst⟩
      cases before with
      | nil =>
        obtain ⟨rfl, rfl⟩ := List.cons.inj heq
        exact (hother _ rfl rfl).elim
      | cons d before =>
        obtain ⟨rfl, rfl⟩ := List.cons.inj heq
        refine ⟨(before, after), ih.mpr ⟨rfl, fun hinfix => ?_⟩, rfl⟩
        exact hfirst (List.infix_cons_iff.mpr (.inr hinfix))
  | case3 => simp

/-- The parts of a text are what stands between its commas, without the white space around it. -/
theorem parts_eq (part text : List Char) :
    parts part text = ((text.splitOn ',').modifyHead (part.reverse ++ ·)).map Text.trim := by
  fun_induction parts part text with
  | case1 part => simp
  | case2 part rest ih =>
    have hsame : (rest.splitOn ',').modifyHead (([] : List Char).reverse ++ ·) =
        rest.splitOn ',' := by
      cases rest.splitOn ',' <;> rfl
    rw [ih, hsame, Text.splitOn_cons_self]
    simp
  | case3 part c rest hpattern ih =>
    rw [ih, Text.splitOn_cons_of_ne hpattern, List.modifyHead_modifyHead]
    simp [Function.comp_def]

/-- The parts of a specification are what stands between commas. -/
theorem parts_nil (text : List Char) : parts [] text = (text.splitOn ',').map Text.trim := by
  rw [parts_eq]
  cases text.splitOn ',' <;> rfl

/-- A text that ends in a closing brace and has a dot with an opening brace is a specification, and
it is the specification of one name and one list of entries. -/
theorem spells_iff {text name : List Char} {parts : List (List Char)} :
    Spells text name parts ↔ ∃ rest, cut text = some (name, rest) ∧
      rest.getLast? = some '\x7d' ∧ parts = rest.dropLast.splitOn ',' := by
  constructor
  · intro h
    refine ⟨[','].intercalate parts ++ ['\x7d'], cut_eq_some_iff.mpr ⟨h.spelled, h.first⟩, ?_, ?_⟩
    · exact List.getLast?_concat
    · rw [List.dropLast_concat, List.splitOn_intercalate ',' h.divided h.nonempty]
  · rintro ⟨rest, hcut, hlast, rfl⟩
    obtain ⟨htext, hname⟩ := cut_eq_some_iff.mp hcut
    obtain ⟨listed, rfl⟩ := List.getLast?_eq_some_iff.mp hlast
    rw [List.dropLast_concat]
    refine ⟨?_, hname, List.splitOn_ne_nil _ _, fun part hpart => Text.not_mem_of_mem_splitOn hpart⟩
    rw [List.intercalate_splitOn, htext]

/-- A specification can be read in one way only. -/
theorem Spells.unique {text name name' : List Char} {parts parts' : List (List Char)}
    (h : Spells text name parts) (h' : Spells text name' parts') :
    name' = name ∧ parts' = parts := by
  obtain ⟨rest, hcut, -, rfl⟩ := spells_iff.mp h
  obtain ⟨rest', hcut', -, rfl⟩ := spells_iff.mp h'
  cases hcut.symm.trans hcut'
  exact ⟨rfl, rfl⟩

/-- The name of an entry has a character, but no dot and no brace. -/
theorem isName_iff {part : List Char} :
    isName part = true ↔ part ≠ [] ∧ '.' ∉ part ∧ '\x7b' ∉ part ∧ '\x7d' ∉ part := by
  rw [isName, Bool.and_eq_true, Bool.not_eq_true', List.isEmpty_eq_false_iff, List.all_eq_true]
  refine and_congr_right fun _ => ⟨fun h => ?_, fun h c hc => ?_⟩
  · exact ⟨fun hc => by simpa using h _ hc, fun hc => by simpa using h _ hc,
      fun hc => by simpa using h _ hc⟩
  · obtain ⟨hdot, hopening, hclosing⟩ := h
    have hne (other : Char) (hother : other ∉ part) : c ≠ other := fun heq => hother (heq ▸ hc)
    simp [hne _ hdot, hne _ hopening, hne _ hclosing]

/-- The names of entries, without the white space around them. -/
def namesOf (parts : List (List Char)) : List String :=
  parts.map fun part => .ofList (Text.trim part)

/-- What is read of a text. The name is looked at with the white space around it, and the entries
without. -/
theorem parse?_eq_some_iff {spec : String} {aggregate : Aggregate} :
    parse? spec = some aggregate ↔ ∃ name parts, Spells spec.toList name parts ∧ name ≠ [] ∧
      (∀ part ∈ parts, isName (Text.trim part)) ∧
      aggregate = ⟨.ofList (Text.trim name), namesOf parts⟩ := by
  unfold parse?
  constructor
  · intro h
    cases hcut : cut spec.toList with
    | none => simp [hcut] at h
    | some divided =>
      obtain ⟨name, rest⟩ := divided
      simp only [hcut, Option.bind_eq_bind, Option.bind_some, parts_nil] at h
      split at h
      · cases h
      · next hlast =>
        split at h
        · cases h
        · next hnames =>
          simp only [Bool.or_eq_true, Bool.not_eq_true', not_or, Bool.not_eq_true,
            Bool.not_eq_false, List.isEmpty_eq_false_iff, List.all_map, List.all_eq_true,
            Function.comp_apply] at hnames
          refine ⟨name, rest.dropLast.splitOn ',',
            spells_iff.mpr ⟨rest, hcut, Decidable.not_not.mp hlast, rfl⟩, hnames.1, hnames.2, ?_⟩
          cases h
          simp [namesOf, Function.comp_def]
  · rintro ⟨name, parts, hspells, hname, hparts, rfl⟩
    obtain ⟨rest, hcut, hlast, rfl⟩ := spells_iff.mp hspells
    simpa [hcut, hlast, parts_nil, hname, namesOf, Function.comp_def] using hparts

end Aggregate

end Stencil
