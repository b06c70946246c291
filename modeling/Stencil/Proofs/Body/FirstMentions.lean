import Mathlib.Data.List.Nodup
import Stencil.Definition

/-!
# First mentions and region keys

Of the mentions of a region the first one counts. The key under which a group keeps the body of a
region tells the regions of one template apart. It does not tell apart the regions of all templates:
where the name of the template ends is seen only if it does not look like the text that follows it.
-/

namespace Stencil

namespace Region

/-! ### First mentions -/

/-- A mention is a first one if it is the first one that is found of its region. -/
theorem mem_firsts {mentions : List Mention} {mention : Mention} :
    mention ∈ firsts mentions ↔
      mentions.find? (fun other => other.1 = mention.1) = some mention := by
  induction mentions with
  | nil => simp [firsts]
  | cons first rest ih =>
    rw [firsts, List.mem_cons, List.mem_filter, ih, List.find?_cons]
    by_cases hname : first.1 = mention.1
    · simp [hname, eq_comm]
    · have hne : mention ≠ first := fun heq => hname (heq ▸ rfl)
      simp [hname, hne, Ne.symm hname]

/-- The regions of some mentions are those that are mentioned at all. -/
theorem mem_map_fst_firsts {mentions : List Mention} {region : String} :
    region ∈ (firsts mentions).map Prod.fst ↔ region ∈ mentions.map Prod.fst := by
  induction mentions with
  | nil => rfl
  | cons first rest ih =>
    simp only [firsts, List.map_cons, List.mem_cons, ← ih]
    by_cases hname : region = first.1
    · simp [hname]
    · simp only [hname, false_or, List.mem_map, List.mem_filter]
      refine exists_congr fun mention => and_congr_left ?_
      rintro rfl
      simp [hname]

/-- No region has two first mentions. -/
theorem nodup_firsts (mentions : List Mention) : ((firsts mentions).map Prod.fst).Nodup := by
  induction mentions with
  | nil => exact List.nodup_nil
  | cons first rest ih =>
    rw [firsts, List.map_cons, List.nodup_cons]
    constructor
    · simp
    · exact ih.sublist (List.filter_sublist.map _)

/-- A body has each of its regions once. -/
theorem nodup_ofBody (body : List Chunk) : ((ofBody body).map Prod.fst).Nodup :=
  nodup_firsts _

/-! ### Keys -/

/-- The regions of one template have keys of their own. -/
theorem key_inj {template region other : String} :
    key template region = key template other ↔ region = other :=
  String.append_right_inj _

/-- The key of a region is longer than the name of its template. -/
theorem length_lt_key (template region : String) :
    template.length + 8 < (key template region).length := by
  have hmark : "region__".length = 8 := rfl
  have hseparator : "__".length = 2 := rfl
  simp only [key, String.length_append]
  omega

/-- No template has the name of the key of one of its own regions. -/
theorem key_ne (template region : String) : key template region ≠ template := by
  intro heq
  have hlength := length_lt_key template region
  rw [heq] at hlength
  omega

/-- The keys of the regions of a body are different. -/
theorem nodup_keys (template : String) (body : List Chunk) :
    ((ofBody body).map fun mention => key template mention.1).Nodup := by
  have hkeys : ((ofBody body).map fun mention => key template mention.1) =
      ((ofBody body).map Prod.fst).map (key template) := by
    rw [List.map_map]
    rfl
  rw [hkeys]
  exact (nodup_ofBody body).map fun _ _ => key_inj.mp

/-- A name in which no two underscores stand together, also when an underscore follows it. In the
keys of regions the two underscores after it are the first ones. -/
def Plain (template : String) : Prop := ¬ ['_', '_'] <:+: template.toList ++ ['_']

instance (template : String) : Decidable (Plain template) := inferInstanceAs (Decidable (¬ _))

/-- The key of a region begins with a text that no template is meant to begin with. -/
theorem toList_key (template region : String) :
    (key template region).toList =
      "region__".toList ++ (template.toList ++ ['_'] ++ '_' :: region.toList) := by
  have hmark : "__".toList = ['_', '_'] := rfl
  simp [key, hmark]

/-- No key begins with two plain names of different length. -/
theorem eq_nil_of_plain {template between : List Char} {rest other : List Char}
    (hplain : ¬ ['_', '_'] <:+: template ++ between ++ ['_'])
    (h : '_' :: '_' :: rest = between ++ '_' :: '_' :: other) : between = [] := by
  match between, h with
  | [], _ => rfl
  | [first], h =>
    obtain rfl : '_' = first := (List.cons.inj h).1
    exact absurd ⟨template, [], by simp⟩ hplain
  | first :: second :: more, h =>
    obtain rfl : '_' = first := (List.cons.inj h).1
    obtain rfl : '_' = second := (List.cons.inj (List.cons.inj h).2).1
    exact absurd ⟨template, more ++ ['_'], by simp⟩ hplain

/-- Keys tell the regions of templates with plain names apart. -/
theorem key_injective {template other region otherRegion : String} (htemplate : Plain template)
    (hother : Plain other) (h : key template region = key other otherRegion) :
    template = other ∧ region = otherRegion := by
  have hnames : template = other := by
    have hlists := congrArg String.toList h
    rw [toList_key, toList_key, List.append_cancel_left_eq, List.append_assoc,
      List.append_assoc] at hlists
    apply String.toList_inj.mp
    rcases List.append_eq_append_iff.mp hlists with ⟨between, heq, hrest⟩ | ⟨between, heq, hrest⟩
    · rw [Plain, heq] at hother
      rw [heq, eq_nil_of_plain hother hrest, List.append_nil]
    · rw [Plain, heq] at htemplate
      rw [heq, eq_nil_of_plain htemplate hrest, List.append_nil]
  subst hnames
  exact ⟨rfl, key_inj.mp h⟩

/-- A template whose name is not plain shares the keys of its regions with another template. -/
theorem exists_key_eq {template : String} (h : ¬ Plain template) (region : String) :
    ∃ other otherRegion, other ≠ template ∧ key other otherRegion = key template region := by
  obtain ⟨before, after, heq⟩ := not_not.mp h
  refine ⟨String.ofList before, String.ofList after ++ "_" ++ region, ?_, ?_⟩
  · rintro rfl
    have hlength := congrArg List.length heq
    simp at hlength
  · apply String.toList_inj.mp
    have hmark : "_".toList = ['_'] := rfl
    rw [toList_key, toList_key, ← heq]
    simp [hmark]

end Region

end Stencil
