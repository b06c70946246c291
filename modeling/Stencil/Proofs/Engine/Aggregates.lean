import Stencil.Proofs.Engine.Assignment
import Stencil.Proofs.Text.Specifications
import Stencil.Proofs.Value.Insertions

/-!
# Assignments of aggregates

A specification is given with values, one for each of its entries, and a mapping with these values
is assigned to the attribute that it names. Two things are not looked at: whether anything is left
of the name when the white space around it is taken away, and whether two entries have the same
name. In the first case the attribute has the empty name, and in the second one the value that was
given first is lost. In all others the mapping has each value under the name of its entry.
-/

namespace Stencil

namespace Aggregate

/-- The mapping that is filled with one value after the other. -/
def filled (parts : List (List Char)) (values : List Value) : Mapping Value :=
  { entries := Table.insertAll {} ((namesOf parts).zip values) }

/-- Each property name is paired with a value. -/
theorem map_fst_zip_namesOf {parts : List (List Char)} {values : List Value}
    (h : parts.length = values.length) :
    ((namesOf parts).zip values).map Prod.fst = namesOf parts := by
  have hlength : (namesOf parts).length = values.length := by rw [namesOf, List.length_map, h]
  exact List.map_fst_zip (Nat.le_of_eq hlength)

/-- A specification whose name is not blank and whose entries have different names. -/
def Regular (spec : String) : Prop :=
  ∀ name parts, Spells spec.toList name parts → Text.trim name ≠ [] ∧ (namesOf parts).Nodup

/-- A specification is regular if it has a name and none of its properties comes twice. -/
theorem Spells.regular_iff {spec : String} {name : List Char} {parts : List (List Char)}
    (h : Spells spec.toList name parts) :
    Regular spec ↔ Text.trim name ≠ [] ∧ (namesOf parts).Nodup := by
  refine ⟨fun hregular => hregular name parts h, fun hparts other others hother => ?_⟩
  obtain ⟨rfl, rfl⟩ := h.unique hother
  exact hparts

end Aggregate

namespace Engine

open Aggregate

variable {engine after : Engine} {id : InstanceId} {spec : String} {values : List Value}
  {name : List Char} {parts : List (List Char)} {mapping : Mapping Value}

/-- When an aggregate is assigned, and what its assignment does. -/
theorem assignAggregate_eq_ok_iff :
    assignAggregate id spec values engine = (.ok (), after) ↔
      ∃ name parts, Spells spec.toList name parts ∧ name ≠ [] ∧
        (∀ part ∈ parts, isName (Text.trim part)) ∧ parts.length = values.length ∧
        assign id (.ofList (Text.trim name)) (.mapping (filled parts values)) engine =
          (.ok (), after) := by
  have hmapping {name parts} (hspells : Spells spec.toList name parts) (hname : name ≠ [])
      (hparts : ∀ part ∈ parts, isName (Text.trim part)) : mappingOf? spec values =
        if parts.length = values.length then
          some (.ofList (Text.trim name), .mapping (filled parts values))
        else none := by
    have hspec := parse?_eq_some_iff.mpr ⟨name, parts, hspells, hname, hparts, rfl⟩
    rw [mappingOf?, hspec, Option.bind_some, namesOf, List.length_map]
    rfl
  rw [assignAggregate_apply]
  constructor
  · intro h
    cases hspec : Aggregate.parse? spec with
    | none =>
      rw [mappingOf?, hspec] at h
      cases congrArg Prod.fst h
    | some aggregate =>
      obtain ⟨name, parts, hspells, hname, hparts, -⟩ := parse?_eq_some_iff.mp hspec
      rw [hmapping hspells hname hparts] at h
      split at h
      · next request hrequest =>
        split at hrequest
        · next hlength =>
          cases hrequest
          exact ⟨name, parts, hspells, hname, hparts, hlength, h⟩
        · cases hrequest
      · cases congrArg Prod.fst h
  · rintro ⟨name, parts, hspells, hname, hparts, hlength, hassign⟩
    rwa [hmapping hspells hname hparts, if_pos hlength]

/-- An aggregate was assigned as its specification says: neither its name nor an entry is blank,
each entry has a value, and what took place is the assignment of a mapping with these entries, from
which each of the values can be had. -/
structure Honours (engine after : Engine) (id : InstanceId) (values : List Value)
    (name : List Char) (parts : List (List Char)) (mapping : Mapping Value) : Prop where
  named : Text.trim name ≠ []
  nonblank : ∀ part ∈ parts, Text.trim part ≠ []
  length : parts.length = values.length
  entries : mapping.entries.entries = (namesOf parts).zip values
  distinct : mapping.entries.keys.Nodup
  fallback : mapping.fallback = none
  kept : ∀ entry ∈ (namesOf parts).zip values, mapping.lookup entry.1 = entry.2
  assigned : assign id (.ofList (Text.trim name)) (.mapping mapping) engine = (.ok (), after)

/-- An aggregate that is honoured has a name, and none of its properties comes twice. -/
theorem Honours.names (h : Honours engine after id values name parts mapping) :
    Text.trim name ≠ [] ∧ (namesOf parts).Nodup := by
  have hnames : mapping.entries.keys = namesOf parts := by
    rw [Table.keys, h.entries, map_fst_zip_namesOf h.length]
  exact ⟨h.named, hnames ▸ h.distinct⟩

/-- An aggregate with such names is honoured. -/
theorem honours_of_names (hname : Text.trim name ≠ []) (hnames : (namesOf parts).Nodup)
    (hparts : ∀ part ∈ parts, isName (Text.trim part)) (hlength : parts.length = values.length)
    (h : assign id (.ofList (Text.trim name)) (.mapping (filled parts values)) engine =
      (.ok (), after)) :
    Honours engine after id values name parts (filled parts values) := by
  have hkeys : ((namesOf parts).zip values).map Prod.fst = namesOf parts :=
    map_fst_zip_namesOf hlength
  have hentries : (filled parts values).entries.entries = (namesOf parts).zip values :=
    Table.entries_insertAll_eq_iff.mpr (by rwa [hkeys])
  have hdistinct : (filled parts values).entries.keys.Nodup := by
    rwa [Table.keys, hentries, hkeys]
  refine ⟨hname, fun part hpart => (isName_iff.mp (hparts part hpart)).1, hlength, hentries,
    hdistinct, rfl, fun entry hentry => ?_, h⟩
  have hget : (filled parts values).entries.get? entry.1 = some entry.2 :=
    Table.get?_of_mem hdistinct (hentries ▸ hentry)
  rw [Mapping.lookup, hget]

/-- The specification of an aggregate that is honoured is regular. -/
theorem Honours.regular (h : Honours engine after id values name parts mapping)
    (hspells : Spells spec.toList name parts) : Regular spec :=
  hspells.regular_iff.mpr h.names

/-- An aggregate that is assigned is assigned as its specification says, unless the name of the
specification is blank or two of its entries have the same name. -/
theorem honours_aggregate (h : assignAggregate id spec values engine = (.ok (), after)) :
    (∃ name parts mapping, Spells spec.toList name parts ∧
      Honours engine after id values name parts mapping) ↔ Regular spec := by
  constructor
  · rintro ⟨name, parts, mapping, hspells, hhonours⟩
    exact hhonours.regular hspells
  · intro hregular
    obtain ⟨name, parts, hspells, -, hparts, hlength, hassign⟩ := assignAggregate_eq_ok_iff.mp h
    obtain ⟨hname, hnames⟩ := hregular name parts hspells
    exact ⟨name, parts, _, hspells, honours_of_names hname hnames hparts hlength hassign⟩

/-- White space around the name and around the entries does not matter. -/
theorem honours_aggregate_paired :
    ∃ name parts mapping, Spells " title .\x7bfirst, last \x7d".toList name parts ∧
      Honours paired (assignAggregate ⟨1⟩ " title .\x7bfirst, last \x7d"
        [.string "John", .string "Doe"] paired).2 ⟨1⟩ [.string "John", .string "Doe"]
        name parts mapping := by
  have hresult : (assignAggregate ⟨1⟩ " title .\x7bfirst, last \x7d"
      [.string "John", .string "Doe"] paired).1 = .ok () := by decide +kernel
  refine (honours_aggregate (Prod.ext hresult rfl)).mpr ?_
  have hspells : Spells " title .\x7bfirst, last \x7d".toList " title ".toList
      ["first".toList, " last ".toList] := by
    constructor <;> decide +kernel
  exact hspells.regular_iff.mpr (by decide +kernel)

/-- An instance of a template that accepts every name. -/
def receptive : Engine :=
  ({} : Engine).after
    [.defineGroup "group" .angle, .declare ⟨0⟩ (.template "page" none []), .instanceOf ⟨0⟩ "page"]

/-- The texts under the entries of a mapping. -/
def entryTexts : Value → List String
  | .mapping mapping => mapping.entries.values.filterMap Value.text?
  | _ => []

/-- A name that is only white space is accepted, and there is an attribute with the empty name
afterwards. An entry that comes twice is accepted, and the first one of its values is lost. -/
theorem not_honoured_receptive :
    (∃ after, assignAggregate ⟨0⟩ " .\x7ba\x7d" [.string "x"] receptive = (.ok (), after) ∧
      (after.instance? ⟨0⟩).map (·.attributes.keys) = some [""] ∧
      ¬ ∃ name parts mapping, Spells " .\x7ba\x7d".toList name parts ∧
        Honours receptive after ⟨0⟩ [.string "x"] name parts mapping) ∧
    ∃ after, assignAggregate ⟨0⟩ "x.\x7ba,a\x7d" [.string "one", .string "two"] receptive =
        (.ok (), after) ∧
      (after.instance? ⟨0⟩).map (fun data => data.attributes.values.map entryTexts) =
        some [["two"]] ∧
      ¬ ∃ name parts mapping, Spells "x.\x7ba,a\x7d".toList name parts ∧
        Honours receptive after ⟨0⟩ [.string "one", .string "two"] name parts mapping := by
  have hblank : ¬ Regular " .\x7ba\x7d" := by
    have hspells : Spells " .\x7ba\x7d".toList [' '] [['a']] := by constructor <;> decide +kernel
    rw [hspells.regular_iff]
    decide +kernel
  have htwice : ¬ Regular "x.\x7ba,a\x7d" := by
    have hspells : Spells "x.\x7ba,a\x7d".toList ['x'] [['a'], ['a']] := by
      constructor <;> decide +kernel
    rw [hspells.regular_iff]
    decide +kernel
  refine ⟨⟨_, Prod.ext ?_ rfl, ?_, ?_⟩, _, Prod.ext ?_ rfl, ?_, ?_⟩
  · decide +kernel
  · decide +kernel
  · rintro ⟨name, parts, mapping, hspells, hhonours⟩
    exact hblank (hhonours.regular hspells)
  · decide +kernel
  · decide +kernel
  · rintro ⟨name, parts, mapping, hspells, hhonours⟩
    exact htwice (hhonours.regular hspells)

end Engine

end Stencil
