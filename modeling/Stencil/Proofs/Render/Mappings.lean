import Stencil.Proofs.Render.Literals
import Stencil.Proofs.Render.Rows
import Stencil.Proofs.Value.Equality

/-!
# Mappings as they are seen

A mapping has the names of the pairs that were inserted into it, in the order in which they first
came, each with the value that was inserted last. It is walked over as the list of these names, by
the list operators, by applications and when it is written. A look-up prefers an entry to the lists
of the names and of the values, and these to the fallback. A mapping that is written down is filled
with one entry after the other.
-/

namespace Stencil

open Render

/-! ### Mappings that are filled -/

namespace Mapping

variable {mapping : Mapping Value} {name : String} (fallback : Option (Fallback Value))
  (pairs : List (String × Value))

/-- The names stand in the order in which they first came. -/
theorem keys_insertAll :
    (insertAll { fallback } pairs).entries.keys = (pairs.map Prod.fst).eraseDups := by
  have hnames : (pairs.map Prod.fst).removeAll [] = pairs.map Prod.fst := List.removeAll_nil
  rw [insertAll_eq, Table.keys_insertAll]
  exact congrArg List.eraseDups hnames

/-- Under a name stands what was inserted last. -/
theorem get?_insertAll (name : String) :
    (insertAll { fallback } pairs).entries.get? name = pairs.reverse.lookup name := by
  rw [insertAll_eq, Table.get?_insertAll]
  exact Option.or_none

/-- Under a name that never came nothing stands. -/
theorem get?_insertAll_eq_none (h : name ∉ pairs.map Prod.fst) :
    (insertAll { fallback } pairs).entries.get? name = none := by
  rw [Table.get?_eq_none_iff, keys_insertAll, List.mem_eraseDups]
  exact h

/-- To insert entries leaves the fallback alone. -/
theorem fallback_insertAll : (insertAll { fallback } pairs).fallback = fallback := by
  rw [insertAll_eq]

/-- What is seen of a mapping that has a fallback and pairs that were inserted one after the
other. -/
structure Reflects (mapping : Mapping Value) (pairs : List (String × Value))
    (fallback : Option (Fallback Value)) : Prop where
  /-- Under a name stands what was inserted last. -/
  last : ∀ name value, mapping.entries.get? name = some value ↔
    ∃ earlier later, pairs = earlier ++ (name, value) :: later ∧ name ∉ later.map Prod.fst
  /-- The names stand in the order in which they first came. -/
  names : mapping.entries.keys = (pairs.map Prod.fst).eraseDups
  /-- The entries are the names in this order, each with what stands under it. -/
  entries : ∀ (index : Nat) entry, mapping.entries.entries[index]? = some entry ↔
    mapping.entries.keys[index]? = some entry.1 ∧ mapping.entries.get? entry.1 = some entry.2
  /-- An entry is found before anything else, also if its name is `keys` or `values`. -/
  lookup_entry : ∀ name value, mapping.entries.get? name = some value →
    mapping.lookup name = value
  lookup_keys : "keys" ∉ pairs.map Prod.fst →
    mapping.lookup "keys" = .list (mapping.entries.keys.map Value.string)
  lookup_values : "values" ∉ pairs.map Prod.fst →
    ∃ items, mapping.lookup "values" = .list items ∧ ∀ index : Nat,
      items[index]? = (mapping.entries.keys[index]?).bind mapping.entries.get?
  /-- Under any other name without an entry there is what the fallback says, or nothing. -/
  lookup_other : ∀ name, name ∉ pairs.map Prod.fst → name ≠ "keys" → name ≠ "values" →
    (fallback = some .key → mapping.lookup name = .string name) ∧
    (∀ held, fallback = some (.value held) → mapping.lookup name = held) ∧
    (fallback = none → mapping.lookup name = .absent)

/-- An entry is found before anything else. -/
theorem lookup_of_get? {value : Value} (h : mapping.entries.get? name = some value) :
    mapping.lookup name = value := by
  rw [lookup, h]

/-- Without an entry of that name, `keys` are the names in their order. -/
theorem lookup_keys_of_get? (h : mapping.entries.get? "keys" = none) :
    mapping.lookup "keys" = .list (mapping.entries.keys.map Value.string) := by
  rw [lookup, h]
  rfl

/-- Without an entry of that name, `values` are the values in the order of their names. -/
theorem lookup_values_of_get? (h : mapping.entries.get? "values" = none) :
    mapping.lookup "values" = .list mapping.entries.values := by
  rw [lookup, h]
  rfl

/-- A mapping shows the pairs that were inserted. -/
theorem reflects_insertAll : (insertAll { fallback } pairs).Reflects pairs fallback where
  last name value := by rw [get?_insertAll, Table.lookup_reverse_eq_some_iff]
  names := keys_insertAll fallback pairs
  entries _ _ := Table.getElem?_entries_eq_some_iff (nodup_keys_insertAll fallback pairs)
  lookup_entry _ _ h := lookup_of_get? h
  lookup_keys h := lookup_keys_of_get? (get?_insertAll_eq_none fallback pairs h)
  lookup_values h :=
    ⟨_, lookup_values_of_get? (get?_insertAll_eq_none fallback pairs h),
      Table.getElem?_values (nodup_keys_insertAll fallback pairs)⟩
  lookup_other name h hkeys hvalues := by
    rw [lookup, get?_insertAll_eq_none fallback pairs h, fallback_insertAll]
    simp only [if_neg hkeys, if_neg hvalues]
    refine ⟨?_, ?_, ?_⟩
    · rintro rfl
      rfl
    · rintro held rfl
      rfl
    · rintro rfl
      rfl

end Mapping

namespace Evaluator

/-! ### Mappings that are walked over -/

variable {fuel : Nat} {setting : Setting} {scope : Scope} {mapping : Mapping Value}
variable {begun run ended : Run}

/-- Whoever walks over a mapping walks over the list of its names. -/
structure WalksNames (below : Evaluator) (setting : Setting) (mapping : Mapping Value) : Prop where
  operators : ∀ operator : Operator, operator.apply (.mapping mapping) =
    operator.apply (.list (mapping.entries.keys.map Value.string))
  written : ∀ scope options, below.writeValue scope options (.mapping mapping) =
    below.writeValue scope options (.list (mapping.entries.keys.map Value.string))
  applied : ∀ scope first more, below.apply scope (.mapping mapping) (first :: more) =
    below.apply scope (.list (mapping.entries.keys.map Value.string)) (first :: more)
  /-- An application makes an instance for each name and numbers them in the order of the names. -/
  instances : ∀ scope first more begun value ended,
    below.apply scope (.mapping mapping) (first :: more) setting begun = (.ok value, ended) →
      ∃ values, value = .list values ∧ values.length = mapping.entries.keys.length ∧
        ∀ (index : Nat) name mapped, mapping.entries.keys[index]? = some name →
          values[index]? = some mapped → ∃ call id data,
            (first :: more)[index % (more.length + 1)]? = some call ∧ mapped = .template id ∧
              below.Maps setting scope call (.string name) index begun ended id data
  /-- In an application to several drivers the names are the elements of a mapping, too. -/
  parallel : ∀ scope before after calls,
    below.applyParallel scope (before ++ .mapping mapping :: after) calls =
      below.applyParallel scope
        (before ++ .list (mapping.entries.keys.map Value.string) :: after) calls

/-- No element of a collection is passed over if none is absent. -/
theorem turns_eq_length {items : List Value} (h : ∀ item ∈ items, item ≠ .absent) :
    turns items = items.length := by
  refine List.countP_eq_length.mpr fun item hitem => ?_
  rw [Bool.not_eq_true', ← Bool.not_eq_true, Value.isAbsent_iff]
  exact h item hitem

/-- In parallel a mapping stands for the list of its names. -/
theorem columns_mapping (before after : List Value) (mapping : Mapping Value) :
    columns (before ++ .mapping mapping :: after) =
      columns (before ++ .list mapping.keyValues :: after) := by
  induction before with
  | nil => rfl
  | cons driver rest ih => rw [List.cons_append, columns, ih, List.cons_append, columns]

/-- No name is absent, so that the calls take turns with the places of the names. -/
theorem apply_mapping_ok {first : Call Expr Chunk} {more : List (Call Expr Chunk)} {value : Value}
    (h : (upTo fuel).apply scope (.mapping mapping) (first :: more) setting begun =
      (.ok value, ended)) :
    ∃ values, value = .list values ∧ values.length = mapping.entries.keys.length ∧
      ∀ (index : Nat) name mapped, mapping.entries.keys[index]? = some name →
        values[index]? = some mapped → ∃ call id data,
          (first :: more)[index % (more.length + 1)]? = some call ∧ mapped = .template id ∧
            (upTo fuel).Maps setting scope call (.string name) index begun ended id data := by
  obtain ⟨values, hvalue, hlength, hvalues⟩ := apply_collection_ok rfl h
  refine ⟨values, hvalue, hlength.trans (List.length_map _), ?_⟩
  intro index name mapped hname hmapped
  have helement : mapping.keyValues[index]? = some (.string name) := by
    rw [Mapping.keyValues, List.getElem?_map, hname]
    rfl
  have hpresent : ∀ item ∈ mapping.keyValues.take index, item ≠ .absent := by
    intro item hitem
    obtain ⟨_, _, rfl⟩ := List.mem_map.mp (List.mem_of_mem_take hitem)
    exact nofun
  have hturn : turns (mapping.keyValues.take index) = index := by
    rw [turns_eq_length hpresent, List.length_take]
    exact Nat.min_eq_left (Nat.le_of_lt (List.getElem?_eq_some_iff.mp helement).1)
  obtain ⟨-, htakes⟩ := hvalues index (.string name) mapped helement hmapped
  simpa only [hturn] using htakes nofun

/-- Whoever walks over a mapping walks over its names. -/
theorem walksNames (fuel : Nat) (setting : Setting) (mapping : Mapping Value) :
    (upTo fuel).WalksNames setting mapping where
  operators operator := by cases operator <;> rfl
  written scope options := by
    rw [writeValue, writeValue]
    rfl
  applied _ _ _ := by
    simp only [apply, Value.isAbsent, Value.elements?, Mapping.keyValues, onStore_pure, pure_bind]
  instances _ _ _ _ _ _ h := apply_mapping_ok h
  parallel scope before after calls := by
    have hcolumns := columns_mapping before after mapping
    rw [Mapping.keyValues] at hcolumns
    rcases calls with - | ⟨call, - | ⟨next, rest⟩⟩
    · rfl
    · simp only [applyParallel, hcolumns, List.length_append, List.length_cons]
    · rfl

/-! ### What is seen of mappings -/

/-- What is seen of the mappings in a render. -/
structure ShowsMappings (below : Evaluator) (setting : Setting) : Prop where
  /-- Insertions: the last value counts, the first place, and an entry before anything else. -/
  insertions : ∀ pairs fallback, (Mapping.insertAll { fallback } pairs).Reflects pairs fallback
  walked : ∀ mapping, below.WalksNames setting mapping
  /-- A mapping that is written down is filled with the values of its entries in turn. -/
  literals : ∀ scope literal begun value ended,
    below.evalExpr scope (.mapping literal) setting begun = (.ok value, ended) ↔
      ∃ mapping, value = .mapping mapping ∧ below.Fills setting scope literal begun mapping ended
  /-- So is a dictionary whose name no instance declares. -/
  dictionaries : ∀ scope name literal data begun value ended,
    begun.instances[scope.innermost.index]? = some data →
    setting.groups.findDictionary data.nativeGroup name = some literal →
      (below.evalDictionary scope name setting begun = (.ok value, ended) ↔
        ∃ mapping, value = .mapping mapping ∧ below.Fills setting scope literal begun mapping ended)

/-- In every render a mapping is the same to all that look at it. -/
theorem showsMappings (fuel : Nat) (setting : Setting) : (upTo fuel).ShowsMappings setting where
  insertions pairs fallback := Mapping.reflects_insertAll fallback pairs
  walked mapping := walksNames fuel setting mapping
  literals _ _ _ _ _ := literal_eq_ok_iff
  dictionaries scope name literal data begun value ended hdata hliteral := by
    have hfound := dictionary?_apply setting begun data.nativeGroup name
    rw [hliteral] at hfound
    rw [evalDictionary, bind_apply_ok _ _ (getInstance_apply_some _ _ hdata),
      bind_apply_ok _ _ hfound]
    exact literal_eq_ok_iff

/-- A literal in which a name comes twice and one entry is called `keys`: it is filled with both
values of the name, of which the last one is found, and the entry is found before the list of the
names. An application makes two instances of it. -/
theorem showsMappings_repeated :
    let setting : Setting := .ofGroup [.template "entry" (some [{ name := "name" }]) []]
    let run : Run := .ofInstances [(.template "page" none [], [])]
    let literal : MapLiteral Expr :=
      { entries := [("b", .string "x"), ("keys", .bool true), ("b", .string "y")]
        fallback := some .key }
    let pairs : List (String × Value) :=
      [("b", .string "x"), ("keys", .bool true), ("b", .string "y")]
    let mapping : Mapping Value := .insertAll { fallback := some .key } pairs
    (upTo 1).Fills setting ⟨⟨0⟩, []⟩ literal run mapping run ∧
      mapping.entries.keys = ["b", "keys"] ∧ mapping.lookup "keys" = .bool true ∧
      mapping.lookup "b" = .string "y" ∧ mapping.lookup "c" = .string "c" ∧
      ∃ values ended, (upTo 1).apply ⟨⟨0⟩, []⟩ (.mapping mapping) [{ callee := .named "entry" }]
        setting run = (.ok (.list values), ended) ∧ values.length = 2 := by
  intro setting run literal pairs mapping
  have hshows := showsMappings 1 setting
  have hreflects := hshows.insertions pairs (some .key)
  obtain ⟨_, heq, hfills⟩ := (hshows.literals ⟨⟨0⟩, []⟩ literal run (.mapping mapping) run).mp rfl
  cases heq
  have hlast : mapping.entries.get? "b" = some (.string "y") :=
    (hreflects.last "b" _).mpr ⟨pairs.take 2, [], rfl, List.not_mem_nil⟩
  have hkeys : mapping.entries.get? "keys" = some (.bool true) :=
    (hreflects.last "keys" _).mpr ⟨pairs.take 1, [("b", .string "y")], rfl, by decide⟩
  obtain ⟨hother, -⟩ := hreflects.lookup_other "c" (by decide) (by decide) (by decide)
  have hok : ((upTo 1).apply ⟨⟨0⟩, []⟩ (.mapping mapping) [{ callee := .named "entry" }]
      setting run).1.isOk = true := by decide +kernel
  obtain ⟨value, ended, happly⟩ := exists_of_isOk hok
  obtain ⟨values, rfl, hlength, -⟩ := (hshows.walked mapping).instances _ _ _ _ _ _ happly
  exact ⟨hfills, hreflects.names, hreflects.lookup_entry _ _ hkeys,
    hreflects.lookup_entry _ _ hlast, hother rfl, values, ended, happly, hlength⟩

end Evaluator

end Stencil
