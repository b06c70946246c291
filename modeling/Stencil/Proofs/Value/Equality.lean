import Mathlib.Data.List.Perm.Subperm
import Stencil.Proofs.Value.Insertions
import Stencil.Value.Equality

/-!
# Equality is an equivalence

Apart from the values in it, a value has an outline. The values in it have places: the items of a
list their positions, the entries of a mapping their names, and a fallback its own. Values without
floating-point numbers are equal exactly when they have the same outline and equal values in the
same places. So equality is an equivalence, and it does not see in which order a mapping was filled.
-/

namespace Stencil

/-! ### Tables in any order -/

namespace Table

variable {α β : Type} {r : α → β → Prop} {table : Table α} {other : Table β} {name : String}

/-- A table has a name if and only if something is found under it. -/
theorem mem_keys_iff : name ∈ table.keys ↔ (table.get? name).isSome := by
  refine ⟨isSome_get?_of_mem_keys, fun h => ?_⟩
  obtain ⟨value, hvalue⟩ := Option.isSome_iff_exists.mp h
  exact List.mem_map_of_mem (mem_of_get? hvalue)

/-- If no name comes twice, what is found under the names are the entries. -/
theorem get?_eq_some_iff {value : α} (h : table.keys.Nodup) :
    table.get? name = some value ↔ (name, value) ∈ table.entries :=
  ⟨mem_of_get?, get?_of_mem h⟩

/-- Nothing is found under a name that the table does not have. -/
theorem get?_eq_none_iff : table.get? name = none ↔ name ∉ table.keys := by
  rw [mem_keys_iff, Option.not_isSome_iff_eq_none]

/-- Where two optional values are related there are both or neither. -/
theorem isSome_eq_of_rel {x : Option α} {y : Option β} (h : Option.Rel r x y) :
    x.isSome = y.isSome := by
  cases h <;> rfl

/-- If no name comes twice, two tables have related values under the same names exactly when they
have the same size and each entry of the first has a counterpart in the second. -/
theorem forall_rel_get?_iff (h : table.keys.Nodup) (hother : other.keys.Nodup) :
    (∀ name, Option.Rel r (table.get? name) (other.get? name)) ↔
      table.size = other.size ∧
        ∀ entry ∈ table.entries, Option.Rel r (some entry.2) (other.get? entry.1) := by
  have hsize : table.keys.length = other.keys.length ↔ table.size = other.size := by
    simp only [keys, size, List.length_map]
  constructor
  · intro hrel
    have hkeys (name : String) : name ∈ table.keys ↔ name ∈ other.keys := by
      rw [mem_keys_iff, mem_keys_iff, isSome_eq_of_rel (hrel name)]
    refine ⟨hsize.mp ((List.perm_ext_iff_of_nodup h hother).mpr hkeys).length_eq, ?_⟩
    intro entry hentry
    have hget := hrel entry.1
    rwa [get?_of_mem h hentry] at hget
  · rintro ⟨hlength, hentries⟩ name
    have hsubset : table.keys ⊆ other.keys := by
      intro name hname
      obtain ⟨entry, hentry, rfl⟩ := List.mem_map.mp hname
      rw [mem_keys_iff, ← isSome_eq_of_rel (hentries entry hentry)]
      rfl
    -- Both have the same number of names, so the second has no more names than the first.
    have hperm : table.keys.Perm other.keys :=
      (h.subperm hsubset).perm_of_length_le (Nat.le_of_eq (hsize.mpr hlength).symm)
    cases hget : table.get? name with
    | some value => exact hentries _ (mem_of_get? hget)
    | none =>
      have hnone : other.get? name = none :=
        get?_eq_none_iff.mpr fun hname => get?_eq_none_iff.mp hget (hperm.mem_iff.mpr hname)
      rw [hnone]
      exact .none

/-- If no name comes twice, the values under the names do not depend on the order of the entries. -/
theorem get?_eq_of_perm {table' : Table α} (h : table.keys.Nodup)
    (hperm : table.entries.Perm table'.entries) (name : String) :
    table.get? name = table'.get? name := by
  have h' : table'.keys.Nodup := (hperm.map Prod.fst).nodup_iff.mp h
  refine Option.ext fun value => ?_
  rw [get?_eq_some_iff h, get?_eq_some_iff h', hperm.mem_iff]

end Table

namespace Mapping

variable {α : Type}

/-- A mapping after pairs have been inserted into it, one after the other. -/
def insertAll (mapping : Mapping α) (pairs : List (String × α)) : Mapping α :=
  pairs.foldl (fun mapping (name, value) => mapping.insert name value) mapping

/-- Inserting pairs into a mapping leaves its fallback alone. -/
theorem insertAll_eq (mapping : Mapping α) (pairs : List (String × α)) :
    mapping.insertAll pairs = { mapping with entries := mapping.entries.insertAll pairs } := by
  induction pairs generalizing mapping with
  | nil => rfl
  | cons pair rest ih => exact ih _

/-- No name comes twice in a mapping that is filled by insertions. -/
theorem nodup_keys_insertAll (fallback : Option (Fallback α)) (pairs : List (String × α)) :
    (insertAll { fallback } pairs).entries.keys.Nodup := by
  have hempty : ({} : Table α).keys.Nodup := List.nodup_nil
  rw [insertAll_eq]
  exact Table.nodup_keys_insertAll hempty pairs

end Mapping

/-- The value that a fallback has for all names. -/
def Fallback.held? {α : Type} : Fallback α → Option α
  | .key => none
  | .value held => some held

namespace Value

/-- A value without floating-point numbers, at any depth. As in all tables that are filled by
insertions, no name comes twice in its mappings. -/
inductive Exact : Value → Prop
  | absent : Exact .absent
  | scalar {single : Scalar} (h : ∀ number, single ≠ .float number) : Exact (.scalar single)
  | list {items : List Value} (h : ∀ item ∈ items, Exact item) : Exact (.list items)
  | mapping {entries : Table Value} {fallback : Option (Fallback Value)}
      (hkeys : entries.keys.Nodup) (hentries : ∀ entry ∈ entries.entries, Exact entry.2)
      (hfallback : ∀ held, fallback = some (.value held) → Exact held) :
      Exact (.mapping { entries, fallback })
  | template (id : InstanceId) : Exact (.template id)
  | iterator (cursor : CursorId) : Exact (.iterator cursor)

/-! ### Outlines and places -/

/-- What a value is, apart from the values in it. -/
inductive Outline where
  | absent
  | scalar (single : Scalar)
  | list
  /-- A mapping, and whether it answers with the name itself. -/
  | mapping (echoes : Bool)
  | template (id : InstanceId)
  | iterator (cursor : CursorId)

/-- Where there may be a value in another one. -/
inductive Place where
  | item (index : Nat)
  | entry (name : String)
  | fallback

/-- The outline of a value. -/
def outline : Value → Outline
  | .absent => .absent
  | .scalar single => .scalar single
  | .list _ => .list
  | .mapping entries => .mapping (entries.fallback matches some .key)
  | .template id => .template id
  | .iterator cursor => .iterator cursor

/-- The value in a place of another one. -/
def part? : Value → Place → Option Value
  | .list items, .item index => items[index]?
  | .mapping entries, .entry name => entries.entries.get? name
  | .mapping entries, .fallback => entries.fallback.bind Fallback.held?
  | _, _ => none

/-- Whether two places hold equal values, or none. -/
def Agree : Option Value → Option Value → Prop := Option.Rel fun x y => x.equal y = true

/-- Two places that hold values agree if these are equal. -/
@[simp] theorem agree_some {x y : Value} : Agree (some x) (some y) ↔ x.equal y = true :=
  Option.rel_some_some

/-- Two places that hold nothing agree. -/
@[simp] theorem agree_none : Agree none none := .none

/-- A place that holds a value does not agree with one that holds nothing. -/
@[simp] theorem not_agree_some_none {x : Value} : ¬ Agree (some x) none := nofun

/-- It does not do so the other way round, either. -/
@[simp] theorem not_agree_none_some {x : Value} : ¬ Agree none (some x) := nofun

/-- A place agrees with itself if the value in it, if any, is equal to itself. -/
theorem agree_self {part : Option Value} (hself : ∀ x, part = some x → x.equal x = true) :
    Agree part part := by
  cases part with
  | none => exact agree_none
  | some x => exact agree_some.mpr (hself x rfl)

/-- Places agree in either order if the values in them are equal in either order. -/
theorem Agree.symm {part part' : Option Value} (h : Agree part part')
    (hsymm : ∀ x y, part = some x → part' = some y → x.equal y = true → y.equal x = true) :
    Agree part' part := by
  cases h with
  | some hequal => exact agree_some.mpr (hsymm _ _ rfl rfl hequal)
  | none => exact agree_none

/-- Places agree with each other over a third one if the values in them are equal so. -/
theorem Agree.trans {first second third : Option Value} (h : Agree first second)
    (h' : Agree second third)
    (htrans : ∀ x y z, first = some x → second = some y → third = some z →
      x.equal y = true → y.equal z = true → x.equal z = true) : Agree first third := by
  cases h with
  | some hequal =>
    cases h' with
    | some hequal' => exact agree_some.mpr (htrans _ _ _ rfl rfl rfl hequal hequal')
  | none => exact h'

/-- The places in a value are the items of a list, the entries of a mapping, and the fallback. -/
theorem forall_place_iff {P : Place → Prop} : (∀ place, P place) ↔
    (∀ index, P (.item index)) ∧ (∀ name, P (.entry name)) ∧ P .fallback := by
  refine ⟨fun h => ⟨fun _ => h _, fun _ => h _, h _⟩, fun ⟨hitem, hentry, hfallback⟩ place => ?_⟩
  cases place with
  | item index => exact hitem index
  | entry name => exact hentry name
  | fallback => exact hfallback

/-! ### Collections -/

/-- Lists are equal when they agree item by item, so that both have the same length. -/
theorem equalLists_iff {items items' : List Value} :
    equalLists items items' = true ↔ ∀ index : Nat, Agree items[index]? items'[index]? := by
  induction items generalizing items' with
  | nil =>
    cases items' with
    | nil => simp [equalLists]
    | cons => exact iff_of_false (by simp [equalLists]) fun h => not_agree_none_some (h 0)
  | cons item rest ih =>
    cases items' with
    | nil => exact iff_of_false (by simp [equalLists]) fun h => not_agree_some_none (h 0)
    | cons item' rest' =>
      rw [equalLists, Bool.and_eq_true, ih]
      constructor
      · rintro ⟨hitem, hrest⟩ (_ | index)
        · exact agree_some.mpr hitem
        · exact hrest index
      · exact fun h => ⟨agree_some.mp (h 0), fun index => h (index + 1)⟩

/-- Entries are compared one by one with what the other table has under their names. -/
theorem equalEntries_iff {entries : List (String × Value)} {other : Table Value} :
    equalEntries entries other = true ↔
      ∀ entry ∈ entries, Agree (some entry.2) (other.get? entry.1) := by
  induction entries with
  | nil => simp [equalEntries]
  | cons entry rest ih =>
    rw [equalEntries, Bool.and_eq_true, ih, List.forall_mem_cons]
    refine and_congr_left' ?_
    cases other.get? entry.1 <;> simp

variable {entries entries' : Table Value} {fallback fallback' : Option (Fallback Value)}

/-- Mappings are equal when the same names have equal values, in whatever order, and their
fallbacks are equal. -/
theorem equal_mapping_iff (h : entries.keys.Nodup) (h' : entries'.keys.Nodup) :
    (Value.mapping ⟨entries, fallback⟩).equal (.mapping ⟨entries', fallback'⟩) = true ↔
      (∀ name, Agree (entries.get? name) (entries'.get? name)) ∧
        equalFallbacks fallback fallback' = true := by
  rw [equal, Bool.and_eq_true, Bool.and_eq_true, beq_iff_eq, equalEntries_iff]
  exact and_congr_left' (Table.forall_rel_get?_iff h h').symm

/-- Fallbacks are equal when both or neither are the name, and the values in them are equal. -/
theorem equalFallbacks_iff : equalFallbacks fallback fallback' = true ↔
    (fallback matches some .key) = (fallback' matches some .key) ∧
      Agree (fallback.bind Fallback.held?) (fallback'.bind Fallback.held?) := by
  rcases fallback with _ | _ | held <;> rcases fallback' with _ | _ | held' <;>
    simp [equalFallbacks, Fallback.held?]

/-! ### Equality by parts -/

/-- Only floating-point numbers may be equal without being the same, or differ from themselves. -/
theorem equal_scalar_iff {single single' : Scalar} (h : ∀ number, single ≠ .float number) :
    single.equal single' = true ↔ single = single' := by
  cases single with
  | float number => exact absurd rfl (h number)
  | string _ | int _ | bool _ | object _ => simp [Scalar.equal]

/-- Values without floating-point numbers are equal exactly when they have the same outline and
equal values in the same places. -/
theorem Exact.equal_iff {x y : Value} (hx : x.Exact) (hy : y.Exact) : x.equal y = true ↔
    x.outline = y.outline ∧ ∀ place, Agree (x.part? place) (y.part? place) := by
  rw [forall_place_iff]
  cases hx with
  | absent => cases hy <;> simp [equal, outline, part?]
  | scalar hsingle => cases hy <;> simp [equal, outline, part?, equal_scalar_iff hsingle]
  | list => cases hy <;> simp [equal, outline, part?, equalLists_iff]
  | mapping hkeys =>
    cases hy with
    | mapping hkeys' =>
      rw [equal_mapping_iff hkeys hkeys', equalFallbacks_iff]
      simp [outline, part?, and_left_comm]
    | _ => simp [equal, outline, part?]
  | template => cases hy <;> simp [equal, outline, part?]
  | iterator => cases hy <;> simp [equal, outline, part?]

/-! ### The values in a value -/

section

variable {place : Place} {part : Value}

/-- What is in a list in some place is an element of it. -/
theorem mem_of_part?_list {items : List Value} (h : (list items).part? place = some part) :
    part ∈ items := by
  cases place with
  | item index => exact List.mem_of_getElem? h
  | entry _ | fallback => cases h

/-- What is in a mapping in some place is the value of an entry or of the fallback. -/
theorem mem_of_part?_mapping (h : (mapping ⟨entries, fallback⟩).part? place = some part) :
    (∃ entry ∈ entries.entries, entry.2 = part) ∨ fallback = some (.value part) := by
  cases place with
  | item _ => cases h
  | entry name => exact Or.inl ⟨_, Table.mem_of_get? h, rfl⟩
  | fallback =>
    rcases fallback with _ | _ | held
    · cases h
    · cases h
    · cases h
      exact Or.inr rfl

/-- The values in a value without floating-point numbers are such values. -/
theorem Exact.of_part? {x : Value} (hx : x.Exact) (h : x.part? place = some part) :
    part.Exact := by
  cases hx with
  | list hitems => exact hitems _ (mem_of_part?_list h)
  | mapping _ hentries hfallback =>
    rcases mem_of_part?_mapping h with ⟨entry, hentry, rfl⟩ | hheld
    · exact hentries entry hentry
    · exact hfallback _ hheld
  | absent | scalar _ | template _ | iterator _ => cases h

end

/-- What is shown of a value without floating-point numbers may be assumed of the values in it. -/
@[elab_as_elim]
theorem Exact.induction {motive : ∀ x : Value, x.Exact → Prop}
    (step : ∀ (x : Value) (hx : x.Exact),
      (∀ place part (hpart : x.part? place = some part), motive part (hx.of_part? hpart)) →
        motive x hx)
    {x : Value} (hx : x.Exact) : motive x hx := by
  induction hx with
  | absent => exact step _ .absent nofun
  | scalar h => exact step _ (.scalar h) nofun
  | list h ih => exact step _ (.list h) fun place part hpart => ih _ (mem_of_part?_list hpart)
  | mapping hkeys hentries hfallback ihentries ihfallback =>
    refine step _ (.mapping hkeys hentries hfallback) fun place part hpart => ?_
    rcases mem_of_part?_mapping hpart with ⟨entry, hentry, rfl⟩ | hheld
    · exact ihentries entry hentry
    · exact ihfallback _ hheld
  | template id => exact step _ (.template id) nofun
  | iterator cursor => exact step _ (.iterator cursor) nofun

/-! ### An equivalence -/

variable {x y z : Value}

/-- A value without floating-point numbers is equal to itself. -/
theorem Exact.equal_refl (hx : x.Exact) : x.equal x = true := by
  induction hx using Exact.induction with
  | step x hx ih => exact (hx.equal_iff hx).mpr ⟨rfl, fun place => agree_self (ih place)⟩

/-- Of two equal values without floating-point numbers either is equal to the other one. -/
theorem Exact.equal_symm (hx : x.Exact) (hy : y.Exact) (h : x.equal y = true) :
    y.equal x = true := by
  induction hx using Exact.induction generalizing y with
  | step x hx ih =>
    obtain ⟨houtline, hparts⟩ := (hx.equal_iff hy).mp h
    refine (hy.equal_iff hx).mpr ⟨houtline.symm, fun place => (hparts place).symm ?_⟩
    exact fun part part' hpart hpart' => ih place part hpart (hy.of_part? hpart')

/-- Values without floating-point numbers that are equal to a third one are equal. -/
theorem Exact.equal_trans (hx : x.Exact) (hy : y.Exact) (hz : z.Exact) (h : x.equal y = true)
    (h' : y.equal z = true) : x.equal z = true := by
  induction hx using Exact.induction generalizing y z with
  | step x hx ih =>
    obtain ⟨houtline, hparts⟩ := (hx.equal_iff hy).mp h
    obtain ⟨houtline', hparts'⟩ := (hy.equal_iff hz).mp h'
    refine (hx.equal_iff hz).mpr
      ⟨houtline.trans houtline', fun place => (hparts place).trans (hparts' place) ?_⟩
    exact fun first second third hfirst hsecond hthird =>
      ih place first hfirst (hy.of_part? hsecond) (hz.of_part? hthird)

/-! ### Mappings that are filled by insertions -/

section

variable {pairs pairs' : List (String × Value)}

/-- A mapping that is filled with values without floating-point numbers is such a value. -/
theorem exact_insertAll (hpairs : ∀ pair ∈ pairs, pair.2.Exact)
    (hfallback : ∀ held, fallback = some (.value held) → held.Exact) :
    (mapping (Mapping.insertAll { fallback } pairs)).Exact := by
  have hnodup := Mapping.nodup_keys_insertAll fallback pairs
  rw [Mapping.insertAll_eq] at hnodup ⊢
  refine .mapping hnodup (fun entry hentry => ?_) hfallback
  rcases Table.mem_insertAll hentry with hempty | ⟨pair, hpair, hvalue⟩
  · cases hempty
  · exact hvalue ▸ hpairs pair hpair

/-- A fallback without floating-point numbers is equal to itself. -/
theorem equalFallbacks_self (h : ∀ held, fallback = some (.value held) → held.Exact) :
    equalFallbacks fallback fallback = true := by
  rcases fallback with _ | _ | held
  · rw [equalFallbacks]
  · rw [equalFallbacks]
  · rw [equalFallbacks]
    exact (h held rfl).equal_refl

/-- Mappings with the same fallback are equal exactly when pairs with the same names and equal
values were inserted into them. -/
theorem equal_insertAll_iff (h : (pairs.map Prod.fst).Nodup) (h' : (pairs'.map Prod.fst).Nodup)
    (hfallback : ∀ held, fallback = some (.value held) → held.Exact) :
    (mapping (Mapping.insertAll { fallback } pairs)).equal
        (.mapping (Mapping.insertAll { fallback } pairs')) = true ↔
      ∀ name, Agree (pairs.lookup name) (pairs'.lookup name) := by
  have hentries := Table.entries_insertAll_eq_iff.mpr h
  have hentries' := Table.entries_insertAll_eq_iff.mpr h'
  have hnodup : (Table.insertAll {} pairs).keys.Nodup := by rwa [Table.keys, hentries]
  have hnodup' : (Table.insertAll {} pairs').keys.Nodup := by rwa [Table.keys, hentries']
  rw [Mapping.insertAll_eq, Mapping.insertAll_eq, equal_mapping_iff hnodup hnodup',
    and_iff_left (equalFallbacks_self hfallback)]
  simp only [Table.get?, hentries, hentries']

/-- The order in which pairs are inserted does not matter. -/
theorem equal_insertAll_of_perm (hperm : pairs.Perm pairs') (h : (pairs.map Prod.fst).Nodup)
    (hpairs : ∀ pair ∈ pairs, pair.2.Exact)
    (hfallback : ∀ held, fallback = some (.value held) → held.Exact) :
    (mapping (Mapping.insertAll { fallback } pairs)).equal
      (.mapping (Mapping.insertAll { fallback } pairs')) = true := by
  have h' : (pairs'.map Prod.fst).Nodup := (hperm.map Prod.fst).nodup_iff.mp h
  refine (equal_insertAll_iff h h' hfallback).mpr fun name => ?_
  let table : Table Value := { entries := pairs }
  have hlookup : pairs.lookup name = pairs'.lookup name :=
    table.get?_eq_of_perm h hperm name
  rw [← hlookup]
  exact agree_self fun x hx => (hpairs (name, x) (table.mem_of_get? hx)).equal_refl

end

/-- The laws of equality, for values without floating-point numbers and for mappings that pairs with
different names were inserted into. -/
structure EqualityLaws : Prop where
  equivalence : Equivalence fun x y : { value : Value // value.Exact } => x.1.equal y.1 = true
  /-- A mapping is such a value if such values are inserted into it. -/
  insertions : ∀ (fallback : Option (Fallback Value)) (pairs : List (String × Value)),
    (∀ held, fallback = some (.value held) → held.Exact) → (∀ pair ∈ pairs, pair.2.Exact) →
      (mapping (Mapping.insertAll { fallback } pairs)).Exact
  /-- With the same fallback, mappings are equal exactly when they have equal values under the same
  names. -/
  mappings : ∀ (fallback : Option (Fallback Value)) (pairs pairs' : List (String × Value)),
    (∀ held, fallback = some (.value held) → held.Exact) →
      (pairs.map Prod.fst).Nodup → (pairs'.map Prod.fst).Nodup →
        ((mapping (Mapping.insertAll { fallback } pairs)).equal
            (.mapping (Mapping.insertAll { fallback } pairs')) = true ↔
          ∀ name, Agree (pairs.lookup name) (pairs'.lookup name))
  /-- It does not matter in which order the pairs are inserted. -/
  order : ∀ (fallback : Option (Fallback Value)) (pairs pairs' : List (String × Value)),
    (∀ held, fallback = some (.value held) → held.Exact) → (∀ pair ∈ pairs, pair.2.Exact) →
      (pairs.map Prod.fst).Nodup → pairs.Perm pairs' →
        (mapping (Mapping.insertAll { fallback } pairs)).equal
          (.mapping (Mapping.insertAll { fallback } pairs')) = true

/-- Equality obeys its laws. Lists, mappings and fallbacks are compared by the values in them; that
each name of one mapping is one of the other, too, follows by counting the names. -/
theorem equalityLaws : EqualityLaws where
  equivalence :=
    { refl := fun x => x.2.equal_refl
      symm := fun {x y} h => x.2.equal_symm y.2 h
      trans := fun {x y z} h h' => x.2.equal_trans y.2 z.2 h h' }
  insertions _ _ hfallback hpairs := exact_insertAll hpairs hfallback
  mappings _ _ _ hfallback h h' := equal_insertAll_iff h h' hfallback
  order _ _ _ hfallback hpairs h hperm := equal_insertAll_of_perm hperm h hpairs hfallback

/-- Two entries in either order, and one of them left out. -/
example :
    let a : String × Value := ("a", .list [.count 1, .absent])
    let b : String × Value := ("b", .mapping { fallback := some .key })
    let fallback : Option (Fallback Value) := some (.value (.string "c"))
    (mapping (Mapping.insertAll { fallback } [a, b])).equal
        (.mapping (Mapping.insertAll { fallback } [b, a])) = true ∧
      (mapping (Mapping.insertAll { fallback } [a, b])).equal
        (.mapping (Mapping.insertAll { fallback } [a])) = false := by
  cbv

end Value

end Stencil
