import Stencil.Table

/-!
# What insertions do to a table

An insertion touches one entry: the first one under its name, or a new one at the end. A table that
is filled by insertions has each name once, in the place where it first came, with the value that
came last. It holds the pairs that were inserted, in their order, if no two of them have the same
name; else a pair is lost.
-/

namespace Stencil.Table

variable {α : Type} {table : Table α} {name : String} {value : α} {pairs : List (String × α)}
  {index : Nat} {entry : String × α}

/-- The entries under other names. -/
def others (table : Table α) (name : String) : List (String × α) :=
  table.entries.filter fun entry => entry.1 ≠ name

/-- An insertion changes nothing under other names, and not their order. -/
theorem others_insert (table : Table α) (name : String) (value : α) :
    (table.insert name value).others name = table.others name := by
  obtain ⟨entries⟩ := table
  simp only [others, insert]
  induction entries with
  | nil => simp [insertEntry]
  | cons entry rest ih =>
    obtain ⟨other, old⟩ := entry
    by_cases hother : other = name
    · simp [insertEntry, hother]
    · simp only [insertEntry, if_neg hother, List.filter_cons, ih]

/-- A name that is new to a table comes last. -/
theorem entries_insert_of_not_mem (h : name ∉ table.keys) (value : α) :
    (table.insert name value).entries = table.entries ++ [(name, value)] := by
  obtain ⟨entries⟩ := table
  simp only [insert, keys] at h ⊢
  induction entries with
  | nil => rfl
  | cons entry rest ih =>
    obtain ⟨hne, hrest⟩ := List.ne_and_not_mem_of_not_mem_cons h
    rw [insertEntry, if_neg (Ne.symm hne), ih hrest]
    rfl

/-- To insert an entry repeats no name. -/
theorem nodup_keys_insert (h : table.keys.Nodup) (name : String) (value : α) :
    (table.insert name value).keys.Nodup := by
  rw [keys_insert]
  split
  · exact h
  · next hname =>
    refine List.nodup_append.mpr ⟨h, List.pairwise_singleton _ name, fun other hother _ hlast => ?_⟩
    rw [List.mem_singleton.mp hlast]
    exact fun heq => hname (heq ▸ hother)

/-- Neither do several insertions. -/
theorem nodup_keys_insertAll (h : table.keys.Nodup) (pairs : List (String × α)) :
    (table.insertAll pairs).keys.Nodup := by
  induction pairs generalizing table with
  | nil => exact h
  | cons pair rest ih => exact ih (nodup_keys_insert h pair.1 pair.2)

/-- Pairs with new and different names are put behind what a table has. -/
theorem entries_insertAll (h : (table.keys ++ pairs.map Prod.fst).Nodup) :
    (table.insertAll pairs).entries = table.entries ++ pairs := by
  induction pairs generalizing table with
  | nil => exact (List.append_nil _).symm
  | cons pair rest ih =>
    have hnew : pair.1 ∉ table.keys := fun hmem =>
      (List.nodup_append.mp h).2.2 _ hmem _ List.mem_cons_self rfl
    have hentries := entries_insert_of_not_mem hnew pair.2
    have hkeys : (table.insert pair.1 pair.2).keys = table.keys ++ [pair.1] := by
      rw [keys_insert, if_neg hnew]
    have hrest : ((table.insert pair.1 pair.2).keys ++ rest.map Prod.fst).Nodup := by
      rwa [hkeys, List.append_assoc]
    exact (ih hrest).trans (by rw [hentries, List.append_assoc]; rfl)

/-- A table that is filled with pairs holds all of them exactly if their names are different. -/
theorem entries_insertAll_eq_iff :
    (insertAll {} pairs).entries = pairs ↔ (pairs.map Prod.fst).Nodup := by
  have hempty : ({} : Table α).keys.Nodup := List.nodup_nil
  constructor
  · intro h
    have hnodup := nodup_keys_insertAll hempty pairs
    rwa [keys, h] at hnodup
  · intro h
    have hnodup : (({} : Table α).keys ++ pairs.map Prod.fst).Nodup := h
    exact entries_insertAll hnodup

/-- If no name comes twice, each entry can be looked up. -/
theorem get?_of_mem (h : table.keys.Nodup) (hentry : (name, value) ∈ table.entries) :
    table.get? name = some value := by
  obtain ⟨before, after, hsplit⟩ := List.append_of_mem hentry
  refine List.lookup_eq_some_iff.mpr ⟨before, after, hsplit, fun earlier hearlier => ?_⟩
  rw [keys, hsplit, List.map_append, List.nodup_append] at h
  have hne := h.2.2 _ (List.mem_map_of_mem hearlier) _ List.mem_cons_self
  exact bne_iff_ne.mpr (Ne.symm hne)

/-! ### The last value and the first place -/

/-- The last value that is inserted under a name takes the place of all others. -/
theorem get?_insertAll (table : Table α) (pairs : List (String × α)) (name : String) :
    (table.insertAll pairs).get? name = (pairs.reverse.lookup name).or (table.get? name) := by
  induction pairs generalizing table with
  | nil => rfl
  | cons pair rest ih =>
    obtain ⟨other, value⟩ := pair
    have hstep : (table.insertAll ((other, value) :: rest)).get? name =
        ((table.insert other value).insertAll rest).get? name := rfl
    rw [hstep, ih, List.reverse_cons, List.lookup_append, Option.or_assoc]
    congr 1
    by_cases hname : name = other
    · rw [hname, get?_insert_self, List.lookup_cons_self, Option.some_or]
    · have hne : (name == other) = false := beq_false_of_ne hname
      rw [get?_insert_of_ne table value hname, List.lookup_cons, hne]
      rfl

/-- From the end a name is found in its last pair. -/
theorem lookup_reverse_eq_some_iff : pairs.reverse.lookup name = some value ↔
    ∃ earlier later, pairs = earlier ++ (name, value) :: later ∧ name ∉ later.map Prod.fst := by
  rw [List.lookup_eq_some_iff]
  constructor
  · rintro ⟨later, earlier, hsplit, hlater⟩
    refine ⟨earlier.reverse, later.reverse, ?_, ?_⟩
    · rw [← List.reverse_reverse pairs, hsplit]
      simp
    · simp only [List.mem_map, List.mem_reverse]
      rintro ⟨pair, hpair, rfl⟩
      exact bne_iff_ne.mp (hlater pair hpair) rfl
  · rintro ⟨earlier, later, rfl, hlater⟩
    refine ⟨later.reverse, earlier.reverse, by simp, fun pair hpair => bne_iff_ne.mpr ?_⟩
    rintro rfl
    exact hlater (List.mem_map_of_mem (List.mem_reverse.mp hpair))

/-- The names that are new to a table come behind those that it has, in the order in which they
first come. -/
theorem keys_insertAll (table : Table α) (pairs : List (String × α)) :
    (table.insertAll pairs).keys =
      table.keys ++ ((pairs.map Prod.fst).removeAll table.keys).eraseDups := by
  induction pairs generalizing table with
  | nil => exact (List.append_nil _).symm
  | cons pair rest ih =>
    have hstep : (table.insertAll (pair :: rest)).keys =
        ((table.insert pair.1 pair.2).insertAll rest).keys := rfl
    rw [hstep, ih, keys_insert, List.map_cons]
    by_cases hold : pair.1 ∈ table.keys
    · rw [if_pos hold]
      simp [List.removeAll, hold]
    · have hnew : (pair.1 :: rest.map Prod.fst).removeAll table.keys =
          pair.1 :: (rest.map Prod.fst).removeAll table.keys := by
        simp [List.removeAll, hold]
      have hrest : (rest.map Prod.fst).removeAll (table.keys ++ [pair.1]) =
          ((rest.map Prod.fst).removeAll table.keys).filter fun name => !name == pair.1 := by
        rw [List.removeAll, List.removeAll, List.filter_filter]
        refine List.filter_congr fun name _ => ?_
        by_cases hname : name = pair.1 <;> simp [hname]
      rw [if_neg hold, hnew, hrest, List.eraseDups_cons, List.append_assoc]
      rfl

/-- If no name comes twice, the entries are the names, each with what is found under it. -/
theorem getElem?_entries_eq_some_iff (h : table.keys.Nodup) : table.entries[index]? = some entry ↔
    table.keys[index]? = some entry.1 ∧ table.get? entry.1 = some entry.2 := by
  rw [keys, List.getElem?_map]
  constructor
  · intro hentry
    exact ⟨by rw [hentry]; rfl, get?_of_mem h (List.mem_of_getElem? hentry)⟩
  · rintro ⟨hname, hvalue⟩
    obtain ⟨other, hother, hsame⟩ := Option.map_eq_some_iff.mp hname
    have hget := get?_of_mem h (List.mem_of_getElem? hother)
    rw [hsame, hvalue] at hget
    rw [hother, Prod.ext hsame (Option.some.inj hget).symm]

/-- In the place of a name stands what is found under it. -/
theorem getElem?_values (h : table.keys.Nodup) (index : Nat) :
    table.values[index]? = (table.keys[index]?).bind table.get? := by
  rw [values, keys, List.getElem?_map, List.getElem?_map]
  cases hentry : table.entries[index]? with
  | none => rfl
  | some entry => exact (get?_of_mem h (List.mem_of_getElem? hentry)).symm

end Stencil.Table
