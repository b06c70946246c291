/-!
# Ordered tables

A table maps names to values and remembers the order in which the names first came. Attributes of
an instance, entries of a mapping and templates of a group are kept this way.
-/

namespace Stencil

/-- Values under names, in the order in which the names were first inserted. -/
structure Table (α : Type) where
  /-- The names with their values. -/
  entries : List (String × α) := []

namespace Table

variable {α : Type}

/-- The entries with `value` under `name`: in the place of the old value, or at the end. -/
def insertEntry (name : String) (value : α) : List (String × α) → List (String × α)
  | [] => [(name, value)]
  | (other, old) :: rest =>
    if other = name then (other, value) :: rest
    else (other, old) :: insertEntry name value rest

/-- Puts `value` under `name`. A name that is already there keeps its place. -/
def insert (table : Table α) (name : String) (value : α) : Table α :=
  ⟨insertEntry name value table.entries⟩

/-- Inserts the pairs of a list, first to last. -/
def insertAll (table : Table α) (pairs : List (String × α)) : Table α :=
  pairs.foldl (fun table (name, value) => table.insert name value) table

/-- The value under `name`. -/
def get? (table : Table α) (name : String) : Option α := table.entries.lookup name

/-- Whether there is a value under `name`. -/
def contains (table : Table α) (name : String) : Bool := (table.get? name).isSome

/-- Takes `name` and its value away; the others keep their order. -/
def erase (table : Table α) (name : String) : Table α :=
  ⟨table.entries.eraseP fun (other, _) => other = name⟩

/-- The names, in order. -/
def keys (table : Table α) : List String := table.entries.map Prod.fst

/-- The values, in the order of their names. -/
def values (table : Table α) : List α := table.entries.map Prod.snd

/-- How many names there are. -/
def size (table : Table α) : Nat := table.entries.length

/-- Whether there are no names. -/
def isEmpty (table : Table α) : Bool := table.entries.isEmpty

/-- An insertion is found under its name. -/
@[simp] theorem get?_insert_self (table : Table α) (name : String) (value : α) :
    (table.insert name value).get? name = some value := by
  obtain ⟨entries⟩ := table
  simp only [insert, get?]
  induction entries with
  | nil => simp [insertEntry]
  | cons entry rest ih =>
    obtain ⟨other, old⟩ := entry
    by_cases h : other = name
    · simp [insertEntry, h]
    · have h' : (name == other) = false := by simpa using Ne.symm h
      simp [insertEntry, h, List.lookup_cons, h', ih]

/-- An insertion does not change what is found under other names. -/
theorem get?_insert_of_ne (table : Table α) {name other : String} (value : α)
    (h : other ≠ name) : (table.insert name value).get? other = table.get? other := by
  obtain ⟨entries⟩ := table
  have hne : (other == name) = false := by simpa using h
  simp only [insert, get?]
  induction entries with
  | nil => simp [insertEntry, List.lookup_cons, hne]
  | cons entry rest ih =>
    obtain ⟨first, old⟩ := entry
    by_cases he : first = name
    · simp [insertEntry, he, List.lookup_cons, hne]
    · simp [insertEntry, he, List.lookup_cons, ih]

/-- Erasing a name does not change what is found under others. -/
theorem get?_erase_of_ne (table : Table α) {name other : String} (h : other ≠ name) :
    (table.erase name).get? other = table.get? other := by
  obtain ⟨entries⟩ := table
  have hne : (other == name) = false := by simpa using h
  simp only [erase, get?]
  induction entries with
  | nil => rfl
  | cons entry rest ih =>
    obtain ⟨first, old⟩ := entry
    by_cases he : first = name
    · simp [he, List.lookup_cons, hne]
    · simp [he, List.lookup_cons, ih]

/-- An inserted name keeps its place, or it comes last if it is new. -/
theorem map_fst_insertEntry (name : String) (value : α) (entries : List (String × α)) :
    (insertEntry name value entries).map Prod.fst =
      if name ∈ entries.map Prod.fst then entries.map Prod.fst
      else entries.map Prod.fst ++ [name] := by
  induction entries with
  | nil => simp [insertEntry]
  | cons entry rest ih =>
    obtain ⟨other, old⟩ := entry
    by_cases h : other = name
    · simp [insertEntry, h]
    · have hne : name ≠ other := Ne.symm h
      simp only [insertEntry, h, if_false, List.map_cons, List.mem_cons, hne, false_or, ih]
      split <;> simp

/-- Inserting keeps the order of the names and puts a new one at the end. -/
theorem keys_insert (table : Table α) (name : String) (value : α) :
    (table.insert name value).keys =
      if name ∈ table.keys then table.keys else table.keys ++ [name] :=
  map_fst_insertEntry name value table.entries

/-- What is found under a name is one of the entries. -/
theorem mem_of_get? {table : Table α} {name : String} {value : α}
    (h : table.get? name = some value) : (name, value) ∈ table.entries := by
  obtain ⟨before, after, hsplit, _⟩ := List.lookup_eq_some_iff.mp h
  exact hsplit ▸ List.mem_append_right _ List.mem_cons_self

/-- Something is found under each of the names. -/
theorem isSome_get?_of_mem_keys {table : Table α} {name : String} (h : name ∈ table.keys) :
    (table.get? name).isSome := by
  obtain ⟨⟨_, value⟩, hentry, rfl⟩ := List.mem_map.mp h
  rw [Option.isSome_iff_ne_none]
  exact fun hnone => by simpa using List.lookup_eq_none_iff.mp hnone _ hentry

/-- A value of a table after an insertion was there before or was just inserted. -/
theorem mem_insert {table : Table α} {name : String} {value : α} {entry : String × α}
    (h : entry ∈ (table.insert name value).entries) :
    entry ∈ table.entries ∨ entry.2 = value := by
  obtain ⟨entries⟩ := table
  simp only [insert] at h
  induction entries with
  | nil =>
    right
    simp only [insertEntry, List.mem_singleton] at h
    rw [h]
  | cons first rest ih =>
    obtain ⟨other, old⟩ := first
    by_cases hname : other = name
    · simp only [insertEntry, hname, if_true, List.mem_cons] at h
      rcases h with h | h
      · exact Or.inr (by rw [h])
      · exact Or.inl (List.mem_cons_of_mem _ h)
    · simp only [insertEntry, hname, if_false, List.mem_cons] at h
      rcases h with h | h
      · exact Or.inl (h ▸ List.mem_cons_self)
      · exact (ih h).imp_left (List.mem_cons_of_mem _)

/-- A value of a table after several insertions was there before or was inserted. -/
theorem mem_insertAll {table : Table α} {pairs : List (String × α)} {entry : String × α}
    (h : entry ∈ (table.insertAll pairs).entries) :
    entry ∈ table.entries ∨ ∃ pair ∈ pairs, entry.2 = pair.2 := by
  induction pairs generalizing table with
  | nil => exact Or.inl h
  | cons pair rest ih =>
    rcases ih h with hold | ⟨other, hother, hvalue⟩
    · exact (mem_insert hold).imp_right fun hvalue => ⟨pair, List.mem_cons_self, hvalue⟩
    · exact Or.inr ⟨other, List.mem_cons_of_mem _ hother, hvalue⟩

end Table

end Stencil
