import Stencil.Proofs.Render.Elements
import Stencil.Proofs.Render.Levels

/-!
# Collections inside collections

A collection among the elements of another one is written as if its elements stood in its place, if
there is one that is written. So nested lists and mappings are written like the list of their
leaves. An iterator is no leaf: what it has is known when it is reached, because until then other
elements may take items from it.
-/

namespace Stencil

open Render

mutual

/-- What stands inside a value at any depth. Iterators are left alone. -/
def Value.leaves (null : Option String) : Value → List Value
  | .absent => (null.map Value.string).toList
  | .list items => leavesOf null items
  | .mapping entries => entries.keyValues
  | .scalar scalar => [.scalar scalar]
  | .template id => [.template id]
  | .iterator cursor => [.iterator cursor]

/-- What stands inside the values of a list. -/
def leavesOf (null : Option String) : List Value → List Value
  | [] => []
  | item :: rest => item.leaves null ++ leavesOf null rest

end

/-- Every list and every mapping inside a value has an element that is written. -/
inductive Value.Filled (null : Option String) : Value → Prop
  | list {items : List Value} (hsurvivors : survivors null items ≠ [])
    (hitems : ∀ item ∈ items, Filled null item) : Filled null (.list items)
  | mapping {entries : Mapping Value} (hkeys : entries.keyValues ≠ []) :
    Filled null (.mapping entries)
  | absent : Filled null .absent
  | scalar (scalar : Scalar) : Filled null (.scalar scalar)
  | template (id : InstanceId) : Filled null (.template id)
  | iterator (cursor : CursorId) : Filled null (.iterator cursor)

namespace Render

variable {setting : Setting}

/-- Two parts with a sum of counts follow two families if each of them does. -/
theorem Below.andThen {first second : Render Nat} {a b : Nat → Render Nat}
    (h : Below setting first a) (hsecond : Below setting second b) :
    Below setting (andThen first second) fun fuel => Render.andThen (a fuel) (b fuel) :=
  h.bind fun _ => hsecond.bind fun _ => .const _

/-- Families with a sum of counts lead to each other if their parts do. -/
theorem Same.andThen {a b c d : Nat → Render Nat} (h : Same setting a b)
    (hsecond : Same setting c d) :
    Same setting (fun fuel => Render.andThen (a fuel) (c fuel))
      fun fuel => Render.andThen (b fuel) (d fuel) :=
  h.bind fun _ => hsecond.bind fun _ => .const _

end Render

namespace Evaluator

/-- Writes values with separators between them. A collection is opened when it is reached, and the
elements of it that are written take its place, if there are any. -/
def writeLeaves (scope : Scope) (options : WriteOptions) : Nat → List Value → Render Nat
  | 0, _ => throw .outOfFuel
  | _ + 1, [] => return 0
  | fuel + 1, item :: rest => do
    match ← onStore item.elements? with
    | none =>
      andThen ((upTo fuel).value scope options item)
        (further options (writeLeaves scope options fuel) rest)
    | some items =>
      match survivors options.null items with
      | [] => further options (writeLeaves scope options fuel) rest
      | first :: more => writeLeaves scope options fuel (first :: (more ++ rest))

variable {setting : Setting} {scope : Scope} {options : WriteOptions}

/-! ### Values that are joined -/

/-- What comes after an element is the same if the other elements are written alike. -/
theorem same_further {a b : Nat → List Value → Render Nat} {items : List Value}
    (h : Same setting (fun fuel => a fuel items) fun fuel => b fuel items) :
    Same setting (fun fuel => further options (a fuel) items)
      fun fuel => further options (b fuel) items := by
  cases items with
  | nil => exact .const (pure 0)
  | cons item rest => exact (Same.const _).andThen h

/-- A value comes to what it comes to. -/
theorem same_value (value : Value) :
    Same setting (fun fuel => (upTo fuel).value scope options value)
      fun fuel => (upTo fuel).value scope options value :=
  ⟨leads_value setting scope options value, leads_value setting scope options value⟩

/-- So do several values. -/
theorem same_joined (items : List Value) :
    Same setting (fun fuel => (upTo fuel).joined scope options items)
      fun fuel => (upTo fuel).joined scope options items := by
  induction items with
  | nil => exact .const (pure 0)
  | cons item rest ih =>
    simp only [joined_cons]
    exact (same_value item).andThen (same_further ih)

/-- Parts that are written alike are written alike one after the other. -/
theorem same_joined_append {items other more later : List Value} (hitems : items ≠ [])
    (hother : other ≠ []) (hempty : more = [] ↔ later = [])
    (hfirst : Same setting (fun fuel => (upTo fuel).joined scope options items)
      fun fuel => (upTo fuel).joined scope options other)
    (hrest : Same setting (fun fuel => (upTo fuel).joined scope options more)
      fun fuel => (upTo fuel).joined scope options later) :
    Same setting (fun fuel => (upTo fuel).joined scope options (items ++ more))
      fun fuel => (upTo fuel).joined scope options (other ++ later) := by
  simp only [joined_append _ _ _ hitems, joined_append _ _ _ hother]
  refine hfirst.andThen ?_
  rcases more with - | ⟨item, more⟩
  · rw [hempty.mp rfl]
    exact .const (pure 0)
  · rcases later with - | ⟨next, later⟩
    · cases hempty.mpr rfl
    · exact (Same.const _).andThen hrest

/-- A collection is written like its elements. -/
theorem same_open {value : Value} {action : StateM Store (List Value)}
    (h : ∀ (below : Evaluator) scope options, below.writeValue scope options value =
      onStore action >>= fun items => below.joined scope options (survivors options.null items)) :
    Same setting (fun fuel => (upTo fuel).value scope options value)
      fun fuel => onStore action >>= fun items =>
        (upTo fuel).joined scope options (survivors options.null items) :=
  .step ((Same.const _).bind fun _ => same_joined _) rfl fun fuel => h (upTo fuel) scope options

/-- A list is written like the elements of it that are written. -/
theorem same_list (items : List Value) :
    Same setting (fun fuel => (upTo fuel).value scope options (.list items))
      fun fuel => (upTo fuel).joined scope options (survivors options.null items) :=
  .step (same_joined _) rfl fun _ => writeElements_eq _ scope options items

/-! ### Nested lists and mappings -/

/-- No name of a mapping is left out. -/
theorem survivors_keyValues (null : Option String) (entries : Mapping Value) :
    survivors null entries.keyValues = entries.keyValues := by
  rw [survivors, Mapping.keyValues, List.filterMap_map]
  exact congrFun (List.filterMap_eq_map (f := Value.string)) _

mutual

/-- No leaf is absent. -/
theorem survivors_leaves (null : Option String) : ∀ value : Value,
    survivors null (value.leaves null) = value.leaves null
  | .absent => by
    rw [Value.leaves]
    cases null <;> rfl
  | .list items => by
    rw [Value.leaves]
    exact survivors_leavesOf null items
  | .mapping entries => by
    rw [Value.leaves]
    exact survivors_keyValues null entries
  | .scalar _ | .template _ | .iterator _ => by
    rw [Value.leaves]
    rfl

/-- No leaf of some values is absent. -/
theorem survivors_leavesOf (null : Option String) : ∀ items : List Value,
    survivors null (leavesOf null items) = leavesOf null items
  | [] => by
    rw [leavesOf]
    rfl
  | item :: rest => by
    rw [leavesOf, survivors_append, survivors_leaves null item, survivors_leavesOf null rest]

end

/-- A value is written like its leaves, and there are some. -/
def Flattens (setting : Setting) (scope : Scope) (options : WriteOptions) (value : Value) : Prop :=
  survives options.null value → value.leaves options.null ≠ [] ∧
    Same setting (fun fuel => (upTo fuel).value scope options (standIn options.null value))
      fun fuel => (upTo fuel).joined scope options (value.leaves options.null)

/-- Elements that are written like their leaves are written like all of these together. -/
theorem same_leavesOf {items : List Value}
    (h : ∀ item ∈ items, Flattens setting scope options item) :
    (survivors options.null items = [] ↔ leavesOf options.null items = []) ∧
      Same setting (fun fuel => (upTo fuel).joined scope options (survivors options.null items))
        fun fuel => (upTo fuel).joined scope options (leavesOf options.null items) := by
  induction items with
  | nil =>
    rw [leavesOf]
    exact ⟨Iff.rfl, same_joined []⟩
  | cons item rest ih =>
    obtain ⟨hempty, hrest⟩ := ih fun other hother => h other (.tail _ hother)
    have hsplit : survivors options.null (item :: rest) =
        survivors options.null [item] ++ survivors options.null rest :=
      survivors_append _ [item] rest
    rw [leavesOf, hsplit]
    by_cases hsurvives : survives options.null item = true
    · have hone : survivors options.null [item] = [standIn options.null item] := by
        rw [survivors_eq, List.filter_cons_of_pos hsurvives]
        rfl
      obtain ⟨hleaves, hsame⟩ := h item (.head _) hsurvives
      rw [hone]
      refine ⟨by simp [hleaves], same_joined_append (List.cons_ne_nil _ _) hleaves hempty ?_ hrest⟩
      simp only [joined_singleton]
      exact hsame
    · -- An element that is left out has no leaves.
      have hone : survivors options.null [item] = [] := by
        rw [survivors_eq, List.filter_cons_of_neg hsurvives]
        rfl
      have hleaves : item.leaves options.null = [] := by
        simp only [survives, Bool.or_eq_true, Bool.not_eq_true', not_or, Bool.not_eq_false,
          Value.isAbsent_iff, Option.isSome_iff_ne_none, ne_eq, not_not] at hsurvives
        rw [hsurvives.1, Value.leaves, hsurvives.2]
        rfl
      rw [hone, hleaves]
      exact ⟨hempty, hrest⟩

/-- What is filled at every depth is written like its leaves. -/
theorem flattens_of_filled {value : Value} (h : value.Filled options.null) :
    Flattens setting scope options value := by
  induction h with
  | list hsurvivors hitems ih =>
    intro _
    obtain ⟨hempty, hsame⟩ := same_leavesOf ih
    rw [Value.leaves]
    exact ⟨mt hempty.mpr hsurvivors, (same_list _).trans hsame⟩
  | @mapping entries hkeys =>
    intro _
    rw [Value.leaves]
    refine ⟨hkeys, .step (same_joined _) rfl fun fuel => ?_⟩
    refine (writeElements_eq (upTo fuel) scope options entries.keyValues).trans ?_
    rw [survivors_keyValues]
  | absent =>
    intro hsurvives
    obtain ⟨null, hnull⟩ := Option.isSome_iff_exists.mp hsurvives
    rw [Value.leaves, hnull]
    refine ⟨List.cons_ne_nil _ _, ?_⟩
    simp only [Option.map_some, Option.toList_some, joined_singleton]
    exact same_value _
  | scalar _ | template _ | iterator _ =>
    intro _
    rw [Value.leaves]
    refine ⟨List.cons_ne_nil _ _, ?_⟩
    simp only [joined_singleton]
    exact same_value _

/-- A list in which every list and every mapping has an element that is written is written like the
list of the leaves. -/
theorem same_flattened {items : List Value} (h : ∀ item ∈ items, item.Filled options.null) :
    Same setting (fun fuel => (upTo fuel).value scope options (.list items))
      fun fuel => (upTo fuel).value scope options (.list (leavesOf options.null items)) := by
  have hflattened : Same setting
      (fun fuel => (upTo fuel).joined scope options (survivors options.null items))
      fun fuel => (upTo fuel).joined scope options
        (survivors options.null (leavesOf options.null items)) := by
    rw [survivors_leavesOf]
    exact (same_leavesOf fun item hitem => flattens_of_filled (h item hitem)).2
  exact (same_list items).trans (hflattened.trans (same_list _).symm)

/-! ### Collections that are opened when they are reached -/

/-- A leaf in front is written as it is. -/
theorem writeLeaves_single {item : Value} (h : item.elements? = pure none) (fuel : Nat)
    (rest : List Value) : writeLeaves scope options (fuel + 1) (item :: rest) =
      andThen ((upTo fuel).value scope options item)
        (further options (writeLeaves scope options fuel) rest) := by
  rw [writeLeaves, h]
  rfl

/-- A collection in front is opened, and what is written of it takes its place. -/
theorem writeLeaves_open {item : Value} {action : StateM Store (List Value)}
    (h : item.elements? = some <$> action) (fuel : Nat) (rest : List Value) :
    writeLeaves scope options (fuel + 1) (item :: rest) = onStore action >>= fun items =>
      match survivors options.null items with
      | [] => further options (writeLeaves scope options fuel) rest
      | first :: more => writeLeaves scope options fuel (first :: (more ++ rest)) := by
  rw [writeLeaves, h]
  rfl

/-- If each value is written leaf by leaf, whatever comes after it, so are several of them. -/
theorem below_joined {fuel : Nat}
    (hvalue : ∀ item rest later,
      Below setting later (fun more => further options (writeLeaves scope options more) rest) →
      Below setting (andThen ((upTo fuel).value scope options item) later)
        fun more => writeLeaves scope options more (item :: rest))
    {rest : List Value} {later : Render Nat}
    (hlater : Below setting later fun more => further options (writeLeaves scope options more) rest)
    {items : List Value} (hitems : items ≠ []) :
    Below setting (andThen ((upTo fuel).joined scope options items) later)
      fun more => writeLeaves scope options more (items ++ rest) := by
  induction items with
  | nil => exact absurd rfl hitems
  | cons item others ih =>
    rw [joined_cons, andThen_assoc, List.cons_append]
    apply hvalue
    cases others with
    | nil => exact (zero_andThen later).symm ▸ hlater
    | cons next others =>
      rw [further, andThen_assoc]
      exact (Below.const _).andThen (ih (List.cons_ne_nil _ _))

/-- Writing a value comes to what writing it leaf by leaf comes to, whatever comes after it. -/
theorem below_value (fuel : Nat) (item : Value) (rest : List Value) (later : Render Nat)
    (hlater : Below setting later fun more =>
      further options (writeLeaves scope options more) rest) :
    Below setting (andThen ((upTo fuel).value scope options item) later)
      fun more => writeLeaves scope options more (item :: rest) := by
  induction fuel generalizing item rest later with
  | zero => exact fun run => Or.inl rfl
  | succ fuel ih =>
    rcases opening_cases item with hsingle | ⟨action, hopen, hwrite⟩
    · refine Below.step ?_ fun more => writeLeaves_single hsingle more rest
      exact (leads_value setting scope options item (fuel + 1)).andThen hlater
    · have hvalue : (upTo (fuel + 1)).value scope options item = onStore action >>= fun items =>
          (upTo fuel).joined scope options (survivors options.null items) :=
        hwrite (upTo fuel) scope options
      rw [hvalue, andThen, bind_assoc]
      refine Below.step ?_ fun more => writeLeaves_open hopen more rest
      refine (Below.const _).bind fun items => ?_
      rcases survivors options.null items with - | ⟨first, more⟩
      · change Below setting (andThen (pure 0) later) _
        rw [zero_andThen]
        exact hlater
      · exact below_joined ih hlater (List.cons_ne_nil first more)

/-- What comes after an element follows if the other elements do. -/
theorem below_further {fuel : Nat}
    (h : ∀ items, Below setting (writeLeaves scope options fuel items)
      fun more => (upTo more).joined scope options items) (items : List Value) :
    Below setting (further options (writeLeaves scope options fuel) items)
      fun more => further options ((upTo more).joined scope options) items := by
  cases items with
  | nil => exact .const (pure 0)
  | cons item rest => exact (Below.const _).andThen (h (item :: rest))

/-- Writing values leaf by leaf comes to what writing them one after the other comes to. -/
theorem below_writeLeaves (fuel : Nat) (items : List Value) :
    Below setting (writeLeaves scope options fuel items)
      fun more => (upTo more).joined scope options items := by
  induction fuel generalizing items with
  | zero => exact .exhausted _
  | succ fuel ih =>
    rcases items with - | ⟨item, rest⟩
    · exact .const (pure 0)
    · simp only [joined_cons]
      rcases opening_cases item with hsingle | ⟨action, hopen, hwrite⟩
      · rw [writeLeaves_single hsingle]
        exact (leads_value setting scope options item fuel).andThen (below_further ih rest)
      · rw [writeLeaves_open hopen]
        -- The elements of the value have one level less than what comes after it.
        refine Below.trans ?_ ((same_open hwrite).symm.andThen (same_further (same_joined rest))).1
        simp only [andThen, bind_assoc]
        refine (Below.const _).bind fun items => ?_
        change Below setting _ fun more => andThen
          ((upTo more).joined scope options (survivors options.null items))
          (further options ((upTo more).joined scope options) rest)
        rcases survivors options.null items with - | ⟨first, more⟩
        · have hnone (more : Nat) : (upTo more).joined scope options [] = pure 0 := rfl
          simp only [hnone, zero_andThen]
          exact below_further ih rest
        · have hwhole := ih (first :: (more ++ rest))
          rw [← List.cons_append] at hwhole
          simp only [joined_append _ _ _ (List.cons_ne_nil first more)] at hwhole
          exact hwhole

/-- A value is written like its leaves, if collections are opened when they are reached. -/
theorem same_writeLeaves (value : Value) :
    Same setting (fun fuel => (upTo fuel).value scope options value)
      fun fuel => writeLeaves scope options fuel [value] := by
  constructor
  · intro fuel
    change Below setting ((upTo fuel).value scope options value) _
    rw [← andThen_zero ((upTo fuel).value scope options value)]
    exact below_value fuel value [] (pure 0) (.const _)
  · intro fuel
    simp only [← joined_singleton]
    exact below_writeLeaves fuel [value]

/-- How collections are written. -/
structure WritesSeparated (setting : Setting) : Prop where
  /-- The elements that are not absent, or all of them if there is a null text, are written in their
  order, with the separator between any two of them and nowhere else. An iterator is used up
  first. -/
  separated : ∀ fuel scope options value items run, value.elementsIn run.store = some items →
    (upTo (fuel + 1)).value scope options value setting run =
      inTurn ((((items.filter (survives options.null)).map (standIn options.null)).map
        ((upTo fuel).value scope options)).intersperse (separation options.separator)) setting
          { run with store := (value.elements? run.store).2 }
  /-- If every list and every mapping inside a list has an element that is written, the list is
  written like the list of its leaves. -/
  flattened : ∀ scope options items run outcome, (∀ item ∈ items, item.Filled options.null) →
    (Comes setting (fun fuel => (upTo fuel).value scope options (.list items)) run outcome ↔
      Comes setting (fun fuel =>
        (upTo fuel).value scope options (.list (leavesOf options.null items))) run outcome)
  /-- Any value is written leaf by leaf with the separator between any two of them, iterators inside
  it included, where a collection is opened when it is reached and counts for a leaf if none of its
  elements is written. -/
  opened : ∀ scope options value run outcome,
    Comes setting (fun fuel => (upTo fuel).value scope options value) run outcome ↔
      Comes setting (fun fuel => writeLeaves scope options fuel [value]) run outcome

/-- The elements of a collection are written with separators between them, and the elements of
collections inside it as well. -/
theorem writesSeparated (setting : Setting) : WritesSeparated setting where
  separated fuel scope options value items run h := by
    rw [← survivors_eq]
    exact (upTo fuel).writeValue_of_elements scope options h setting rfl
  flattened _ _ _ _ _ h := (same_flattened h).comes_iff
  opened _ _ value _ _ := (same_writeLeaves value).comes_iff

/-- A list with an absent element, which is left out, and with a list inside it, whose elements take
its place. -/
theorem writesSeparated_nested :
    let setting : Setting := { config := {}, groups := {}, callers := 0 }
    let run : Run := { instances := #[], store := {}, out := {} }
    let scope : Scope := ⟨⟨0⟩, []⟩
    let options : WriteOptions := { separator := some ", " }
    let inner : Value := .list [.string "a", .string "b"]
    let outcome := (upTo 4).value scope options (.list [inner, .absent, .string "c"]) setting run
    outcome = inTurn [(upTo 3).value scope options inner, writing (Writer.write ", "),
        (upTo 3).value scope options (.string "c")] setting run ∧
      (∀ item ∈ [inner, .absent, .string "c"], item.Filled none) ∧
      (Comes setting (fun fuel =>
          (upTo fuel).value scope options (.list [inner, .absent, .string "c"])) run outcome ↔
        Comes setting (fun fuel => (upTo fuel).value scope options
          (.list [.string "a", .string "b", .string "c"])) run outcome) ∧
      outcome.2.out.sink.text = "a, b, c" := by
  intro setting run scope options inner outcome
  have hinner : inner.Filled none := by
    refine .list (List.cons_ne_nil _ _) fun item hitem => ?_
    rcases List.mem_pair.mp hitem with rfl | rfl <;> exact .scalar _
  have hfilled : ∀ item ∈ [inner, .absent, .string "c"], item.Filled none := by
    intro item hitem
    rcases List.mem_cons.mp hitem with rfl | hitem
    · exact hinner
    · rcases List.mem_pair.mp hitem with rfl | rfl
      · exact .absent
      · exact .scalar _
  have hseparated := (writesSeparated setting).separated 3 scope options
    (.list [inner, .absent, .string "c"]) [inner, .absent, .string "c"] run rfl
  exact ⟨hseparated,
    hfilled, (writesSeparated setting).flattened scope options _ run outcome hfilled,
    by decide +kernel⟩

end Evaluator

end Stencil
