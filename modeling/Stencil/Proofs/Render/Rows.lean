import Stencil.Proofs.Render.Turns
import Stencil.Proofs.Value.Contributions

/-!
# Drivers that are walked in step

An application to several drivers makes a row of what stands at one place in each of them. It goes
on as long as the longest driver does. A formal argument whose driver has an element in a row is
that element there. One whose driver has run out cannot be read, unless the application is evaluated
for a chunk that has a null option: then it falls back on its default.
-/

namespace Stencil

open Render

/-! ### The elements of several drivers -/

namespace Value

/-- The elements that a driver has when those before it have been walked over: of a collection its
elements, of a single value the value, and none of an absent one. An iterator that was walked over
before has none left. -/
def elementsAfter (store : Store) (earlier : List Value) : Value → List Value
  | .absent => []
  | .list items => items
  | .mapping entries => entries.keyValues
  | .iterator cursor =>
    if earlier.any fun value => value.walks cursor then [] else store.remaining cursor
  | .scalar single => [.scalar single]
  | .template single => [.template single]

/-- The elements of several drivers that are walked over one after the other. -/
def elementsOf (store : Store) (drivers : List Value) : List (List Value) :=
  drivers.mapIdx fun position driver => driver.elementsAfter store (drivers.take position)

/-- There is one list of elements for each driver. -/
@[simp] theorem length_elementsOf (store : Store) (drivers : List Value) :
    (elementsOf store drivers).length = drivers.length := List.length_mapIdx

/-- Walking over a driver uses it up if it is an iterator, and has no influence on others. -/
theorem elementsAfter_elements? (driver : Value) (store : Store) (earlier : List Value)
    (other : Value) : other.elementsAfter (driver.elements? store).2 earlier =
      other.elementsAfter store (driver :: earlier) := by
  have hstore : (driver.elements? store).2 = store.absorb driver := by cases driver <;> rfl
  cases other with
  | absent | scalar _ | list _ | mapping _ | template _ => rfl
  | iterator cursor =>
    simp only [elementsAfter, List.any_cons, hstore, Store.remaining_absorb]
    by_cases hwalks : driver.walks cursor <;> simp [hwalks]

/-- A driver is opened in the store that the drivers in front of it left. -/
theorem column_apply (driver : Value) (store : Store) :
    (Evaluator.column driver store).1 = driver.elementsAfter store [] ∧
      (Evaluator.column driver store).2 = (driver.elements? store).2 := by
  cases driver <;> exact ⟨rfl, rfl⟩

/-- Drivers are opened one after the other. -/
theorem columns_apply (drivers : List Value) (store : Store) :
    (Evaluator.columns drivers store).1 = elementsOf store drivers := by
  induction drivers generalizing store with
  | nil => rfl
  | cons driver rest ih =>
    obtain ⟨hcolumn, hstore⟩ := column_apply driver store
    have hstep : (Evaluator.columns (driver :: rest) store).1 =
        (Evaluator.column driver store).1 ::
          (Evaluator.columns rest (Evaluator.column driver store).2).1 := rfl
    rw [hstep, hcolumn, hstore, ih, elementsOf, elementsOf, List.mapIdx_cons]
    refine congrArg _ (List.mapIdx_eq_mapIdx_iff.mpr fun position hposition => ?_)
    exact elementsAfter_elements? driver store _ _

end Value

/-- The greatest of some numbers is not exceeded by any of them, and is one of them or the one to
begin with. -/
theorem foldl_max_spec (numbers : List Nat) (start : Nat) :
    start ≤ numbers.foldl max start ∧ (∀ number ∈ numbers, number ≤ numbers.foldl max start) ∧
      (numbers.foldl max start = start ∨ numbers.foldl max start ∈ numbers) := by
  induction numbers generalizing start with
  | nil => simp
  | cons first rest ih =>
    obtain ⟨hstart, hrest, hreached⟩ := ih (max start first)
    rw [List.foldl_cons]
    refine ⟨by omega, fun number hnumber => ?_, ?_⟩
    · rcases List.mem_cons.mp hnumber with rfl | hnumber
      · omega
      · exact hrest number hnumber
    · rcases hreached with hsame | hmem
      · rcases Nat.le_total start first with hle | hle
        · right
          rw [hsame, Nat.max_eq_right hle]
          exact List.mem_cons_self
        · left
          rw [hsame, Nat.max_eq_left hle]
      · exact Or.inr (List.mem_cons_of_mem _ hmem)

/-! ### Rows -/

namespace Evaluator

/-- The variables of a row. -/
def rowVariables (lenient : Bool) (cells : List (String × List Value)) (index : Nat) :
    List (String × Binding) :=
  numbering index ++ if lenient then [] else (lacking cells index).map fun name => (name, none)

section

variable (lenient : Bool) (cells : List (String × List Value)) (index : Nat)

/-- In a row `i` is its number, from one on. -/
theorem lookup_rowVariables_i :
    (rowVariables lenient cells index).lookup "i" = some (some (.count (index + 1))) := rfl

/-- In a row `i0` is its number, from zero on. -/
theorem lookup_rowVariables_i0 :
    (rowVariables lenient cells index).lookup "i0" = some (some (.count index)) := rfl

variable {lenient cells index} {name : String} (hi : name ≠ "i") (hi0 : name ≠ "i0")
include hi hi0

/-- Other names are hidden where their driver has run out and may not be read. -/
theorem lookup_rowVariables_exhausted (hlenient : lenient = false)
    (h : name ∈ lacking cells index) :
    (rowVariables lenient cells index).lookup name = some none := by
  have hnumbered (rest : List (String × Binding)) :
      (numbering index ++ rest).lookup name = rest.lookup name := by
    simp [numbering, List.lookup_cons, beq_false_of_ne hi, beq_false_of_ne hi0]
  rw [rowVariables, hnumbered, hlenient, if_neg Bool.false_ne_true]
  generalize lacking cells index = names at h ⊢
  induction names with
  | nil => cases h
  | cons first rest ih =>
    by_cases hfirst : name = first
    · subst hfirst
      simp
    · have hrest := (List.mem_cons.mp h).resolve_left hfirst
      simpa [List.lookup_cons, beq_false_of_ne hfirst] using ih hrest

/-- Any other name is no variable of the row unless its driver has run out and may not be read. -/
theorem lookup_rowVariables_other (h : lenient = true ∨ name ∉ lacking cells index) :
    (rowVariables lenient cells index).lookup name = none := by
  rw [List.lookup_eq_none_iff]
  rintro ⟨other, binding⟩ hmem
  rcases List.mem_append.mp hmem with hmem | hmem
  · simp only [numbering, List.mem_cons, List.not_mem_nil, or_false, Prod.mk.injEq] at hmem
    rcases hmem with ⟨rfl, -⟩ | ⟨rfl, -⟩
    · simpa using hi
    · simpa using hi0
  · cases hlenient : lenient with
    | true => simp [hlenient] at hmem
    | false =>
      have hnot := h.resolve_left (by simp [hlenient])
      rw [hlenient, if_neg Bool.false_ne_true] at hmem
      obtain ⟨_, hlacked, heq⟩ := List.mem_map.mp hmem
      cases heq
      have hne : name ≠ other := fun heq => hnot (heq ▸ hlacked)
      simpa using hne

end

variable {fuel : Nat} {setting : Setting} {scope : Scope} {call : Call Expr Chunk}
variable {begun ended : Run} {drivers : List Value} {value : Value}

/-- A driver that belongs to a name has no element in a row. -/
def RunsOut (names : List String) (elements : List (List Value)) (name : String) (index : Nat) :
    Prop :=
  ∃ items, (name, items) ∈ names.zip elements ∧ items[index]? = none

/-- An instance is made for a row. Its variables are those of the row, and its attributes are the
elements in the row that are not named. -/
structure InRow (below : Evaluator) (setting : Setting) (scope : Scope) (definition : Definition)
    (arguments : Arguments Expr) (elements : List (List Value)) (index : Nat) (begun ended : Run)
    (id : InstanceId) (data : Instance) : Prop
    extends below.Produces setting scope arguments begun ended id data where
  definition_eq : data.definition = definition
  iteration_eq : data.iteration =
    rowVariables begun.lenient (definition.parameterNames.zip elements) index
  present : definition.parameterNames.Nodup → ∀ name items element,
    (name, items) ∈ definition.parameterNames.zip elements → items[index]? = some element →
      name ∉ arguments.named.map Prod.fst → data.attributes.get? name = some element
  missing : definition.parameterNames.Nodup → ∀ name,
    RunsOut definition.parameterNames elements name index → arguments.isEmpty →
      data.attributes.get? name = none

namespace InRow

variable {below : Evaluator} {definition : Definition} {arguments : Arguments Expr}
variable {elements : List (List Value)} {index : Nat} {id : InstanceId} {data : Instance}
variable {name : String}
variable (h : below.InRow setting scope definition arguments elements index begun ended id data)
include h

/-- A name that may not be read after its driver has run out. -/
theorem lacks (hi : name ≠ "i") (hi0 : name ≠ "i0") (hlenient : begun.lenient = false)
    (hout : RunsOut definition.parameterNames elements name index) : data.Lacks name := by
  apply Instance.lacks_of_exhausted
  rw [h.iteration_eq]
  exact lookup_rowVariables_exhausted hi hi0 hlenient (mem_lacking.mpr hout)

/-- A name that is read like an attribute. -/
theorem lookup_eq_none (hi : name ≠ "i") (hi0 : name ≠ "i0")
    (hread : begun.lenient = true ∨ ¬ RunsOut definition.parameterNames elements name index) :
    data.iteration.lookup name = none := by
  rw [h.iteration_eq]
  exact lookup_rowVariables_other hi hi0 (hread.imp_right (mt mem_lacking.mp))

end InRow

/-- A row that is made holds the elements of its place. -/
theorem inRow_of_makes {definition : Definition} {arguments : Arguments Expr}
    {elements : List (List Value)} {index : Nat}
    (hlength : definition.parameterNames.length = elements.length)
    (h : (upTo fuel).Makes setting scope definition arguments
      (definition.parameterNames.zip elements) index begun ended value) :
    ∃ id data, value = .template id ∧ (upTo fuel).InRow setting scope definition arguments elements
      index begun ended id data := by
  obtain ⟨before, after, id, hbefore, hrow, hafter, rfl⟩ := h
  have hcells : definition.parameterNames.length ≤
      (definition.parameterNames.zip elements).length := by
    rw [List.length_zip]
    omega
  obtain ⟨data, hproduces, hdefinition, hiteration, hset⟩ := applyRow_ok hcells hrow
  have hnames : (definition.parameterNames.zip elements).map Prod.fst =
      definition.parameterNames := List.map_fst_zip (Nat.le_of_eq hlength)
  rw [hbefore.lenient] at hiteration
  rw [hnames] at hset
  refine ⟨id, data, rfl, (hproduces.since hbefore).until hafter, hdefinition, hiteration, ?_, ?_⟩
  · intro hnodup name items element hmem
    exact (hset hnodup name items hmem).1 element
  · rintro hnodup name ⟨items, hmem, hnone⟩
    exact (hset hnodup name items hmem).2 hnone

/-- As many rows are made as the longest driver has elements, one after the other. -/
theorem applyParallel_ok
    (h : (upTo fuel).applyParallel scope drivers [call] setting begun = (.ok value, ended)) :
    ∃ definition looked values,
      (upTo fuel).callee scope call.callee setting begun = (.ok definition, looked) ∧
      definition.parameterNames.length = drivers.length ∧
      value = .list values ∧
      values.length = ((Value.elementsOf looked.store drivers).map List.length).foldl max 0 ∧
      ∀ (index : Nat) value, values[index]? = some value → ∃ id data, value = .template id ∧
        (upTo fuel).InRow setting scope definition call.arguments
          (Value.elementsOf looked.store drivers) index begun ended id data := by
  obtain ⟨definition, looked, hcallee, h⟩ := (bind_eq_ok _ _).mp h
  obtain ⟨⟨⟩, _, hchecked, h⟩ := (bind_eq_ok _ _).mp h
  obtain ⟨hlength, rfl⟩ := (failIf_eq_ok _ _).mp hchecked
  obtain ⟨columns, walked, hwalked, h⟩ := (bind_eq_ok _ _).mp h
  obtain ⟨values, _, hrows, h⟩ := (bind_eq_ok _ _).mp h
  cases h
  rw [onStore_apply, Value.columns_apply] at hwalked
  cases hwalked
  have hnames : definition.parameterNames.length = drivers.length := by simpa using hlength
  have helements : definition.parameterNames.length =
      (Value.elementsOf looked.store drivers).length := by
    rw [hnames, Value.length_elementsOf]
  have hcells : definition.parameterNames.length ≤
      (definition.parameterNames.zip (Value.elementsOf looked.store drivers)).length := by
    rw [List.length_zip]
    omega
  have hlooked : begun.Continues looked := by
    simpa only [hcallee] using continues_callee fuel setting scope begun call.callee
  have hstart : begun.Continues
      { looked with store := (columns drivers looked.store).2 } := hlooked.trans (.of_eq rfl rfl)
  obtain ⟨-, hcount, hvalues⟩ := applyRows_ok hcells hrows
  refine ⟨definition, looked, values, hcallee, hnames, rfl, hcount, fun index value hvalue => ?_⟩
  obtain ⟨before, after, id, hbefore, hrow, hafter, heq⟩ := hvalues index value hvalue
  rw [Nat.zero_add] at hrow
  exact inRow_of_makes helements ⟨before, after, id, hstart.trans hbefore, hrow, hafter, heq⟩

/-- The instance of a row of a call without arguments. Formal arguments are read as what their
drivers have in the row. -/
structure Row (below : Evaluator) (setting : Setting) (scope : Scope) (arguments : Arguments Expr)
    (elements : List (List Value)) (index : Nat) (begun ended : Run) (id : InstanceId)
    (data : Instance) : Prop
    extends below.Produces setting scope arguments begun ended id data where
  i : data.Reads "i" (.count (index + 1))
  i0 : data.Reads "i0" (.count index)
  /-- The driver has an element in this row. -/
  bound : ∀ (position : Nat) formal items element,
    data.definition.parameters[position]? = some formal → elements[position]? = some items →
      items[index]? = some element → data.Reads formal.name element
  /-- The driver has run out, and the chunk has no null option. -/
  exhausted : ∀ (position : Nat) formal items,
    data.definition.parameters[position]? = some formal → elements[position]? = some items →
      items[index]? = none → begun.lenient = false → data.Lacks formal.name
  /-- The driver has run out, and the chunk has a null option. -/
  lenient : ∀ (position : Nat) formal items,
    data.definition.parameters[position]? = some formal → elements[position]? = some items →
      items[index]? = none → begun.lenient = true → data.FallsBack formal.name formal

/-- The driver of a parameter is the one at its place, where names are distinct. -/
theorem runsOut_iff {definition : Definition} {elements : List (List Value)} {index : Nat}
    {position : Nat} {formal : Formal Expr} {items : List Value}
    (hnodup : definition.parameterNames.Nodup)
    (hformal : definition.parameters[position]? = some formal)
    (hitems : elements[position]? = some items) :
    (formal.name, items) ∈ definition.parameterNames.zip elements ∧
      (RunsOut definition.parameterNames elements formal.name index ↔ items[index]? = none) := by
  have hname : definition.parameterNames[position]? = some formal.name := by
    rw [Definition.parameterNames, List.getElem?_map, hformal, Option.map_some]
  have hmem : (formal.name, items) ∈ definition.parameterNames.zip elements :=
    List.mem_iff_getElem?.mpr ⟨position, List.getElem?_zip_eq_some.mpr ⟨hname, hitems⟩⟩
  refine ⟨hmem, ?_, fun hnone => ⟨items, hmem, hnone⟩⟩
  rintro ⟨others, hother, hnone⟩
  obtain ⟨place, hplace⟩ := List.mem_iff_getElem?.mp hother
  obtain ⟨hname', hothers⟩ := List.getElem?_zip_eq_some.mp hplace
  have hlt := (List.getElem?_eq_some_iff.mp hname).1
  have hsame : position = place := (List.getElem?_inj hlt hnodup).mp (hname.trans hname'.symm)
  subst hsame
  cases hitems.symm.trans hothers
  exact hnone

/-- Without arguments the instance of a row holds nothing but the elements of the row. -/
theorem InRow.row {below : Evaluator} {definition : Definition} {arguments : Arguments Expr}
    {elements : List (List Value)} {index : Nat} {id : InstanceId} {data : Instance}
    (h : below.InRow setting scope definition arguments elements index begun ended id data)
    (hnodup : definition.parameterNames.Nodup) (hi : "i" ∉ definition.parameterNames)
    (hi0 : "i0" ∉ definition.parameterNames) (hempty : arguments.isEmpty) :
    below.Row setting scope arguments elements index begun ended id data := by
  obtain ⟨hdefinition, hiteration⟩ := And.intro h.definition_eq h.iteration_eq
  -- What is known of a formal argument and its driver.
  have hcell {position : Nat} {formal : Formal Expr} {items : List Value}
      (hformal : data.definition.parameters[position]? = some formal)
      (hitems : elements[position]? = some items) :
      formal.name ≠ "i" ∧ formal.name ≠ "i0" ∧
        (formal.name, items) ∈ definition.parameterNames.zip elements ∧
        (RunsOut definition.parameterNames elements formal.name index ↔
          items[index]? = none) := by
    rw [hdefinition] at hformal
    have hname : formal.name ∈ definition.parameterNames :=
      List.mem_map_of_mem (List.mem_of_getElem? hformal)
    exact ⟨fun heq => hi (heq ▸ hname), fun heq => hi0 (heq ▸ hname),
      runsOut_iff hnodup hformal hitems⟩
  have hnamed (name : String) : name ∉ arguments.named.map Prod.fst := by
    have hnone : arguments.named = [] := by
      simp only [Arguments.isEmpty, Bool.and_eq_true, List.isEmpty_iff] at hempty
      exact hempty.1.2
    rw [hnone]
    exact List.not_mem_nil
  refine ⟨h.toProduces, ?_, ?_, ?_, ?_, ?_⟩
  · apply Instance.reads_of_variable
    rw [hiteration, lookup_rowVariables_i]
  · apply Instance.reads_of_variable
    rw [hiteration, lookup_rowVariables_i0]
  · intro position formal items element hformal hitems helement
    obtain ⟨hne, hne0, hmem, hout⟩ := hcell hformal hitems
    have hset := h.present hnodup formal.name items element hmem helement (hnamed _)
    refine Instance.reads_of_attribute (h.lookup_eq_none hne hne0 (Or.inr fun hruns => ?_)) hset
    rw [hout.mp hruns] at helement
    cases helement
  · intro position formal items hformal hitems hnone hstrict
    obtain ⟨hne, hne0, -, hout⟩ := hcell hformal hitems
    exact h.lacks hne hne0 hstrict (hout.mpr hnone)
  · intro position formal items hformal hitems hnone hlenient
    obtain ⟨hne, hne0, -, hout⟩ := hcell hformal hitems
    refine Instance.fallsBack_of_unset (h.lookup_eq_none hne hne0 (Or.inl hlenient))
      (h.missing hnodup formal.name (hout.mpr hnone) hempty) ?_
    exact Definition.formal?_eq (hdefinition ▸ hnodup) (List.mem_of_getElem? hformal)

/-- What an application to several drivers does, where the call has no arguments. -/
structure WalksInStep (below : Evaluator) (setting : Setting) : Prop where
  /-- A chunk allows loop variables to be read after their sequence if and only if it has a null
  option, while its expression is evaluated. -/
  chunk : ∀ scope expr options begun,
    below.writeExpression scope expr options setting begun =
      match below.eval scope expr setting { begun with lenient := options.null.isSome } with
      | (.ok value, after) => (do
          let evaluated ← below.evalOptions scope options
          anchored options.anchor (below.value scope evaluated value) : Render Nat) setting
            { after with lenient := begun.lenient }
      | (.error halt, after) => (.error halt, { after with lenient := begun.lenient })
  /-- What is evaluated before an application does not change that. -/
  kept : ∀ scope expr begun, (below.eval scope expr setting begun).2.lenient = begun.lenient
  /-- An application that is written down walks over the values of its drivers. -/
  written : ∀ scope exprs call begun value ended, exprs.length ≠ 1 →
    below.evalExpr scope (.apply exprs [call]) setting begun = (.ok value, ended) →
      ∃ drivers mid, below.evalAll scope exprs setting begun = (.ok drivers, mid) ∧
        mid.lenient = begun.lenient ∧
        below.applyParallel scope drivers [call] setting mid = (.ok value, ended)
  /-- The template needs as many formal arguments as there are drivers. -/
  mismatch : ∀ scope drivers call begun definition looked,
    below.callee scope call.callee setting begun = (.ok definition, looked) →
    definition.parameterNames.length ≠ drivers.length →
      below.applyParallel scope drivers [call] setting begun =
        (.error (.failed (.argumentMismatch definition.name definition.parameterNames.length
          drivers.length)), looked)
  /-- There are as many rows as the longest driver has elements. -/
  rows : ∀ scope drivers call begun value ended, call.arguments.isEmpty →
    below.applyParallel scope drivers [call] setting begun = (.ok value, ended) →
      ∃ definition looked values elements,
        below.callee scope call.callee setting begun = (.ok definition, looked) ∧
        definition.parameterNames.length = drivers.length ∧
        elements = Value.elementsOf looked.store drivers ∧
        value = .list values ∧
        (∀ items ∈ elements, items.length ≤ values.length) ∧
        (values.length = 0 ∨ ∃ items ∈ elements, items.length = values.length) ∧
        (definition.parameterNames.Nodup → "i" ∉ definition.parameterNames →
          "i0" ∉ definition.parameterNames → ∀ (index : Nat) value, values[index]? = some value →
            ∃ id data, value = .template id ∧ data.definition = definition ∧
              below.Row setting scope call.arguments elements index begun ended id data)

/-- In every application to several drivers the drivers are walked in step. -/
theorem walks_in_step (fuel : Nat) (setting : Setting) : (upTo fuel).WalksInStep setting where
  chunk scope expr options begun := writeExpression_apply setting begun _ scope expr options
  kept scope expr begun := (continues_eval fuel setting scope begun expr).lenient
  written scope exprs call begun value ended hexprs h := by
    have hstep : (upTo fuel).evalExpr scope (.apply exprs [call]) =
        (upTo fuel).evalAll scope exprs >>= fun drivers =>
          (upTo fuel).applyParallel scope drivers [call] := by
      match exprs with
      | [] | _ :: _ :: _ => rfl
      | [_] => exact absurd rfl hexprs
    rw [hstep] at h
    obtain ⟨drivers, mid, hdrivers, h⟩ := (bind_eq_ok _ _).mp h
    have hmid := (continues_evalAll fuel setting scope begun exprs).lenient
    rw [hdrivers] at hmid
    exact ⟨drivers, mid, hdrivers, hmid, h⟩
  mismatch scope drivers call begun definition looked hcallee hne := by
    have hmismatch : decide (definition.parameterNames.length ≠ drivers.length) = true :=
      decide_eq_true hne
    rw [applyParallel, bind_apply_ok _ _ hcallee, hmismatch]
    rfl
  rows scope drivers call begun value ended hempty h := by
    obtain ⟨definition, looked, values, hcallee, hnames, hvalue, hcount, hrows⟩ :=
      applyParallel_ok h
    obtain ⟨-, hmost, hreached⟩ :=
      foldl_max_spec ((Value.elementsOf looked.store drivers).map List.length) 0
    rw [← hcount] at hmost hreached
    refine ⟨definition, looked, values, _, hcallee, hnames, rfl, hvalue, fun items hitems =>
      hmost _ (List.mem_map_of_mem hitems), hreached.imp_right List.mem_map.mp,
      fun hnodup hi hi0 index value hindex => ?_⟩
    obtain ⟨id, data, rfl, hrow⟩ := hrows index value hindex
    exact ⟨id, data, rfl, hrow.definition_eq, hrow.row hnodup hi hi0 hempty⟩

/-- In the second row of two lists, of which the second one is shorter, the template has the element
of the first list, and its other argument cannot be read. -/
theorem walks_in_step_shorter :
    let pair : Definition := .template "pair" (some [{ name := "left" }, { name := "right" }]) []
    let setting : Setting := .ofGroup [pair]
    let run : Run := .ofInstances [(.template "page" none [], [])]
    let drivers : List Value := [.list [.string "a", .string "b"], .list [.string "x"]]
    ∃ values ended,
      (upTo 1).applyParallel ⟨⟨0⟩, []⟩ drivers [{ callee := .named "pair" }] setting run =
        (.ok (.list values), ended) ∧
      values.length = 2 ∧ ∃ (id : InstanceId) (data : Instance),
        values[1]? = some (.template id) ∧ ended.instances[id.index]? = some data ∧
          data.Reads "left" (.string "b") ∧ data.Lacks "right" ∧ data.Reads "i" (.count 2) := by
  intro pair setting run drivers
  have hok : ((upTo 1).applyParallel ⟨⟨0⟩, []⟩ drivers [{ callee := .named "pair" }]
      setting run).1.isOk = true := by decide +kernel
  obtain ⟨value, ended, happly⟩ := exists_of_isOk hok
  obtain ⟨definition, looked, values, elements, hcallee, -, helements, rfl, hmost, hreached,
    hrows⟩ := (walks_in_step 1 setting).rows _ drivers _ run value ended rfl happly
  have hfound : (upTo 1).callee ⟨⟨0⟩, []⟩ (.named "pair") setting run =
      (.ok { pair with group := some ⟨0⟩ }, run) := rfl
  cases hfound.symm.trans hcallee
  subst helements
  have hleast : 2 ≤ values.length := hmost [.string "a", .string "b"] List.mem_cons_self
  have hlength : values.length = 2 := by
    rcases hreached with hzero | ⟨items, hitems, hsame⟩
    · omega
    · rcases List.mem_pair.mp hitems with rfl | rfl
      · exact hsame.symm
      · exact absurd (hsame ▸ hleast) (by decide)
  obtain ⟨first, second, rfl⟩ := List.length_eq_two.mp hlength
  obtain ⟨id, data, rfl, hdefinition, hrow⟩ :=
    hrows (by decide) (by decide) (by decide) 1 second rfl
  have hformals : data.definition.parameters = pair.parameters :=
    hdefinition ▸ rfl
  refine ⟨_, ended, happly, rfl, id, data, rfl, hrow.stands, ?_, ?_, hrow.i⟩
  · exact hrow.bound 0 { name := "left" } _ _ (by rw [hformals]; rfl) rfl rfl
  · exact hrow.exhausted 1 { name := "right" } _ (by rw [hformals]; rfl) rfl rfl rfl

end Evaluator

end Stencil
