import Stencil.Proofs.Render.Names

/-!
# What applications create

An application to one driver takes its items one after the other, and an application to several
drivers takes their rows. For each of them it creates one instance, gives it variables and
attributes, and touches it no more after that.
-/

namespace Stencil

open Render

namespace Run

variable {id : InstanceId} {first begun mid before after run : Run} {data : Instance}

/-- What is done to an instance leaves alone the instances that were there before it. -/
theorem Continues.fills_fresh (h : begun.Continues mid) (hfills : mid.Fills id after)
    (hfresh : begun.instances.size ≤ id.index) : begun.Continues after := by
  have hkept (index : Nat) (hindex : index < begun.instances.size) :
      after.instances[index]? = begun.instances[index]? := by
    have hdata : begun.instances[index]? = some begun.instances[index] :=
      Array.getElem?_eq_getElem hindex
    have hne : index ≠ id.index := by omega
    exact (hfills.others hne (h.getElem? hdata)).trans hdata.symm
  refine ⟨hkept, ?_, hfills.lenient.trans h.lenient⟩
  by_contra hless
  have hlast := hkept after.instances.size (by omega)
  rw [Array.getElem?_eq_none (Nat.le_refl _), Array.getElem?_eq_getElem (by omega)] at hlast
  cases hlast

/-- The state after an instance is given variables. -/
def varying (run : Run) (id : InstanceId) (iteration : List (String × Binding)) : Run :=
  { run with instances := run.instances.modify id.index fun data => { data with iteration } }

/-- An instance that is given variables has them, and all else stays. -/
theorem getElem?_varying (hdata : run.instances[id.index]? = some data)
    (iteration : List (String × Binding)) :
    (run.varying id iteration).instances[id.index]? = some { data with iteration } := by
  rw [varying, Array.getElem?_modify, if_pos rfl, hdata, Option.map_some]

/-- A run goes on while an instance of its own is given variables. -/
theorem Continues.varying (h : begun.Continues run) (hfresh : begun.instances.size ≤ id.index)
    (iteration : List (String × Binding)) : begun.Continues (run.varying id iteration) :=
  Spares.trans h (.modify hfresh _)

end Run

namespace Render

variable {setting : Setting} {run after : Run}

/-- An instance that is created is the last one, of the definition it was created for, without
attributes. -/
theorem create_ok {scope : Scope} {definition : Definition} {id : InstanceId}
    (h : create scope definition setting run = (.ok id, after)) :
    id.index = run.instances.size ∧ run.Continues after ∧ ∃ data,
      after.instances[id.index]? = some data ∧ data.definition = definition ∧
        data.attributes = {} := by
  rw [create_apply] at h
  split at h
  · next creator _ =>
    cases h
    exact ⟨rfl, .push _, created creator scope definition, Array.getElem?_push_size, rfl, rfl⟩
  · cases h

end Render

namespace Evaluator

/-- In the course of a part of a render that gives an instance its arguments, an expression comes
to a value. -/
def Yields (below : Evaluator) (setting : Setting) (scope : Scope) (expr : Expr) (value : Value)
    (begun : Run) (id : InstanceId) (ended : Run) : Prop :=
  ∃ before after, begun.Continues before ∧
    below.eval scope expr setting before = (.ok value, after) ∧ after.Fills id ended

/-- A part of a render creates an instance for a call, which has the arguments of the call. Of
several named arguments of one name it has the last one. -/
structure Produces (below : Evaluator) (setting : Setting) (scope : Scope)
    (arguments : Arguments Expr) (begun ended : Run) (id : InstanceId) (data : Instance) :
    Prop where
  fresh : begun.instances.size ≤ id.index
  continues : begun.Continues ended
  stands : ended.instances[id.index]? = some data
  named : ∀ earlier name expr later, arguments.named = earlier ++ (name, expr) :: later →
    name ∉ later.map Prod.fst → ∃ value,
      below.Yields setting scope expr value begun id ended ∧
        data.attributes.get? name = some value

variable {fuel : Nat} {setting : Setting} {scope : Scope} {id : InstanceId} {data : Instance}
variable {first begun mid ended run : Run} {arguments : Arguments Expr}

/-- What a later part of a render produces the whole of it does. -/
theorem Produces.since {below : Evaluator}
    (h : below.Produces setting scope arguments mid ended id data) (hmid : begun.Continues mid) :
    below.Produces setting scope arguments begun ended id data where
  fresh := Nat.le_trans hmid.size h.fresh
  continues := hmid.trans h.continues
  stands := h.stands
  named earlier name expr later hsplit hlater := by
    obtain ⟨value, ⟨before, after, hbefore, heval, hafter⟩, hvalue⟩ :=
      h.named earlier name expr later hsplit hlater
    exact ⟨value, ⟨before, after, hmid.trans hbefore, heval, hafter⟩, hvalue⟩

/-- What a render has produced stays while it goes on. -/
theorem Produces.until {below : Evaluator}
    (h : below.Produces setting scope arguments begun mid id data) (hmid : mid.Continues ended) :
    below.Produces setting scope arguments begun ended id data where
  fresh := h.fresh
  continues := h.continues.trans hmid
  stands := hmid.getElem? h.stands
  named earlier name expr later hsplit hlater := by
    obtain ⟨value, ⟨before, after, hbefore, heval, hafter⟩, hvalue⟩ :=
      h.named earlier name expr later hsplit hlater
    exact ⟨value, ⟨before, after, hbefore, heval, hafter.trans (hmid.fills id)⟩, hvalue⟩

/-- What an instance is given last are the arguments of the call. -/
theorem produces_of_binds {definition : Definition} {start : Nat}
    (hbegun : begun.Continues mid) (hfresh : begun.instances.size ≤ id.index)
    (hown : mid.instances[id.index]? = some data)
    (h : (upTo fuel).Binds setting scope id definition arguments start mid ended) :
    ∃ attributes, (upTo fuel).Produces setting scope arguments begun ended id
        { data with attributes } ∧
      ∀ name, attributes.get? name = ended.attribute? id name := by
  obtain ⟨attributes, hattributes⟩ := h.fills.own hown
  refine ⟨attributes, ⟨hfresh, hbegun.fills_fresh h.fills hfresh, hattributes, ?_⟩, fun name => ?_⟩
  · intro earlier name expr later hsplit hlater
    obtain ⟨value, ⟨before, after, hbefore, heval, hafter⟩, hvalue⟩ :=
      h.named earlier name expr later hsplit hlater
    rw [Run.attribute?_eq hattributes] at hvalue
    exact ⟨value, ⟨before, after, hbegun.fills_fresh hbefore hfresh, heval, hafter⟩, hvalue⟩
  · rw [Run.attribute?_eq hattributes]

/-! ### One driver -/

/-- The first formal argument holds the item unless it is named. -/
theorem bindFirst_ok {formals : List (Formal Expr)} {named : List (String × Expr)} {item : Value}
    (hown : run.instances[id.index]? = some data)
    (h : bindFirst id formals named item setting run = (.ok (), ended)) :
    run.Fills id ended ∧ ∀ formal rest, formals = formal :: rest →
      formal.name ∉ named.map Prod.fst → ended.attribute? id formal.name = some item := by
  cases formals with
  | nil =>
    cases h
    exact ⟨.refl _ _, fun _ _ heq => by cases heq⟩
  | cons formal rest =>
    rw [bindFirst] at h
    split at h
    · next hnamed =>
      cases h
      refine ⟨.refl _ _, fun other rest' heq hother => ?_⟩
      cases heq
      obtain ⟨entry, hentry, hname⟩ := List.any_eq_true.mp hnamed
      exact absurd (List.mem_map.mpr ⟨entry, hentry, by simpa using hname⟩) hother
    · cases h
      refine ⟨Run.fills_binding _ _ _ _, fun other rest' heq _ => ?_⟩
      cases heq
      exact Run.attribute?_binding_self hown _ _

/-- The instance for one item has the item as `it` and numbers, and its first formal argument is the
item unless it is named. -/
theorem applyOne_ok {call : Call Expr Chunk} {item : Value} {index : Nat}
    (h : (upTo fuel).applyOne scope call item index setting run = (.ok id, ended)) :
    ∃ looked data,
      (upTo fuel).callee scope call.callee setting run = (.ok data.definition, looked) ∧
      (upTo fuel).Produces setting scope call.arguments run ended id data ∧
      data.iteration = ("it", some item) :: numbering index ∧
      ∀ formal rest, data.definition.parameters = formal :: rest →
        formal.name ∉ rest.map Formal.name → formal.name ∉ call.arguments.named.map Prod.fst →
          data.attributes.get? formal.name = some item := by
  obtain ⟨definition, looked, hcallee, h⟩ := (bind_eq_ok _ _).mp h
  obtain ⟨id', made, hcreate, h⟩ := (bind_eq_ok _ _).mp h
  obtain ⟨⟨⟩, _, hchecked, h⟩ := (bind_eq_ok _ _).mp h
  obtain ⟨-, rfl⟩ := (failIf_eq_ok _ _).mp hchecked
  obtain ⟨⟨⟩, varied, hvaried, h⟩ := (bind_eq_ok _ _).mp h
  obtain ⟨⟨⟩, filled, hfilled, h⟩ := (bind_eq_ok _ _).mp h
  obtain ⟨⟨⟩, bound, hbound, h⟩ := (bind_eq_ok _ _).mp h
  cases h
  have hlooked : run.Continues looked := by
    simpa only [hcallee] using continues_callee fuel setting scope run call.callee
  obtain ⟨hindex, hmade, data, hdata, hdefinition, -⟩ := create_ok hcreate
  have hfresh : run.instances.size ≤ id.index := hindex ▸ hlooked.size
  cases hvaried
  have hown := Run.getElem?_varying hdata (("it", some item) :: numbering index)
  have hvaried : run.Continues (made.varying id (("it", some item) :: numbering index)) :=
    (hlooked.trans hmade).varying hfresh _
  obtain ⟨hfills, hfirst⟩ := bindFirst_ok hown hfilled
  obtain ⟨attributes, hown'⟩ := hfills.own hown
  have hbinds := binds_of_ok hown' hbound
  obtain ⟨attributes', hproduces, hattributes⟩ :=
    produces_of_binds (hvaried.fills_fresh hfills hfresh) hfresh hown' hbinds
  refine ⟨looked, _, hdefinition ▸ hcallee, hproduces, rfl,
    fun formal rest hformals hnodup hnamed => ?_⟩
  have hformals' : definition.parameters = formal :: rest := hdefinition ▸ hformals
  have hitem := hfirst formal rest hformals' hnamed
  dsimp only
  rw [hattributes, hbinds.kept formal.name (hitem ▸ rfl) hnamed ?_, hitem]
  rw [Definition.parameterNames, hformals']
  exact hnodup

/-- The calls take turns. -/
theorem getElem?_turn (first : Call Expr Chunk) (more : List (Call Expr Chunk)) (index : Nat) :
    (first :: more)[index % (more.length + 1)]? = some (turn first more index) := by
  have hlt : index % (more.length + 1) < (first :: more).length :=
    Nat.mod_lt _ (Nat.succ_pos _)
  rw [turn, List.getElem?_eq_getElem hlt, Option.getD_some]

/-- How many of some items are not absent: so many instances are made of them. -/
def turns (items : List Value) : Nat := items.countP fun item => !item.isAbsent

/-- No instance is made of an absent item. -/
@[simp] theorem turns_absent (items : List Value) : turns (.absent :: items) = turns items := by
  simp [turns, Value.isAbsent]

/-- Of any other item one is made. -/
theorem turns_cons {item : Value} (h : item ≠ .absent) (items : List Value) :
    turns (item :: items) = turns items + 1 := by
  have hitem : item.isAbsent = false := by
    cases item with
    | absent => exact absurd rfl h
    | scalar _ | list _ | mapping _ | template _ | iterator _ => rfl
  simp [turns, hitem]

/-- One item is applied to in the course of an application. -/
def Takes (below : Evaluator) (setting : Setting) (scope : Scope) (call : Call Expr Chunk)
    (item : Value) (index : Nat) (begun ended : Run) (value : Value) : Prop :=
  ∃ before after id, begun.Continues before ∧
    below.applyOne scope call item index setting before = (.ok id, after) ∧
      after.Continues ended ∧ value = .template id

/-- For each item there is a value: an absent one for an absent item, else the instance of the call
whose turn it is. -/
theorem applyItems_ok {first : Call Expr Chunk} {more : List (Call Expr Chunk)} {index : Nat}
    {items values : List Value}
    (h : (upTo fuel).applyItems scope first more index items setting run = (.ok values, ended)) :
    run.Continues ended ∧ values.length = items.length ∧ ∀ (position : Nat) item value,
      items[position]? = some item → values[position]? = some value →
        (item = .absent → value = .absent) ∧
        (item ≠ .absent → (upTo fuel).Takes setting scope
          (turn first more (index + turns (items.take position))) item
          (index + turns (items.take position)) run ended value) := by
  induction items generalizing index run values with
  | nil =>
    cases h
    exact ⟨.refl _, rfl, fun _ _ _ hitem => by cases hitem⟩
  | cons item rest ih =>
    by_cases habsent : item = .absent
    · -- An absent item takes no turn, and those after it keep their number.
      subst habsent
      obtain ⟨others, mid, hrest, h⟩ := (bind_eq_ok _ _).mp h
      cases h
      obtain ⟨hcontinues, hlength, hvalues⟩ := ih hrest
      refine ⟨hcontinues, congrArg (· + 1) hlength, fun position other value hother hvalue => ?_⟩
      cases position with
      | zero =>
        cases hother
        cases hvalue
        exact ⟨fun _ => rfl, fun hne => absurd rfl hne⟩
      | succ position =>
        rw [List.take_succ_cons, turns_absent]
        exact hvalues position other value hother hvalue
    · have hstep : (upTo fuel).applyItems scope first more index (item :: rest) = do
          let id ← (upTo fuel).applyOne scope (turn first more index) item index
          return .template id :: (← (upTo fuel).applyItems scope first more (index + 1) rest) := by
        cases item with
        | absent => exact absurd rfl habsent
        | scalar _ | list _ | mapping _ | template _ | iterator _ => rfl
      rw [hstep] at h
      obtain ⟨id, mid, hone, h⟩ := (bind_eq_ok _ _).mp h
      obtain ⟨others, final, hrest, h⟩ := (bind_eq_ok _ _).mp h
      cases h
      obtain ⟨_, _, _, hproduces, _⟩ := applyOne_ok hone
      have hmid := hproduces.continues
      obtain ⟨hcontinues, hlength, hvalues⟩ := ih hrest
      refine ⟨hmid.trans hcontinues, congrArg (· + 1) hlength,
        fun position other value hother hvalue => ?_⟩
      cases position with
      | zero =>
        cases hother
        cases hvalue
        exact ⟨fun heq => absurd heq habsent,
          fun _ => ⟨run, mid, id, .refl run, hone, hcontinues, rfl⟩⟩
      | succ position =>
        obtain ⟨hhole, htakes⟩ := hvalues position other value hother hvalue
        refine ⟨hhole, fun hne => ?_⟩
        obtain ⟨before, after, id', hbefore, hone', hafter, heq⟩ := htakes hne
        rw [List.take_succ_cons, turns_cons habsent, ← Nat.add_assoc, Nat.add_right_comm]
        exact ⟨before, after, id', hmid.trans hbefore, hone', hafter, heq⟩

/-! ### Several drivers -/

/-- The names whose driver has run out before a row. -/
def lacking (cells : List (String × List Value)) (index : Nat) : List String :=
  (cells.filter fun cell => cell.2[index]?.isNone).map Prod.fst

/-- A name has run out if and only if its driver has no element for the row. -/
theorem mem_lacking {cells : List (String × List Value)} {index : Nat} {name : String} :
    name ∈ lacking cells index ↔ ∃ items, (name, items) ∈ cells ∧ items[index]? = none := by
  constructor
  · intro h
    obtain ⟨⟨_, items⟩, hcell, rfl⟩ := List.mem_map.mp h
    obtain ⟨hmem, hnone⟩ := List.mem_filter.mp hcell
    exact ⟨items, hmem, Option.isNone_iff_eq_none.mp hnone⟩
  · rintro ⟨items, hmem, hnone⟩
    exact List.mem_map_of_mem (List.mem_filter.mpr ⟨hmem, Option.isNone_iff_eq_none.mpr hnone⟩)

/-- A row gives each name the element of its driver, if that has one left. -/
theorem bindRow_ok {cells : List (String × List Value)} {index : Nat} {exhausted : List String}
    (hown : run.instances[id.index]? = some data)
    (h : bindRow id index cells setting run = (.ok exhausted, ended)) :
    run.Fills id ended ∧ exhausted = lacking cells index ∧
      (∀ name, name ∉ cells.map Prod.fst →
        ended.attribute? id name = run.attribute? id name) ∧
      ((cells.map Prod.fst).Nodup → ∀ name items, (name, items) ∈ cells →
        ended.attribute? id name = items[index]?.or (run.attribute? id name)) := by
  induction cells generalizing run data exhausted with
  | nil =>
    cases h
    exact ⟨.refl _ _, rfl, fun _ _ => rfl, fun _ _ _ hmem => by cases hmem⟩
  | cons cell rest ih =>
    obtain ⟨name, items⟩ := cell
    -- What the first cell does, whether its driver has an element or not.
    obtain ⟨mid, others, hfills, hself, hothers, hrow, hlacking⟩ : ∃ mid others,
        run.Fills id mid ∧
        mid.attribute? id name = items[index]?.or (run.attribute? id name) ∧
        (∀ other, other ≠ name → mid.attribute? id other = run.attribute? id other) ∧
        bindRow id index rest setting mid = (.ok others, ended) ∧
        (others = lacking rest index → exhausted = lacking ((name, items) :: rest) index) := by
      rw [bindRow] at h
      cases hitem : items[index]? with
      | some value =>
        simp only [hitem] at h
        exact ⟨run.binding id name value, exhausted, Run.fills_binding _ _ _ _,
          Run.attribute?_binding_self hown name value,
          fun other hother => Run.attribute?_binding_of_ne hown hother value, h,
          fun heq => by simp [heq, lacking, hitem]⟩
      | none =>
        simp only [hitem] at h
        obtain ⟨others, mid, hrow, h⟩ := (bind_eq_ok _ _).mp h
        cases h
        exact ⟨run, others, .refl _ _, rfl, fun _ _ => rfl, hrow,
          fun heq => by simp [heq, lacking, hitem]⟩
    obtain ⟨_, hown'⟩ := hfills.own hown
    obtain ⟨hrest, hexhausted, hkept, hcells⟩ := ih hown' hrow
    refine ⟨hfills.trans hrest, hlacking hexhausted, fun other hother => ?_,
      fun hnodup other items' hcell => ?_⟩
    · obtain ⟨hne, hnot⟩ := not_or.mp (mt List.mem_cons.mpr hother)
      rw [hkept other hnot, hothers other hne]
    · obtain ⟨hnot, hnodup'⟩ := List.nodup_cons.mp hnodup
      rcases List.mem_cons.mp hcell with heq | hmem
      · cases heq
        rw [hkept name hnot, hself]
      · have hname : other ∈ rest.map Prod.fst := List.mem_map_of_mem (f := Prod.fst) hmem
        have hne : other ≠ name := fun heq => hnot (heq ▸ hname)
        rw [hcells hnodup' other items' hmem, hothers other hne]

/-- The instance of a row has numbers, the elements of its row, and variables without a value for
the drivers that have run out unless these may be read. -/
theorem applyRow_ok {definition : Definition} {cells : List (String × List Value)} {index : Nat}
    (hcells : definition.parameterNames.length ≤ cells.length)
    (h : (upTo fuel).applyRow scope definition arguments cells index setting run =
      (.ok id, ended)) :
    ∃ data, (upTo fuel).Produces setting scope arguments run ended id data ∧
      data.definition = definition ∧
      data.iteration = numbering index ++
        (if run.lenient then [] else (lacking cells index).map fun name => (name, none)) ∧
      ((cells.map Prod.fst).Nodup → ∀ name items, (name, items) ∈ cells →
        (∀ value, items[index]? = some value → name ∉ arguments.named.map Prod.fst →
          data.attributes.get? name = some value) ∧
        (items[index]? = none → arguments.isEmpty → data.attributes.get? name = none)) := by
  obtain ⟨id', made, hcreate, h⟩ := (bind_eq_ok _ _).mp h
  obtain ⟨exhausted, filled, hfilled, h⟩ := (bind_eq_ok _ _).mp h
  obtain ⟨lenient, _, hlenient, h⟩ := (bind_eq_ok _ _).mp h
  cases hlenient
  obtain ⟨⟨⟩, varied, hvaried, h⟩ := (bind_eq_ok _ _).mp h
  obtain ⟨⟨⟩, bound, hbound, h⟩ := (bind_eq_ok _ _).mp h
  cases h
  obtain ⟨hindex, hmade, data, hdata, hdefinition, hattributes⟩ := create_ok hcreate
  have hfresh : run.instances.size ≤ id.index := Nat.le_of_eq hindex.symm
  obtain ⟨hfills, rfl, -, hbinds⟩ := bindRow_ok hdata hfilled
  obtain ⟨attributes, hown⟩ := hfills.own hdata
  have hfilled := hmade.fills_fresh hfills hfresh
  rw [hfilled.lenient] at hvaried
  cases hvaried
  have hown' := Run.getElem?_varying hown (numbering index ++
    if run.lenient then [] else (lacking cells index).map fun name => (name, none))
  have hproduced := binds_of_ok hown' hbound
  obtain ⟨attributes', hproduces, hattributes'⟩ :=
    produces_of_binds (hfilled.varying hfresh _) hfresh hown' hproduced
  refine ⟨_, hproduces, hdefinition, rfl, fun hnodup name items hcell => ?_⟩
  have hrow : attributes.get? name = items[index]? := by
    have hempty : made.attribute? id name = none := by
      rw [Run.attribute?_eq hdata, hattributes]
      rfl
    rw [← Run.attribute?_eq hown, hbinds hnodup name items hcell, hempty, Option.or_none]
  have hbefore := Run.attribute?_eq hown' name
  constructor
  · intro value hvalue hnamed
    dsimp only
    rw [hattributes', hproduced.kept name ?_ hnamed ?_, hbefore, hrow, hvalue]
    · rw [hbefore, hrow, hvalue, Option.isSome_some]
    · rw [List.drop_of_length_le hcells]
      exact List.not_mem_nil
  · intro hnone hempty
    rw [bindArguments, if_pos hempty] at hbound
    cases hbound
    exact (hattributes' name).trans (hbefore.trans (hrow.trans hnone))

/-- One row is made in the course of an application. -/
def Makes (below : Evaluator) (setting : Setting) (scope : Scope) (definition : Definition)
    (arguments : Arguments Expr) (cells : List (String × List Value)) (index : Nat)
    (begun ended : Run) (value : Value) : Prop :=
  ∃ before after id, begun.Continues before ∧
    below.applyRow scope definition arguments cells index setting before = (.ok id, after) ∧
      after.Continues ended ∧ value = .template id

/-- For each row there is a value, which is the instance of that row. -/
theorem applyRows_ok {definition : Definition} {cells : List (String × List Value)}
    {index count : Nat} {values : List Value}
    (hcells : definition.parameterNames.length ≤ cells.length)
    (h : (upTo fuel).applyRows scope definition arguments cells index count setting run =
      (.ok values, ended)) :
    run.Continues ended ∧ values.length = count ∧ ∀ (row : Nat) value, values[row]? = some value →
      (upTo fuel).Makes setting scope definition arguments cells (index + row) run ended value := by
  induction count generalizing index run values with
  | zero =>
    cases h
    exact ⟨.refl _, rfl, fun _ _ hvalue => by cases hvalue⟩
  | succ count ih =>
    obtain ⟨id, mid, hone, h⟩ := (bind_eq_ok _ _).mp h
    obtain ⟨others, final, hrest, h⟩ := (bind_eq_ok _ _).mp h
    cases h
    obtain ⟨_, hproduces, _⟩ := applyRow_ok hcells hone
    have hmid := hproduces.continues
    obtain ⟨hcontinues, hlength, hvalues⟩ := ih hrest
    refine ⟨hmid.trans hcontinues, congrArg (· + 1) hlength, fun row value hvalue => ?_⟩
    cases row with
    | zero =>
      cases hvalue
      exact ⟨run, mid, id, .refl run, hone, hcontinues, rfl⟩
    | succ row =>
      obtain ⟨before, after, id', hbefore, hone', hafter, heq⟩ := hvalues row value hvalue
      rw [Nat.add_right_comm] at hone'
      exact ⟨before, after, id', hmid.trans hbefore, hone', hafter, heq⟩

end Evaluator

end Stencil
