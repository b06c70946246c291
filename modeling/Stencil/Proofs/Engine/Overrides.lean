import Stencil.Proofs.Engine.Reachable
import Stencil.Proofs.Render.Rows

/-!
# Named arguments in applications

A call may name arguments that the application would bind as well. What is named comes last, so the
attribute is the value of the argument. Reading it comes to that value too, unless the name belongs
to a driver that has run out: the variable that says so hides the attribute.
-/

namespace Stencil

open Render

namespace Evaluator

/-- A call names an argument, and none that comes later has the same name. -/
def Names (arguments : Arguments Expr) (name : String) (expr : Expr) : Prop :=
  ∃ earlier later, arguments.named = earlier ++ (name, expr) :: later ∧
    name ∉ later.map Prod.fst

/-- How the named arguments of a call stand in the instances that an application makes. -/
structure Overrides (below : Evaluator) (setting : Setting) : Prop where
  /-- With one driver, what the call names whose turn it is is read as the value of the argument. -/
  single : ∀ scope driver first more begun value ended,
    below.apply scope driver (first :: more) setting begun = (.ok value, ended) →
      ∀ id, value = .template id ∨ (∃ values, value = .list values ∧ .template id ∈ values) →
        ∃ call element index data,
          (first :: more)[index % (more.length + 1)]? = some call ∧
          below.Maps setting scope call element index begun ended id data ∧
          ∀ name expr, Names call.arguments name expr →
            name ≠ "it" → name ≠ "i" → name ≠ "i0" →
            ∃ value, below.Yields setting scope expr value begun id ended ∧ data.Reads name value
  /-- With several drivers it is so in the rows in which the driver of that name has an element, and
  in all rows where loop variables may be read after their sequence. In other rows the attribute has
  the value of the argument, but it cannot be read. -/
  several : ∀ scope drivers call begun value ended,
    below.applyParallel scope drivers [call] setting begun = (.ok value, ended) →
      ∃ definition looked values,
        below.callee scope call.callee setting begun = (.ok definition, looked) ∧
        value = .list values ∧ ∀ (index : Nat) value, values[index]? = some value →
          ∃ id data, value = .template id ∧ data.definition = definition ∧
            below.Produces setting scope call.arguments begun ended id data ∧
            ∀ name expr, Names call.arguments name expr → name ≠ "i" → name ≠ "i0" →
              ∃ value, below.Yields setting scope expr value begun id ended ∧
                data.attributes.get? name = some value ∧
                (begun.lenient = true ∨ ¬ RunsOut definition.parameterNames
                  (Value.elementsOf looked.store drivers) name index → data.Reads name value) ∧
                (begun.lenient = false → RunsOut definition.parameterNames
                  (Value.elementsOf looked.store drivers) name index → data.Lacks name)

variable {fuel : Nat} {setting : Setting} {scope : Scope}

/-- Every instance that an application to one driver makes is made by the call whose turn it is. -/
theorem maps_of_mem {driver value : Value} {first : Call Expr Chunk}
    {more : List (Call Expr Chunk)} {begun ended : Run} {id : InstanceId}
    (h : (upTo fuel).apply scope driver (first :: more) setting begun = (.ok value, ended))
    (hid : value = .template id ∨ ∃ values, value = .list values ∧ .template id ∈ values) :
    ∃ call element index data,
      (first :: more)[index % (more.length + 1)]? = some call ∧
      (upTo fuel).Maps setting scope call element index begun ended id data := by
  by_cases habsent : driver = .absent
  · subst habsent
    cases h
    rcases hid with hid | ⟨_, hid, _⟩ <;> cases hid
  · cases helements : driver.elementsIn begun.store with
    | none =>
      obtain ⟨made, data, rfl, hmaps⟩ := apply_single_ok helements habsent h
      rcases hid with hid | ⟨_, hid, _⟩
      · cases hid
        exact ⟨first, driver, 0, data, by simp, hmaps⟩
      · cases hid
    | some elements =>
      obtain ⟨values, rfl, hlength, hvalues⟩ := apply_collection_ok helements h
      rcases hid with hid | ⟨_, hid, hmem⟩
      · cases hid
      · cases hid
        obtain ⟨position, hposition⟩ := List.mem_iff_getElem?.mp hmem
        have hlt : position < elements.length :=
          hlength ▸ (List.getElem?_eq_some_iff.mp hposition).1
        obtain ⟨hhole, hmapped⟩ := hvalues position elements[position] (.template id)
          (List.getElem?_eq_getElem hlt) hposition
        have hpresent : elements[position] ≠ .absent := fun heq => nomatch hhole.mpr heq
        obtain ⟨call, made, data, hcall, heq, hmaps⟩ := hmapped hpresent
        cases heq
        exact ⟨call, elements[position], _, data, hcall, hmaps⟩

/-- Named arguments override what an application binds, but not the end of a driver. -/
theorem overrides (fuel : Nat) (setting : Setting) : (upTo fuel).Overrides setting where
  single scope driver first more begun value ended h id hid := by
    obtain ⟨call, element, index, data, hcall, hmaps⟩ := maps_of_mem h hid
    refine ⟨call, element, index, data, hcall, hmaps, fun name expr hnames hit hi hi0 => ?_⟩
    obtain ⟨earlier, later, hsplit, hlater⟩ := hnames
    obtain ⟨given, hyields, hset⟩ := hmaps.named earlier name expr later hsplit hlater
    exact ⟨given, hyields, hmaps.other name given hit hi hi0 hset⟩
  several scope drivers call begun value ended h := by
    obtain ⟨definition, looked, values, hcallee, -, hvalue, -, hrows⟩ := applyParallel_ok h
    refine ⟨definition, looked, values, hcallee, hvalue, fun index value hindex => ?_⟩
    obtain ⟨id, data, rfl, hrow⟩ := hrows index value hindex
    refine ⟨id, data, rfl, hrow.definition_eq, hrow.toProduces, fun name expr hnamed hi hi0 => ?_⟩
    obtain ⟨earlier, later, hsplit, hlater⟩ := hnamed
    obtain ⟨given, hyields, hset⟩ := hrow.named earlier name expr later hsplit hlater
    exact ⟨given, hyields, hset,
      fun hread => Instance.reads_of_attribute (hrow.lookup_eq_none hi hi0 hread) hset,
      fun hstrict hout => hrow.lacks hi hi0 hstrict hout⟩

/-- The second one of two lists is shorter, and the argument that is made of it is named: in the
second row it is set, but cannot be read. -/
theorem overrides_shorter :
    let entry : Definition := .template "entry" (some [{ name := "title" }, { name := "note" }]) []
    let setting : Setting := .ofGroup [entry]
    let run : Run := .ofInstances [(.template "page" none [], [])]
    let drivers : List Value := [.list [.string "a", .string "b"], .list [.string "x"]]
    let call : Call Expr Chunk :=
      { callee := .named "entry", arguments := { named := [("note", .string "-")] } }
    ∃ values ended, (upTo 1).applyParallel ⟨⟨0⟩, []⟩ drivers [call] setting run =
        (.ok (.list values), ended) ∧
      ∃ (id : InstanceId) (data : Instance), values[1]? = some (.template id) ∧
        ended.instances[id.index]? = some data ∧
          data.attributes.get? "note" = some (.string "-") ∧ data.Lacks "note" := by
  intro entry setting run drivers call
  have hok : ((upTo 1).applyParallel ⟨⟨0⟩, []⟩ drivers [call] setting run).1.isOk = true := by
    decide +kernel
  obtain ⟨value, ended, happly⟩ := exists_of_isOk hok
  obtain ⟨definition, looked, values, hcallee, rfl, hrows⟩ :=
    (overrides 1 setting).several _ drivers call run value ended happly
  have hfound : (upTo 1).callee ⟨⟨0⟩, []⟩ (.named "entry") setting run =
      (.ok { entry with group := some ⟨0⟩ }, run) := rfl
  cases hfound.symm.trans hcallee
  obtain ⟨_, _, _, hcallee', -, heq, hlength, -⟩ := applyParallel_ok happly
  cases hfound.symm.trans hcallee'
  cases heq
  obtain ⟨first, second, rfl⟩ := List.length_eq_two.mp hlength
  obtain ⟨id, data, rfl, -, hproduces, hnamed⟩ := hrows 1 second rfl
  have hnames : Names call.arguments "note" (.string "-") := ⟨[], [], rfl, List.not_mem_nil⟩
  obtain ⟨given, ⟨_, _, -, heval, -⟩, hset, -, hlacks⟩ :=
    hnamed "note" _ hnames (by decide) (by decide)
  cases heval
  have hout : RunsOut ["title", "note"] [[.string "a", .string "b"], [.string "x"]] "note" 1 :=
    ⟨[.string "x"], List.mem_cons_of_mem _ List.mem_cons_self, rfl⟩
  exact ⟨_, ended, happly, id, data, rfl, hproduces.stands, hset, hlacks rfl hout⟩

end Evaluator

/-- A template with two formal arguments that is applied to two lists, of which the second one is
shorter, while its second argument is named. -/
def Engine.captioning (options : Options Expr) : Engine :=
  let apply : Expr := .apply [.attribute "titles", .attribute "notes"]
    [{ callee := .named "entry", arguments := { named := [("note", .string "-")] } }]
  ({} : Engine).after
    [.defineGroup "group" .angle,
      .declare ⟨0⟩ (.template "entry" (some [{ name := "title" }, { name := "note" }])
        [.expression (.attribute "title") {}, .expression (.attribute "note") {}]),
      .declare ⟨0⟩ (.template "page" (some [{ name := "titles" }, { name := "notes" }])
        [.expression apply options]),
      .instanceOf ⟨0⟩ "page",
      .assign ⟨0⟩ "titles" (.list [.string "a", .string "b"]),
      .assign ⟨0⟩ "notes" (.list [.string "x"])]

/-- The named argument is not read in the second row, for which the shorter list has no element: the
render fails. With a null option it is read in both rows. -/
theorem Engine.not_overridden_captioning :
    ((captioning {}).render ⟨0⟩).1 =
        .error (.failed (.noSuchAttribute "note" "entry")) ∧
      ((captioning { null := some (.string "") }).render ⟨0⟩).1 = .ok "a-b-" := by
  decide +kernel

end Stencil
