import Stencil.Proofs.Render.Continuation

/-!
# What binding arguments does

The arguments of a call become attributes of the instance that the call created. Binding them
touches nothing else of that instance and no other one. A named argument comes after the positional
ones and before those that are passed through, which leave alone what is set: so it is the last
argument of a name that the attribute is taken from.
-/

namespace Stencil

open Render

namespace Run

/-- The attribute of an instance. -/
def attribute? (run : Run) (id : InstanceId) (name : String) : Option Value :=
  (run.instances[id.index]?).bind fun data => data.attributes.get? name

/-- A state after another one that differs in the attributes of one instance, and in instances that
were added. -/
structure Fills (id : InstanceId) (before after : Run) : Prop where
  others : ∀ {index data}, index ≠ id.index → before.instances[index]? = some data →
    after.instances[index]? = some data
  own : ∀ {data}, before.instances[id.index]? = some data →
    ∃ attributes, after.instances[id.index]? = some { data with attributes }
  lenient : after.lenient = before.lenient

variable {id : InstanceId} {first second third run before after : Run} {data : Instance}

/-- The attribute of an instance that is there is found in it. -/
theorem attribute?_eq (h : run.instances[id.index]? = some data) (name : String) :
    run.attribute? id name = data.attributes.get? name := by
  rw [attribute?, h, Option.bind_some]

/-- What comes later leaves the attributes of an instance alone. -/
theorem Continues.attribute? (h : before.Continues after)
    (hdata : before.instances[id.index]? = some data) (name : String) :
    after.attribute? id name = before.attribute? id name := by
  rw [attribute?_eq hdata, attribute?_eq (h.getElem? hdata)]

/-- What leaves all instances alone leaves them alone but for one. -/
theorem Continues.fills (h : before.Continues after) (id : InstanceId) : before.Fills id after where
  others _ := h.getElem?
  own {data} hdata := ⟨data.attributes, h.getElem? hdata⟩
  lenient := h.lenient

namespace Fills

/-- Where nothing is done nothing is filled. -/
theorem refl (id : InstanceId) (run : Run) : run.Fills id run := (Continues.refl run).fills id

/-- An instance that is filled twice is filled. -/
theorem trans (h : first.Fills id second) (h' : second.Fills id third) : first.Fills id third where
  others hindex hdata := h'.others hindex (h.others hindex hdata)
  own hdata := by
    obtain ⟨_, hsecond⟩ := h.own hdata
    obtain ⟨attributes, hthird⟩ := h'.own hsecond
    exact ⟨attributes, hthird⟩
  lenient := h'.lenient.trans h.lenient

end Fills

/-- The state after an attribute of an instance is set. -/
def binding (run : Run) (id : InstanceId) (name : String) (value : Value) : Run :=
  { run with instances := run.instances.modify id.index fun data =>
      { data with attributes := data.attributes.insert name value } }

/-- An attribute is set in the instance that it is set in. -/
theorem getElem?_binding (hdata : run.instances[id.index]? = some data) (name : String)
    (value : Value) : (run.binding id name value).instances[id.index]? =
      some { data with attributes := data.attributes.insert name value } := by
  rw [binding, Array.getElem?_modify, if_pos rfl, hdata, Option.map_some]

/-- Setting an attribute fills the instance. -/
theorem fills_binding (run : Run) (id : InstanceId) (name : String) (value : Value) :
    run.Fills id (run.binding id name value) where
  others {index data} hindex hdata := by
    have hne : id.index ≠ index := Ne.symm hindex
    rw [binding, Array.getElem?_modify, if_neg hne, hdata]
  own hdata := ⟨_, getElem?_binding hdata name value⟩
  lenient := rfl

/-- An attribute that is set is found. -/
theorem attribute?_binding_self (hdata : run.instances[id.index]? = some data) (name : String)
    (value : Value) : (run.binding id name value).attribute? id name = some value := by
  rw [attribute?_eq (getElem?_binding hdata name value), Table.get?_insert_self]

/-- Setting an attribute leaves others alone. -/
theorem attribute?_binding_of_ne (hdata : run.instances[id.index]? = some data)
    {name other : String} (h : other ≠ name) (value : Value) :
    (run.binding id name value).attribute? id other = run.attribute? id other := by
  rw [attribute?_eq (getElem?_binding hdata name value), Table.get?_insert_of_ne _ _ h,
    attribute?_eq hdata]

end Run

namespace Evaluator

/-- While an instance is given its arguments, a state in which it has some of them, an expression
comes to a value. -/
def Gives (below : Evaluator) (setting : Setting) (scope : Scope) (id : InstanceId) (expr : Expr)
    (value : Value) (begun ended : Run) : Prop :=
  ∃ before after, begun.Fills id before ∧
    below.eval scope expr setting before = (.ok value, after) ∧ after.Fills id ended

variable {fuel : Nat} {setting : Setting} {scope : Scope} {id : InstanceId}
variable {run ended : Run} {data : Instance}

/-- An argument that is given later is given from the beginning on. -/
theorem Gives.before {below : Evaluator} {expr : Expr} {value : Value} {begun mid : Run}
    (h : below.Gives setting scope id expr value mid ended) (hfills : begun.Fills id mid) :
    below.Gives setting scope id expr value begun ended := by
  obtain ⟨before, after, hbefore, heval, hafter⟩ := h
  exact ⟨before, after, hfills.trans hbefore, heval, hafter⟩

/-- An argument that is given stays given while the instance is filled. -/
theorem Gives.after {below : Evaluator} {expr : Expr} {value : Value} {begun mid : Run}
    (h : below.Gives setting scope id expr value begun mid) (hfills : mid.Fills id ended) :
    below.Gives setting scope id expr value begun ended := by
  obtain ⟨before, after, hbefore, heval, hafter⟩ := h
  exact ⟨before, after, hbefore, heval, hafter.trans hfills⟩

/-- An argument is evaluated, and then its value is bound. -/
theorem bindOne_ok {expr : Expr} (name : String) {value : Value} {mid : Run}
    (hown : run.instances[id.index]? = some data)
    (heval : (upTo fuel).eval scope expr setting run = (.ok value, mid)) :
    run.Fills id (mid.binding id name value) ∧
      (mid.binding id name value).attribute? id name = some value ∧
      ∀ other, other ≠ name →
        (mid.binding id name value).attribute? id other = run.attribute? id other := by
  have hmid : run.Continues mid := by
    simpa only [heval] using continues_eval fuel setting scope run expr
  have hown' := hmid.getElem? hown
  refine ⟨(hmid.fills id).trans (Run.fills_binding mid id name value),
    Run.attribute?_binding_self hown' name value, fun other hother => ?_⟩
  rw [Run.attribute?_binding_of_ne hown' hother, hmid.attribute? hown]

/-- Positional arguments are bound to nothing but the formal arguments they belong to. -/
theorem bindPositional_ok {pairs : List (Formal Expr × Expr)}
    (hown : run.instances[id.index]? = some data)
    (h : (upTo fuel).bindPositional scope id pairs setting run = (.ok (), ended)) :
    run.Fills id ended ∧ ∀ name, name ∉ pairs.map (fun pair => pair.1.name) →
      ended.attribute? id name = run.attribute? id name := by
  induction pairs generalizing run data with
  | nil =>
    cases h
    exact ⟨.refl _ _, fun _ _ => rfl⟩
  | cons pair rest ih =>
    obtain ⟨formal, expr⟩ := pair
    obtain ⟨value, mid, heval, h⟩ := (bind_eq_ok _ _).mp h
    obtain ⟨hone, -, hothers⟩ := bindOne_ok formal.name hown heval
    obtain ⟨attributes, hown'⟩ := hone.own hown
    obtain ⟨hrest, hkept⟩ := ih hown' h
    refine ⟨hone.trans hrest, fun name hname => ?_⟩
    obtain ⟨hne, hmem⟩ := not_or.mp (mt List.mem_cons.mpr hname)
    rw [hkept name hmem, hothers name hne]

/-- Of several named arguments of one name the last one is bound in the end. -/
theorem bindNamed_ok {definition : Definition} {named : List (String × Expr)}
    (hown : run.instances[id.index]? = some data)
    (h : (upTo fuel).bindNamed scope id definition named setting run = (.ok (), ended)) :
    run.Fills id ended ∧
      (∀ name, name ∉ named.map Prod.fst →
        ended.attribute? id name = run.attribute? id name) ∧
      ∀ earlier name expr later, named = earlier ++ (name, expr) :: later →
        name ∉ later.map Prod.fst → ∃ value,
          (upTo fuel).Gives setting scope id expr value run ended ∧
            ended.attribute? id name = some value := by
  induction named generalizing run data with
  | nil =>
    cases h
    exact ⟨.refl _ _, fun _ _ => rfl, fun earlier _ _ _ hsplit => by cases earlier <;> cases hsplit⟩
  | cons entry rest ih =>
    obtain ⟨name, expr⟩ := entry
    obtain ⟨⟨⟩, checked, hchecked, h⟩ := (bind_eq_ok _ _).mp h
    obtain ⟨-, rfl⟩ := (failIf_eq_ok _ _).mp hchecked
    obtain ⟨value, mid, heval, h⟩ := (bind_eq_ok _ _).mp h
    obtain ⟨hone, hself, hothers⟩ := bindOne_ok name hown heval
    obtain ⟨attributes, hown'⟩ := hone.own hown
    obtain ⟨hrest, hkept, hlast⟩ := ih hown' h
    refine ⟨hone.trans hrest, fun other hother => ?_, ?_⟩
    · obtain ⟨hne, hmem⟩ := not_or.mp (mt List.mem_cons.mpr hother)
      rw [hkept other hmem, hothers other hne]
    · intro earlier other expr' later hsplit hlater
      cases earlier with
      | nil =>
        cases hsplit
        refine ⟨value, ⟨run, mid, .refl _ _, heval, ?_⟩, (hkept name hlater).trans hself⟩
        exact (Run.fills_binding mid id name value).trans hrest
      | cons first earlier =>
        cases hsplit
        obtain ⟨given, hgives, hattribute⟩ := hlast earlier other expr' later rfl hlater
        exact ⟨given, hgives.before hone, hattribute⟩

/-- Passing through leaves alone what is set. -/
theorem passOne_ok {formal : Formal Expr} (hown : run.instances[id.index]? = some data)
    (h : (upTo fuel).passOne scope id formal setting run = (.ok (), ended)) :
    run.Fills id ended ∧ ∀ name, (run.attribute? id name).isSome →
      ended.attribute? id name = run.attribute? id name := by
  rw [passOne, bind_apply_ok _ _ (getInstance_apply_some _ _ hown)] at h
  split at h
  · cases h
    exact ⟨.refl _ _, fun _ _ => rfl⟩
  · next hunset =>
    obtain ⟨found, mid, hfound, h⟩ := (bind_eq_ok _ _).mp h
    rw [ifDeclared_apply] at hfound
    have hmid : run.Continues mid := by
      have hresolve := continues_resolve fuel setting scope run formal.name
      rwa [show ((upTo fuel).resolve scope formal.name setting run).2 = mid from
        congrArg Prod.snd hfound] at hresolve
    rw [Render.bindTaken] at h
    cases htaken : formal.taken? found with
    | some value =>
      rw [htaken] at h
      cases h
      have hown' := hmid.getElem? hown
      refine ⟨(hmid.fills id).trans (Run.fills_binding mid id formal.name value),
        fun name hset => ?_⟩
      have hne : name ≠ formal.name := by
        rintro rfl
        rw [Run.attribute?_eq hown] at hset
        exact hunset hset
      exact (Run.attribute?_binding_of_ne hown' hne value).trans (hmid.attribute? hown name)
    | none =>
      rw [htaken] at h
      cases h
      exact ⟨hmid.fills id, fun name _ => hmid.attribute? hown name⟩

/-- Passing arguments through fills the instance and leaves what is set alone. -/
theorem bindPassed_ok {formals : List (Formal Expr)}
    (hown : run.instances[id.index]? = some data)
    (h : (upTo fuel).bindPassed scope id formals setting run = (.ok (), ended)) :
    run.Fills id ended ∧ ∀ name, (run.attribute? id name).isSome →
      ended.attribute? id name = run.attribute? id name := by
  induction formals generalizing run data with
  | nil =>
    cases h
    exact ⟨.refl _ _, fun _ _ => rfl⟩
  | cons formal rest ih =>
    obtain ⟨⟨⟩, mid, hfirst, h⟩ := (bind_eq_ok _ _).mp h
    obtain ⟨hone, hkept⟩ := passOne_ok hown hfirst
    obtain ⟨attributes, hown'⟩ := hone.own hown
    obtain ⟨hrest, hkept'⟩ := ih hown' h
    refine ⟨hone.trans hrest, fun name hset => ?_⟩
    have hsame := hkept name hset
    exact (hkept' name (hsame ▸ hset)).trans hsame

/-- The check that no argument is missing changes nothing. -/
theorem requireBound_ok {formals : List (Formal Expr)} {error : RenderError}
    (h : requireBound id formals error setting run = (.ok (), ended)) : run = ended := by
  obtain ⟨found, mid, hfound, h⟩ := (bind_eq_ok _ _).mp h
  rw [getInstance_apply] at hfound
  have hmid : run = mid := congrArg Prod.snd hfound
  exact hmid.trans ((failIf_eq_ok _ _).mp h).2

/-- What binding the arguments of a call does to the instance that the call created. -/
structure Binds (below : Evaluator) (setting : Setting) (scope : Scope) (id : InstanceId)
    (definition : Definition) (arguments : Arguments Expr) (start : Nat) (begun ended : Run) :
    Prop where
  fills : begun.Fills id ended
  /-- What is set stays, unless an argument is given for it. -/
  kept : ∀ name, (begun.attribute? id name).isSome → name ∉ arguments.named.map Prod.fst →
    name ∉ (definition.parameterNames.drop start) →
    ended.attribute? id name = begun.attribute? id name
  /-- What is named has the value of the last argument that names it. -/
  named : ∀ earlier name expr later, arguments.named = earlier ++ (name, expr) :: later →
    name ∉ later.map Prod.fst → ∃ value,
      below.Gives setting scope id expr value begun ended ∧ ended.attribute? id name = some value

/-- A call without arguments binds them by doing nothing. -/
theorem binds_of_isEmpty {definition : Definition} {arguments : Arguments Expr} {start : Nat}
    {below : Evaluator} (h : arguments.isEmpty) :
    below.Binds setting scope id definition arguments start run run where
  fills := .refl _ _
  kept _ _ _ _ := rfl
  named earlier name expr later hsplit := by
    simp [Arguments.isEmpty, hsplit] at h

/-- A call whose arguments could be bound has bound them. -/
theorem binds_of_ok {definition : Definition} {arguments : Arguments Expr} {start : Nat}
    (hown : run.instances[id.index]? = some data)
    (h : (upTo fuel).bindArguments scope id definition arguments start setting run =
      (.ok (), ended)) :
    (upTo fuel).Binds setting scope id definition arguments start run ended := by
  unfold bindArguments at h
  split at h
  · next hempty =>
    cases h
    exact binds_of_isEmpty hempty
  · obtain ⟨⟨⟩, _, hchecked, h⟩ := (bind_eq_ok _ _).mp h
    obtain ⟨-, rfl⟩ := (failIf_eq_ok _ _).mp hchecked
    obtain ⟨⟨⟩, _, hchecked, h⟩ := (bind_eq_ok _ _).mp h
    obtain ⟨-, rfl⟩ := (failIf_eq_ok _ _).mp hchecked
    obtain ⟨⟨⟩, first, hpositional, h⟩ := (bind_eq_ok _ _).mp h
    obtain ⟨⟨⟩, second, hnamed, h⟩ := (bind_eq_ok _ _).mp h
    obtain ⟨⟨⟩, third, hpassed, h⟩ := (bind_eq_ok _ _).mp h
    cases requireBound_ok h
    -- Each round fills the instance and leaves alone what an earlier round gave.
    obtain ⟨hfirst, hkept⟩ := bindPositional_ok hown hpositional
    obtain ⟨_, hown'⟩ := hfirst.own hown
    obtain ⟨hsecond, hkept', hlast⟩ := bindNamed_ok hown' hnamed
    obtain ⟨_, hown''⟩ := hsecond.own hown'
    obtain ⟨hthird, hset⟩ := bindPassed_ok hown'' hpassed
    refine ⟨(hfirst.trans hsecond).trans hthird, ?_, ?_⟩
    · intro name hbefore hnotnamed hclosed
      have hopen : name ∉ ((definition.parameters.drop start).zip arguments.positional).map
          (fun pair => pair.1.name) := by
        intro hmem
        obtain ⟨⟨formal, expr⟩, hpair, rfl⟩ := List.mem_map.mp hmem
        have hformal := List.mem_map_of_mem (f := Formal.name) (List.of_mem_zip hpair).1
        rw [List.map_drop] at hformal
        exact hclosed hformal
      have hsame := (hkept' name hnotnamed).trans (hkept name hopen)
      exact (hset name (hsame ▸ hbefore)).trans hsame
    · intro earlier name expr later hsplit hlater
      obtain ⟨value, hgives, hattribute⟩ := hlast earlier name expr later hsplit hlater
      refine ⟨value, (hgives.before hfirst).after hthird, ?_⟩
      rw [hset name (hattribute ▸ rfl), hattribute]

end Evaluator

end Stencil
