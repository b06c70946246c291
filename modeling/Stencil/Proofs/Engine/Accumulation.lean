import Stencil.Proofs.Engine.Assignment
import Stencil.Proofs.Value.Contributions
import Stencil.Proofs.Value.Insertions

/-!
# Several assignments to one attribute

An attribute that is assigned once holds the value. One that is assigned more often holds the list
of what the values contribute, first to last: an iterator that was assigned first contributes what
it has left when the second value is assigned, and each other one what it has left when it is
assigned itself. What is done to the engine in between does not matter, unless the attribute is
taken away.
-/

namespace Stencil.Engine

variable {engine after : Engine} {id other : InstanceId} {name : String} {value : Value}
  {change : Change} {changes : List Change}

/-! ### What instances hold -/

/-- The attributes of an instance. -/
def attributesOf? (engine : Engine) (id : InstanceId) : Option (Table Value) :=
  (engine.instance? id).map Instance.attributes

/-- What an instance holds under a name. -/
def attribute? (engine : Engine) (id : InstanceId) (name : String) : Option Value :=
  (engine.attributesOf? id).bind fun attributes => attributes.get? name

/-- What an instance holds, in order, apart from the attribute of one instance. -/
def apartFrom (engine : Engine) (id : InstanceId) (name : String) (other : InstanceId) :
    Option (List (String × Value)) :=
  (engine.attributesOf? other).map fun attributes =>
    if other = id then attributes.others name else attributes.entries

/-- A change of one instance changes no attributes but those of that instance. -/
theorem attributesOf?_modifyInstance (engine : Engine) (id other : InstanceId)
    (change : Instance → Instance) :
    (engine.modifyInstance id change).attributesOf? other =
      if other = id then (engine.instance? id).map fun data => (change data).attributes
      else engine.attributesOf? other := by
  rw [attributesOf?, instance?_modifyInstance]
  split
  · rw [Option.map_map]
    rfl
  · rfl

/-- A change that leaves attributes alone leaves those of all instances alone. -/
theorem attributesOf?_modifyInstance_of_kept {change : Instance → Instance}
    (h : ∀ data, (change data).attributes = data.attributes) (engine : Engine)
    (id other : InstanceId) :
    (engine.modifyInstance id change).attributesOf? other = engine.attributesOf? other := by
  rw [attributesOf?_modifyInstance]
  split
  · next hother =>
    simp only [h, hother]
    rfl
  · rfl

/-- A link is no attribute. -/
theorem attributesOf?_link (engine : Engine) (child id other : InstanceId) :
    (engine.link child id).attributesOf? other = engine.attributesOf? other := by
  apply attributesOf?_modifyInstance_of_kept
  exact fun _ => rfl

/-- Noting that an instance is enclosed by another one is such a change. -/
theorem attributesOf?_adopting (engine : Engine) (id other : InstanceId) (value : Value) :
    (engine.adopting id value).attributesOf? other = engine.attributesOf? other := by
  obtain hsame | ⟨child, -, -, hlink⟩ := adopting_cases engine id value
  · rw [hsame]
  · rw [hlink, attributesOf?_link]

/-! ### One assignment -/

/-- An assignment that fails leaves all attributes as they are. -/
theorem attributesOf?_assign_error {error : RenderError}
    (h : assign id name value engine = (.error error, after)) (other : InstanceId) :
    after.attributesOf? other = engine.attributesOf? other := by
  obtain ⟨hkept, hstrayed⟩ := assign_error h
  by_cases hstrays : ∃ child, engine.Strays id name value child
  · obtain ⟨child, hstrays⟩ := hstrays
    rw [hstrayed child hstrays, attributesOf?_link]
  · rw [hkept.mpr fun child hchild => hstrays ⟨child, hchild⟩]

/-- An assignment that succeeds puts the value to what is there. It changes nothing in other
instances. -/
theorem attributesOf?_assign_ok (h : assign id name value engine = (.ok (), after))
    (other : InstanceId) :
    after.attributesOf? other = if other = id then (engine.attributesOf? id).map fun attributes =>
        attributes.insert name (combine (attributes.get? name) value engine.store).1
      else engine.attributesOf? other := by
  obtain ⟨-, -, data, hdata, -, rfl⟩ := assign_eq_ok_iff.mp h
  have hid : engine.attributesOf? id = some data.attributes := by
    rw [attributesOf?, hdata]
    rfl
  refine (attributesOf?_modifyInstance _ id other _).trans ?_
  rw [instance?_adopting, store_adopting, attributesOf?_adopting, hdata, hid]
  rfl

/-- After an assignment the attribute is combined of what was there and of the value. -/
theorem attribute?_assign_ok (h : assign id name value engine = (.ok (), after)) :
    after.attribute? id name =
      some (combine (engine.attribute? id name) value engine.store).1 := by
  obtain ⟨-, -, data, hdata, -, -⟩ := assign_eq_ok_iff.mp h
  rw [attribute?, attributesOf?_assign_ok h, if_pos rfl, attribute?, attributesOf?, hdata]
  exact Table.get?_insert_self ..

/-- After a failed assignment all attributes are as they were. -/
theorem attribute?_assign_error {error : RenderError}
    (h : assign id name value engine = (.error error, after)) (other : InstanceId)
    (field : String) : after.attribute? other field = engine.attribute? other field :=
  congrArg (Option.bind · _) (attributesOf?_assign_error h other)

/-- An assignment does not touch other attributes. -/
theorem attribute?_assign_of_ne {field : String} (h : ¬(id = other ∧ name = field)) :
    (assign id name value engine).2.attribute? other field = engine.attribute? other field := by
  rcases hresult : (assign id name value engine).1 with error | _
  · exact attribute?_assign_error (Prod.ext hresult rfl) other field
  · rw [attribute?, attributesOf?_assign_ok (Prod.ext hresult rfl)]
    split
    · next hid =>
      subst hid
      have hfield : field ≠ name := fun hname => h ⟨rfl, hname.symm⟩
      rw [attribute?]
      cases engine.attributesOf? other with
      | none => rfl
      | some attributes => exact Table.get?_insert_of_ne attributes _ hfield
    · rfl

/-- An assignment uses up what the combination of the values does. -/
theorem store_assign_ok (h : assign id name value engine = (.ok (), after)) :
    after.store = (combine (engine.attribute? id name) value engine.store).2 := by
  obtain ⟨-, -, data, hdata, -, rfl⟩ := assign_eq_ok_iff.mp h
  rw [attribute?, attributesOf?, hdata, put, store_adopting]
  rfl

/-! ### Calls that assign -/

/-- The assignment that a call asks for: the instance, the name and the value. -/
def Change.request? : Change → Option (InstanceId × String × Value)
  | .assign id name value => some (id, name, value)
  | .assignAggregate id spec values =>
    (mappingOf? spec values).map fun (name, value) => (id, name, value)
  | _ => none

/-- A call that asks for an assignment makes it. -/
theorem apply_of_request (h : change.request? = some (id, name, value)) :
    change.apply engine = (assign id name value engine).2 := by
  cases change with
  | assign target field given =>
    cases h
    rfl
  | assignAggregate target spec values =>
    obtain ⟨⟨field, given⟩, hmapping, heq⟩ := Option.map_eq_some_iff.mp h
    cases heq
    change (assignAggregate id spec values engine).2 = _
    rw [assignAggregate_apply, hmapping]
  | defineGroup _ _ | setSuperGroup _ _ | declare _ _ | registerInterface _ _ | instanceOf _ _
  | remove _ _ | registerInstanceRenderer _ _ _ | write _ _ | configure _ | supply _ => cases h

/-- A new instance has no attributes, and others keep theirs. -/
theorem attribute?_instanceOf (engine : Engine) (group : GroupId) (template : String) :
    (instanceOf group template engine).2.attribute? id name = engine.attribute? id name := by
  obtain hsame | ⟨created, hcreated, hpush⟩ := instanceOf_engine engine group template
  · rw [hsame]
  -- The new instance has no attributes, and no instance had its number before.
  · rw [hpush, attribute?, attribute?, attributesOf?, attributesOf?, instance?, instance?,
      Array.getElem?_push]
    split
    · next hindex =>
      rw [hindex, Array.getElem?_eq_none (Nat.le_refl _), Option.map_some, hcreated]
      rfl
    · rfl

/-- The removal of an attribute leaves others alone. -/
theorem attribute?_remove_of_ne {field : String} (h : ¬(id = other ∧ name = field)) :
    (remove id name engine).2.attribute? other field = engine.attribute? other field := by
  rw [remove, bind_apply, getInstance_apply]
  cases hdata : engine.instance? id with
  | none => rfl
  | some data =>
    change (engine.modifyInstance id _).attribute? other field = _
    rw [attribute?, attributesOf?_modifyInstance]
    split
    · next hother =>
      subst hother
      have hfield : field ≠ name := fun heq => h ⟨rfl, heq.symm⟩
      rw [attribute?, attributesOf?, hdata]
      exact Table.get?_erase_of_ne data.attributes hfield
    · rfl

/-- A renderer for an instance leaves attributes alone. -/
theorem attribute?_registerInstanceRenderer (engine : Engine) (target : InstanceId)
    (type : ScalarType) (renderer : Renderer) :
    (registerInstanceRenderer target type renderer engine).2.attribute? id name =
      engine.attribute? id name := by
  rw [registerInstanceRenderer, bind_apply, getInstance_apply]
  cases engine.instance? target with
  | none => rfl
  | some data =>
    change (engine.modifyInstance target _).attribute? id name = _
    rw [attribute?, attributesOf?_modifyInstance_of_kept, attribute?]
    exact fun _ => rfl

/-- A call that asks for no assignment does not touch an attribute, unless it takes it away. -/
theorem attribute?_apply_of_no_request (h : change.request? = none)
    (hremove : change ≠ .remove id name) :
    (change.apply engine).attribute? id name = engine.attribute? id name := by
  obtain hinstances | ⟨group, template, rfl⟩ | ⟨target, field, given, rfl⟩ |
    ⟨target, spec, values, rfl⟩ | ⟨target, field, rfl⟩ | ⟨target, type, renderer, rfl⟩ :=
    change.instances_cases engine
  · rw [attribute?, attributesOf?, instance?, hinstances]
    rfl
  · exact attribute?_instanceOf engine group template
  · cases h
  · have hmapping : mappingOf? spec values = none := Option.map_eq_none_iff.mp h
    change (assignAggregate target spec values engine).2.attribute? id name = _
    rw [assignAggregate_apply, hmapping]
  · refine attribute?_remove_of_ne fun hsame => hremove ?_
    rw [hsame.1, hsame.2]
  · exact attribute?_registerInstanceRenderer engine target type renderer

/-- The value that a call assigns to an attribute, if it succeeds in this. -/
def Change.assigned? (change : Change) (engine : Engine) (id : InstanceId) (name : String) :
    Option Value :=
  match change.request? with
  | some (target, field, value) =>
    if target = id ∧ field = name ∧ (Engine.assign id name value engine).1.isOk then some value
    else none
  | none => none

/-- A value is assigned by a call that asks for it and succeeds. -/
theorem assigned?_eq_some_iff : change.assigned? engine id name = some value ↔
    change.request? = some (id, name, value) ∧
      assign id name value engine = (.ok (), change.apply engine) := by
  have hok : (assign id name value engine).1.isOk ↔ (assign id name value engine).1 = .ok () := by
    cases (assign id name value engine).1 <;> simp [Except.isOk, Except.toBool]
  unfold Change.assigned?
  constructor
  · intro h
    split at h
    · next target field given hrequest =>
      split at h
      · next hsame =>
        obtain ⟨rfl, rfl, hisOk⟩ := hsame
        cases h
        exact ⟨hrequest, Prod.ext (hok.mp hisOk) (apply_of_request hrequest).symm⟩
      · cases h
    · cases h
  · rintro ⟨hrequest, hassign⟩
    simp only [hrequest, hok.mpr (congrArg Prod.fst hassign), and_self, if_true]

/-- What a call does to an attribute: it assigns a value to it, or it leaves it as it is. -/
theorem attribute?_apply (engine : Engine) (hremove : change ≠ .remove id name) :
    (change.apply engine).attribute? id name = match change.assigned? engine id name with
      | some value => some (combine (engine.attribute? id name) value engine.store).1
      | none => engine.attribute? id name := by
  cases hassigned : change.assigned? engine id name with
  | some value => exact attribute?_assign_ok (assigned?_eq_some_iff.mp hassigned).2
  | none =>
    cases hrequest : change.request? with
    | none => exact attribute?_apply_of_no_request hrequest hremove
    | some request =>
      obtain ⟨target, field, given⟩ := request
      have happly : change.apply engine = (assign target field given engine).2 :=
        apply_of_request hrequest
      rw [happly]
      -- An assignment to this attribute that is not noted has failed.
      by_cases hsame : target = id ∧ field = name
      · obtain ⟨rfl, rfl⟩ := hsame
        rcases hresult : (assign target field given engine).1 with error | _
        · exact attribute?_assign_error (Prod.ext hresult rfl) target field
        · have hassign : assign target field given engine = (.ok (), change.apply engine) :=
            Prod.ext hresult happly.symm
          cases hassigned.symm.trans (assigned?_eq_some_iff.mpr ⟨hrequest, hassign⟩)
      · exact attribute?_assign_of_ne hsame

/-! ### Runs of calls -/

/-- The values that calls assign to an attribute, first to last, each with the store in which it is
assigned. -/
def assignments (id : InstanceId) (name : String) : Engine → List Change → List (Value × Store)
  | _, [] => []
  | engine, change :: rest =>
    match change.assigned? engine id name with
    | some value => (value, engine.store) :: assignments id name (change.apply engine) rest
    | none => assignments id name (change.apply engine) rest

/-- What an attribute holds after values were assigned to it, each in a store: one value as it is,
and several as the list of what they contribute. The first one does not contribute before there is
a second one. -/
def accumulated : List (Value × Store) → Option Value
  | [] => none
  | [(value, _)] => some value
  | (first, _) :: (second, store) :: rest =>
    some (.list (first.items store ++ second.items (store.absorb first) ++
      rest.flatMap fun (value, store) => value.items store))

/-- With a value that is there already, a value makes a list of what both contribute. -/
theorem combine_some_apply (current value : Value) (store : Store) :
    combine (some current) value store =
      (.list (current.items store ++ value.items (store.absorb current)),
        (store.absorb current).absorb value) := by
  have hcombine : combine (some current) value store =
      (.list ((current.contribution store).1 ++
        (value.contribution (current.contribution store).2).1),
        (value.contribution (current.contribution store).2).2) := rfl
  rw [hcombine, Store.contribution_apply, Store.contribution_apply]

/-- One more assignment puts its value to what was accumulated. -/
theorem accumulated_concat (earlier : List (Value × Store)) (value : Value) (store : Store) :
    accumulated (earlier ++ [(value, store)]) =
      some (combine (accumulated earlier) value store).1 := by
  -- With the second value the attribute becomes a list, and it stays one.
  match earlier with
  | [] => rfl
  | [(first, _)] => simp [accumulated, combine_some_apply]
  | (first, _) :: (second, _) :: rest =>
    simp [accumulated, combine_some_apply, Value.items, Store.absorb]

/-- While an attribute is not taken away, it accumulates what is assigned to it. -/
theorem attribute?_after (earlier : List (Value × Store))
    (h : engine.attribute? id name = accumulated earlier) (hremove : .remove id name ∉ changes) :
    (engine.after changes).attribute? id name =
      accumulated (earlier ++ assignments id name engine changes) := by
  -- Each call of the run adds at most one value to those that were assigned earlier.
  induction changes generalizing engine earlier with
  | nil => rw [assignments, List.append_nil, ← h, after, List.foldl_nil]
  | cons change rest ih =>
    obtain ⟨hne, hrest⟩ := List.ne_and_not_mem_of_not_mem_cons hremove
    have hstep := attribute?_apply engine (Ne.symm hne)
    change ((change.apply engine).after rest).attribute? id name = _
    rw [assignments]
    cases hassigned : change.assigned? engine id name with
    | none =>
      rw [hassigned] at hstep
      exact ih earlier (hstep.trans h) hrest
    | some value =>
      rw [hassigned, h] at hstep
      rw [ih _ (hstep.trans (accumulated_concat earlier value engine.store).symm) hrest,
        List.append_assoc, List.singleton_append]

/-! ### What is not assigned to -/

/-- An assignment leaves everything apart from its attribute as it was. -/
theorem apartFrom_assign (engine : Engine) (id other : InstanceId) (name : String)
    (value : Value) : (assign id name value engine).2.apartFrom id name other =
      engine.apartFrom id name other := by
  simp only [apartFrom]
  rcases hresult : (assign id name value engine).1 with error | _
  · rw [attributesOf?_assign_error (Prod.ext hresult rfl)]
  · rw [attributesOf?_assign_ok (Prod.ext hresult rfl)]
    by_cases hother : other = id
    · subst hother
      simp only [if_true, Option.map_map, Function.comp_def, Table.others_insert]
    · simp only [if_neg hother]

/-- Calls that ask for nothing but assignments to one attribute do not touch the others. -/
theorem apartFrom_after
    (h : ∀ change ∈ changes, ∃ value, change.request? = some (id, name, value)) :
    (engine.after changes).apartFrom id name other = engine.apartFrom id name other := by
  induction changes generalizing engine with
  | nil => rfl
  | cons change rest ih =>
    obtain ⟨value, hrequest⟩ := h change List.mem_cons_self
    have hstep : change.apply engine = (assign id name value engine).2 := apply_of_request hrequest
    have hrest : ((change.apply engine).after rest).apartFrom id name other =
        (change.apply engine).apartFrom id name other :=
      ih fun change hchange => h change (List.mem_cons_of_mem _ hchange)
    exact hrest.trans (hstep ▸ apartFrom_assign engine id other name value)

/-- The values that contribute when one is assigned: none if the attribute was not set. -/
def contributors : Option Value → Value → List Value
  | none, _ => []
  | some current, value => [current, value]

/-- The iterators that have contributed are left empty, and all others are as they were. -/
theorem remaining_assign_ok (h : assign id name value engine = (.ok (), after))
    (cursor : CursorId) : after.store.remaining cursor =
      if (contributors (engine.attribute? id name) value).any (·.walks cursor) then []
      else engine.store.remaining cursor := by
  rw [store_assign_ok h]
  cases engine.attribute? id name with
  | none => rfl
  | some current =>
    rw [combine_some_apply, Store.remaining_absorb, Store.remaining_absorb]
    by_cases hcurrent : current.walks cursor <;> simp [contributors, hcurrent]

/-- A failed assignment uses nothing up. -/
theorem store_assign_error {error : RenderError}
    (h : assign id name value engine = (.error error, after)) : after.store = engine.store := by
  obtain ⟨hkept, hstrayed⟩ := assign_error h
  by_cases hstrays : ∃ child, engine.Strays id name value child
  · obtain ⟨child, hstrays⟩ := hstrays
    rw [hstrayed child hstrays]
    rfl
  · rw [hkept.mpr fun child hchild => hstrays ⟨child, hchild⟩]

/-- Calls that assign nothing take items from iterators, and give none. -/
theorem evolves_apply_of_no_request (engine : Engine) (h : change.request? = none)
    (hsupply : ∀ supply, change ≠ .supply supply) :
    engine.store.Evolves (change.apply engine).store := by
  have hsame {after : Engine} (h : after.store = engine.store) :
      engine.store.Evolves after.store := h ▸ .refl _
  cases change with
  | defineGroup _ _ | configure _ => exact .refl _
  | setSuperGroup target above =>
    have hengine := setSuperGroup_engine engine target above
    exact hsame (congrArg Engine.store hengine :)
  | declare target declaration => exact hsame (declare_store engine target declaration)
  | registerInterface target interface =>
    have hengine := registerInterface_engine engine target interface
    exact hsame (congrArg Engine.store hengine :)
  | instanceOf group template =>
    refine hsame ?_
    change (instanceOf group template engine).2.store = engine.store
    obtain hsame | ⟨created, -, hpush⟩ := instanceOf_engine engine group template
    · rw [hsame]
    · rw [hpush]
  | assign target field given => cases h
  | assignAggregate target spec values =>
    -- Without a request the specification gives no mapping, and nothing is done.
    have hmapping : mappingOf? spec values = none := Option.map_eq_none_iff.mp h
    change engine.store.Evolves (assignAggregate target spec values engine).2.store
    rw [assignAggregate_apply, hmapping]
    exact .refl _
  | remove target field =>
    change engine.store.Evolves (remove target field engine).2.store
    rw [remove, bind_apply, getInstance_apply]
    cases engine.instance? target <;> exact .refl _
  | registerInstanceRenderer target type renderer =>
    change engine.store.Evolves (registerInstanceRenderer target type renderer engine).2.store
    rw [registerInstanceRenderer, bind_apply, getInstance_apply]
    cases engine.instance? target <;> exact .refl _
  | write target out => exact (undisturbed_writeWithin fuel engine target out).store
  | supply supply => exact absurd rfl (hsupply supply)

/-- Only what is supplied from outside can give items to an iterator that has none left. -/
theorem remaining_apply {cursor : CursorId} (hsupply : ∀ supply, change ≠ .supply supply)
    (h : engine.store.remaining cursor = []) :
    (change.apply engine).store.remaining cursor = [] := by
  cases hrequest : change.request? with
  | some request =>
    obtain ⟨target, field, given⟩ := request
    have happly : change.apply engine = (assign target field given engine).2 :=
      apply_of_request hrequest
    rw [happly]
    rcases hresult : (assign target field given engine).1 with error | _
    · rwa [store_assign_error (Prod.ext hresult rfl)]
    · rw [remaining_assign_ok (Prod.ext hresult rfl), h, ite_self]
  | none =>
    have hevolves := evolves_apply_of_no_request engine hrequest hsupply
    have hremaining := hevolves.remaining cursor
    rw [h] at hremaining
    exact List.suffix_nil.mp hremaining

/-- An iterator that is used up stays so, unless the caller changes the store. -/
theorem remaining_after {cursor : CursorId} (hsupply : ∀ supply, .supply supply ∉ changes)
    (h : engine.store.remaining cursor = []) :
    (engine.after changes).store.remaining cursor = [] := by
  induction changes generalizing engine with
  | nil => exact h
  | cons change rest ih =>
    have hne (supply : Store → Store) : change ≠ .supply supply := fun heq =>
      hsupply supply (heq ▸ List.mem_cons_self)
    exact ih (fun supply hmem => hsupply supply (List.mem_cons_of_mem _ hmem))
      (remaining_apply hne h)

/-- A run that assigns to an attribute that was set leaves the iterators empty that are assigned in
it, and so the one that the attribute was set to. -/
theorem remaining_after_held {current : Value} {cursor : CursorId}
    (hheld : engine.attribute? id name = some current) (hremove : .remove id name ∉ changes)
    (hsupply : ∀ supply, .supply supply ∉ changes)
    (hassigned : assignments id name engine changes ≠ [])
    (hvalue : value = current ∨ value ∈ (assignments id name engine changes).map Prod.fst)
    (hwalks : value.walks cursor) : (engine.after changes).store.remaining cursor = [] := by
  induction changes generalizing engine current with
  | nil => exact absurd rfl hassigned
  | cons change rest ih =>
    obtain ⟨hne, hrest⟩ := List.ne_and_not_mem_of_not_mem_cons hremove
    have hsupply' (supply : Store → Store) : .supply supply ∉ rest := fun hmem =>
      hsupply supply (List.mem_cons_of_mem _ hmem)
    have hstep := attribute?_apply engine (Ne.symm hne)
    change ((change.apply engine).after rest).store.remaining cursor = []
    rw [assignments] at hassigned hvalue
    cases hgiven : change.assigned? engine id name with
    | none =>
      rw [hgiven] at hstep hassigned hvalue
      exact ih (hstep.trans hheld) hrest hsupply' hassigned hvalue
    | some given =>
      rw [hgiven] at hstep hvalue
      have hemptied := remaining_assign_ok (assigned?_eq_some_iff.mp hgiven).2 cursor
      rw [List.map_cons, List.mem_cons, ← or_assoc] at hvalue
      rcases hvalue with hfirst | hlater
      · refine remaining_after hsupply' (hemptied.trans (if_pos ?_))
        rcases hfirst with rfl | rfl <;> simp [hheld, contributors, hwalks]
      · refine ih hstep hrest hsupply' (fun hnil => ?_) (Or.inr hlater)
        rw [hnil] at hlater
        cases hlater

/-- A run that assigns to an attribute more than once leaves all iterators empty that it assigns. -/
theorem remaining_after_unset {cursor : CursorId} (hunset : engine.attribute? id name = none)
    (hremove : .remove id name ∉ changes) (hsupply : ∀ supply, .supply supply ∉ changes)
    (hassigned : 1 < (assignments id name engine changes).length)
    (hvalue : value ∈ (assignments id name engine changes).map Prod.fst)
    (hwalks : value.walks cursor) : (engine.after changes).store.remaining cursor = [] := by
  induction changes generalizing engine with
  | nil => cases hvalue
  | cons change rest ih =>
    obtain ⟨hne, hrest⟩ := List.ne_and_not_mem_of_not_mem_cons hremove
    have hsupply' (supply : Store → Store) : .supply supply ∉ rest := fun hmem =>
      hsupply supply (List.mem_cons_of_mem _ hmem)
    have hstep := attribute?_apply engine (Ne.symm hne)
    change ((change.apply engine).after rest).store.remaining cursor = []
    rw [assignments] at hassigned hvalue
    cases hgiven : change.assigned? engine id name with
    | none =>
      rw [hgiven] at hstep hassigned hvalue
      exact ih (hstep.trans hunset) hrest hsupply' hassigned hvalue
    | some first =>
      rw [hgiven, hunset] at hstep
      rw [hgiven] at hassigned hvalue
      have hmore : assignments id name (change.apply engine) rest ≠ [] := fun hnil => by
        simp [hnil] at hassigned
      exact remaining_after_held hstep hrest hsupply' hmore (List.mem_cons.mp hvalue) hwalks

/-- What it means that an attribute accumulates what is assigned to it. -/
structure Accumulates (engine : Engine) (id : InstanceId) (name : String) : Prop where
  /-- An assignment succeeds if the name and the value can be assigned. -/
  taken : ∀ value, (assign id name value engine).1 = .ok () ↔
    '.' ∉ name.toList ∧ engine.unissued? value = none ∧
      ∃ data, engine.instance? id = some data ∧ data.definition.accepts name
  /-- An attribute that was not set holds what all values contribute that are assigned to it,
  whatever else is done, unless it is taken away. -/
  held : ∀ changes, engine.attribute? id name = none → .remove id name ∉ changes →
    (engine.after changes).attribute? id name =
      accumulated (assignments id name engine changes)
  /-- The other attributes are not touched by this, and neither is their order. -/
  others : ∀ changes, (∀ change ∈ changes, ∃ value, change.request? = some (id, name, value)) →
    ∀ other, (engine.after changes).apartFrom id name other = engine.apartFrom id name other
  /-- All iterators that are assigned are empty in the end, if there was more than one assignment
  and nothing is supplied from outside. -/
  drained : ∀ changes, engine.attribute? id name = none → .remove id name ∉ changes →
    (∀ supply, .supply supply ∉ changes) → 1 < (assignments id name engine changes).length →
    ∀ value ∈ (assignments id name engine changes).map Prod.fst, ∀ cursor,
      value.walks cursor → (engine.after changes).store.remaining cursor = []
  /-- In each single assignment, the iterators that contribute are left empty, and all others as
  they are. -/
  emptied : ∀ (change : Change) value, change.assigned? engine id name = some value →
    ∀ cursor, (change.apply engine).store.remaining cursor =
      if (contributors (engine.attribute? id name) value).any (·.walks cursor) then []
      else engine.store.remaining cursor

/-- Each attribute accumulates what is assigned to it. -/
theorem accumulates (engine : Engine) (id : InstanceId) (name : String) :
    engine.Accumulates id name where
  taken _ := assign_fst_eq_ok_iff
  held _ hunset hremove := attribute?_after [] hunset hremove
  others _ h _ := apartFrom_after h
  drained _ hunset hremove hsupply hassigned _ hvalue _ hwalks :=
    remaining_after_unset hunset hremove hsupply hassigned hvalue hwalks
  emptied _ _ hassigned := remaining_assign_ok (assigned?_eq_some_iff.mp hassigned).2

/-- Calls that assign an iterator twice to one attribute, and then nothing. -/
def feeding : List Change :=
  [.defineGroup "group" .angle, .declare ⟨0⟩ (.template "page" none []), .instanceOf ⟨0⟩ "page",
    .supply fun store => (store.newCursor [.string "a", .string "b"]).2,
    .assign ⟨0⟩ "items" (.iterator ⟨0⟩), .assign ⟨0⟩ "items" (.iterator ⟨0⟩),
    .assign ⟨0⟩ "items" .absent]

/-- The items of the iterator come once, and what is absent is an item like others. -/
theorem accumulates_feeding :
    (({} : Engine).after feeding).attribute? ⟨0⟩ "items" =
        accumulated (assignments ⟨0⟩ "items" {} feeding) ∧
      (assignments ⟨0⟩ "items" {} feeding).length = 3 ∧
      (accumulated (assignments ⟨0⟩ "items" {} feeding)).map
        (fun value => (value.items {}).map Value.text?) = some [some "a", some "b", none] ∧
      (({} : Engine).after feeding).store.hasNext ⟨0⟩ = false := by
  have hremove : .remove ⟨0⟩ "items" ∉ feeding := by simp [feeding]
  exact ⟨(accumulates {} ⟨0⟩ "items").held feeding rfl hremove, by decide +kernel,
    by decide +kernel, by decide +kernel⟩

end Stencil.Engine
