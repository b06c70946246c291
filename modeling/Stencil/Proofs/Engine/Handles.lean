import Stencil.Proofs.Engine.Assignment
import Stencil.Proofs.Render.Invariant
import Stencil.Proofs.Value.Handles

/-!
# Instances in attributes

An attribute may hold numbers of instances, by themselves or inside other values. An assignment
refuses a number that was not issued if it is the value itself, and does not look for numbers inside
other values. Where callers hand over issued numbers only, attributes hold issued numbers only, and
since the instances that a render creates get numbers that were not issued, no attribute leads a
render to one of them.
-/

namespace Stencil

namespace Store

variable {store : Store} {instances : Nat}

/-- What an attribute holds after a further assignment is genuine if what it held and what is
assigned are. -/
theorem genuine_combine {current : Option Value} {value : Value}
    (hcurrent : ∀ held, current = some held → store.Genuine instances held)
    (hvalue : store.Genuine instances value) :
    store.Evolves (Engine.combine current value store).2 ∧
      (Engine.combine current value store).2.Genuine instances
        (Engine.combine current value store).1 := by
  cases current with
  | none => exact ⟨.refl store, hvalue⟩
  | some held =>
    obtain ⟨hfirst, hitems⟩ := genuine_contribution (hcurrent held rfl)
    obtain ⟨hsecond, hmore⟩ :=
      genuine_contribution (hfirst.grows.genuine (Nat.le_refl _) hvalue)
    refine ⟨hfirst.trans hsecond, ?_⟩
    refine ((genuine_closed _ instances).list _).mpr fun item hitem => ?_
    rcases List.mem_append.mp hitem with hitem | hitem
    · exact (hfirst.trans hsecond).grows.genuine (Nat.le_refl _) (hitems item hitem)
    · exact hsecond.grows.genuine (Nat.le_refl _) (hmore item hitem)

end Store

namespace Engine

variable {engine : Engine} {id : InstanceId} {name : String} {value : Value}

/-- A value all of whose numbers the engine has issued. -/
def Genuine (engine : Engine) (value : Value) : Prop :=
  engine.store.Genuine engine.instances.size value

/-- Attributes hold genuine values. -/
def HoldsGenuine (engine : Engine) : Prop :=
  ∀ id data, engine.instance? id = some data → ∀ entry ∈ data.attributes.entries,
    engine.Genuine entry.2

/-! ### Calls -/

/-- The numbers that a call hands over were issued. A number that is assigned by itself need not
be. -/
def Change.Careful (engine : Engine) : Change → Prop
  | .assign _ _ value => (∀ child, value ≠ .template child) → engine.Genuine value
  | .assignAggregate _ _ values => ∀ value ∈ values, engine.Genuine value
  | .supply change => engine.store.Grows (change engine.store)
  | _ => True

/-- The engines that careful calls lead to. -/
inductive Careful : Engine → Prop
  | new (config : Config) : Careful { config }
  | change {engine : Engine} (h : Careful engine) {change : Change}
    (hcareful : change.Careful engine) : Careful (change.apply engine)

/-- Attributes still hold genuine values after a call that sets no others. -/
theorem HoldsGenuine.of_kept {after : Engine} (h : engine.HoldsGenuine)
    (hstore : engine.store.Grows after.store)
    (hsize : engine.instances.size ≤ after.instances.size)
    (hkept : ∀ id data, after.instance? id = some data → ∀ entry ∈ data.attributes.entries,
      (∃ old, engine.instance? id = some old ∧ entry ∈ old.attributes.entries) ∨
        after.Genuine entry.2) : after.HoldsGenuine := by
  intro id data hdata entry hentry
  rcases hkept id data hdata entry hentry with ⟨old, hold, hentry⟩ | hgenuine
  · exact hstore.genuine hsize (h id old hold entry hentry)
  · exact hgenuine

/-- Attributes hold genuine values as long as instances stay the same and the store only grows. -/
theorem HoldsGenuine.of_same {after : Engine} (h : engine.HoldsGenuine)
    (hinstances : after.instances = engine.instances) (hstore : engine.store.Grows after.store) :
    after.HoldsGenuine := by
  refine h.of_kept hstore (Nat.le_of_eq (by rw [hinstances])) fun id data hdata entry hentry => ?_
  rw [instance?, hinstances] at hdata
  exact Or.inl ⟨data, hdata, hentry⟩

/-- Attributes hold genuine values after a call that may change one instance, if those that it sets
are genuine. -/
theorem HoldsGenuine.modify (h : engine.HoldsGenuine) {store : Store} {change : Instance → Instance}
    (hstore : engine.store.Grows store)
    (hchange : ∀ data, engine.instance? id = some data →
      ∀ entry ∈ (change data).attributes.entries,
        entry ∈ data.attributes.entries ∨ store.Genuine engine.instances.size entry.2) :
    ({ engine.modifyInstance id change with store } : Engine).HoldsGenuine := by
  have hsize : (engine.modifyInstance id change).instances.size = engine.instances.size :=
    Array.size_modify
  refine h.of_kept hstore (Nat.le_of_eq hsize.symm) fun other data hdata entry hentry => ?_
  have hdata : (engine.instances.modify id.index change)[other.index]? = some data := hdata
  rw [Array.getElem?_modify] at hdata
  split at hdata
  · next hindex =>
    obtain ⟨old, hold, rfl⟩ := Option.map_eq_some_iff.mp hdata
    have hdata : engine.instance? id = some old := by rwa [instance?, hindex]
    refine (hchange old hdata entry hentry).imp (fun hentry => ⟨old, hold, hentry⟩) fun hnew => ?_
    change store.Genuine (engine.modifyInstance id change).instances.size entry.2
    rwa [hsize]
  · exact Or.inl ⟨data, hdata, hentry⟩

/-- They do after an instance is created, which has none. -/
theorem holdsGenuine_instanceOf (h : engine.HoldsGenuine) (group : GroupId) (name : String) :
    (instanceOf group name engine).2.HoldsGenuine := by
  obtain hsame | ⟨created, hcreated, hsame⟩ := instanceOf_engine engine group name <;> rw [hsame]
  · exact h
  · refine h.of_kept (Store.Evolves.refl _).grows (by simp) fun id data hdata entry hentry => ?_
    have hdata : (engine.instances.push created)[id.index]? = some data := hdata
    rw [Array.getElem?_push] at hdata
    split at hdata
    · cases hdata
      rw [hcreated] at hentry
      cases hentry
    · exact Or.inl ⟨data, hdata, hentry⟩

/-- They do after it is noted that an instance is enclosed by another one. -/
theorem holdsGenuine_adopting (h : engine.HoldsGenuine) (id : InstanceId) (value : Value) :
    (engine.adopting id value).HoldsGenuine := by
  obtain hsame | ⟨child, -, -, hlink⟩ := adopting_cases engine id value
  · rwa [hsame]
  · rw [hlink]
    exact h.modify (Store.Evolves.refl _).grows fun _ _ _ hentry => Or.inl hentry

/-- Whether a number that is assigned by itself was issued is found out. -/
theorem genuine_of_unissued? (hissued : engine.unissued? value = none)
    (hvalue : (∀ child, value ≠ .template child) → engine.Genuine value) :
    engine.Genuine value := by
  cases value with
  | template child =>
    cases hchild : engine.instance? child with
    | none => simp [unissued?, hchild] at hissued
    | some data => exact Store.genuine_template.mpr (Array.getElem?_eq_some_iff.mp hchild).1
  | absent | scalar _ | list _ | mapping _ | iterator _ => exact hvalue fun _ => Value.noConfusion

/-- They do after a genuine value is put into one of them. -/
theorem holdsGenuine_put (h : engine.HoldsGenuine) {data : Instance}
    (hdata : engine.instance? id = some data) (name : String) (hvalue : engine.Genuine value) :
    (engine.put id data name value).HoldsGenuine := by
  have hcurrent (held : Value) (hheld : data.attributes.get? name = some held) :
      engine.Genuine held := h id data hdata _ (Table.mem_of_get? hheld)
  obtain ⟨hevolves, hcombined⟩ := Store.genuine_combine hcurrent hvalue
  refine h.modify hevolves.grows fun other hother entry hentry => ?_
  rcases Table.mem_insert hentry with hentry | hnew
  · exact Or.inl hentry
  · exact Or.inr (hnew.symm ▸ hcombined)

/-- They do after an assignment, for a number by itself is checked and any other value is
genuine. -/
theorem holdsGenuine_assign (h : engine.HoldsGenuine) (id : InstanceId) (name : String)
    (hvalue : (∀ child, value ≠ .template child) → engine.Genuine value) :
    (assign id name value engine).2.HoldsGenuine := by
  have hadopting := holdsGenuine_adopting h id value
  rw [assign_apply]
  split
  · exact h
  · cases hissued : engine.unissued? value with
    | some child => exact h
    | none =>
      simp only
      cases hdata : engine.instance? id with
      | none => exact hadopting
      | some data =>
        simp only
        split
        · refine holdsGenuine_put hadopting ((instance?_adopting engine id value).trans hdata)
            name ?_
          rw [Genuine, store_adopting, size_adopting]
          exact genuine_of_unissued? hissued hvalue
        · exact hadopting

/-- They do after the assignment of an aggregate of genuine values. -/
theorem holdsGenuine_assignAggregate (h : engine.HoldsGenuine) (id : InstanceId) (spec : String)
    {values : List Value} (hvalues : ∀ value ∈ values, engine.Genuine value) :
    (assignAggregate id spec values engine).2.HoldsGenuine := by
  unfold assignAggregate
  cases Aggregate.parse? spec with
  | none => exact h
  | some aggregate =>
    simp only
    split
    · exact h
    · refine holdsGenuine_assign h id aggregate.name fun _ => ?_
      refine ((engine.store.genuine_closed _).mapping _).mpr ⟨fun entry hentry => ?_, nofun⟩
      rcases Table.mem_insertAll hentry with hentry | ⟨pair, hpair, hvalue⟩
      · cases hentry
      · exact hvalue ▸ hvalues pair.2 (List.of_mem_zip hpair).2

/-- They do after an attribute is removed. -/
theorem holdsGenuine_remove (h : engine.HoldsGenuine) (id : InstanceId) (name : String) :
    (remove id name engine).2.HoldsGenuine := by
  rw [remove, bind_apply, getInstance_apply]
  cases engine.instance? id with
  | none => exact h
  | some data =>
    exact h.modify (Store.Evolves.refl _).grows fun _ _ entry hentry =>
      Or.inl (List.eraseP_subset hentry)

/-- They do after a renderer is registered with an instance. -/
theorem holdsGenuine_registerInstanceRenderer (h : engine.HoldsGenuine) (id : InstanceId)
    (type : ScalarType) (renderer : Renderer) :
    (registerInstanceRenderer id type renderer engine).2.HoldsGenuine := by
  rw [registerInstanceRenderer, bind_apply, getInstance_apply]
  cases engine.instance? id with
  | none => exact h
  | some data => exact h.modify (Store.Evolves.refl _).grows fun _ _ entry hentry => Or.inl hentry

/-- So they do after every careful call. -/
theorem holdsGenuine_apply (h : engine.HoldsGenuine) {change : Change}
    (hcareful : change.Careful engine) : (change.apply engine).HoldsGenuine := by
  cases change with
  | defineGroup name style => exact h
  | setSuperGroup id above =>
    change (engine.setSuperGroup id above).1.HoldsGenuine
    rw [setSuperGroup_engine]
    exact h
  | declare id declaration =>
    change (engine.declare id declaration).HoldsGenuine
    rw [declare_engine]
    exact h
  | registerInterface id interface =>
    change (engine.registerInterface id interface).1.HoldsGenuine
    rw [registerInterface_engine]
    exact h
  | instanceOf group name => exact holdsGenuine_instanceOf h group name
  | assign id name value => exact holdsGenuine_assign h id name hcareful
  | assignAggregate id spec values => exact holdsGenuine_assignAggregate h id spec hcareful
  | remove id name => exact holdsGenuine_remove h id name
  | registerInstanceRenderer id type renderer =>
    exact holdsGenuine_registerInstanceRenderer h id type renderer
  | write id out =>
    have hwrite := undisturbed_writeWithin fuel engine id out
    exact h.of_same hwrite.instances hwrite.store.grows
  | configure config => exact h
  | supply change => exact h.of_same rfl hcareful

/-- After careful calls, attributes hold genuine values. -/
theorem Careful.holdsGenuine (h : engine.Careful) : engine.HoldsGenuine := by
  -- What held before a call holds after it because stores only grow.
  induction h with
  | new config => exact fun id data hdata => nomatch hdata
  | change _ hcareful ih => exact holdsGenuine_apply ih hcareful

/-- Each of some calls is careful where it is made. -/
def AllCareful (engine : Engine) : List Change → Prop
  | [] => True
  | change :: rest => change.Careful engine ∧ AllCareful (change.apply engine) rest

/-- Careful calls lead from careful engines to careful ones. -/
theorem Careful.after {changes : List Change} (h : engine.Careful)
    (hcareful : engine.AllCareful changes) : (engine.after changes).Careful := by
  induction changes generalizing engine with
  | nil => exact h
  | cons change rest ih => exact ih (h.change hcareful.1) hcareful.2

/-! ### What assignments check -/

/-- An instance number that was not issued is refused as a value. -/
theorem assign_unissued {child : InstanceId} (hname : '.' ∉ name.toList)
    (hchild : engine.instance? child = none) (id : InstanceId) :
    assign id name (.template child) engine = (.error (.invalidInstance child.index), engine) := by
  rw [assign_apply, if_neg hname]
  simp [unissued?, hchild]

/-- Of any other value, the numbers inside it are not looked at. -/
theorem assign_ok_iff (hvalue : ∀ child, value ≠ .template child) :
    (assign id name value engine).1 = .ok () ↔ '.' ∉ name.toList ∧
      ∃ data, engine.instance? id = some data ∧ data.definition.accepts name := by
  have hissued : engine.unissued? value = none := by
    cases value with
    | template child => exact absurd rfl (hvalue child)
    | absent | scalar _ | list _ | mapping _ | iterator _ => rfl
  rw [assign_fst_eq_ok_iff, and_iff_right hissued]

/-- A value that is taken is genuine, if the numbers inside it are. -/
theorem genuine_of_assign (h : (assign id name value engine).1 = .ok ())
    (hvalue : (∀ child, value ≠ .template child) → engine.Genuine value) :
    engine.Genuine value :=
  genuine_of_unissued? (assign_fst_eq_ok_iff.mp h).2.1 hvalue

/-- The numbers that a genuine value holds are those of instances. -/
theorem Genuine.isSome_instance? {child : InstanceId} (h : engine.Genuine value)
    (hchild : engine.store.Holds value (.template child)) : (engine.instance? child).isSome :=
  Option.isSome_iff_exists.mpr ⟨_, Array.getElem?_eq_getElem (h _ hchild)⟩

/-! ### What renders execute -/

/-- A state of a render in which attributes lead to instances of the caller only: those instances
are as they were before the render, and each number that one of their attributes holds, whatever
the iterators of the attribute have left, is that of one of them. To execute it is to execute the
instance that the caller created. -/
structure Confined (engine : Engine) (run : Run) : Prop where
  callers : ∀ id data, engine.instance? id = some data → run.instances[id.index]? = some data
  stored : ∀ id data name value child, engine.instance? id = some data →
    (name, value) ∈ data.attributes.entries → run.store.Holds value (.template child) →
    ∃ found, engine.instance? child = some found ∧ run.instances[child.index]? = some found

/-- Attributes that hold genuine values lead a render to instances of the caller only. -/
theorem HoldsGenuine.confined (h : engine.HoldsGenuine) {run : Run} {out : Writer}
    (hevolves : (engine.start out).Evolves engine.instances.size run) : engine.Confined run := by
  have hcallers (id : InstanceId) (data : Instance) (hdata : engine.instance? id = some data) :
      run.instances[id.index]? = some data :=
    (hevolves.callers id.index (Array.getElem?_eq_some_iff.mp hdata).1).trans hdata
  refine ⟨hcallers, fun id data name value child hdata hvalue hchild => ?_⟩
  have hgenuine : engine.Genuine value := h id data hdata _ hvalue
  obtain ⟨found, hfound⟩ := Option.isSome_iff_exists.mp
    (hgenuine.isSome_instance? (hevolves.store.grows.holds hgenuine hchild))
  exact ⟨found, hfound, hcallers child found hfound⟩

/-- How numbers of instances get into attributes, and where they lead. -/
structure StoresIssued (engine : Engine) : Prop where
  /-- Attributes hold, at any depth, no numbers but those of instances. -/
  stored : ∀ id data name value child, engine.instance? id = some data →
    (name, value) ∈ data.attributes.entries → engine.store.Holds value (.template child) →
    (engine.instance? child).isSome
  /-- What is taken by an assignment holds no others, if none are inside it. -/
  taken : ∀ id name value child, (assign id name value engine).1 = .ok () →
    ((∀ other, value ≠ .template other) → engine.Genuine value) →
    engine.store.Holds value (.template child) → (engine.instance? child).isSome
  /-- Any other number is refused if it is the value itself. -/
  refused : ∀ id name child, '.' ∉ name.toList → engine.instance? child = none →
    assign id name (.template child) engine = (.error (.invalidInstance child.index), engine)
  /-- But numbers inside a value are not looked at: it is taken whatever they are. -/
  unchecked : ∀ id name value, (∀ child, value ≠ .template child) →
    ((assign id name value engine).1 = .ok () ↔ '.' ∉ name.toList ∧
      ∃ data, engine.instance? id = some data ∧ data.definition.accepts name)
  /-- No attribute leads a render to an instance that the caller did not create. -/
  executed : ∀ id out, engine.Throughout id out engine.Confined ∧
    ∀ fuel, engine.Confined (engine.runWithin fuel id out).2

/-- After careful calls, attributes hold issued numbers only, and throughout each render they lead
to nothing but instances of the caller. -/
theorem stores_issued (h : engine.Careful) : engine.StoresIssued where
  stored id data _ value _ hdata hvalue hchild :=
    have hgenuine : engine.Genuine value := h.holdsGenuine id data hdata _ hvalue
    hgenuine.isSome_instance? hchild
  taken _ _ _ _ hok hvalue hchild := (genuine_of_assign hok hvalue).isSome_instance? hchild
  refused id _ _ hname hchild := assign_unissued hname hchild id
  unchecked _ _ _ hvalue := assign_ok_iff hvalue
  executed id out :=
    ⟨(engine.evolves_throughout id out).imp fun _ => h.holdsGenuine.confined, fun fuel =>
      h.holdsGenuine.confined (evolves_runWithin fuel engine id out)⟩

/-- Calls that assign an instance to another one, in an iterator, in a list and in an object. -/
def nesting : List Change :=
  [.defineGroup "group" .angle, .declare ⟨0⟩ (.template "item" none [.literal "item"]),
    .declare ⟨0⟩ (.template "page" none
      [.expression (.call { callee := .named "item" }) {}, .literal " ",
        .expression (.attribute "first") {}, .literal " ", .expression (.attribute "second") {}]),
    .instanceOf ⟨0⟩ "item", .instanceOf ⟨0⟩ "page",
    .supply fun store => (store.newCursor [.template ⟨0⟩]).2,
    .supply fun store => (store.newObject
      { typeName := "record", face := .fixed "record", properties := [("item", .template ⟨0⟩)] }).2,
    .assign ⟨1⟩ "first" (.iterator ⟨0⟩),
    .assign ⟨1⟩ "second" (.list [.template ⟨0⟩, .scalar (.object ⟨0⟩)])]

/-- The render of the second instance creates an instance of its own, but what its attributes lead
to is the first instance of the caller. -/
theorem stores_issued_nesting :
    let engine := ({} : Engine).after nesting
    engine.Careful ∧ engine.StoresIssued ∧ engine.Throughout ⟨1⟩ {} engine.Confined ∧
      (engine.runWithin 20 ⟨1⟩ {}).2.instances.size = 3 ∧
      (engine.render ⟨1⟩).1.toOption = some "item item itemrecord" := by
  intro engine
  have hcareful : engine.Careful := by
    refine (Careful.new {}).after ⟨trivial, trivial, trivial, trivial, trivial,
      .newCursor _ _, .newObject _ _, fun _ => ?_, fun _ => ?_, trivial⟩
    · refine Store.genuine_iterator.mpr ⟨by decide +kernel, fun item hitem => ?_⟩
      obtain rfl := List.mem_singleton.mp hitem
      exact Store.genuine_template.mpr (by decide +kernel)
    · refine ((Store.genuine_closed _ _).list _).mpr fun item hitem => ?_
      rcases List.mem_pair.mp hitem with rfl | rfl
      · exact Store.genuine_template.mpr (by decide +kernel)
      · refine (Store.genuine_object rfl).mpr fun name part hpart => ?_
        have hpart : (⟨[("item", .template ⟨0⟩)]⟩ : Table Value).get? name = some part := hpart
        cases List.mem_singleton.mp (Table.mem_of_get? hpart)
        exact Store.genuine_template.mpr (by decide +kernel)
  have hissued := stores_issued hcareful
  exact ⟨hcareful, hissued, (hissued.executed ⟨1⟩ {}).1, by decide +kernel, by decide +kernel⟩

/-- An instance that writes another one of its own making, and then its guest. -/
def hosting : Engine :=
  ({} : Engine).after
    [.defineGroup "group" .angle, .declare ⟨0⟩ (.template "item" none [.literal "item"]),
      .declare ⟨0⟩ (.template "page" (some [⟨"guest", none⟩])
        [.expression (.call { callee := .named "item" }) {}, .literal " ",
          .expression (.attribute "guest") {}]),
      .instanceOf ⟨0⟩ "page"]

/-- The number that the next instance will get is taken as a guest if it stands inside a list. The
render gives the number to the instance of its own making, and writes that one twice. -/
theorem not_confined_hosting :
    (hosting.instance? ⟨1⟩).isNone ∧
      (assign ⟨0⟩ "guest" (.template ⟨1⟩) hosting).1 = .error (.invalidInstance 1) ∧
      (assign ⟨0⟩ "guest" (.list [.template ⟨1⟩]) hosting).1 = .ok () ∧
      ((assign ⟨0⟩ "guest" (.list [.template ⟨1⟩]) hosting).2.instance? ⟨1⟩).isNone ∧
      ((assign ⟨0⟩ "guest" (.list [.template ⟨1⟩]) hosting).2.render ⟨0⟩).1.toOption =
        some "item item" := by
  decide +kernel

end Engine

end Stencil
