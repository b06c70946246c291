import Stencil.Proofs.Engine.Reachable

/-!
# Assignments

An assignment is checked in several places: the name must be one that can be assigned to, a value
that is an instance must have been issued, and so must the instance that is assigned to, which must
accept the name. In between, an instance that is given as the value is linked to the one that it is
assigned to. This module says what an assignment does in each case, and with that what is left of
one that fails.
-/

namespace Stencil.Engine

variable {engine after : Engine} {id child : InstanceId} {name : String} {value : Value}

/-- An engine gives an instance that it has, and refuses an index of none. -/
theorem getInstance_apply (engine : Engine) (id : InstanceId) :
    getInstance id engine = (match engine.instance? id with
      | some data => .ok data
      | none => .error (.invalidInstance id.index), engine) := by
  change (match engine.instance? id with
    | some data => (pure data : Action Instance)
    | none => throw (RenderError.invalidInstance id.index)) engine = _
  cases engine.instance? id <;> rfl

/-! ### Links -/

/-- To change an instance leaves the other ones alone. -/
theorem instance?_modifyInstance (engine : Engine) (id other : InstanceId)
    (change : Instance → Instance) :
    (engine.modifyInstance id change).instance? other =
      if other = id then (engine.instance? id).map change else engine.instance? other := by
  rw [instance?, modifyInstance, Array.getElem?_modify]
  by_cases hother : other = id
  · subst hother
    rw [if_pos rfl, if_pos rfl]
    rfl
  · have hindex : id.index ≠ other.index := fun h => hother (by cases id; cases other; simp_all)
    rw [if_neg hindex, if_neg hother]
    rfl

/-- The engine after an instance was linked to the one that it is assigned to. -/
def link (engine : Engine) (child id : InstanceId) : Engine :=
  engine.modifyInstance child fun data => { data with enclosing := some id }

/-- The engine after a value was noted as assigned to an instance. Only an instance is linked, and
none to itself. -/
def adopting (engine : Engine) (id : InstanceId) : Value → Engine
  | .template child => if child = id then engine else engine.link child id
  | _ => engine

/-- The instance number that a value is, if no instance has it. -/
def unissued? (engine : Engine) : Value → Option InstanceId
  | .template child => if (engine.instance? child).isSome then none else some child
  | _ => none

/-- A value is adopted unless there is an instance in it that the engine did not issue. -/
theorem adopt_apply (engine : Engine) (id : InstanceId) (value : Value) :
    adopt id value engine = match engine.unissued? value with
      | some child => (.error (.invalidInstance child.index), engine)
      | none => (.ok (), engine.adopting id value) := by
  cases value with
  | template child =>
    rw [adopt, bind_apply, getInstance_apply]
    cases hchild : engine.instance? child with
    | none => simp [unissued?, hchild]
    | some data =>
      simp only [unissued?, hchild, Option.isSome_some, if_true, adopting, ne_eq, ite_not]
      split <;> rfl
  | absent | scalar _ | list _ | mapping _ | iterator _ => rfl

/-- To adopt a value changes nothing, or it links another instance to the one that is assigned
to. -/
theorem adopting_cases (engine : Engine) (id : InstanceId) (value : Value) :
    engine.adopting id value = engine ∨ ∃ child, value = .template child ∧ child ≠ id ∧
      engine.adopting id value = engine.link child id := by
  cases value with
  | template child =>
    by_cases hchild : child = id
    · exact Or.inl (if_pos hchild)
    · exact Or.inr ⟨child, rfl, hchild, if_neg hchild⟩
  | absent | scalar _ | list _ | mapping _ | iterator _ => exact Or.inl rfl

/-- The instance that is assigned to is not changed by linking another one to it. -/
theorem instance?_adopting (engine : Engine) (id : InstanceId) (value : Value) :
    (engine.adopting id value).instance? id = engine.instance? id := by
  obtain hsame | ⟨child, -, hchild, hlink⟩ := adopting_cases engine id value
  · rw [hsame]
  · rw [hlink, link, instance?_modifyInstance, if_neg (Ne.symm hchild)]

/-- To adopt a value leaves the store alone. -/
theorem store_adopting (engine : Engine) (id : InstanceId) (value : Value) :
    (engine.adopting id value).store = engine.store := by
  obtain hsame | ⟨child, -, -, hlink⟩ := adopting_cases engine id value
  · rw [hsame]
  · rw [hlink]
    rfl

/-- It adds no instance. -/
theorem size_adopting (engine : Engine) (id : InstanceId) (value : Value) :
    (engine.adopting id value).instances.size = engine.instances.size := by
  obtain hsame | ⟨child, -, -, hlink⟩ := adopting_cases engine id value
  · rw [hsame]
  · rw [hlink]
    exact Array.size_modify

/-! ### What an assignment does -/

/-- The engine after a value was put to those that an attribute has. -/
def put (engine : Engine) (id : InstanceId) (data : Instance) (name : String) (value : Value) :
    Engine :=
  let combined := combine (data.attributes.get? name) value engine.store
  { engine.modifyInstance id fun data =>
      { data with attributes := data.attributes.insert name combined.1 } with
    store := combined.2 }

/-- What an assignment answers and what it leaves behind, for all that it may be given. -/
theorem assign_apply (engine : Engine) (id : InstanceId) (name : String) (value : Value) :
    assign id name value engine =
      if '.' ∈ name.toList then (.error (.invalidAttributeName name), engine)
      else match engine.unissued? value with
        | some child => (.error (.invalidInstance child.index), engine)
        | none => match engine.instance? id with
          | none => (.error (.invalidInstance id.index), engine.adopting id value)
          | some data =>
            if data.definition.accepts name then
              (.ok (), (engine.adopting id value).put id data name value)
            else
              (.error (.noSuchAttribute name data.definition.name),
                engine.adopting id value) := by
  unfold assign
  by_cases hdot : '.' ∈ name.toList
  · rw [if_pos hdot, if_pos (List.contains_iff_mem.mpr hdot)]
    rfl
  rw [if_neg hdot, if_neg (by rwa [List.contains_iff_mem])]
  simp only [bind_apply, adopt_apply]
  cases engine.unissued? value with
  | some child => rfl
  | none =>
    simp only [getInstance_apply, instance?_adopting]
    cases engine.instance? id with
    | none => rfl
    | some data =>
      simp only
      by_cases haccepts : data.definition.accepts name = true
      · rw [if_pos haccepts, if_neg (by simp [haccepts])]
        rfl
      · rw [if_neg haccepts, if_pos (by simp [haccepts])]
        rfl

/-- When an assignment succeeds, and what it leaves behind then. -/
theorem assign_eq_ok_iff : assign id name value engine = (.ok (), after) ↔
    '.' ∉ name.toList ∧ engine.unissued? value = none ∧ ∃ data, engine.instance? id = some data ∧
      data.definition.accepts name ∧ after = (engine.adopting id value).put id data name value := by
  rw [assign_apply]
  constructor
  · intro h
    split at h
    · cases congrArg Prod.fst h
    · next hdot =>
      refine ⟨hdot, ?_⟩
      cases hissued : engine.unissued? value with
      | some child =>
        rw [hissued] at h
        cases congrArg Prod.fst h
      | none =>
        cases hdata : engine.instance? id with
        | none =>
          rw [hissued, hdata] at h
          cases congrArg Prod.fst h
        | some data =>
          simp only [hissued, hdata] at h
          split at h
          · next haccepts => exact ⟨rfl, data, rfl, haccepts, (congrArg Prod.snd h).symm⟩
          · cases congrArg Prod.fst h
  · rintro ⟨hdot, hissued, data, hdata, haccepts, rfl⟩
    simp only [hdot, hissued, hdata, haccepts, if_false, if_true]

/-- A value is assigned if and only if the name is accepted and every instance is issued. -/
theorem assign_fst_eq_ok_iff : (assign id name value engine).1 = .ok () ↔
    '.' ∉ name.toList ∧ engine.unissued? value = none ∧
      ∃ data, engine.instance? id = some data ∧ data.definition.accepts name := by
  constructor
  · intro h
    obtain ⟨hdot, hissued, data, hdata, haccepts, -⟩ := assign_eq_ok_iff.mp (Prod.ext h rfl)
    exact ⟨hdot, hissued, data, hdata, haccepts⟩
  · rintro ⟨hdot, hissued, data, hdata, haccepts⟩
    exact congrArg Prod.fst (assign_eq_ok_iff.mpr ⟨hdot, hissued, data, hdata, haccepts, rfl⟩)

/-- The attribute that a specification names, and the mapping with values under its entries. There
are none if the text is no specification of so many entries. -/
def mappingOf? (spec : String) (values : List Value) : Option (String × Value) :=
  (Aggregate.parse? spec).bind fun aggregate =>
    if aggregate.entries.length = values.length then
      some (aggregate.name,
        .mapping { entries := Table.insertAll {} (aggregate.entries.zip values) })
    else none

/-- An assignment of an aggregate is the assignment of a mapping. -/
theorem assignAggregate_apply (engine : Engine) (id : InstanceId) (spec : String)
    (values : List Value) :
    assignAggregate id spec values engine = match mappingOf? spec values with
      | some (name, value) => assign id name value engine
      | none => (.error (.malformedAggregate spec), engine) := by
  unfold assignAggregate mappingOf?
  cases Aggregate.parse? spec with
  | none => rfl
  | some aggregate =>
    by_cases hlength : aggregate.entries.length = values.length
    · simp only [hlength, ne_eq, not_true_eq_false, if_false, Option.bind_some, if_true]
    · simp only [hlength, ne_eq, not_false_eq_true, if_true, Option.bind_some, if_false]
      rfl

/-! ### Assignments that fail -/

/-- An instance is given as a value for an attribute of another one, and is not linked to it yet.
Such an assignment makes the link before the other instance, and the name in it, are checked. -/
structure Strays (engine : Engine) (id : InstanceId) (name : String) (value : Value)
    (child : InstanceId) : Prop where
  given : value = .template child
  other : child ≠ id
  plain : '.' ∉ name.toList
  apart : ∃ data, engine.instance? child = some data ∧ data.enclosing ≠ some id

/-- Linking an instance changes the engine unless it is linked that way already. -/
theorem link_eq_self_iff {data : Instance} (h : engine.instance? child = some data) :
    engine.link child id = engine ↔ data.enclosing = some id := by
  have hlinked : (engine.link child id).instance? child =
      some { data with enclosing := some id } := by
    rw [link, instance?_modifyInstance, if_pos rfl, h]
    rfl
  constructor
  · intro heq
    rw [heq, h] at hlinked
    exact congrArg Instance.enclosing (Option.some.inj hlinked)
  · intro henclosing
    have hsame : engine.instances.modify child.index
        (fun data => { data with enclosing := some id }) = engine.instances := by
      apply Array.ext_getElem?
      intro index
      rw [Array.getElem?_modify]
      split
      · next hindex =>
        have hdata : engine.instances[index]? = some data := hindex ▸ h
        rw [hdata, ← henclosing]
        rfl
      · rfl
    rw [link, modifyInstance, hsame]

/-- An instance that the engine has is issued. -/
theorem unissued?_template {data : Instance} (h : engine.instance? child = some data) :
    engine.unissued? (.template child) = none := by
  rw [unissued?, h]
  rfl

/-- An assignment that strays leaves a link behind. -/
theorem Strays.ne (h : engine.Strays id name value child) : engine.link child id ≠ engine := by
  obtain ⟨data, hdata, henclosing⟩ := h.apart
  exact fun heq => henclosing ((link_eq_self_iff hdata).mp heq)

/-- Only an assignment that strays changes an engine before all is checked. -/
theorem adopting_eq_self (hplain : '.' ∉ name.toList) (hissued : engine.unissued? value = none)
    (h : ∀ child, ¬ engine.Strays id name value child) : engine.adopting id value = engine := by
  obtain hsame | ⟨child, rfl, hchild, hlink⟩ := adopting_cases engine id value
  · exact hsame
  · rw [hlink]
    cases hdata : engine.instance? child with
    | none => simp [unissued?, hdata] at hissued
    | some data =>
      refine (link_eq_self_iff hdata).mpr (Decidable.not_not.mp fun hapart => h child ?_)
      exact ⟨rfl, hchild, hplain, data, hdata, hapart⟩

/-- What a failed assignment leaves behind: the engine as it was, unless the assignment strays.
Then the value is linked to the instance that it was not assigned to, and all else is as it was. -/
theorem assign_error {error : RenderError}
    (h : assign id name value engine = (.error error, after)) :
    (after = engine ↔ ∀ child, ¬ engine.Strays id name value child) ∧
      ∀ child, engine.Strays id name value child → after = engine.link child id := by
  have hkept (hafter : after = engine) (hstrays : ∀ child, ¬ engine.Strays id name value child) :
      (after = engine ↔ ∀ child, ¬ engine.Strays id name value child) ∧
        ∀ child, engine.Strays id name value child → after = engine.link child id :=
    ⟨⟨fun _ => hstrays, fun _ => hafter⟩, fun child hchild => absurd hchild (hstrays child)⟩
  rw [assign_apply] at h
  by_cases hdot : '.' ∈ name.toList
  · rw [if_pos hdot] at h
    exact hkept (congrArg Prod.snd h).symm fun child hchild => hchild.plain hdot
  rw [if_neg hdot] at h
  cases hissued : engine.unissued? value with
  | some missing =>
    rw [hissued] at h
    refine hkept (congrArg Prod.snd h).symm fun child hchild => ?_
    obtain ⟨data, hdata, -⟩ := hchild.apart
    rw [hchild.given, unissued?_template hdata] at hissued
    cases hissued
  | none =>
    -- From here on the link is made, and only the other instance and the name can be refused.
    have hafter : after = engine.adopting id value := by
      rw [hissued] at h
      simp only at h
      split at h
      · exact (congrArg Prod.snd h).symm
      · split at h
        · cases congrArg Prod.fst h
        · exact (congrArg Prod.snd h).symm
    have hlink (child : InstanceId) (hchild : engine.Strays id name value child) :
        after = engine.link child id := by
      rw [hafter, hchild.given, adopting, if_neg hchild.other]
    refine ⟨⟨fun hsame child hchild => hchild.ne ((hlink child hchild).symm.trans hsame), ?_⟩,
      hlink⟩
    intro hstrays
    rw [hafter, adopting_eq_self hdot hissued hstrays]

/-- What a failed assignment of an aggregate leaves behind is the engine as it was. -/
theorem assignAggregate_error {spec : String} {values : List Value} {error : RenderError}
    (h : assignAggregate id spec values engine = (.error error, after)) : after = engine := by
  unfold assignAggregate at h
  cases hspec : Aggregate.parse? spec with
  | none =>
    rw [hspec] at h
    exact (congrArg Prod.snd h).symm
  | some aggregate =>
    simp only [hspec] at h
    split at h
    · exact (congrArg Prod.snd h).symm
    · refine (assign_error h).1.mpr fun child hchild => ?_
      cases hchild.given

/-- An assignment that fails changes nothing in the engine, unless it strays; an aggregate never
does. What an assignment that strays changes is the link of the instance that is its value. -/
theorem failed_assign (engine : Engine) (id : InstanceId) :
    (∀ name value error after, assign id name value engine = (.error error, after) →
      (after = engine ↔ ∀ child, ¬ engine.Strays id name value child) ∧
        ∀ child, engine.Strays id name value child → after = engine.link child id) ∧
      ∀ spec values error after,
        assignAggregate id spec values engine = (.error error, after) → after = engine :=
  ⟨fun _ _ _ _ => assign_error, fun _ _ _ _ => assignAggregate_error⟩

/-- Two instances of a template with one attribute, which is set for the first one. -/
def paired : Engine :=
  ({} : Engine).after
    [.defineGroup "group" .angle, .declare ⟨0⟩ (.template "page" (some [⟨"title", none⟩]) []),
      .instanceOf ⟨0⟩ "page", .instanceOf ⟨0⟩ "page", .assign ⟨0⟩ "title" (.string "text")]

/-- A text, an instance that was not issued and an aggregate are refused without a trace. -/
theorem failed_assign_paired :
    assign ⟨0⟩ "author" (.string "name") paired =
        (.error (.noSuchAttribute "author" "page"), paired) ∧
      assign ⟨1⟩ "title" (.template ⟨2⟩) paired = (.error (.invalidInstance 2), paired) ∧
      assignAggregate ⟨0⟩ "title.\x7bfirst,last\x7d" [.string "name"] paired =
        (.error (.malformedAggregate "title.\x7bfirst,last\x7d"), paired) := by
  have hfailed := failed_assign paired
  -- The errors are computed; what is left behind comes from the theorem.
  refine ⟨?_, ?_, ?_⟩
  · have hresult : (assign ⟨0⟩ "author" (.string "name") paired).1 =
        .error (.noSuchAttribute "author" "page") := by decide +kernel
    refine Prod.ext hresult (((hfailed ⟨0⟩).1 _ _ _ _ (Prod.ext hresult rfl)).1.mpr ?_)
    exact fun child hchild => nomatch hchild.given
  · have hresult : (assign ⟨1⟩ "title" (.template ⟨2⟩) paired).1 = .error (.invalidInstance 2) := by
      decide +kernel
    refine Prod.ext hresult (((hfailed ⟨1⟩).1 _ _ _ _ (Prod.ext hresult rfl)).1.mpr ?_)
    intro child hchild
    obtain ⟨data, hdata, -⟩ := hchild.apart
    cases hchild.given
    cases hdata
  · have hresult : (assignAggregate ⟨0⟩ "title.\x7bfirst,last\x7d" [.string "name"] paired).1 =
        .error (.malformedAggregate "title.\x7bfirst,last\x7d") := by decide +kernel
    exact Prod.ext hresult ((hfailed ⟨0⟩).2 _ _ _ _ (Prod.ext hresult rfl))

/-- An instance is refused as the value of an attribute that there is not, and as a value for an
instance that there is not. It is taken to be inside the other instance all the same. -/
theorem not_unchanged_paired :
    (assign ⟨0⟩ "author" (.template ⟨1⟩) paired).1 =
        .error (.noSuchAttribute "author" "page") ∧
      (paired.instance? ⟨1⟩).bind Instance.enclosing = none ∧
      ((assign ⟨0⟩ "author" (.template ⟨1⟩) paired).2.instance? ⟨1⟩).bind Instance.enclosing =
        some ⟨0⟩ ∧
      (assign ⟨7⟩ "title" (.template ⟨1⟩) paired).1 = .error (.invalidInstance 7) ∧
      ((assign ⟨7⟩ "title" (.template ⟨1⟩) paired).2.instance? ⟨1⟩).bind Instance.enclosing =
        some ⟨7⟩ := by
  decide +kernel

end Stencil.Engine
