import Stencil.Proofs.Engine.Entries

/-!
# Bodies of regions

A group may have nothing for a region, a place that is still empty, or a body. Calls lead from each
of these to the ones after it and never back: once a region has a body in a group, that body stays.
-/

namespace Stencil

/-- What a group may come to have under a name in place of what it had. -/
inductive Definition.Succeeds : Option Definition → Option Definition → Prop where
  | same (kept : Option Definition) : Succeeds kept kept
  | added (definition : Definition) : Succeeds none (some definition)
  /-- An empty place is filled. -/
  | filled {place body : Definition} (hplace : place.isPlace) (hbody : body.isBody) :
    Succeeds (some place) (some body)
  /-- A region comes under the name of a template that is no region. -/
  | displaced {template region : Definition} (htemplate : template.regionKind? = none)
    (hregion : region.regionKind?.isSome) : Succeeds (some template) (some region)

namespace Definition

/-- A body may succeed whatever is not a body. -/
theorem Succeeds.of_isBody {kept : Option Definition} {body : Definition}
    (hkept : ¬ kept.any isBody = true) (hbody : body.isBody) : Succeeds kept (some body) := by
  cases kept with
  | none => exact .added body
  | some definition =>
    cases hkind : definition.regionKind? with
    | none =>
      refine .displaced hkind ?_
      unfold isBody at hbody
      cases hregion : body.regionKind? with
      | none => simp [hregion] at hbody
      | some kind => rfl
    | some kind =>
      refine .filled ?_ hbody
      cases kind with
      | implicit => simp [isPlace, hkind]
      | embedded => simp [isBody, hkind, RegionKind.hasBody] at hkept
      | explicit => simp [isBody, hkind, RegionKind.hasBody] at hkept

/-- What settles a mention of a region may come after what was kept. -/
theorem succeeds_settled (id : GroupId) (template : String) (mention : Mention)
    (kept : Option Definition) : Succeeds kept (settled id template mention kept) := by
  obtain ⟨region, body⟩ := mention
  cases body with
  | some body =>
    by_cases hbody : kept.any isBody = true
    · simpa [settled, hbody] using Succeeds.same kept
    · simpa [settled, hbody] using Succeeds.of_isBody hbody rfl
  | none =>
    cases kept with
    | none => exact .added _
    | some definition =>
      cases hkind : definition.regionKind? with
      | none => simpa [settled, hkind] using Succeeds.displaced hkind rfl
      | some kind => simpa [settled, hkind] using Succeeds.same (some definition)

variable {definition : Definition} {next : Option Definition}

/-- A place for a region has no body. -/
theorem not_isBody_of_isPlace (hplace : definition.isPlace) : ¬ definition.isBody = true := by
  have hkind : definition.regionKind? = some .implicit := by simpa [isPlace] using hplace
  simp [isBody, hkind, RegionKind.hasBody]

/-- Nothing but itself may succeed a body. -/
theorem Succeeds.eq_of_isBody (h : Succeeds (some definition) next) (hbody : definition.isBody) :
    next = some definition := by
  cases h with
  | same => rfl
  | filled hplace _ => exact absurd hbody (not_isBody_of_isPlace hplace)
  | displaced hnone _ => simp [isBody, hnone] at hbody

/-- Nothing but a body may succeed a place. -/
theorem Succeeds.of_isPlace (h : Succeeds (some definition) next) (hplace : definition.isPlace) :
    next = some definition ∨ ∃ body, next = some body ∧ body.isBody := by
  cases h with
  | same => exact Or.inl rfl
  | filled _ hbody => exact Or.inr ⟨_, rfl, hbody⟩
  | displaced hnone _ => simp [isPlace, hnone] at hplace

end Definition

namespace Engine

open Definition (Succeeds)

variable {engine : Engine} {id : GroupId} {name : String} {definition : Definition}

/-- What a change leaves under a name may come after what was kept. -/
theorem Change.Leaves.succeeds {change : Change} {kept next : Option Definition}
    (h : change.Leaves id name kept next) : Succeeds kept next := by
  cases h with
  | same => exact .same _
  | template formals body hnew => exact hnew ▸ .added _
  | mention => exact Definition.succeeds_settled _ _ _ _
  | region body _ hbody => exact .of_isBody hbody rfl

/-- What one call may do to what a group has under a name. -/
theorem succeeds_apply (hentry : engine.held? id name = some definition) (change : Change) :
    Succeeds (some definition) ((change.apply engine).held? id name) :=
  hentry ▸ (leaves_apply engine change id name).succeeds

/-! ### Any number of calls -/

/-- A body stays what the group has for its region. -/
theorem body_after (hentry : engine.held? id name = some definition)
    (hbody : definition.isBody) (changes : List Change) :
    (engine.after changes).held? id name = some definition := by
  induction changes generalizing engine with
  | nil => exact hentry
  | cons change rest ih => exact ih ((succeeds_apply hentry change).eq_of_isBody hbody)

/-- An empty place stays one until it is filled. -/
theorem place_after (hentry : engine.held? id name = some definition)
    (hplace : definition.isPlace) (changes : List Change) :
    (engine.after changes).held? id name = some definition ∨
      ∃ body, (engine.after changes).held? id name = some body ∧ body.isBody := by
  induction changes generalizing engine with
  | nil => exact Or.inl hentry
  | cons change rest ih =>
    rcases (succeeds_apply hentry change).of_isPlace hplace with hsame | ⟨body, hfilled, hbody⟩
    · exact ih hsame
    · exact Or.inr ⟨body, body_after hfilled hbody rest, hbody⟩

/-! ### Bodies are written once -/

/-- How the bodies of an engine's regions are written: once each, and a call that would write one
again is refused. -/
structure WritesOnce (engine : Engine) : Prop where
  /-- Once a group has a body for a region, nothing changes it. -/
  body (id : GroupId) (name : String) (body : Definition) (changes : List Change) :
    engine.held? id name = some body → body.isBody →
      (engine.after changes).held? id name = some body
  /-- An empty place can become nothing but a body. -/
  place (id : GroupId) (name : String) (place : Definition) (changes : List Change) :
    engine.held? id name = some place → place.isPlace →
      (engine.after changes).held? id name = some place ∨
        ∃ body, (engine.after changes).held? id name = some body ∧ body.isBody
  unknownGroup (id : GroupId) : engine.group? id = none →
    (∀ definition, engine.defineTemplate id definition = (engine, [.unknownGroup id.index])) ∧
      ∀ template region body,
        engine.defineRegion id template region body = (engine, [.unknownGroup id.index])
  knownTemplate (id : GroupId) (group : Group) (definition : Definition) :
    engine.group? id = some group → (engine.held? id definition.name).isSome →
      engine.defineTemplate id definition =
        (engine, [.templateRedefinition group.name definition.name])
  undeclaredRegion (id : GroupId) (group : Group) (template region : String) (body : List Chunk) :
    engine.group? id = some group → engine.declares id template region = false →
      engine.defineRegion id template region body = (engine, [.unknownRegion template region])
  furtherBody (id : GroupId) (group : Group) (template region : String) (body : List Chunk) :
    engine.group? id = some group → engine.declares id template region = true →
      (engine.held? id (Region.key template region)).any Definition.isBody →
        engine.defineRegion id template region body =
          (engine, [.regionRedefinition group.name template region])
  /-- In all other cases the region is given the body, and nothing is reported. -/
  firstBody (id : GroupId) (template region : String) (body : List Chunk) :
    (engine.group? id).isSome → engine.declares id template region = true →
      ¬ (engine.held? id (Region.key template region)).any Definition.isBody →
        (engine.defineRegion id template region body).2 = [] ∧
          (engine.defineRegion id template region body).1.held? id
            (Region.key template region) =
              some (Definition.regionIn id template region body .explicit)
  /-- A template of a new name is added, whatever becomes of its regions. -/
  newTemplate (id : GroupId) (definition : Definition) : engine.Accepts id definition →
    (engine.defineTemplate id definition).1.held? id definition.name =
      some { definition with group := some id }
  /-- What is reported of it is each region that comes with a body though the group has one, once,
  and nothing else. -/
  reports (id : GroupId) (group : Group) (definition : Definition) :
    engine.Accepts id definition → engine.group? id = some group →
      (engine.defineTemplate id definition).2.Nodup ∧
        ∀ report, report ∈ (engine.defineTemplate id definition).2 ↔
          ∃ region body, (region, some body) ∈ Region.ofBody definition.body ∧
            (engine.held? id (Region.key definition.name region)).any Definition.isBody ∧
              report = .regionRedefinition group.name definition.name region
  /-- Such a region is left as it was. -/
  repeatedRegion (id : GroupId) (definition : Definition) (region : String) (body : List Chunk) :
    engine.Accepts id definition → (region, some body) ∈ Region.ofBody definition.body →
      (engine.held? id (Region.key definition.name region)).any Definition.isBody →
        (engine.defineTemplate id definition).1.held? id (Region.key definition.name region) =
          engine.held? id (Region.key definition.name region)
  /-- Another region that comes with a body is given it. -/
  givenRegion (id : GroupId) (definition : Definition) (region : String) (body : List Chunk) :
    engine.Accepts id definition → (region, some body) ∈ Region.ofBody definition.body →
      ¬ (engine.held? id (Region.key definition.name region)).any Definition.isBody →
        (engine.defineTemplate id definition).1.held? id (Region.key definition.name region) =
          some (Definition.regionIn id definition.name region body .embedded)
  /-- A region that comes without a body gets a place, unless the group has it already. -/
  bareRegion (id : GroupId) (definition : Definition) (region : String) :
    engine.Accepts id definition → (region, none) ∈ Region.ofBody definition.body →
      (engine.defineTemplate id definition).1.held? id (Region.key definition.name region) =
        if ((engine.held? id (Region.key definition.name region)).bind
            Definition.regionKind?).isSome then
          engine.held? id (Region.key definition.name region)
        else some (Definition.regionIn id definition.name region [] .implicit)

/-- What is reported of a template that is added. -/
theorem mem_defineTemplate_reports {group : Group} (hgroup : engine.group? id = some group)
    (hnew : engine.held? id definition.name = none) (report : DefinitionError) :
    report ∈ (engine.defineTemplate id definition).2 ↔
      ∃ region body, (region, some body) ∈ Region.ofBody definition.body ∧
        (engine.held? id (Region.key definition.name region)).any Definition.isBody ∧
          report = .regionRedefinition group.name definition.name region := by
  rw [defineTemplate_reports hgroup hnew, List.mem_map]
  simp only [List.mem_filter, held?_eq hgroup]
  constructor
  · rintro ⟨⟨region, body⟩, ⟨hmem, hrepeats⟩, rfl⟩
    obtain ⟨hgiven, hbody⟩ := Bool.and_eq_true_iff.mp hrepeats
    obtain ⟨body, rfl⟩ := Option.isSome_iff_exists.mp hgiven
    exact ⟨region, body, hmem, hbody, rfl⟩
  · rintro ⟨region, body, hmem, hbody, rfl⟩
    exact ⟨(region, some body), ⟨hmem, hbody⟩, rfl⟩

/-- A region is reported once at most. -/
theorem nodup_defineTemplate_reports {group : Group} (hgroup : engine.group? id = some group)
    (hnew : engine.held? id definition.name = none) :
    (engine.defineTemplate id definition).2.Nodup := by
  rw [defineTemplate_reports hgroup hnew]
  have hreports : ((Region.ofBody definition.body).filter (group.repeats definition.name)).map
      (group.repetition definition.name) =
        (((Region.ofBody definition.body).filter (group.repeats definition.name)).map
          Prod.fst).map (.regionRedefinition group.name definition.name) := by
    rw [List.map_map]
    rfl
  rw [hreports]
  apply List.Nodup.map
  · exact fun _ _ heq => (DefinitionError.regionRedefinition.inj heq).2.2
  · exact (Region.nodup_ofBody _).sublist (List.filter_sublist.map _)

/-- In every engine the bodies of regions are written once. -/
theorem bodies_written_once (engine : Engine) : engine.WritesOnce where
  body id name body changes hentry hbody := body_after hentry hbody changes
  place id name place changes hentry hplace := place_after hentry hplace changes
  unknownGroup id h := ⟨defineTemplate_unknown h, fun template region body =>
    defineRegion_unknown body h template region⟩
  knownTemplate id group definition hgroup hknown := defineTemplate_refused hgroup hknown
  undeclaredRegion id group template region body hgroup hundeclared := by
    rw [defineRegion_some hgroup, if_pos hundeclared]
  furtherBody id group template region body hgroup hdeclared hbody := by
    rw [defineRegion_some hgroup, if_neg (by simp [hdeclared]), if_pos hbody]
  firstBody id template region body hknown hdeclared hbody := by
    obtain ⟨group, hgroup⟩ := Option.isSome_iff_exists.mp hknown
    rw [defineRegion_some hgroup, if_neg (by simp [hdeclared]), if_neg hbody]
    refine ⟨rfl, ?_⟩
    rw [held?_setGroup_self hgroup, Table.get?_insert_self]
  newTemplate id definition haccepts := by
    obtain ⟨group, hgroup, hnew⟩ := haccepts.exists_group
    exact held?_defineTemplate_self hgroup hnew
  reports id group definition haccepts hgroup :=
    ⟨nodup_defineTemplate_reports hgroup haccepts.2,
      mem_defineTemplate_reports hgroup haccepts.2⟩
  repeatedRegion id definition region body haccepts hmem hbody := by
    obtain ⟨group, hgroup, hnew⟩ := haccepts.exists_group
    exact (held?_defineTemplate_key hgroup hnew hmem).trans (if_pos hbody)
  givenRegion id definition region body haccepts hmem hbody := by
    obtain ⟨group, hgroup, hnew⟩ := haccepts.exists_group
    exact (held?_defineTemplate_key hgroup hnew hmem).trans (if_neg hbody)
  bareRegion id definition region haccepts hmem := by
    obtain ⟨group, hgroup, hnew⟩ := haccepts.exists_group
    exact held?_defineTemplate_key hgroup hnew hmem

end Engine

end Stencil
