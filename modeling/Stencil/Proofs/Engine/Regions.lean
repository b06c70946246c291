import Stencil.Proofs.Body.Places
import Stencil.Proofs.Engine.Entries

/-!
# Regions of an added template

A region for which a template has a place should come with the template: the template lists it, the
group that the template is added to keeps the body that is written for it, and groups can give it
another one. This is so exactly if the region has an open place, and its first open place has a body
if one of its places has.
-/

namespace Stencil.Engine

/-- The definition of an added template, as its group has it. -/
def added (id : GroupId) (definition : Definition) : Definition :=
  { definition with group := some id }

/-- A region comes with a template when the template is added to a group. -/
structure TakesRegion (engine : Engine) (id : GroupId) (definition : Definition)
    (region : String) : Prop where
  /-- The template is visible in the group, and lists the region. -/
  listed : (engine.defineTemplate id definition).1.groups.findTemplate id definition.name =
    some (added id definition, id) ∧ region ∈ definition.regions
  /-- The group has something for it. -/
  kept : (((engine.defineTemplate id definition).1.held? id
    (Region.key definition.name region)).bind Definition.regionKind?).isSome
  /-- If a place for it has a body, then the group has a body for it. -/
  body : (∃ given, Chunk.HasPlace True (region, some given) definition.body) →
    ((engine.defineTemplate id definition).1.held? id
      (Region.key definition.name region)).any Definition.isBody
  /-- Each group that sees this template and has no body for the region can give it one. -/
  override (other : GroupId) (given : List Chunk) :
    (engine.defineTemplate id definition).1.groups.findTemplate other definition.name =
      some (added id definition, id) →
    ¬ ((engine.defineTemplate id definition).1.held? other
      (Region.key definition.name region)).any Definition.isBody →
    let overriding := (engine.defineTemplate id definition).1.defineRegion other definition.name
      region given
    overriding.2 = [] ∧ overriding.1.held? other (Region.key definition.name region) =
      some (Definition.regionIn other definition.name region given .explicit)

variable {engine : Engine} {id other : GroupId} {definition : Definition} {region : String}

/-- The regions of a definition are those that have a place in its body. -/
theorem mem_regions_iff : region ∈ definition.regions ↔
    ∃ given, Chunk.HasPlace False (region, given) definition.body := by
  rw [Definition.regions, Region.ofBody, Region.mem_map_fst_firsts, List.mem_map]
  constructor
  · rintro ⟨⟨_, given⟩, hmem, rfl⟩
    exact ⟨given, Chunk.mem_mentionsAll_iff.mp hmem⟩
  · rintro ⟨given, hplace⟩
    exact ⟨(region, given), Chunk.mem_mentionsAll_iff.mpr hplace, rfl⟩

/-- A listed region is mentioned by its first open place. -/
theorem exists_mem_ofBody (h : region ∈ definition.regions) :
    ∃ given, (region, given) ∈ Region.ofBody definition.body := by
  obtain ⟨⟨_, given⟩, hmem, rfl⟩ := List.mem_map.mp h
  exact ⟨given, hmem⟩

/-- What is settled for a region is a body if there was one, or if the mention brings one. -/
theorem isBody_settled (id : GroupId) (template : String) (mention : Mention)
    (kept : Option Definition) :
    (Definition.settled id template mention kept).any Definition.isBody ↔
      kept.any Definition.isBody ∨ mention.2.isSome := by
  obtain ⟨region, body⟩ := mention
  cases body with
  | some body =>
    by_cases hbody : kept.any Definition.isBody = true
    · simp [Definition.settled, hbody]
    · simp [Definition.settled, hbody, Definition.isBody, Definition.regionIn, Definition.region,
        Definition.regionKind?, RegionKind.hasBody]
  | none =>
    by_cases hkind : (kept.bind Definition.regionKind?).isSome = true
    · simp [Definition.settled, hkind]
    · have hkept : kept.bind Definition.regionKind? = none := by simpa using hkind
      simp [Definition.settled, hkept, Group.any_isBody, Definition.isBody, Definition.regionIn,
        Definition.region, Definition.regionKind?, RegionKind.hasBody]

/-- What is settled for a region is a region. -/
theorem regionKind?_settled (id : GroupId) (template : String) (mention : Mention)
    (kept : Option Definition) :
    ((Definition.settled id template mention kept).bind Definition.regionKind?).isSome := by
  obtain ⟨region, body⟩ := mention
  cases body with
  | some body =>
    by_cases hbody : kept.any Definition.isBody = true
    · obtain ⟨definition, rfl, hdefinition⟩ := (Option.any_eq_true _ _).mp hbody
      obtain ⟨kind, hkind, -⟩ := (Option.any_eq_true _ _).mp hdefinition
      simp [Definition.settled, hdefinition, hkind]
    · simp [Definition.settled, hbody, Definition.regionIn, Definition.region,
        Definition.regionKind?]
  | none =>
    by_cases hkind : (kept.bind Definition.regionKind?).isSome = true
    · simp [Definition.settled, hkind]
    · simp [Definition.settled, hkind, Definition.regionIn, Definition.region,
        Definition.regionKind?]

/-- Where the template is visible, a region that it lists can be given a body. -/
theorem overriding {given : List Chunk} (hlisted : region ∈ definition.regions)
    (hvisible : engine.groups.findTemplate other definition.name = some (added id definition, id))
    (hbody : ¬ (engine.held? other (Region.key definition.name region)).any
      Definition.isBody = true) :
    (engine.defineRegion other definition.name region given).2 = [] ∧
      (engine.defineRegion other definition.name region given).1.held? other
        (Region.key definition.name region) =
          some (Definition.regionIn other definition.name region given .explicit) := by
  obtain ⟨group, hgroup⟩ := Option.isSome_iff_exists.mp (group?_isSome_of_findTemplate hvisible)
  have hdeclares : engine.declares other definition.name region = true :=
    declares_iff.mpr ⟨_, _, hvisible, hlisted⟩
  rw [defineRegion_some hgroup, if_neg (by simp [hdeclares]), if_neg hbody]
  exact ⟨rfl, by rw [held?_setGroup_self hgroup, Table.get?_insert_self]⟩

/-- Which regions come with a template: those with an open place, as long as a body is not written
in another place than the first open one. -/
theorem takes_region_iff (haccepts : engine.Accepts id definition) (region : String) :
    engine.TakesRegion id definition region ↔
      (∃ given, Chunk.HasPlace False (region, given) definition.body) ∧
        ((∃ given, Chunk.HasPlace True (region, some given) definition.body) →
          (engine.held? id (Region.key definition.name region)).any Definition.isBody ∨
            ∃ given, (Chunk.mentionsAll definition.body).find?
              (fun mention => mention.1 = region) = some (region, some given)) := by
  obtain ⟨group, hgroup, hnew⟩ := haccepts.exists_group
  constructor
  · intro htakes
    obtain ⟨-, hlisted⟩ := htakes.listed
    refine ⟨mem_regions_iff.mp hlisted, fun hplace => ?_⟩
    obtain ⟨given, hmem⟩ := exists_mem_ofBody hlisted
    have hbody := htakes.body hplace
    rw [held?_defineTemplate_key hgroup hnew hmem, isBody_settled] at hbody
    refine hbody.imp_right fun hgiven => ?_
    obtain ⟨given, rfl⟩ := Option.isSome_iff_exists.mp hgiven
    exact ⟨given, Region.mem_firsts.mp hmem⟩
  · rintro ⟨hopen, hfirst⟩
    have hlisted := mem_regions_iff.mpr hopen
    obtain ⟨given, hmem⟩ := exists_mem_ofBody hlisted
    have hentry := held?_defineTemplate_key hgroup hnew hmem
    refine ⟨⟨findTemplate_of_held (held?_defineTemplate_self hgroup hnew), hlisted⟩, ?_, ?_, ?_⟩
    · rw [hentry]
      exact regionKind?_settled _ _ _ _
    · intro hplace
      rw [hentry, isBody_settled]
      refine (hfirst hplace).imp_right ?_
      rintro ⟨other, hother⟩
      rw [Option.some.inj ((Region.mem_firsts.mp hmem).symm.trans hother)]
      rfl
    · intro other given hvisible hbody
      exact overriding hlisted hvisible hbody

/-- A group without templates. -/
def bare : Engine := ({} : Engine).after [.defineGroup "group" .angle]

/-- A region comes with a template that has a place for it in a conditional and another one, with a
body, in an inline template. -/
theorem takes_region_bare :
    let page := Definition.template "page" none
      [.conditional [⟨.attribute "long", [.region "head" false (some [.literal "text"])]⟩] none,
        .expression (.inline { label := 0, formals := [], body := [.region "head" false none] }) {}]
    bare.Accepts ⟨0⟩ page ∧ bare.TakesRegion ⟨0⟩ page "head" := by
  intro page
  have haccepts : bare.Accepts ⟨0⟩ page :=
    ⟨by decide +kernel, Option.isNone_iff_eq_none.mp (by decide +kernel)⟩
  refine ⟨haccepts, (takes_region_iff haccepts "head").mpr ⟨⟨none, ?_⟩, fun _ => Or.inr ?_⟩⟩
  · exact .expression (List.mem_cons_of_mem _ List.mem_cons_self)
      (.inline List.mem_cons_self (.region List.mem_cons_self))
  · exact ⟨[.literal "text"], rfl⟩

/-- A region does not come with a template whose place for it is in a separator. The body of a
region is lost if a place without a body stands before it. -/
theorem not_takes_region_bare :
    let hidden := Definition.template "hidden" none
      [.expression (.attribute "items") { separator := some (.inline
        { label := 0, formals := [], body := [.region "mark" false (some [.literal ","])] }) }]
    let twice := Definition.template "twice" none
      [.region "mark" false none, .region "mark" false (some [.literal ","])]
    (bare.Accepts ⟨0⟩ hidden ∧
      Chunk.HasPlace True ("mark", some [.literal ","]) hidden.body ∧
        "mark" ∉ hidden.regions ∧ ¬ bare.TakesRegion ⟨0⟩ hidden "mark") ∧
      bare.Accepts ⟨0⟩ twice ∧ Chunk.HasPlace True ("mark", some [.literal ","]) twice.body ∧
        ((bare.defineTemplate ⟨0⟩ twice).1.held? ⟨0⟩ (Region.key "twice" "mark")).any
          Definition.isBody = false ∧ ¬ bare.TakesRegion ⟨0⟩ twice "mark" := by
  intro hidden twice
  have hunlisted : "mark" ∉ hidden.regions := by decide +kernel
  have hplace : Chunk.HasPlace True ("mark", some [.literal ","]) twice.body :=
    .region (List.mem_cons_of_mem _ List.mem_cons_self)
  have hempty : ((bare.defineTemplate ⟨0⟩ twice).1.held? ⟨0⟩ (Region.key "twice" "mark")).any
      Definition.isBody = false := by
    decide +kernel
  refine ⟨⟨⟨by decide +kernel, Option.isNone_iff_eq_none.mp (by decide +kernel)⟩, ?_, hunlisted,
    fun htakes => hunlisted htakes.listed.2⟩,
    ⟨by decide +kernel, Option.isNone_iff_eq_none.mp (by decide +kernel)⟩, hplace, hempty,
    fun htakes => ?_⟩
  · exact .option trivial List.mem_cons_self List.mem_cons_self
      (.inline List.mem_cons_self (.region List.mem_cons_self))
  · exact Bool.false_ne_true (hempty.symm.trans (htakes.body ⟨_, hplace⟩))

end Stencil.Engine
