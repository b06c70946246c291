import Stencil.Engine.Define
import Stencil.Proofs.Body.FirstMentions

/-!
# Regions that a template brings with it

A template that is added to a group brings its regions with it, one after the other. As they are
kept under different keys, what the group keeps for one of them afterwards depends on what it kept
for that one before, and on nothing else.
-/

namespace Stencil

/-- Whether a definition is the body of a region, and was given for it. -/
def Definition.isBody (definition : Definition) : Bool :=
  definition.regionKind?.any RegionKind.hasBody

/-- Whether a definition holds the place of a region that has no body yet. -/
def Definition.isPlace (definition : Definition) : Bool :=
  definition.regionKind? = some .implicit

/-- The body of a region that a group is given. -/
def Definition.regionIn (id : GroupId) (template region : String) (body : List Chunk)
    (kind : RegionKind) : Definition :=
  { Definition.region template region body kind with group := some id }

/-- What a group keeps for a region that one of its templates mentions: the body that it has for
it, or else the one that comes with the mention, or else an empty one. -/
def Definition.settled (id : GroupId) (template : String) (mention : Mention)
    (kept : Option Definition) : Option Definition :=
  match mention with
  | (region, some body) =>
    if kept.any Definition.isBody then kept
    else some (Definition.regionIn id template region body .embedded)
  | (region, none) =>
    if (kept.bind Definition.regionKind?).isSome then kept
    else some (Definition.regionIn id template region [] .implicit)

namespace Group

variable (id : GroupId) (template : String) (group : Group)

/-- Whether a mention brings a body for a region that the group has a body for. -/
def repeats (mention : Mention) : Bool :=
  mention.2.isSome &&
    (group.templates.get? (Region.key template mention.1)).any Definition.isBody

/-- What is reported of a mention that brings a further body. -/
def repetition (mention : Mention) : DefinitionError :=
  .regionRedefinition group.name template mention.1

/-! ### One region -/

/-- A body is kept if and only if the region that is kept has one. -/
theorem any_isBody (kept : Option Definition) :
    kept.any Definition.isBody = (kept.bind Definition.regionKind?).any RegionKind.hasBody := by
  cases kept <;> rfl

/-- What adding a region can do: it settles what is kept under the key of the region. -/
theorem addRegion_cases (mention : Mention) :
    let key := Region.key template mention.1
    let settled := Definition.settled id template mention (group.templates.get? key)
    settled = group.templates.get? key ∧ (group.addRegion id template mention).1 = group ∨
      ∃ definition, settled = some definition ∧ (group.addRegion id template mention).1 =
        { group with templates := group.templates.insert key definition } := by
  obtain ⟨region, body⟩ := mention
  simp only [Definition.settled, any_isBody]
  cases body with
  | none =>
    cases hkind : (group.templates.get? (Region.key template region)).bind
      Definition.regionKind? with
    | none =>
      refine Or.inr ⟨Definition.regionIn id template region [] .implicit, by simp, ?_⟩
      simp [addRegion, hkind, Definition.regionIn]
    | some kind => exact Or.inl ⟨by simp, by simp [addRegion, hkind]⟩
  | some body =>
    cases hbody : ((group.templates.get? (Region.key template region)).bind
      Definition.regionKind?).any RegionKind.hasBody with
    | false =>
      refine Or.inr ⟨Definition.regionIn id template region body .embedded, by simp, ?_⟩
      simp [addRegion, hbody, Definition.regionIn]
    | true => exact Or.inl ⟨by simp, by simp [addRegion, hbody]⟩

/-- A mention is reported if and only if the region was there already. -/
theorem addRegion_reports (mention : Mention) :
    (group.addRegion id template mention).2 =
      if group.repeats template mention then [group.repetition template mention] else [] := by
  obtain ⟨region, body⟩ := mention
  rw [repeats, any_isBody]
  cases body with
  | none =>
    cases hkind : (group.templates.get? (Region.key template region)).bind
      Definition.regionKind? <;> simp [addRegion, hkind]
  | some body =>
    cases hbody : ((group.templates.get? (Region.key template region)).bind
      Definition.regionKind?).any RegionKind.hasBody <;> simp [addRegion, hbody, repetition]

/-- To add a region leaves the name of the group alone. -/
theorem addRegion_name (mention : Mention) :
    (group.addRegion id template mention).1.name = group.name := by
  obtain ⟨-, hgroup⟩ | ⟨definition, -, hgroup⟩ := group.addRegion_cases id template mention <;>
    rw [hgroup]

/-- Under the key of the region is what settles it. -/
theorem addRegion_get?_key (mention : Mention) :
    (group.addRegion id template mention).1.templates.get? (Region.key template mention.1) =
      Definition.settled id template mention
        (group.templates.get? (Region.key template mention.1)) := by
  obtain ⟨hsame, hgroup⟩ | ⟨definition, hsettled, hgroup⟩ :=
    group.addRegion_cases id template mention
  · rw [hgroup, hsame]
  · rw [hgroup, hsettled]
    exact Table.get?_insert_self _ _ _

/-- All other names are left alone. -/
theorem addRegion_get?_of_ne (mention : Mention) {name : String}
    (h : name ≠ Region.key template mention.1) :
    (group.addRegion id template mention).1.templates.get? name = group.templates.get? name := by
  obtain ⟨-, hgroup⟩ | ⟨definition, -, hgroup⟩ := group.addRegion_cases id template mention
  · rw [hgroup]
  · rw [hgroup]
    exact Table.get?_insert_of_ne _ _ h

/-! ### All regions of a template -/

variable {template}

/-- Nothing but regions of the template is touched. -/
theorem addRegions_get?_of_ne {mentions : List Mention} {name : String}
    (h : ∀ mention ∈ mentions, name ≠ Region.key template mention.1) :
    (group.addRegions id template mentions).1.templates.get? name = group.templates.get? name := by
  induction mentions generalizing group with
  | nil => rfl
  | cons mention rest ih =>
    calc ((group.addRegion id template mention).1.addRegions id template rest).1.templates.get? name
      _ = (group.addRegion id template mention).1.templates.get? name :=
        ih _ fun other hother => h other (List.mem_cons_of_mem _ hother)
      _ = group.templates.get? name :=
        group.addRegion_get?_of_ne id template mention (h mention List.mem_cons_self)

/-- The region of the first mention is not touched by the others. -/
theorem key_ne_of_nodup {first : Mention} {rest : List Mention}
    (hnodup : ((first :: rest).map fun mention => Region.key template mention.1).Nodup)
    {other : Mention} (hother : other ∈ rest) :
    Region.key template other.1 ≠ Region.key template first.1 := by
  rw [List.map_cons, List.nodup_cons] at hnodup
  intro heq
  exact hnodup.1 (List.mem_map.mpr ⟨other, hother, heq⟩)

/-- Each region is settled by what the group kept for it before any of them was added. -/
theorem addRegions_get?_key {mentions : List Mention}
    (hnodup : (mentions.map fun mention => Region.key template mention.1).Nodup)
    {mention : Mention} (h : mention ∈ mentions) :
    (group.addRegions id template mentions).1.templates.get? (Region.key template mention.1) =
      Definition.settled id template mention
        (group.templates.get? (Region.key template mention.1)) := by
  induction mentions generalizing group with
  | nil => cases h
  | cons first rest ih =>
    rw [addRegions]
    rcases List.mem_cons.mp h with rfl | h
    · rw [addRegions_get?_of_ne _ _ fun other hother => (key_ne_of_nodup hnodup hother).symm]
      exact group.addRegion_get?_key id template mention
    · rw [ih _ (List.nodup_cons.mp hnodup).2 h,
        group.addRegion_get?_of_ne id template first (key_ne_of_nodup hnodup h)]

/-- What is reported is that the group has a body already, once for each region that comes with a
further one. -/
theorem addRegions_reports {mentions : List Mention}
    (hnodup : (mentions.map fun mention => Region.key template mention.1).Nodup) :
    (group.addRegions id template mentions).2 =
      (mentions.filter (group.repeats template)).map (group.repetition template) := by
  induction mentions generalizing group with
  | nil => rfl
  | cons first rest ih =>
    have hrest : rest.filter ((group.addRegion id template first).1.repeats template) =
        rest.filter (group.repeats template) := by
      apply List.filter_congr
      intro other hother
      rw [repeats, repeats,
        group.addRegion_get?_of_ne id template first (key_ne_of_nodup hnodup hother)]
    have hname : (group.addRegion id template first).1.repetition template =
        group.repetition template := by
      funext other
      rw [repetition, repetition, addRegion_name]
    rw [addRegions]
    simp only
    rw [ih _ (List.nodup_cons.mp hnodup).2, hrest, hname, addRegion_reports, List.filter_cons]
    split <;> rfl

end Group

end Stencil
