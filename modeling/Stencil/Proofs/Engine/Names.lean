import Stencil.Proofs.Engine.Entries

/-!
# Templates and regions under one roof

A group keeps its templates and the bodies of their regions under names in one table. A template
stays what the group has under its name, and the body of a region is that of no other one, as long
as keys of regions collide neither with names of templates nor with each other. Both collisions are
possible.
-/

namespace Stencil

/-- The keys under which a declaration may give its group regions. -/
def Declaration.keys : Declaration → List String
  | .template name _ body => (Region.ofBody body).map fun mention => Region.key name mention.1
  | .region owner name _ => [Region.key owner name]
  | .dictionary _ _ | .renderer _ _ => []

/-- What a group with that number may have under a name: a template of that name, or a region with
that key. -/
inductive Definition.KeptAs (id : GroupId) (name : String) : Definition → Prop where
  | template (formals : Option (List (Formal Expr))) (body : List Chunk) :
    KeptAs id name { Definition.template name formals body with group := some id }
  | region {template region : String} (body : List Chunk) (kind : RegionKind)
    (hkey : name = Region.key template region) :
    KeptAs id name (Definition.regionIn id template region body kind)

namespace Definition

variable {id : GroupId} {name : String} {definition : Definition}

/-- A definition is kept under its name. -/
theorem KeptAs.name_eq (h : definition.KeptAs id name) : definition.name = name := by
  cases h with
  | template => rfl
  | region _ _ hkey => exact hkey.symm

/-- A region that is kept for a plain template was given for it, if it is a plain one's region at
all. -/
theorem KeptAs.region_eq {template region : String}
    (h : definition.KeptAs id (Region.key template region))
    (hregion : definition.regionKind?.isSome) (htemplate : Region.Plain template)
    (howner : Region.Plain definition.regionOwner) :
    ∃ body kind, definition = regionIn id template region body kind := by
  cases h with
  | template => simp [regionKind?, Definition.template] at hregion
  | region body kind hkey =>
    obtain ⟨rfl, rfl⟩ := Region.key_injective htemplate howner hkey
    exact ⟨body, kind, rfl⟩

/-- What is settled for a region is what was there, or is given for this region. -/
theorem settled_cases (id : GroupId) (template : String) (mention : Mention)
    (kept : Option Definition) :
    settled id template mention kept = kept ∨
      ∃ body kind, settled id template mention kept =
        some (regionIn id template mention.1 body kind) := by
  obtain ⟨region, body⟩ := mention
  cases body with
  | some body =>
    simp only [settled]
    split
    · exact Or.inl rfl
    · exact Or.inr ⟨body, .embedded, rfl⟩
  | none =>
    simp only [settled]
    split
    · exact Or.inl rfl
    · exact Or.inr ⟨[], .implicit, rfl⟩

end Definition

namespace Engine

/-- A call that may give a group a region under a name. -/
def Change.Claims (id : GroupId) (name : String) (change : Change) : Prop :=
  ∃ declaration, change = .declare id declaration ∧ name ∈ declaration.keys

variable {engine : Engine} {id other : GroupId} {name : String} {definition : Definition}

/-! ### What stays -/

/-- A change that lays no claim to a name leaves alone what is kept under it. -/
theorem Change.Leaves.eq_of_not_claims {change : Change} {next : Option Definition}
    (h : change.Leaves id name (some definition) next) (hclaims : ¬ change.Claims id name) :
    next = some definition := by
  cases h with
  | same => rfl
  | template formals body hnew => cases hnew
  | @mention template formals body mention hmem hkey =>
    exact absurd ⟨_, rfl, hkey ▸ List.mem_map_of_mem hmem⟩ hclaims
  | region body hkey => exact absurd ⟨_, rfl, List.mem_singleton.mpr hkey⟩ hclaims

/-- What a group has under a name stays while no region is given under it. -/
theorem held?_after (hentry : engine.held? id name = some definition) {changes : List Change}
    (hclaims : ∀ change ∈ changes, ¬ change.Claims id name) :
    (engine.after changes).held? id name = some definition := by
  induction changes generalizing engine with
  | nil => exact hentry
  | cons change rest ih =>
    have hleaves := hentry ▸ leaves_apply engine change id name
    exact ih (hleaves.eq_of_not_claims (hclaims change List.mem_cons_self))
      fun later hlater => hclaims later (List.mem_cons_of_mem _ hlater)

/-- A name that is not made like a key is not claimed for a region. -/
theorem not_claims (h : ∀ template region, name ≠ Region.key template region) (change : Change) :
    ¬ change.Claims id name := by
  rintro ⟨declaration, -, hkey⟩
  cases declaration with
  | template template formals body =>
    obtain ⟨mention, -, heq⟩ := List.mem_map.mp hkey
    exact h _ _ heq.symm
  | region template region body => exact h _ _ (List.mem_singleton.mp hkey)
  | dictionary | renderer => cases hkey

/-! ### What is kept under a name -/

/-- Whatever a change keeps is kept under its name. -/
theorem Change.Leaves.keptAs {change : Change} {kept next : Option Definition}
    (h : change.Leaves id name kept next)
    (hkept : ∀ definition, kept = some definition → definition.KeptAs id name)
    (hnext : next = some definition) : definition.KeptAs id name := by
  cases h with
  | same => exact hkept definition hnext
  | template formals body =>
    cases hnext
    exact .template formals body
  | @mention template formals body mention hmem hkey =>
    rcases Definition.settled_cases id template mention kept with heq | ⟨given, kind, heq⟩
    · exact hkept definition (heq.symm.trans hnext)
    · cases heq.symm.trans hnext
      exact .region given kind hkey
  | region body hkey =>
    cases hnext
    exact .region body .explicit hkey

/-- In an engine that calls lead to, a group has under a name what belongs there. -/
theorem Reachable.keptAs (h : engine.Reachable)
    (hentry : engine.held? id name = some definition) : definition.KeptAs id name := by
  induction h generalizing definition with
  | new config => simp [held?, group?, Groups.find?] at hentry
  | change _ change ih => exact (leaves_apply _ change id name).keptAs (fun _ => ih) hentry

/-! ### Kept apart -/

/-- How an engine keeps its templates and regions apart. -/
structure KeepsApart (engine : Engine) : Prop where
  /-- A template that is accepted stays what the group has under its name, while no region is given
  to the group under this name. -/
  template (id : GroupId) (definition : Definition) (changes : List Change) :
    engine.Accepts id definition →
      (∀ change ∈ changes, ¬ change.Claims id definition.name) →
        ((engine.defineTemplate id definition).1.after changes).held? id definition.name =
          some { definition with group := some id }
  /-- A region given under this name takes the place of the template: the template is lost. -/
  displaced (id : GroupId) (definition : Definition) (mention : Mention) (old : Definition) :
    engine.Accepts id definition → mention ∈ Region.ofBody definition.body →
      engine.held? id (Region.key definition.name mention.1) = some old →
        old.regionKind? = none → ∃ body kind,
          (engine.defineTemplate id definition).1.held? id
            (Region.key definition.name mention.1) =
              some (Definition.regionIn id definition.name mention.1 body kind)
  /-- Different regions of templates with plain names share no body. -/
  region (id other : GroupId) (first second : String × String) (body : Definition) :
    Region.Plain first.1 → Region.Plain second.1 → first ≠ second →
      engine.held? id (Region.key first.1 first.2) = some body →
        engine.held? other (Region.key second.1 second.2) ≠ some body
  /-- What a group has for a region is what it was given for this one. -/
  given (id : GroupId) (template region : String) (definition : Definition) :
    engine.held? id (Region.key template region) = some definition →
      definition.regionKind?.isSome → Region.Plain template →
        Region.Plain definition.regionOwner → ∃ body kind,
          definition = Definition.regionIn id template region body kind
  /-- Each region of a template whose name is not plain shares what groups have for it with a region
  of another template. -/
  shared (id : GroupId) (template region : String) : ¬ Region.Plain template →
    ∃ other otherRegion, other ≠ template ∧
      engine.held? id (Region.key other otherRegion) =
        engine.held? id (Region.key template region)

/-- The engines that calls lead to keep templates and regions apart. -/
theorem keeps_apart (h : engine.Reachable) : engine.KeepsApart where
  template id definition changes haccepts hclaims := by
    obtain ⟨group, hgroup, hnew⟩ := haccepts.exists_group
    exact held?_after (held?_defineTemplate_self hgroup hnew) hclaims
  displaced id definition mention old haccepts hmem hold hkind := by
    obtain ⟨group, hgroup, hnew⟩ := haccepts.exists_group
    rw [held?_defineTemplate_key hgroup hnew hmem, hold]
    obtain ⟨region, body⟩ := mention
    cases body with
    | some body => exact ⟨body, .embedded, by simp [Definition.settled, Definition.isBody, hkind]⟩
    | none => exact ⟨[], .implicit, by simp [Definition.settled, hkind]⟩
  region id other first second body := by
    intro hfirst hsecond hne hbody hshared
    have hkey : Region.key first.1 first.2 = Region.key second.1 second.2 :=
      (h.keptAs hbody).name_eq.symm.trans (h.keptAs hshared).name_eq
    obtain ⟨htemplate, hregion⟩ := Region.key_injective hfirst hsecond hkey
    exact hne (Prod.ext htemplate hregion)
  given id template region definition := by
    intro hentry hregion htemplate howner
    exact (h.keptAs hentry).region_eq hregion htemplate howner
  shared id template region := by
    intro hplain
    obtain ⟨other, otherRegion, hne, hkey⟩ := Region.exists_key_eq hplain region
    exact ⟨other, otherRegion, hne, by rw [hkey]⟩

/-- A group with a template that leaves a place for a region. -/
def framed : Engine :=
  ({} : Engine).after
    [.defineGroup "group" .angle,
      .declare ⟨0⟩ (.template "page" none [.region "head" false none])]

/-- A second template stays when the group is given bodies for both of their regions, and each
region has its own. -/
theorem keeps_apart_framed :
    let note := Definition.template "note" none [.region "head" false none]
    let changes : List Change :=
      [.declare ⟨0⟩ (.region "page" "head" [.literal "A"]),
        .declare ⟨0⟩ (.region "note" "head" [.literal "B"])]
    let after := (framed.defineTemplate ⟨0⟩ note).1.after changes
    framed.Reachable ∧ after.Reachable ∧ framed.Accepts ⟨0⟩ note ∧
      after.held? ⟨0⟩ "note" = some { note with group := some ⟨0⟩ } ∧
      ∃ body, after.held? ⟨0⟩ (Region.key "page" "head") = some body ∧
        after.held? ⟨0⟩ (Region.key "note" "head") ≠ some body := by
  intro note changes after
  have hreachable : framed.Reachable := (Reachable.new {}).after _
  have hafter : after.Reachable := by
    apply Reachable.after
    exact hreachable.change (.declare ⟨0⟩ (.template "note" none note.body))
  have haccepts : framed.Accepts ⟨0⟩ note :=
    ⟨by decide +kernel, Option.isNone_iff_eq_none.mp (by decide +kernel)⟩
  have hhead : (after.held? ⟨0⟩ (Region.key "page" "head")).isSome := by decide +kernel
  obtain ⟨body, hbody⟩ := Option.isSome_iff_exists.mp hhead
  refine ⟨hreachable, hafter, haccepts, ?_, body, hbody, ?_⟩
  · apply (keeps_apart hreachable).template ⟨0⟩ note changes haccepts
    refine fun change _ => not_claims (fun template region heq => ?_) change
    have hlength := Region.length_lt_key template region
    rw [← heq] at hlength
    have hnote : "note".length = 4 := rfl
    change template.length + 8 < "note".length at hlength
    omega
  · exact (keeps_apart hafter).region ⟨0⟩ ⟨0⟩ ("page", "head") ("note", "head") body (by decide)
      (by decide) (by decide) hbody

/-- A group with a template that has the name of a region's key, and two templates whose regions
have one key. -/
def colliding : Engine :=
  ({} : Engine).after
    [.defineGroup "group" .angle,
      .declare ⟨0⟩ (.template "list__item" none [.region "head" false none]),
      .declare ⟨0⟩ (.template "list" none [.region "item__head" false none])]

/-- A template is lost to a region, and two regions share the body that one of them was given. -/
theorem not_kept_apart_colliding :
    let lost := Definition.template "region__page__head" none [.literal "text"]
    let page : Change := .declare ⟨0⟩ (.template "page" none [.region "head" false none])
    let given : Change := .declare ⟨0⟩ (.region "list__item" "head" [.literal "body"])
    colliding.Reachable ∧ colliding.Accepts ⟨0⟩ lost ∧
      ((colliding.defineTemplate ⟨0⟩ lost).1.after [page]).held? ⟨0⟩ lost.name ≠
        some { lost with group := some ⟨0⟩ } ∧
      ∃ body, body.isBody ∧
        (colliding.after [given]).held? ⟨0⟩ (Region.key "list__item" "head") = some body ∧
        (colliding.after [given]).held? ⟨0⟩ (Region.key "list" "item__head") = some body := by
  intro lost page given
  have haccepts : colliding.Accepts ⟨0⟩ lost :=
    ⟨by decide +kernel, Option.isNone_iff_eq_none.mp (by decide +kernel)⟩
  have hbody : ((colliding.after [given]).held? ⟨0⟩ (Region.key "list__item" "head")).any
      Definition.isBody := by
    decide +kernel
  have hkeys : Region.key "list" "item__head" = Region.key "list__item" "head" := by
    decide +kernel
  obtain ⟨body, hentry, hbody⟩ := (Option.any_eq_true _ _).mp hbody
  refine ⟨(Reachable.new {}).after _, haccepts, ?_, body, hbody, hentry, hkeys ▸ hentry⟩
  intro heq
  exact absurd (congrArg (Option.map Definition.kind) heq) (by decide +kernel)

end Engine

end Stencil
