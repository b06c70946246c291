import Stencil.Proofs.Engine.Lineage

/-!
# Where calls and regions are looked up

Calls by name and regions are looked up from the group of the caller's instance at the beginning of
the line, so that what a sub-group overrides is overridden for everything inside its instances.
Inherited templates and regions are looked up from above the native group, and what is found belongs
to a group above it. So inherited definitions that reach for inherited ones in their turn come to an
end, no later than the chain of groups.
-/

namespace Stencil.Engine

open Render

/-- A definition that is inherited from a group of the chain above a native group. -/
def Inherits (engine : Engine) (native : GroupId) (name : String) (definition : Definition) :
    Prop :=
  ∃ owner ∈ engine.groups.chain native, owner ≠ native ∧
    engine.held? owner name = some definition ∧
      engine.groups.inherited? native name = some (definition, owner)

/-- How the calls and regions of a scope are looked up: names from a group on, and inherited ones
from above a native group. Regions are those of a template. -/
structure Dispatches (engine : Engine) (group native : GroupId) (template : String)
    (scope : Scope) (run : Run) : Prop where
  named (fuel : Nat) (name : String) :
    (Evaluator.upTo fuel).callee scope (.named name) engine.setting run =
      definitionFrom group name engine.setting run
  computed (fuel : Nat) (expr : Expr) :
    (Evaluator.upTo fuel).callee scope (.computed expr) engine.setting run =
      (do
        let value ← (Evaluator.upTo fuel).eval scope expr
        let name ← (Evaluator.upTo fuel).textOf scope value
        definitionFrom group name) engine.setting run
  region (fuel : Nat) (region : String) :
    (Evaluator.upTo fuel).writeRegion scope region false engine.setting run =
      (do
        match ← lookup group (Region.key template region) with
        | some definition =>
          let id ← create scope definition
          (Evaluator.upTo fuel).exec scope.frames id
        | none => return 0) engine.setting run
  /-- A call of an inherited template fails or finds what is inherited. -/
  inherited (fuel : Nat) (name : String) :
    (∃ error, (Evaluator.upTo fuel).callee scope (.inherited name) engine.setting run =
      (.error (.failed error), run)) ∨
    ∃ definition, engine.Inherits native name definition ∧
      (Evaluator.upTo fuel).callee scope (.inherited name) engine.setting run =
        (.ok definition, run)
  /-- So does a region that asks for the inherited body, which is then written. -/
  ascending (fuel : Nat) (region : String) :
    (∃ error, (Evaluator.upTo fuel).writeRegion scope region true engine.setting run =
      (.error (.failed error), run)) ∨
    ∃ definition, engine.Inherits native (Region.key template region) definition ∧
      (Evaluator.upTo fuel).writeRegion scope region true engine.setting run =
        (do
          let id ← create scope definition
          (Evaluator.upTo fuel).exec scope.frames id) engine.setting run

/-- A number of inherited definitions, each reached from the one before it, lead from an instance to
another one. Templates written in place belong to the definition around them. -/
inductive Ascends (engine : Engine) (instances : Array Instance) (first : InstanceId) :
    Nat → InstanceId → Prop where
  | start : Ascends engine instances first 0 first
  | inherited {steps : Nat} {creator id : InstanceId} {parent data : Instance} {name : String}
    (h : Ascends engine instances first steps creator)
    (hparent : instances[creator.index]? = some parent)
    (hdata : instances[id.index]? = some data) (hid : engine.instances.size ≤ id.index)
    (hcreator : data.enclosing = some creator)
    (hfound : (engine.groups.inherited? parent.nativeGroup name).map Prod.fst =
      some data.definition) : Ascends engine instances first (steps + 1) id
  | inline {steps : Nat} {creator id : InstanceId} {data : Instance}
    (h : Ascends engine instances first steps creator)
    (hdata : instances[id.index]? = some data) (hid : engine.instances.size ≤ id.index)
    (hcreator : data.enclosing = some creator) (hinline : data.definition.kind = .inline) :
    Ascends engine instances first steps id

/-- How instances and look-ups belong together in a state of a render. -/
structure Polymorphic (engine : Engine) (run : Run) : Prop where
  /-- An instance of the render has the group of its creator, and the group that has its definition
  as native one, or that of its creator if it is written in place. -/
  created (id : InstanceId) (data : Instance) : engine.instances.size ≤ id.index →
    run.instances[id.index]? = some data → ∃ creator parent, creator.index < id.index ∧
      run.instances[creator.index]? = some parent ∧ engine.Creates creator parent data
  /-- In the scope of each instance, from now on, names are looked up from the group of the caller's
  instance where its line begins, and inherited ones from above its own native group. -/
  dispatches (scope : Scope) (data : Instance) :
    run.instances[scope.innermost.index]? = some data →
      ∃ root first, Ancestor engine.instances.size run.instances root scope.innermost ∧
        engine.instance? root = some first ∧
          ∀ after, run.Evolves engine.instances.size after →
            engine.Dispatches first.group data.nativeGroup data.definition.regionOwner scope after
  /-- Inherited definitions lead no further than the chain of groups. -/
  ascends (first last : InstanceId) (data : Instance) (steps : Nat) :
    run.instances[first.index]? = some data → engine.Ascends run.instances first steps last →
      steps ≤ (engine.groups.chain data.nativeGroup).tail.length

variable {engine : Engine} {run : Run} {scope : Scope} {data : Instance}

/-! ### Look-ups -/

/-- What is found above a group is inherited. -/
theorem inherits_of_inherited? (h : engine.groups.Hierarchical) {native owner : GroupId}
    {name : String} {definition : Definition}
    (hfound : engine.groups.inherited? native name = some (definition, owner)) :
    engine.Inherits native name definition := by
  obtain ⟨habove, hmem, group, hgroup, hget⟩ := Groups.above_of_inherited? hfound
  exact ⟨owner, hmem, fun heq => h native (heq ▸ habove), held?_of_get? hgroup hget, hfound⟩

/-- Whether there is a super-group decides what is inherited. -/
theorem superGroup_cases (hdata : run.instances[scope.innermost.index]? = some data)
    (name : String) :
    (∃ error, superGroup scope name engine.setting run = (.error (.failed error), run)) ∨
      ∃ above, engine.groups.superGroup? data.nativeGroup = some above ∧
        superGroup scope name engine.setting run = (.ok above, run) := by
  have happly : superGroup scope name engine.setting run =
      above data.nativeGroup name engine.setting run :=
    bind_apply_ok _ _ (getInstance_apply_some _ _ hdata)
  rw [happly, above_apply]
  have hgroups : engine.setting.groups = engine.groups := rfl
  unfold Groups.superGroup?
  rw [hgroups]
  cases hgroup : engine.groups.find? data.nativeGroup with
  | none => exact Or.inl ⟨_, rfl⟩
  | some group =>
    cases hsuper : group.superGroup with
    | none => exact Or.inl ⟨.noSuperGroup group.name name, by simp only [hsuper]⟩
    | some above => exact Or.inr ⟨above, by simp [hsuper], by simp only [hsuper]⟩

/-- A reference upwards fails, or it finds what is inherited from the group of the template. -/
theorem inherited_cases (h : engine.groups.Hierarchical)
    (hdata : run.instances[scope.innermost.index]? = some data) (name : String) :
    (∃ error, superGroup scope name engine.setting run = (.error (.failed error), run)) ∨
      ∃ above, superGroup scope name engine.setting run = (.ok above, run) ∧
        ∀ definition, (engine.groups.findTemplate above name).map Prod.fst = some definition →
          engine.Inherits data.nativeGroup name definition := by
  refine (superGroup_cases hdata name).imp_right ?_
  rintro ⟨above, habove, happly⟩
  refine ⟨above, happly, fun definition hfound => ?_⟩
  obtain ⟨⟨found, owner⟩, hfind, rfl⟩ := Option.map_eq_some_iff.mp hfound
  have hinherited : engine.groups.inherited? data.nativeGroup name = some (found, owner) := by
    rw [Groups.inherited?, habove, Option.bind_some, hfind]
  exact inherits_of_inherited? h hinherited

/-- A template called by name is looked up from the group of the instance. -/
theorem callee_named (hdata : run.instances[scope.innermost.index]? = some data) (fuel : Nat)
    (name : String) :
    (Evaluator.upTo fuel).callee scope (.named name) engine.setting run =
      definitionFrom data.group name engine.setting run :=
  bind_apply_ok _ _ (getInstance_apply_some _ _ hdata)

/-- While the name of a call is evaluated, the group of the instance stays. -/
theorem callee_computed (hdata : run.instances[scope.innermost.index]? = some data)
    (hsize : engine.instances.size ≤ run.instances.size) (fuel : Nat) (expr : Expr) :
    (Evaluator.upTo fuel).callee scope (.computed expr) engine.setting run =
      (do
        let value ← (Evaluator.upTo fuel).eval scope expr
        let name ← (Evaluator.upTo fuel).textOf scope value
        definitionFrom data.group name) engine.setting run := by
  have hevaluated : run.Evolves engine.setting.callers
      ((Evaluator.upTo fuel).eval scope expr engine.setting run).2 :=
    Evaluator.evolves_eval fuel scope expr hsize
  simp only [Evaluator.callee]
  rcases heval : (Evaluator.upTo fuel).eval scope expr engine.setting run with
    ⟨halt | value, middle⟩ <;> rw [heval] at hevaluated
  · rw [bind_apply_error _ _ heval, bind_apply_error _ _ heval]
  · rw [bind_apply_ok _ _ heval, bind_apply_ok _ _ heval]
    have htexted : middle.Evolves engine.setting.callers
        ((Evaluator.upTo fuel).textOf scope value engine.setting middle).2 :=
      Evaluator.evolves_textOf fuel scope value (hsize.trans hevaluated.size)
    rcases htext : (Evaluator.upTo fuel).textOf scope value engine.setting middle with
      ⟨halt | name, last⟩ <;> rw [htext] at htexted
    · rw [bind_apply_error _ _ htext, bind_apply_error _ _ htext]
    · rw [bind_apply_ok _ _ htext, bind_apply_ok _ _ htext]
      obtain ⟨changed, hchanged, halike⟩ :=
        (hevaluated.trans htexted).instances _ data hdata
      rw [bind_apply_ok _ _ (getInstance_apply_some _ _ hchanged), halike.group]

/-- A region is looked up under the key of the template that it is a region of. -/
theorem writeRegion_apply (hdata : run.instances[scope.innermost.index]? = some data)
    (fuel : Nat) (region : String) (ascending : Bool) :
    (Evaluator.upTo fuel).writeRegion scope region ascending engine.setting run =
      (do
        let start ← Evaluator.regionStart scope data
          (Region.key data.definition.regionOwner region) ascending
        match ← lookup start (Region.key data.definition.regionOwner region) with
        | some definition =>
          let id ← create scope definition
          (Evaluator.upTo fuel).exec scope.frames id
        | none =>
          if ascending then fail (.noSuchTemplate (Region.key data.definition.regionOwner region))
          else return 0) engine.setting run :=
  bind_apply_ok _ _ (getInstance_apply_some _ _ hdata)

/-- The scope of an instance is looked up from the groups of the instance. -/
theorem dispatches (h : engine.groups.Hierarchical)
    (hdata : run.instances[scope.innermost.index]? = some data)
    (hsize : engine.instances.size ≤ run.instances.size) :
    engine.Dispatches data.group data.nativeGroup data.definition.regionOwner scope run where
  named := callee_named hdata
  computed := callee_computed hdata hsize
  region fuel region := by
    rw [writeRegion_apply hdata]
    rfl
  inherited fuel name := by
    rcases inherited_cases h hdata name with ⟨error, happly⟩ | ⟨above, happly, hinherits⟩
    · exact Or.inl ⟨error, bind_apply_error _ _ happly⟩
    · have hcallee : (Evaluator.upTo fuel).callee scope (.inherited name) engine.setting run =
          definitionFrom above name engine.setting run := bind_apply_ok _ _ happly
      have hlookup := lookup_apply engine.setting run above name
      rw [hcallee, definitionFrom, bind_apply_ok _ _ hlookup]
      cases hfound : (engine.setting.groups.findTemplate above name).map Prod.fst with
      | none => exact Or.inl ⟨_, rfl⟩
      | some definition => exact Or.inr ⟨definition, hinherits definition hfound, rfl⟩
  ascending fuel region := by
    rw [writeRegion_apply hdata]
    rcases inherited_cases h hdata (Region.key data.definition.regionOwner region) with
      ⟨error, happly⟩ | ⟨above, happly, hinherits⟩
    · exact Or.inl ⟨error, bind_apply_error _ _ happly⟩
    · have hlookup := lookup_apply engine.setting run above
        (Region.key data.definition.regionOwner region)
      simp only [Evaluator.regionStart, if_true]
      rw [bind_apply_ok _ _ happly, bind_apply_ok _ _ hlookup]
      cases hfound : (engine.setting.groups.findTemplate above
        (Region.key data.definition.regionOwner region)).map Prod.fst with
      | none => exact Or.inl ⟨_, rfl⟩
      | some definition => exact Or.inr ⟨definition, hinherits definition hfound, rfl⟩

/-! ### Ascents -/

/-- Each inherited definition is higher up than the one before it. -/
theorem Lineage.height_of_ascends {instances : Array Instance} (h : engine.Lineage instances)
    (hreachable : engine.Reachable) {first last : InstanceId} {steps : Nat}
    {start : Instance} (hstart : instances[first.index]? = some start)
    (hascends : engine.Ascends instances first steps last) :
    ∃ data, instances[last.index]? = some data ∧
      steps + engine.groups.height data.nativeGroup ≤ engine.groups.height start.nativeGroup ∧
        (steps = 0 ∨ 0 < engine.groups.height data.nativeGroup) := by
  induction hascends with
  | start => exact ⟨start, hstart, by omega, Or.inl rfl⟩
  | @inherited steps creator id parent data name _ hparent hdata hid _ hfound ih =>
    obtain ⟨parent', hparent', hheight, -⟩ := ih
    obtain rfl : parent = parent' := Option.some.inj (hparent.symm.trans hparent')
    obtain ⟨⟨definition, owner⟩, hfind, rfl : definition = data.definition⟩ :=
      Option.map_eq_some_iff.mp hfound
    obtain ⟨habove, -, group, hgroup, hget⟩ := Groups.above_of_inherited? hfind
    obtain ⟨creator', parent', -, -, hcreates⟩ := h.created id data hid hdata
    obtain rfl := hcreates.nativeGroup_eq hreachable (held?_of_get? hgroup hget)
    have hlt := hreachable.hierarchical.height_lt habove
    have hpos := Groups.height_pos (Option.isSome_iff_exists.mpr ⟨group, hgroup⟩)
    exact ⟨data, hdata, by omega, Or.inr hpos⟩
  | @inline steps creator id data _ hdata hid hcreator hinline ih =>
    obtain ⟨parent, hparent, hheight, hpos⟩ := ih
    obtain ⟨creator', parent', -, hparent', hcreates⟩ := h.created id data hid hdata
    obtain rfl : creator' = creator := Option.some.inj (hcreates.enclosing.symm.trans hcreator)
    obtain rfl : parent = parent' := Option.some.inj (hparent.symm.trans hparent')
    rw [← hcreates.inline hinline] at hheight hpos
    exact ⟨data, hdata, hheight, hpos⟩

/-- There are no more ascents in a row than groups above the group of the template. -/
theorem Lineage.ascends {instances : Array Instance} (h : engine.Lineage instances)
    (hreachable : engine.Reachable) {first last : InstanceId} {steps : Nat}
    (hdata : instances[first.index]? = some data)
    (hascends : engine.Ascends instances first steps last) :
    steps ≤ (engine.groups.chain data.nativeGroup).tail.length := by
  obtain ⟨top, -, hheight, hpos⟩ := h.height_of_ascends hreachable hdata hascends
  have hlength := engine.groups.height_le_length data.nativeGroup
  rw [List.length_tail]
  omega

/-! ### Renders -/

/-- With the lineage of its instances, a state of a render has all that goes with it. -/
theorem Lineage.polymorphic (h : engine.Lineage run.instances)
    (hreachable : engine.Reachable) : engine.Polymorphic run where
  created := h.created
  dispatches scope data hdata := by
    obtain ⟨root, first, hroot, hfirst, hgroup⟩ := h.ancestor hdata
    refine ⟨root, first, hroot, hfirst, fun after hevolves => ?_⟩
    obtain ⟨changed, hchanged, halike⟩ := hevolves.instances _ data hdata
    have hdispatches := dispatches hreachable.hierarchical hchanged (h.size.trans hevolves.size)
    rw [halike.group, hgroup, halike.nativeGroup, halike.definition] at hdispatches
    exact hdispatches
  ascends first last data steps hdata hascends := h.ascends hreachable hdata hascends

/-- In an engine that calls lead to, instances and look-ups belong together throughout the run of
each instance, and in its end. -/
theorem polymorphic_run (h : engine.Reachable) (id : InstanceId) (out : Writer) :
    engine.Throughout id out engine.Polymorphic ∧
      ∀ fuel, engine.Polymorphic (engine.runWithin fuel id out).2 := by
  have hlineage (run : Run) (hrun : (lineage h).Holds run.instances) : engine.Polymorphic run :=
    Lineage.polymorphic hrun h
  have hstart : (lineage h).Holds engine.instances := lineage_start engine
  exact ⟨Run.Invariant.throughout hstart hlineage id out,
    fun fuel => hlineage _ (Run.Invariant.holds_runWithin hstart fuel id out)⟩

/-- Three groups, each the super-group of the next, with a template that two of them extend. It is
instantiated in the lowest one. -/
def climbing : Engine :=
  let inherited : Chunk := .expression (.call { callee := .inherited "page" }) {}
  ({} : Engine).after
    [.defineGroup "base" .angle, .defineGroup "middle" .angle, .defineGroup "top" .angle,
      .setSuperGroup ⟨1⟩ ⟨0⟩, .setSuperGroup ⟨2⟩ ⟨1⟩,
      .declare ⟨0⟩ (.template "page" none [.literal "base"]),
      .declare ⟨1⟩ (.template "page" none [.literal "middle ", inherited]),
      .declare ⟨2⟩ (.template "page" none [.literal "top ", inherited]),
      .instanceOf ⟨2⟩ "page"]

/-- Each of the inherited templates is native one group further up, and all of them keep to the
group that was instantiated. -/
theorem polymorphic_run_climbing :
    climbing.Reachable ∧ climbing.Throughout ⟨0⟩ {} climbing.Polymorphic ∧
      climbing.Polymorphic (climbing.runWithin 20 ⟨0⟩ {}).2 ∧
      ((climbing.runWithin 20 ⟨0⟩ {}).2.instances.toList.map fun data =>
        (data.group.index, data.nativeGroup.index)) = [(2, 2), (2, 1), (2, 0)] ∧
      (climbing.groups.chain ⟨2⟩).tail.length = 2 ∧
      (climbing.render ⟨0⟩).1.toOption = some "top middle base" := by
  have hreachable : climbing.Reachable := (Reachable.new {}).after _
  have hrun := polymorphic_run hreachable ⟨0⟩ {}
  exact ⟨hreachable, hrun.1, hrun.2 20, by decide +kernel, by decide +kernel, by decide +kernel⟩

end Stencil.Engine
