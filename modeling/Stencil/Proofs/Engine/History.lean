import Stencil.Proofs.Engine.Agreement
import Stencil.Proofs.Engine.Plain
import Stencil.Proofs.Engine.Reachable
import Stencil.Proofs.Render.Comparison

/-!
# Renders before a render

What a render leaves behind is seen by a later one only through values with a state and through the
templates that inline templates were first met in. So of an instance with plain values a render
yields the same whatever was rendered before, provided that the inline templates which it meets were
not met in other templates before.
-/

namespace Stencil.Engine

variable {engine : Engine}

/-- A store that has what another one has, of the objects that plain values lead to. -/
def SamePlain (engine : Engine) (store : Store) : Prop :=
  ∀ id, engine.Plain (.scalar (.object id)) → store.object? id = engine.store.object? id

/-- How the store of a render may differ from that of its repetition after a history: the latter
also has the owners that were noted earlier. -/
structure Trails (engine : Engine) (earlier : List (Nat × String)) (store other : Store) :
    Prop where
  first : engine.SamePlain store
  second : engine.SamePlain other
  owners : ∀ label, other.owners.lookup label =
    (store.owners.lookup label).or (earlier.lookup label)

/-- A render of an engine, compared with itself after a history that noted some owners. It is
followed as long as it agrees with them. -/
def replay (engine : Engine) (earlier : List (Nat × String)) : Comparison where
  left := engine.setting
  right := engine.setting
  Frame id := engine.Plain (.template id)
  Proper := engine.Plain
  Start _ := True
  Lost run := ∃ label first owner, earlier.lookup label = some first ∧
    run.store.owners.lookup label = some owner ∧ first ≠ owner
  Alike := engine.Trails earlier

/-- Objects that plain values lead to stay as they are. -/
theorem SamePlain.evolves {store after : Store} (h : engine.SamePlain store)
    (hevolves : store.Evolves after) : engine.SamePlain after := by
  intro id hplain
  rw [← h id hplain]
  cases hobject : store.object? id with
  | none =>
    rw [Store.object?, Array.getElem?_eq_none_iff] at hobject ⊢
    rw [hevolves.objects]
    exact hobject
  | some object =>
    obtain ⟨text, hface⟩ := hplain.stateless object (h id hplain ▸ hobject)
    exact hevolves.fixed id object text hobject hface

namespace Trails

variable {earlier : List (Nat × String)} {store other : Store}

/-- Changes that leave owners alone can be made on both sides. -/
theorem evolves (h : engine.Trails earlier store other) {store' other' : Store}
    (hstore : store.Evolves store') (hother : other.Evolves other')
    (howners : store'.owners = store.owners) (howners' : other'.owners = other.owners) :
    engine.Trails earlier store' other' :=
  ⟨SamePlain.evolves h.first hstore, SamePlain.evolves h.second hother,
    fun label => by rw [howners, howners', h.owners label]⟩

/-- An inline template has the same owner on both sides, as long as this agrees with what was noted
earlier. -/
theorem inlineOwner (h : engine.Trails earlier store other) (label : Nat) (owner : String)
    (hagree : ∀ first found, earlier.lookup label = some first →
      (store.inlineOwner label owner).2.owners.lookup label = some found → first = found) :
    (other.inlineOwner label owner).1 = (store.inlineOwner label owner).1 ∧
      engine.Trails earlier (store.inlineOwner label owner).2
        (other.inlineOwner label owner).2 := by
  have hnoted := Store.lookup_inlineOwner label owner store
  have hsame : (other.inlineOwner label owner).1 = (store.inlineOwner label owner).1 := by
    rw [Store.inlineOwner_fst, h.owners label]
    cases hstore : store.owners.lookup label with
    | some found => rw [Store.inlineOwner_fst, hstore, Option.some_or]
    | none =>
      rw [Option.none_or]
      cases hearlier : earlier.lookup label with
      | some first => exact hagree first _ hearlier hnoted
      | none => rw [Store.inlineOwner_fst, hstore]
  refine ⟨hsame, h.first.evolves (.inlineOwner label owner _),
    h.second.evolves (.inlineOwner label owner _), fun met => ?_⟩
  by_cases hmet : met = label
  · rw [hmet, hnoted, Store.lookup_inlineOwner, hsame, Option.some_or]
  · rw [Store.lookup_inlineOwner_of_ne _ _ _ hmet, Store.lookup_inlineOwner_of_ne _ _ _ hmet,
      h.owners met]

/-- What the store has of a plain scalar is the same on both sides. -/
theorem subject? (h : engine.Trails earlier store other) {scalar : Scalar}
    (hplain : engine.Plain (.scalar scalar)) : other.subject? scalar = store.subject? scalar := by
  cases scalar with
  | object id => exact (h.second id hplain).trans (h.first id hplain).symm
  | string _ | int _ | float _ | bool _ => rfl

end Trails

/-- The owners that a history noted are all by which a render of an instance with plain values can
be told from its repetition after the history. -/
theorem replay_fair (engine : Engine) (earlier : List (Nat × String)) :
    (engine.replay earlier).Fair where
  config := rfl
  callers := rfl
  closed := engine.plain_closed
  lost hgrows := fun ⟨label, first, owner, hfirst, howner, hne⟩ =>
    ⟨label, first, owner, hfirst, hgrows.owners label owner howner, hne⟩
  frame hframe := hframe
  fresh := plain_of_size_le
  entered hproper _ _ := hproper
  group _ := rfl
  above _ _ _ := trivial
  template _ := rfl
  owned _ _ _ := trivial
  dictionary _ := rfl
  renderer _ := rfl
  inlineOwner label owner htrails hlost := by
    apply htrails.inlineOwner label owner
    intro first found hfirst hfound
    -- If the owner differed from the one noted, the state would be lost.
    by_contra hne
    exact hlost ⟨label, first, found, hfirst, hfound, hne⟩
  -- Iterators are not plain, so that no item is taken.
  next hplain := absurd hplain.stateless id
  drain hplain := absurd hplain.stateless id
  truthy {first second value} hplain htrails := by
    cases value with
    | iterator cursor => exact absurd hplain.stateless id
    | absent | list _ | mapping _ | template _ => rfl
    | scalar scalar => cases scalar <;> rfl
  scalarType {first second scalar} hplain htrails := by
    cases scalar with
    | object id => exact congrArg (fun object : Option Object =>
        ScalarType.object ((object.map Object.typeName).getD "")) (htrails.subject? hplain)
    | string _ | int _ | float _ | bool _ => rfl
  property {first second value name} hplain htrails := by
    cases value with
    | scalar scalar =>
      cases scalar with
      | object id =>
        have hsame := htrails.subject? hplain
        have hproperty := congrArg (fun object : Option Object =>
          object.bind fun object => object.properties.lookup name) hsame
        refine ⟨hproperty, fun found hfound => ?_⟩
        obtain ⟨object, hobject, hlookup⟩ := Option.bind_eq_some_iff.mp hfound
        rw [htrails.first id hplain] at hobject
        exact hplain.part (.property hobject hlookup)
      | string _ | int _ | float _ | bool _ => exact ⟨rfl, fun _ hfound => by cases hfound⟩
    | absent | list _ | mapping _ | template _ | iterator _ =>
      exact ⟨rfl, fun _ hfound => by cases hfound⟩
  rendering {first second scalar action} hplain hlocal htrails := by
    have heffect := hlocal.effect first
    have heffect' := hlocal.effect second
    exact ⟨hlocal.outcome _ _ (htrails.subject? hplain), htrails.evolves (.ofTallied heffect)
      (.ofTallied heffect') heffect.owners heffect'.owners⟩

/-- A render begins in a state in which all instances fit, whatever the store. -/
theorem replay_intact (earlier : List (Nat × String)) (out : Writer) (store : Store) :
    (engine.replay earlier).Intact { engine.start out with store } where
  callers := Nat.le_refl _
  fits _ data hdata :=
    { group := fun _ => trivial
      native := fun _ => trivial
      assigned := fun hplain _ _ hvalue => hplain.part (.assigned hdata hvalue)
      bound := fun hplain _ _ hvalue => hplain.part (.bound hdata hvalue)
      known := fun _ => trivial }
  defaults _ _ h := by cases h

/-- The engine after some instances were written. -/
def afterWrites (engine : Engine) (history : List (InstanceId × Writer)) : Engine :=
  engine.after (history.map fun (id, out) => .write id out)

/-- To write instances one after the other leaves an engine undisturbed. -/
theorem undisturbed_afterWrites (engine : Engine) (history : List (InstanceId × Writer)) :
    engine.Undisturbed (engine.afterWrites history) := by
  induction history generalizing engine with
  | nil => exact .refl engine
  | cons first rest ih =>
    exact (undisturbed_writeWithin fuel engine first.1 first.2).trans (ih _)

/-- Two engines that renders of an engine led to yield the same for an instance with plain values,
if one trails the other and if the owners that the former notes agree with those noted earlier. -/
theorem agrees_of_trails {first second : Engine} {earlier : List (Nat × String)} {id : InstanceId}
    {out : Writer} (hplain : engine.Plain (.template id)) (hfirst : engine.Undisturbed first)
    (hsecond : engine.Undisturbed second)
    (htrails : engine.Trails earlier first.store second.store)
    (hagree : ∀ label noted owner, earlier.lookup label = some noted →
      (first.write id out).engine.store.owners.lookup label = some owner → noted = owner) :
    (first.write id out).Agrees (second.write id out) := by
  have hrun {other : Engine} (h : engine.Undisturbed other) : other.runWithin fuel id out =
      (Evaluator.upTo fuel).exec [] id engine.setting
        { engine.start out with store := other.store } := by
    have hsetting : other.setting = engine.setting := by
      simp only [setting, h.config, h.groups, h.instances]
    have hstart : other.start out = { engine.start out with store := other.store } := by
      simp only [start, h.instances]
    rw [runWithin, hsetting, hstart]
  have hinstance : second.instance? id = first.instance? id := by
    simp only [instance?, hfirst.instances, hsecond.instances]
  have hconfig : second.config = first.config := hsecond.config.trans hfirst.config.symm
  refine agrees_writeWithin hconfig hinstance fun hid => ?_
  have hstore : (first.write id out).engine.store = (first.runWithin fuel id out).2.store := by
    rw [write, writeWithin, if_neg (by simpa [Option.isSome_iff_ne_none] using hid)]
  rw [hrun hfirst] at hstore ⊢
  rw [hrun hsecond]
  obtain ⟨store, hsame, -⟩ := (engine.replay_fair earlier).exec fuel hplain
    (engine.replay_intact _ out first.store) htrails
    fun ⟨label, noted, owner, hnoted, howner, hne⟩ =>
      hne (hagree label noted owner hnoted (hstore ▸ howner))
  exact ⟨store, hsame⟩

/-- An engine that has the owners that a history noted, and nothing else that the history left
behind. -/
def withOwners (engine : Engine) (history : List (InstanceId × Writer)) : Engine :=
  let store := { engine.store with owners := (engine.afterWrites history).store.owners }
  { engine with store }

/-- So does finding out on the way whom regions belong to. -/
theorem undisturbed_withOwners (engine : Engine) (history : List (InstanceId × Writer)) :
    engine.Undisturbed (engine.withOwners history) :=
  have hstore := (engine.undisturbed_afterWrites history).store
  ⟨rfl, rfl, rfl, { Store.Evolves.refl engine.store with owners := hstore.owners }⟩

/-- The inline templates that writing an instance meets have the owners that it gives them, also if
others were written before: what was noted earlier agrees with it. -/
def Consistent (engine : Engine) (history : List (InstanceId × Writer)) (id : InstanceId)
    (out : Writer) : Prop :=
  ∀ label first owner,
    (engine.afterWrites history).store.owners.lookup label = some first →
      (engine.write id out).engine.store.owners.lookup label = some owner → first = owner

/-- At its start, a render after a history has what it has without the history, and the owners that
the history noted. -/
theorem Undisturbed.trails {after : Engine} (h : engine.Undisturbed after) :
    engine.Trails after.store.owners engine.store after.store where
  first _ _ := rfl
  second := SamePlain.evolves (fun _ _ => rfl) h.store
  owners label := by
    cases hlabel : engine.store.owners.lookup label with
    | some owner => rw [h.store.owners label owner hlabel, Option.some_or]
    | none => rw [Option.none_or]

/-- Of what a history leaves behind, writing an instance with plain values sees nothing but the
owners that were noted. -/
theorem write_withOwners {id : InstanceId} (hplain : engine.Plain (.template id))
    (history : List (InstanceId × Writer)) (out : Writer) :
    ((engine.withOwners history).write id out).Agrees
      ((engine.afterWrites history).write id out) := by
  have hafter := engine.undisturbed_afterWrites history
  have htrails : engine.Trails [] (engine.withOwners history).store
      (engine.afterWrites history).store :=
    { first := fun _ _ => rfl
      second := SamePlain.evolves (fun _ _ => rfl) hafter.store
      owners := fun label => (Option.or_none).symm }
  refine agrees_of_trails hplain (engine.undisturbed_withOwners history) hafter htrails ?_
  intro label noted owner hnoted
  cases hnoted

/-- Writing an instance with plain values yields the same after others were written, if the owners
that these noted agree with it. -/
theorem write_afterWrites {id : InstanceId} (hplain : engine.Plain (.template id))
    {history : List (InstanceId × Writer)} {out : Writer}
    (hconsistent : engine.Consistent history id out) :
    (engine.write id out).Agrees ((engine.afterWrites history).write id out) := by
  have hafter := engine.undisturbed_afterWrites history
  exact agrees_of_trails hplain (.refl engine) hafter hafter.trails hconsistent

/-- An instance with plain values is rendered to the same text, or fails in the same way, whatever
was written before, if the inline templates that it meets were not met in other templates before.
Without this condition, all that a render sees of the history are the templates that inline
templates were first met in. -/
theorem replayed_write {id : InstanceId} (hplain : engine.Plain (.template id))
    (history : List (InstanceId × Writer)) :
    (∀ out, engine.Consistent history id out →
      (engine.write id out).Agrees ((engine.afterWrites history).write id out)) ∧
      (∀ width, engine.Consistent history id (engine.config.writer width) →
        ((engine.afterWrites history).renderWithWidth id width).1 =
          (engine.renderWithWidth id width).1) ∧
      (engine.Consistent history id (engine.config.writer engine.config.lineWidth) →
        ((engine.afterWrites history).render id).1 = (engine.render id).1) ∧
      ∀ out, ((engine.withOwners history).write id out).Agrees
        ((engine.afterWrites history).write id out) := by
  have hwrite (out : Writer) (hconsistent : engine.Consistent history id out) :=
    write_afterWrites hplain hconsistent
  have hconfig := (engine.undisturbed_afterWrites history).config
  exact ⟨hwrite, fun width hconsistent => renderWithWidth_agrees hconfig (hwrite _ hconsistent),
    fun hconsistent => render_agrees hconfig (hwrite _ hconsistent),
    write_withOwners hplain history⟩

/-- Two instances of a template that writes its items in an inline template. The items of one are in
a list, those of the other one in an iterator. -/
def listing : Engine :=
  ({} : Engine).after
    [.defineGroup "group" .angle,
      .declare ⟨0⟩ (.template "items" none [.expression (.inline
        { label := 0, formals := [], body := [.expression (.attribute "items") {}] }) {}]),
      .supply fun store => (store.newCursor [.string "c"]).2,
      .instanceOf ⟨0⟩ "items", .instanceOf ⟨0⟩ "items",
      .assign ⟨0⟩ "items" (.list [.string "a", .string "b"]),
      .assign ⟨1⟩ "items" (.iterator ⟨0⟩)]

/-- Writing the instance with the iterator uses the iterator up, and notes an owner. It changes
nothing for the instance with the list. -/
theorem replayed_write_listing :
    let history := [(⟨1⟩, listing.config.writer 0)]
    listing.Plain (.template ⟨0⟩) ∧ listing.Consistent history ⟨0⟩ (listing.config.writer 0) ∧
      ((listing.afterWrites history).render ⟨0⟩).1 = (listing.render ⟨0⟩).1 ∧
      (listing.render ⟨0⟩).1.toOption = some "ab" ∧
      (listing.render ⟨1⟩).1.toOption = some "c" ∧
      ((listing.afterWrites history).render ⟨1⟩).1.toOption = some "" := by
  intro history
  have hplain : listing.Plain (.template ⟨0⟩) := by
    refine plain_iff.mpr ⟨trivial, fun part hpart => ?_⟩
    cases hpart with
    | assigned hdata hvalue =>
      cases hdata
      cases List.mem_singleton.mp (Table.mem_of_get? hvalue)
      apply ((plain_closed _).list _).mpr
      intro item hitem
      rcases List.mem_pair.mp hitem with rfl | rfl <;> exact (plain_closed _).string _
    | bound hdata hvalue =>
      cases hdata
      cases hvalue
  have hconsistent : listing.Consistent history ⟨0⟩ (listing.config.writer 0) := by
    have hearlier : (listing.afterWrites history).store.owners = [(0, "items")] := by
      decide +kernel
    have hown : (listing.write ⟨0⟩ (listing.config.writer 0)).engine.store.owners =
        [(0, "items")] := by
      decide +kernel
    intro label first owner hfirst howner
    rw [hearlier] at hfirst
    rw [hown] at howner
    exact Option.some.inj (hfirst.symm.trans howner)
  exact ⟨hplain, hconsistent, (replayed_write hplain history).2.2.1 hconsistent, by decide +kernel,
    by decide +kernel, by decide +kernel⟩

/-- Two templates that write one and the same inline template, which has a region. Each of them has
a body for the region. -/
def sharing : Engine :=
  let shared : Expr := .inline { label := 0, formals := [], body := [.region "part" false none] }
  ({} : Engine).after
    [.defineGroup "group" .angle,
      .declare ⟨0⟩ (.template "first" none [.expression shared {}]),
      .declare ⟨0⟩ (.template "second" none [.expression shared {}]),
      .declare ⟨0⟩ (.region "first" "part" [.literal "A"]),
      .declare ⟨0⟩ (.region "second" "part" [.literal "B"]),
      .instanceOf ⟨0⟩ "first", .instanceOf ⟨0⟩ "second"]

/-- What an instance without any attributes is rendered to depends on what was rendered before: the
inline template keeps the regions of the template in which it was met first. -/
theorem not_replayed_sharing :
    sharing.Reachable ∧ sharing.Plain (.template ⟨0⟩) ∧
      (sharing.render ⟨0⟩).1.toOption = some "A" ∧
      ((sharing.afterWrites [(⟨1⟩, sharing.config.writer 0)]).render ⟨0⟩).1.toOption =
        some "B" := by
  refine ⟨(Reachable.new {}).after _, ?_, by decide +kernel, by decide +kernel⟩
  refine plain_iff.mpr ⟨trivial, fun part hpart => ?_⟩
  cases hpart with
  | assigned hdata hvalue | bound hdata hvalue =>
    cases hdata
    cases hvalue

end Stencil.Engine
