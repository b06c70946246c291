import Stencil.Proofs.Group.Chain
import Stencil.Proofs.Render.Steps
import Stencil.Proofs.Render.Writing
import Stencil.Proofs.Value.Evolution

/-!
# Comparing two renders

Two renders that begin in states which differ in nothing but their stores, and whose groups may
differ, keep in step as long as they meet nothing by which they could be told apart. A `Comparison`
says what they may meet: groups from which names are found alike, values that are handled alike, and
instances that lead only to such groups and values. It also says when the first render has gone
where nothing is said any more; that may only depend on the instances that it has written and on
the owners of inline templates, because both only grow.
-/

namespace Stencil

open Render

/-- What only grows in a run, whatever is done to it. -/
structure Run.Grows (before after : Run) : Prop where
  written : before.written <+: after.written
  owners : ∀ label owner, before.store.owners.lookup label = some owner →
    after.store.owners.lookup label = some owner

namespace Run.Grows

variable {first second third : Run}

/-- Nothing has grown where nothing was done. -/
theorem refl (run : Run) : run.Grows run := ⟨List.prefix_rfl, fun _ _ h => h⟩

/-- What has grown twice has grown. -/
theorem trans (h : first.Grows second) (h' : second.Grows third) : first.Grows third :=
  ⟨h.written.trans h'.written, fun label owner howner =>
    h'.owners label owner (h.owners label owner howner)⟩

/-- A change that leaves alone what only grows. -/
theorem of_eq (hwritten : second.written = first.written) (hstore : second.store = first.store) :
    first.Grows second :=
  ⟨hwritten ▸ List.prefix_rfl, fun _ _ h => hstore ▸ h⟩

end Run.Grows

/-- Two renders that are compared. -/
structure Comparison where
  left : Setting
  right : Setting
  /-- Instances that may stand in a scope. -/
  Frame : InstanceId → Prop
  /-- Values that the renders may meet. -/
  Proper : Value → Prop
  /-- Groups that the renders may look up names from. -/
  Start : GroupId → Prop
  /-- States of the left render of which nothing is said. -/
  Lost : Run → Prop
  /-- How the stores of the two renders may differ. -/
  Alike : Store → Store → Prop

namespace Comparison

variable (both : Comparison) {α β : Type}

/-- What the renders may meet, as the scheme of a kind of judgement. -/
def scheme : Scheme where
  Frame := both.Frame
  Fresh id := both.left.callers ≤ id.index
  Proper := both.Proper
  Start := both.Start
  Stored _ definition := ∀ group, definition.group = some group → both.Start group
  Listed _ _ _ := True
  Known _ _ := True

/-- A state that leads to nothing but what the renders may meet. -/
structure Intact (run : Run) : Prop where
  callers : both.left.callers ≤ run.instances.size
  fits : ∀ (id : InstanceId) data, run.instances[id.index]? = some data →
    both.scheme.Fits id data
  defaults : ∀ key value, run.defaults.lookup key = some value → both.Proper value

/-- Two outcomes are the same up to what the stores may differ in. -/
def Matches (outcome other : Except Halt α × Run) (post : α → Prop) : Prop :=
  ∃ store, other = (outcome.1, { outcome.2 with store }) ∧ both.Alike outcome.2.store store ∧
    both.Intact outcome.2 ∧ ∀ value, outcome.1 = .ok value → post value

/-- The judgement that two renders, the left one at `false` and the right one at `true`, keep in
step. -/
def logic : Logic Bool where
  toScheme := both.scheme
  Holds pre a post := ∀ run, run.Grows (a false both.left run).2 ∧
    (pre → ∀ store, both.Intact run → both.Alike run.store store →
      ¬ both.Lost (a false both.left run).2 →
      both.Matches (a false both.left run) (a true both.right { run with store }) post)

/-- What makes two renders keep in step. -/
structure Fair : Prop where
  config : both.right.config = both.left.config
  callers : both.right.callers = both.left.callers
  closed : Value.Closed both.Proper
  lost : ∀ {before after : Run}, before.Grows after → both.Lost before → both.Lost after
  frame : ∀ {id}, both.Frame id → both.Proper (.template id)
  fresh : ∀ {id : InstanceId}, both.left.callers ≤ id.index → both.Frame id
  /-- An instance that is written is a frame. -/
  entered : ∀ {run : Run} {id : InstanceId}, both.Proper (.template id) → ¬ both.Lost run →
    (id.index < both.left.callers → id ∈ run.written) → both.Frame id
  group : ∀ {id}, both.Start id → both.right.groups.find? id = both.left.groups.find? id
  above : ∀ {id group above}, both.Start id → both.left.groups.find? id = some group →
    group.superGroup = some above → both.Start above
  template : ∀ {start name}, both.Start start →
    both.right.groups.findTemplate start name = both.left.groups.findTemplate start name
  owned : ∀ {start name definition id group}, both.Start start →
    both.left.groups.findTemplate start name = some (definition, id) →
    definition.group = some group → both.Start group
  dictionary : ∀ {start name}, both.Start start →
    both.right.groups.findDictionary start name = both.left.groups.findDictionary start name
  renderer : ∀ {start type}, both.Start start →
    both.right.groups.findRenderer start type = both.left.groups.findRenderer start type
  inlineOwner : ∀ {run : Run} {store : Store} label owner, both.Alike run.store store →
    ¬ both.Lost { run with store := (run.store.inlineOwner label owner).2 } →
    (store.inlineOwner label owner).1 = (run.store.inlineOwner label owner).1 ∧
      both.Alike (run.store.inlineOwner label owner).2 (store.inlineOwner label owner).2
  next : ∀ {first second : Store} {cursor}, both.Proper (.iterator cursor) →
    both.Alike first second → (second.next cursor).1 = (first.next cursor).1 ∧
      both.Alike (first.next cursor).2 (second.next cursor).2 ∧
      ∀ value, (first.next cursor).1 = some value → both.Proper value
  drain : ∀ {first second : Store} {cursor}, both.Proper (.iterator cursor) →
    both.Alike first second → (second.drain cursor).1 = (first.drain cursor).1 ∧
      both.Alike (first.drain cursor).2 (second.drain cursor).2 ∧
      ∀ value ∈ (first.drain cursor).1, both.Proper value
  truthy : ∀ {first second : Store} {value}, both.Proper value → both.Alike first second →
    second.truthy value = first.truthy value
  scalarType : ∀ {first second : Store} {scalar}, both.Proper (.scalar scalar) →
    both.Alike first second → second.scalarType scalar = first.scalarType scalar
  property : ∀ {first second : Store} {value name}, both.Proper value → both.Alike first second →
    second.property? value name = first.property? value name ∧
      ∀ found, first.property? value name = some found → both.Proper found
  rendering : ∀ {first second : Store} {scalar} {action : Format.Rendering String},
    both.Proper (.scalar scalar) → Format.Local scalar action → both.Alike first second →
    (action second).1 = (action first).1 ∧ both.Alike (action first).2 (action second).2

variable {both}

namespace Intact

variable {run : Run}

/-- A state is intact whatever else changes than its instances and the notes on defaults. -/
theorem of_eq {after : Run} (h : both.Intact run) (hinstances : after.instances = run.instances)
    (hdefaults : after.defaults = run.defaults) : both.Intact after :=
  ⟨hinstances ▸ h.callers, hinstances ▸ h.fits, hdefaults ▸ h.defaults⟩

/-- An instance may be added if it fits under each number that the renders give out. -/
theorem push (h : both.Intact run) {data : Instance}
    (hdata : both.scheme.Fits ⟨run.instances.size⟩ data) :
    both.Intact { run with instances := run.instances.push data } where
  callers := by
    rw [Array.size_push]
    exact Nat.le_succ_of_le h.callers
  fits id found hfound := by
    rw [Array.getElem?_push] at hfound
    split at hfound
    · next heq =>
      cases hfound
      obtain rfl : id = ⟨run.instances.size⟩ := by
        cases id
        exact congrArg _ heq
      exact hdata
    · exact h.fits id found hfound
  defaults := h.defaults

/-- An instance may be changed to one that fits as well. -/
theorem modify (h : both.Intact run) {id : InstanceId} {change : Instance → Instance}
    (hchange : ∀ data, both.scheme.Fits id data → both.scheme.Fits id (change data)) :
    both.Intact { run with instances := run.instances.modify id.index change } where
  callers := by
    rw [Array.size_modify]
    exact h.callers
  fits other found hfound := by
    rw [Array.getElem?_modify] at hfound
    split at hfound
    · next heq =>
      obtain rfl : id = other := by
        cases id
        cases other
        exact congrArg _ heq
      obtain ⟨data, hdata, rfl⟩ := Option.map_eq_some_iff.mp hfound
      exact hchange data (h.fits id data hdata)
    · exact h.fits other found hfound
  defaults := h.defaults

end Intact

/-- An action keeps in step if it does not look at the store. -/
theorem holds_storeless {pre : Prop} {action : Render α} {post : α → Prop}
    (hgrows : ∀ run : Run, run.Grows (action both.left run).2)
    (hright : pre → ∀ (run : Run) store, both.Intact run → action both.right { run with store } =
      ((action both.left run).1, { (action both.left run).2 with store }))
    (hstore : ∀ run : Run, (action both.left run).2.store = run.store)
    (hpost : pre → ∀ run, both.Intact run → both.Intact (action both.left run).2 ∧
      ∀ value, (action both.left run).1 = .ok value → post value) :
    both.logic.Holds pre (fun _ => action) post := by
  refine fun run => ⟨hgrows run, fun hpre store hintact halike _ => ?_⟩
  obtain ⟨hintact', hpost⟩ := hpost hpre run hintact
  exact ⟨store, hright hpre run store hintact, hstore run ▸ halike, hintact', hpost⟩

/-- An action keeps in step if all it does is to answer something, and if it answers the same. -/
theorem holds_reading {pre : Prop} {action : Render α} {post : α → Prop}
    (result : Setting → Run → Except Halt α)
    (happly : ∀ setting run, action setting run = (result setting run, run))
    (hsame : pre → ∀ (run : Run) store, both.Intact run → both.Alike run.store store →
      result both.right { run with store } = result both.left run)
    (hpost : pre → ∀ (run : Run) store, both.Intact run → both.Alike run.store store →
      ∀ value, result both.left run = .ok value → post value) :
    both.logic.Holds pre (fun _ => action) post := by
  intro run
  simp only [happly]
  exact ⟨.refl run, fun hpre store hintact halike _ =>
    ⟨store, Prod.ext (hsame hpre run store hintact halike) rfl, halike, hintact,
      hpost hpre run store hintact halike⟩⟩

/-- An action on the store keeps in step if its outcomes do. -/
theorem holds_onStore {pre : Prop} {action : StateM Store α} {post : α → Prop}
    (hgrows : ∀ store : Store, ∀ label owner, store.owners.lookup label = some owner →
      (action store).2.owners.lookup label = some owner)
    (haction : pre → ∀ (run : Run) store, both.Alike run.store store →
      ¬ both.Lost { run with store := (action run.store).2 } →
      (action store).1 = (action run.store).1 ∧ both.Alike (action run.store).2 (action store).2 ∧
        post (action run.store).1) :
    both.logic.Holds pre (fun _ => onStore action) post := by
  refine fun run => ⟨⟨List.prefix_rfl, hgrows run.store⟩, fun hpre store hintact halike hlost => ?_⟩
  obtain ⟨hresult, halike', hpost⟩ := haction hpre run store halike hlost
  refine ⟨(action store).2, ?_, halike', hintact.of_eq rfl rfl, fun value hvalue => ?_⟩
  · exact Prod.ext (congrArg Except.ok hresult) rfl
  · cases hvalue
    exact hpost

/-- An action keeps in step if another one does that it differs from only in what it does to the
state before and after, and in what it makes of the outcome. -/
theorem holds_around {pre : Prop} {a : Bool → Render α} {b : Bool → Render β} {mid : α → Prop}
    {post : β → Prop} (fair : both.Fair) (h : both.logic.Holds pre a mid) (prepare : Run → Run)
    (finish : Run → Except Halt α × Run → Except Halt β × Run)
    (hleft : ∀ run, b false both.left run = finish run (a false both.left (prepare run)))
    (hright : ∀ run, b true both.right run = finish run (a true both.right (prepare run)))
    (hprepare : ∀ run : Run, run.Grows (prepare run) ∧
      (both.Intact run → both.Intact (prepare run)) ∧
      (prepare run).store = run.store ∧
      ∀ store, prepare { run with store } = { prepare run with store })
    (hfinish : ∀ run outcome, outcome.2.Grows (finish run outcome).2 ∧
      (both.Intact outcome.2 → both.Intact (finish run outcome).2) ∧
      (finish run outcome).2.store = outcome.2.store ∧
      ∀ store store', finish { run with store } (outcome.1, { outcome.2 with store := store' }) =
        ((finish run outcome).1, { (finish run outcome).2 with store := store' }))
    (hpost : ∀ run outcome, (∀ value, outcome.1 = .ok value → mid value) →
      ∀ value, (finish run outcome).1 = .ok value → post value) :
    both.logic.Holds pre b post := by
  intro run
  obtain ⟨hgrows, hmatches⟩ := h (prepare run)
  obtain ⟨hbefore, hintact', hstore, hwith⟩ := hprepare run
  obtain ⟨hafter, hintact'', hstore', hwith'⟩ := hfinish run (a false both.left (prepare run))
  rw [hleft run]
  refine ⟨(hbefore.trans hgrows).trans hafter, fun hpre store hintact halike hlost => ?_⟩
  obtain ⟨store', heq, halike', hfits, hmid⟩ := hmatches hpre store (hintact' hintact)
    (hstore ▸ halike) fun hgone => hlost (fair.lost hafter hgone)
  refine ⟨store', ?_, hstore'.symm ▸ halike', hintact'' hfits, hpost run _ hmid⟩
  rw [hright, hwith, heq, hwith']

/-- Writing keeps in step, since the output is the same in both renders. -/
theorem holds_writing (action : Writer.Writing Nat) :
    both.logic.Holds True (fun _ => writing action) fun _ => True := by
  refine holds_storeless (fun run => ?_) (fun _ run store _ => ?_) (fun run => ?_)
    fun _ run hintact => ?_
  · rw [writing_apply]
    exact .of_eq rfl rfl
  · rw [writing_apply, writing_apply]
  · rw [writing_apply]
  · rw [writing_apply]
    exact ⟨hintact.of_eq rfl rfl, fun _ _ => trivial⟩

/-- An instance that the renders created may be changed as long as it fits. -/
theorem holds_modify {pre : Prop} {id : InstanceId} {change : Instance → Instance}
    (hchange : pre → ∀ data, both.scheme.Fits id data → both.scheme.Fits id (change data)) :
    both.logic.Holds pre (fun _ => modifyInstance id change) fun _ => True :=
  holds_storeless (fun _ => .of_eq rfl rfl) (fun _ _ _ _ => rfl) (fun _ => rfl)
    fun hpre _ hintact => ⟨hintact.modify (hchange hpre), fun _ _ => trivial⟩

namespace Fair

variable (fair : both.Fair)
include fair

/-- Two actions one after the other keep in step if each of them does. -/
theorem holds_bind {pre : Prop} {mid : α → Prop} {post : β → Prop} {a : Bool → Render α}
    {f : Bool → α → Render β} (ha : both.logic.Holds pre a mid)
    (hf : ∀ value, both.logic.Holds (pre ∧ mid value) (fun i => f i value) post) :
    both.logic.Holds pre (fun i => a i >>= f i) post := by
  intro run
  obtain ⟨hgrows, hmatches⟩ := ha run
  rcases hout : a false both.left run with ⟨_ | value, after⟩ <;> rw [hout] at hgrows hmatches
  · next halt =>
    have hleft : (a false >>= f false) both.left run = (.error halt, after) :=
      bind_apply_error _ _ hout
    simp only [hleft]
    refine ⟨hgrows, fun hpre store hintact halike hlost => ?_⟩
    obtain ⟨store', heq, halike', hintact', -⟩ := hmatches hpre store hintact halike hlost
    exact ⟨store', bind_apply_error _ _ heq, halike', hintact', fun _ hvalue => by cases hvalue⟩
  · have hleft : (a false >>= f false) both.left run = f false value both.left after :=
      bind_apply_ok _ _ hout
    obtain ⟨hgrows', hmatches'⟩ := hf value after
    simp only [hleft]
    refine ⟨hgrows.trans hgrows', fun hpre store hintact halike hlost => ?_⟩
    obtain ⟨store', heq, halike', hintact', hmid⟩ := hmatches hpre store hintact halike
      fun hgone => hlost (fair.lost hgrows' hgone)
    have hright : (a true >>= f true) both.right { run with store } =
        f true value both.right { after with store := store' } := bind_apply_ok _ _ heq
    rw [hright]
    exact hmatches' ⟨hpre, hmid value rfl⟩ store' hintact' halike' hlost

/-- An instance that is created has the same number in both renders, and it is one of theirs. -/
theorem holds_create (scope : Scope) (definition : Definition) :
    both.logic.Holds (both.Frame scope.innermost ∧ both.scheme.Usable definition)
      (fun _ => create scope definition)
      fun id => both.left.callers ≤ id.index ∧ both.Proper (.template id) := by
  intro run
  cases hcreator : run.instances[scope.innermost.index]? with
  | none =>
    simp only [create_apply, hcreator]
    exact ⟨.refl run, fun _ store hintact halike _ =>
      ⟨store, rfl, halike, hintact, fun _ hvalue => by cases hvalue⟩⟩
  | some creator =>
    simp only [create_apply, hcreator]
    refine ⟨.of_eq rfl rfl, fun hpre store hintact halike _ => ⟨store, rfl, halike, ?_, ?_⟩⟩
    · have hfits := hintact.fits scope.innermost creator hcreator
      refine hintact.push ⟨fun _ => hfits.group hpre.1, fun _ => ?_, fun _ name value hvalue => ?_,
        fun _ name value hvalue => ?_, fun _ => trivial⟩
      · cases hgroup : definition.group with
        | none =>
          simp only [created, hgroup, Option.getD_none]
          exact hfits.native hpre.1
        | some group =>
          simp only [created, hgroup, Option.getD_some]
          rcases hpre.2 with ⟨name, hstored⟩ | ⟨template, owner, rfl⟩
          · exact hstored group hgroup
          · cases hgroup
      · cases hvalue
      · cases hvalue
    · intro id hid
      cases hid
      exact ⟨hintact.callers, fair.frame (fair.fresh hintact.callers)⟩

/-- The same renderer is found for a scalar. -/
theorem findRenderer? {run : Run} {scope : Scope} (hinside : both.scheme.Inside scope)
    (hintact : both.Intact run) (type : ScalarType) :
    Render.findRenderer? both.right.groups run.instances scope type =
      Render.findRenderer? both.left.groups run.instances scope type := by
  unfold Render.findRenderer?
  cases hdata : run.instances[scope.innermost.index]? with
  | none => rfl
  | some data =>
    have hfits := hintact.fits scope.innermost data hdata
    simp only [Option.bind_some, fair.renderer (hfits.group hinside.innermost),
      fair.renderer (hfits.native hinside.innermost)]

/-- Both renders turn a scalar into the same text. -/
theorem holds_scalarText (scope : Scope) (scalar : Scalar) (format : Option String) :
    both.logic.Holds (both.scheme.Inside scope ∧ both.Proper (.scalar scalar))
      (fun _ => Render.scalarText scope scalar format) fun _ => True := by
  intro run
  have hlocal := local_scalarAction both.left.groups run.instances scope
    (run.store.scalarType scalar) scalar format
  simp only [scalarText_apply, rendering_apply]
  refine ⟨⟨List.prefix_rfl, fun label owner howner => ?_⟩, fun hpre store hintact halike _ => ?_⟩
  · exact (hlocal.effect run.store).owners ▸ howner
  · have hsame : scalarAction both.right.groups run.instances scope (store.scalarType scalar)
        scalar format = scalarAction both.left.groups run.instances scope
          (run.store.scalarType scalar) scalar format := by
      rw [fair.scalarType hpre.2 halike]
      simp only [scalarAction, fair.findRenderer? hpre.1 hintact]
    obtain ⟨hresult, halike'⟩ := fair.rendering hpre.2 hlocal halike
    refine ⟨_, Prod.ext ?_ rfl, ?_, hintact.of_eq rfl rfl, fun _ _ => trivial⟩
    · simp only [hsame, hresult]
    · simpa only [hsame] using halike'

/-- Being in step can be put together from parts. -/
theorem compositional : both.logic.Compositional where
  pure hpost := holds_reading (fun _ _ => .ok _) (fun _ _ => rfl) (fun _ _ _ _ _ => rfl)
    fun hpre _ _ _ _ _ hvalue => by cases hvalue; exact hpost hpre
  bind := fair.holds_bind
  weaken hpre hpost ha run := by
    obtain ⟨hgrows, hmatches⟩ := ha run
    refine ⟨hgrows, fun hpre' store hintact halike hlost => ?_⟩
    obtain ⟨store', heq, halike', hintact', hout⟩ :=
      hmatches (hpre hpre') store hintact halike hlost
    exact ⟨store', heq, halike', hintact', fun value hvalue =>
      hpost value hpre' (hout value hvalue)⟩

omit fair in
/-- Both renders see the same of an instance, up to how the stores may differ. -/
theorem holds_getInstance (id : InstanceId) :
    both.logic.Holds True (fun _ => getInstance id) (both.scheme.Fits id) := by
  refine holds_reading _ (fun setting run => getInstance_apply setting run id)
    (fun _ _ _ _ _ => rfl) fun _ run _ hintact _ data hdata => ?_
  split at hdata
  · next found hfound =>
    cases hdata
    exact hintact.fits id data hfound
  · cases hdata

/-- Noting that an attribute was read keeps in step. -/
theorem holds_noteRead (id : InstanceId) (name : String) :
    both.logic.Holds True (fun _ => noteRead id name) fun _ => True := by
  refine holds_storeless (fun run => ?_) (fun _ run store _ => ?_) (fun run => ?_)
    fun _ run hintact => ?_
  · rw [noteRead_apply]
    exact .of_eq rfl rfl
  · rw [noteRead_apply, noteRead_apply, fair.config]
  · rw [noteRead_apply]
  · rw [noteRead_apply]
    exact ⟨hintact.of_eq rfl rfl, fun _ _ => trivial⟩

/-- Whatever is done in a render keeps two of them in step if the comparison is fair. -/
theorem lawful : both.logic.Lawful where
  toCompositional := fair.compositional
  closed := fair.closed
  frame := fair.frame
  fail error _ := holds_reading (fun _ _ => .error (.failed error)) (fun _ _ => rfl)
    (fun _ _ _ _ _ => rfl) fun _ _ _ _ _ _ hvalue => by cases hvalue
  getInstance id h := fair.compositional.getInstance (fun _ _ _ => rfl) (holds_getInstance id) h
  getCreated id h := fair.compositional.getCreated (holds_getInstance id) h
  readAttribute name hfits h :=
    fair.compositional.readAttribute (fun _ _ _ => rfl) (fair.holds_noteRead _ name) hfits h
  create := fair.holds_create
  inlineOwner label owner := by
    refine holds_onStore (fun store other found hfound => ?_) fun _ run store halike hlost => ?_
    · exact (Store.Evolves.inlineOwner label owner store).owners other found hfound
    · obtain ⟨hresult, halike'⟩ := fair.inlineOwner label owner halike hlost
      exact ⟨hresult, halike', trivial⟩
  above group name := by
    refine holds_reading _ (fun setting run => above_apply setting run group name)
      (fun hstart run store _ _ => ?_) fun hstart run _ _ _ value hvalue => ?_
    · rw [fair.group hstart]
    · split at hvalue
      · cases hvalue
      · next data hdata =>
        split at hvalue
        · next above habove =>
          cases hvalue
          exact fair.above hstart hdata habove
        · cases hvalue
  lookup start name := by
    refine holds_reading _ (fun setting run => lookup_apply setting run start name)
      (fun hstart run store _ _ => ?_) fun hstart run _ _ _ value hvalue => ?_
    · rw [fair.template hstart]
    · cases hvalue
      intro definition hfound group hgroup
      -- A template that is found belongs to a group that may be met.
      obtain ⟨⟨found, id⟩, hfind, rfl⟩ := Option.map_eq_some_iff.mp hfound
      exact fair.owned hstart hfind hgroup
  dictionary start name := by
    refine holds_reading _ (fun setting run => dictionary?_apply setting run start name)
      (fun hstart run store _ _ => ?_) fun _ _ _ _ _ _ _ _ _ => trivial
    rw [fair.dictionary hstart]
  assign id name value := by
    refine holds_modify fun hpre data hfits => ?_
    refine ⟨hfits.group, hfits.native, fun hproper other found hfound => ?_, hfits.bound,
      fun _ => trivial⟩
    by_cases hname : other = name
    · rw [hname, Table.get?_insert_self] at hfound
      cases hfound
      exact hpre.2
    · rw [Table.get?_insert_of_ne _ _ hname] at hfound
      exact hfits.assigned hproper other found hfound
  bindVariables id iteration := by
    refine holds_modify fun hpre data hfits => ?_
    refine ⟨hfits.group, hfits.native, hfits.assigned, fun _ name value hfound => ?_,
      fun _ => trivial⟩
    have hvariable : iteration.lookup name = some (some value) := hfound
    obtain ⟨before, after, hsplit, -⟩ := List.lookup_eq_some_iff.mp hvariable
    exact hpre.2 name value (hsplit ▸ List.mem_append_right _ List.mem_cons_self)
  evalDefault := by
    refine fair.compositional.evalDefault fair.closed.absent (fun id name => ?_)
      fun id name value => ?_
    · refine holds_reading _ (fun setting run => knownDefault?_apply setting run id name)
        (fun _ _ _ _ _ => rfl) fun _ run _ hintact _ found hfound value hvalue => ?_
      cases hfound
      exact hintact.defaults _ value hvalue
    refine holds_storeless (fun _ => .of_eq rfl rfl) (fun _ _ _ _ => rfl) (fun _ => rfl)
      fun hproper run hintact => ⟨⟨hintact.callers, hintact.fits, fun key found hfound => ?_⟩,
        fun _ _ => trivial⟩
    -- The note hides earlier ones of the same default.
    rw [noteDefault_apply, List.lookup_cons] at hfound
    split at hfound
    · cases hfound
      exact hproper
    · exact hintact.defaults key found hfound
  isLenient := holds_reading _ isLenient_apply (fun _ _ _ _ _ => rfl)
    fun _ _ _ _ _ _ _ => trivial
  truthy value := by
    refine holds_reading _ (fun setting run => truthy_apply setting run value)
      (fun hproper run store _ halike => ?_) fun _ _ _ _ _ _ _ => trivial
    rw [fair.truthy hproper halike]
  ownProperty value name := by
    refine holds_reading _ (fun setting run => ownProperty_apply setting run value name)
      (fun hproper run store _ halike => ?_) fun hproper run store _ halike found hfound => ?_
    · have htype : store.typeName value = run.store.typeName value := by
        cases value with
        | scalar scalar => exact congrArg ScalarType.name (fair.scalarType hproper halike)
        | absent | list _ | mapping _ | template _ | iterator _ => rfl
      rw [(fair.property hproper halike).1, htype]
    · split at hfound
      · next value hvalue =>
        cases hfound
        exact (fair.property hproper halike).2 _ hvalue
      · cases hfound
  next cursor := holds_onStore (fun store => (Store.Evolves.next store cursor).owners)
    fun hproper _ _ halike _ => fair.next hproper halike
  drain cursor := holds_onStore (fun store => (Store.Evolves.drain store cursor).owners)
    fun hproper _ _ halike _ => fair.drain hproper halike
  scalarText := fair.holds_scalarText
  write _ := holds_writing _
  writeToken _ _ := holds_writing _
  wrap _ _ := holds_writing _
  capture {pre a} h := by
    refine holds_around fair h (fun run => { run with out := capturing both.left.config }) captured
      (fun run => capture_apply _ _ _) (fun run => ?_) (fun run => ?_) (fun run outcome => ?_)
      fun _ _ _ _ _ => trivial
    · rw [capture_apply, fair.config]
    · exact ⟨.of_eq rfl rfl, fun hintact => hintact.of_eq rfl rfl, rfl, fun _ => rfl⟩
    · exact ⟨.of_eq rfl rfl, fun hintact => hintact.of_eq rfl rfl, rfl, fun _ _ => rfl⟩
  indented indent h := by
    cases indent with
    | none => exact h
    | some indent =>
      refine holds_around fair h _ (fun _ => cleaned _)
        (fun run => indented_apply _ _ indent _) (fun run => indented_apply _ _ indent _)
        (fun run => ?_) (fun run outcome => ?_) fun _ _ hmid => hmid
      · exact ⟨.of_eq rfl rfl, fun hintact => hintact.of_eq rfl rfl, rfl, fun _ => rfl⟩
      · exact ⟨.of_eq rfl rfl, fun hintact => hintact.of_eq rfl rfl, rfl, fun _ _ => rfl⟩
  anchored anchor h := by
    cases anchor with
    | false => exact h
    | true =>
      refine holds_around fair h _ (fun _ => cleaned _)
        (fun run => anchored_apply _ _ _) (fun run => anchored_apply _ _ _)
        (fun run => ?_) (fun run outcome => ?_) fun _ _ hmid => hmid
      · exact ⟨.of_eq rfl rfl, fun hintact => hintact.of_eq rfl rfl, rfl, fun _ => rfl⟩
      · exact ⟨.of_eq rfl rfl, fun hintact => hintact.of_eq rfl rfl, rfl, fun _ _ => rfl⟩
  leniently lenient h := by
    refine holds_around fair h _ (fun run => cleaned _)
      (fun run => leniently_apply _ _ lenient _) (fun run => leniently_apply _ _ lenient _)
      (fun run => ?_) (fun run outcome => ?_) fun _ _ hmid => hmid
    · exact ⟨.of_eq rfl rfl, fun hintact => hintact.of_eq rfl rfl, rfl, fun _ => rfl⟩
    · exact ⟨.of_eq rfl rfl, fun hintact => hintact.of_eq rfl rfl, rfl, fun _ _ => rfl⟩
  ifDeclared h := by
    refine holds_around fair h id (fun _ outcome => (declared outcome.1, outcome.2))
      (fun run => ifDeclared_apply _ _ _) (fun run => ifDeclared_apply _ _ _) (fun run => ?_)
      (fun run outcome => ?_) fun run outcome hmid found hfound value hvalue => ?_
    · exact ⟨.refl run, fun hintact => hintact, rfl, fun _ => rfl⟩
    · exact ⟨.refl _, fun hintact => hintact, rfl, fun _ _ => rfl⟩
    · subst hvalue
      simp only [declared] at hfound
      split at hfound
      · next result found hresult =>
        cases hfound
        exact hmid value hresult
      · cases hfound
      · cases hfound

/-- An instance is a frame once it was noted that it is written. -/
theorem holds_noted {pre : Prop} (id : InstanceId) {a : Bool → Render Nat}
    (ha : both.logic.Holds (pre ∧ both.Frame id) a fun _ => True) :
    both.logic.Holds (pre ∧ both.Proper (.template id))
      (fun i => Evaluator.noteWritten id >>= fun _ => a i) fun _ => True := by
  intro run
  let after : Run := { run with written := noted both.left.callers id run.written }
  have hleft : (Evaluator.noteWritten id >>= fun _ => a false) both.left run =
      a false both.left after := bind_apply_ok _ _ (noteWritten_apply _ _ id)
  have hright (store : Store) : (Evaluator.noteWritten id >>= fun _ => a true) both.right
      { run with store } = a true both.right { after with store } := by
    have hnoted : Evaluator.noteWritten id both.right { run with store } =
        (.ok (), { after with store }) := by
      rw [noteWritten_apply, fair.callers]
    exact bind_apply_ok _ _ hnoted
  have hgrows : run.Grows after := ⟨prefix_noted _ _ _, fun _ _ h => h⟩
  obtain ⟨hgrows', hmatches⟩ := ha after
  simp only [hleft, hright]
  refine ⟨hgrows.trans hgrows', fun hpre store hintact halike hlost => ?_⟩
  have hframe : both.Frame id :=
    fair.entered hpre.2 (fun hgone => hlost (fair.lost hgrows' hgone)) mem_noted
  exact hmatches ⟨hpre.1, hframe⟩ store (hintact.of_eq rfl rfl) halike hlost

/-- What is done under the guard of a default keeps in step if it does so without the guard. -/
theorem holds_guarded {pre : Prop} (id : InstanceId) (name : String) {a : Bool → Render Nat}
    (ha : both.logic.Holds pre a fun _ => True) :
    both.logic.Holds pre (fun i => guarded id name (a i)) fun _ => True := by
  intro run
  have hrefuses (store : Store) : Run.refuses { run with store } both.right.config.maxDepth id =
      Run.refuses run both.left.config.maxDepth id := by
    rw [fair.config]
    rfl
  have hbefore : run.Grows { run with active := id :: run.active } := .of_eq rfl rfl
  have hafter (after : Run) : after.Grows { after with active := after.active.tail } :=
    .of_eq rfl rfl
  obtain ⟨hgrows, hmatches⟩ := ha { run with active := id :: run.active }
  simp only [guarded_apply, hrefuses]
  split
  · refine ⟨.refl run, fun _ store hintact halike _ => ⟨store, ?_, halike, hintact,
      fun _ _ => trivial⟩⟩
    rw [fair.config]
    rfl
  · refine ⟨hbefore.trans (hgrows.trans (hafter _)), fun hpre store hintact halike hlost => ?_⟩
    obtain ⟨store', heq, halike', hintact', -⟩ := hmatches hpre store (hintact.of_eq rfl rfl)
      halike fun hgone => hlost (fair.lost (hafter _) hgone)
    exact ⟨store', by rw [heq]; rfl, halike', hintact'.of_eq rfl rfl, fun _ _ => trivial⟩

/-- Renders that are put together from such as keep in step do so at every level. -/
theorem ordinary : both.logic.Ordinary where
  toLawful := fair.lawful
  outOfFuel := holds_reading (fun _ _ => .error .outOfFuel) (fun _ _ => rfl)
    (fun _ _ _ _ _ => rfl) fun _ _ _ _ _ _ hvalue => by cases hvalue
  enter id name _ ha := fair.holds_guarded id name (fair.holds_noted id ha)

/-- Writing an instance keeps two renders in step. -/
theorem exec (fuel : Nat) {id : InstanceId} {run : Run} {store : Store}
    (hproper : both.Proper (.template id)) (hintact : both.Intact run)
    (halike : both.Alike run.store store)
    (hlost : ¬ both.Lost ((Evaluator.upTo fuel).exec [] id both.left run).2) :
    both.Matches ((Evaluator.upTo fuel).exec [] id both.left run)
      ((Evaluator.upTo fuel).exec [] id both.right { run with store }) fun _ => True :=
  ((fair.ordinary.sound fuel).exec [] id run).2
    ⟨fun _ hid => absurd hid List.not_mem_nil, hproper⟩ store hintact halike hlost

end Fair

end Comparison

end Stencil
