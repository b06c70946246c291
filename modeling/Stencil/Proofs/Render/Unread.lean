import Stencil.Proofs.Render.Steps
import Stencil.Proofs.Render.Writing

/-!
# Attributes that are not read

With lint on, a render notes which attributes it reads. The notes are complete: if there is none of
an attribute in the end, then the render would have done the same if the attribute had another value
or was not set at all. This is shown for two runs that differ in one attribute of an instance of the
caller. They keep in step until the first run reads the attribute, which it cannot do without noting
it, and notes are never taken back.
-/

namespace Stencil

open Render

/-- An attribute of an instance of the caller that is replaced before a render with lint on. -/
structure Replacement where
  setting : Setting
  lint : setting.config.lint = true
  /-- The instance. -/
  id : InstanceId
  caller : id.index < setting.callers
  /-- The attribute. -/
  name : String
  /-- What is set in the instance afterwards. -/
  attributes : Table Value

namespace Replacement

variable (swap : Replacement) {α β : Type}

/-- The attribute is set in an instance, and the others of the instance stay as they are. -/
structure Spares (data : Instance) : Prop where
  isSet : (data.attributes.get? swap.name).isSome
  others : ∀ other, other ≠ swap.name → swap.attributes.get? other = data.attributes.get? other

/-- An instance after the attribute is replaced. -/
def change (data : Instance) : Instance := { data with attributes := swap.attributes }

/-- A state of the second run, from the state of the first one. -/
def mirror (run : Run) : Run :=
  { run with instances := run.instances.modify swap.id.index swap.change }

/-- A state in which the instance is as it was before the render. -/
structure Intact (run : Run) : Prop where
  callers : swap.setting.callers ≤ run.instances.size
  spares : ∀ data, run.instances[swap.id.index]? = some data → swap.Spares data

/-- Two outcomes that differ in nothing but the attribute. -/
structure Mirrors (outcome other : Except Halt α × Run) (post : α → Prop) : Prop where
  same : other = (outcome.1, swap.mirror outcome.2)
  intact : swap.Intact outcome.2
  answer : ∀ value, outcome.1 = .ok value → post value

/-- The judgement that two runs, the second one at `true`, keep in step unless the first one reads
the attribute. -/
def logic : Logic Bool where
  Frame _ := True
  Fresh id := swap.setting.callers ≤ id.index
  Proper _ := True
  Start _ := True
  Stored _ _ := True
  Listed _ _ _ := True
  Known id data := id = swap.id → swap.Spares data
  attributes second id data :=
    if second = true ∧ id = swap.id then swap.attributes else data.attributes
  Holds pre a post := ∀ run : Run, run.reads <:+ (a false swap.setting run).2.reads ∧
    (pre → swap.Intact run → (swap.id, swap.name) ∉ (a false swap.setting run).2.reads →
      swap.Mirrors (a false swap.setting run) (a true swap.setting (swap.mirror run)) post)

variable {swap}

/-- Both runs see the same of any other instance. -/
theorem seen_of_ne {id : InstanceId} (h : id ≠ swap.id) (second : Bool) (data : Instance) :
    swap.logic.seen second id data = data := by
  simp only [Logic.seen, logic, h, and_false, if_false]

/-- An instance of the second run is the one of the first run as the second run sees it. -/
theorem mirror_instance (run : Run) (id : InstanceId) :
    (swap.mirror run).instances[id.index]? =
      run.instances[id.index]?.map (swap.logic.seen true id) := by
  simp only [mirror, Array.getElem?_modify]
  by_cases hid : id = swap.id
  · subst hid
    rw [if_pos rfl]
    refine congrArg (Option.map · _) (funext fun data => ?_)
    simp only [Logic.seen, logic, change, and_self, if_true]
  · have hindex : swap.id.index ≠ id.index :=
      fun heq => hid (by cases id; exact congrArg _ heq.symm)
    rw [if_neg hindex]
    rw [funext (seen_of_ne hid true), Option.map_id']

/-- Nothing has to be known of an instance that is looked up. -/
theorem Intact.fits {run : Run} (h : swap.Intact run) {id : InstanceId} {data : Instance}
    (hdata : run.instances[id.index]? = some data) : swap.logic.Fits id data where
  group _ := trivial
  native _ := trivial
  assigned _ _ _ _ := trivial
  bound _ _ _ _ := trivial
  known _ := fun heq => h.spares data (heq ▸ hdata)

/-- A state is intact whatever else changes than its instances. -/
theorem Intact.of_eq {run after : Run} (h : swap.Intact run)
    (hinstances : after.instances = run.instances) : swap.Intact after :=
  ⟨hinstances ▸ h.callers, hinstances ▸ h.spares⟩

/-- The instance whose attribute is replaced is there throughout. -/
theorem Intact.caller_lt {run : Run} (h : swap.Intact run) :
    swap.id.index < run.instances.size := Nat.lt_of_lt_of_le swap.caller h.callers

/-- An instance that is not there before the render may be added. -/
theorem Intact.push {run : Run} (h : swap.Intact run) (data : Instance) :
    swap.Intact { run with instances := run.instances.push data } where
  callers := by
    rw [Array.size_push]
    exact Nat.le_succ_of_le h.callers
  spares found hfound := by
    rw [Array.getElem?_push_lt h.caller_lt] at hfound
    exact h.spares found ((Array.getElem?_eq_getElem h.caller_lt).trans hfound)

/-- The instances that are added in the two runs are the same. -/
theorem mirror_push {run : Run} (h : swap.Intact run) (data : Instance) :
    swap.mirror { run with instances := run.instances.push data } =
      { swap.mirror run with instances := (swap.mirror run).instances.push data } := by
  have hbefore := h.caller_lt
  have hinstances : (run.instances.push data).modify swap.id.index swap.change =
      (run.instances.modify swap.id.index swap.change).push data := by
    refine Array.ext_getElem? fun index => ?_
    simp only [Array.getElem?_modify, Array.getElem?_push, Array.size_modify]
    split <;> split <;> grind
  simp only [mirror, hinstances]

/-- An action that reads no attribute keeps the runs in step if it does the same in both. -/
theorem holds_of_mirror {pre : Prop} {action : Render α} {post : α → Prop}
    (hreads : ∀ run : Run, (action swap.setting run).2.reads = run.reads)
    (hsame : pre → ∀ run : Run, swap.Intact run → action swap.setting (swap.mirror run) =
      ((action swap.setting run).1, swap.mirror (action swap.setting run).2))
    (hintact : pre → ∀ run : Run, swap.Intact run → swap.Intact (action swap.setting run).2)
    (hanswer : pre → ∀ run value, swap.Intact run → (action swap.setting run).1 = .ok value →
      post value) : swap.logic.Holds pre (fun _ => action) post :=
  fun run => ⟨hreads run ▸ List.suffix_rfl, fun hpre h _ =>
    ⟨hsame hpre run h, hintact hpre run h, fun value => hanswer hpre run value h⟩⟩

/-- An action keeps the runs in step if it does not look at instances. -/
theorem holds_of_blind {pre : Prop} {action : Render α} {post : α → Prop}
    (hreads : ∀ run : Run, (action swap.setting run).2.reads = run.reads)
    (hblind : ∀ (run : Run) instances, action swap.setting { run with instances } =
      ((action swap.setting run).1, { (action swap.setting run).2 with instances }))
    (hanswer : pre → ∀ run value, (action swap.setting run).1 = .ok value → post value) :
    swap.logic.Holds pre (fun _ => action) post := by
  have hinstances (run : Run) : (action swap.setting run).2.instances = run.instances :=
    congrArg (fun outcome => outcome.2.instances) (hblind run run.instances)
  refine holds_of_mirror hreads (fun _ run _ => ?_) (fun _ run h => h.of_eq (hinstances run))
    fun hpre run value _ => hanswer hpre run value
  simp only [mirror, hinstances]
  exact hblind run _

/-- The judgement is passed on where actions follow each other. -/
theorem holds_bind {pre : Prop} {mid : α → Prop} {post : β → Prop} {a : Bool → Render α}
    {f : Bool → α → Render β} (ha : swap.logic.Holds pre a mid)
    (hf : ∀ value, swap.logic.Holds (pre ∧ mid value) (fun i => f i value) post) :
    swap.logic.Holds pre (fun i => a i >>= f i) post := by
  intro run
  obtain ⟨hreads, hmirrors⟩ := ha run
  simp only [bind_apply]
  rcases hout : a false swap.setting run with ⟨_ | value, after⟩ <;> rw [hout] at hreads hmirrors
  · refine ⟨hreads, fun hpre hintact hunread => ?_⟩
    obtain ⟨hsame, hintact', -⟩ := hmirrors hpre hintact hunread
    rw [hsame]
    exact ⟨rfl, hintact', nofun⟩
  · obtain ⟨hreads', hmirrors'⟩ := hf value after
    refine ⟨hreads.trans hreads', fun hpre hintact hunread => ?_⟩
    obtain ⟨hsame, hintact', hmid⟩ :=
      hmirrors hpre hintact fun hread => hunread (hreads'.mem hread)
    rw [hsame]
    exact hmirrors' ⟨hpre, hmid value rfl⟩ hintact' hunread

/-- An action keeps the runs in step if another one does that it differs from only in what it does
to the state before and after, and in what it makes of the outcome. -/
theorem holds_around {pre : Prop} {a : Bool → Render α} {b : Bool → Render β} {mid : α → Prop}
    {post : β → Prop} (h : swap.logic.Holds pre a mid) (prepare : Run → Run)
    (finish : Run → Except Halt α × Run → Except Halt β × Run)
    (happly : ∀ i run, b i swap.setting run = finish run (a i swap.setting (prepare run)))
    (hprepare : ∀ run : Run, (prepare run).reads = run.reads ∧
      (prepare run).instances = run.instances ∧
      prepare (swap.mirror run) = swap.mirror (prepare run))
    (hfinish : ∀ run outcome, (finish run outcome).2.reads = outcome.2.reads ∧
      (finish run outcome).2.instances = outcome.2.instances ∧
      finish (swap.mirror run) (outcome.1, swap.mirror outcome.2) =
        ((finish run outcome).1, swap.mirror (finish run outcome).2))
    (hanswer : ∀ run outcome, (∀ value, outcome.1 = .ok value → mid value) →
      ∀ value, (finish run outcome).1 = .ok value → post value) :
    swap.logic.Holds pre b post := by
  intro run
  obtain ⟨hreads, hmirrors⟩ := h (prepare run)
  obtain ⟨hreads', hinstances, hsame⟩ := hprepare run
  obtain ⟨hreads'', hinstances', hsame'⟩ := hfinish run (a false swap.setting (prepare run))
  rw [happly, happly, hsame, hreads'', ← hreads']
  refine ⟨hreads, fun hpre hintact hunread => ?_⟩
  obtain ⟨hinner, hintact', hmid⟩ := hmirrors hpre (hintact.of_eq hinstances) hunread
  rw [hinner]
  exact ⟨hsame', hintact'.of_eq hinstances', hanswer run _ hmid⟩

/-! ### What actions do -/

/-- An instance is looked at in both runs. -/
theorem holds_getInstance {pre : Prop} {post : α → Prop} {f : Bool → Instance → Render α}
    (id : InstanceId) (h : ∀ data, swap.logic.Holds (pre ∧ swap.logic.Fits id data)
      (fun i => f i (swap.logic.seen i id data)) post) :
    swap.logic.Holds pre (fun i => getInstance id >>= f i) post := by
  intro run
  simp only [bind_apply, getInstance_apply, mirror_instance]
  cases hdata : run.instances[id.index]? with
  | none => exact ⟨List.suffix_rfl, fun _ hintact _ => ⟨rfl, hintact, nofun⟩⟩
  | some data =>
    obtain ⟨hreads, hmirrors⟩ := h data run
    exact ⟨hreads, fun hpre hintact => hmirrors ⟨hpre, hintact.fits hdata⟩ hintact⟩

/-- An instance that the render created is not the one that was changed. -/
theorem holds_getCreated {pre : Prop} {post : α → Prop} {f : Bool → Instance → Render α}
    (id : InstanceId) (h : ∀ data, swap.logic.Holds (pre ∧ swap.logic.Fits id data)
      (fun i => f i data) post) :
    swap.logic.Holds (pre ∧ swap.logic.Fresh id) (fun i => getInstance id >>= f i) post := by
  refine holds_getInstance id fun data run => ?_
  obtain ⟨hreads, hmirrors⟩ := h data run
  refine ⟨hreads, fun ⟨⟨hpre, hfresh⟩, hfits⟩ hintact hunread => ?_⟩
  have hother : id ≠ swap.id := fun heq =>
    absurd hfresh (Nat.not_le_of_lt (heq ▸ swap.caller))
  change swap.Mirrors _ (f true (swap.logic.seen true id data) _ _) post
  rw [seen_of_ne hother]
  exact hmirrors ⟨hpre, hfits⟩ hintact hunread

/-- An attribute is read in both runs, unless it is the one that was replaced: then it was set, and
the first run notes that it reads it. -/
theorem holds_readAttribute {pre : Prop} {a : Bool → Render Value} {id : InstanceId}
    {data : Instance} (name : String)
    (hfits : pre → swap.logic.Fits id data ∧ swap.logic.Proper (.template id))
    (h : swap.logic.Holds pre a swap.logic.Proper) :
    swap.logic.Holds pre (fun i => match (swap.logic.attributes i id data).get? name with
      | some value => noteRead id name >>= fun _ => Pure.pure value
      | none => a i) swap.logic.Proper := by
  intro run
  have hsame (hpre : pre) (hother : id = swap.id → name ≠ swap.name) :
      (swap.logic.attributes true id data).get? name = data.attributes.get? name := by
    simp only [logic, true_and]
    split
    · next hid => exact ((hfits hpre).1.known trivial hid).others name (hother hid)
    · rfl
  have hfirst : swap.logic.attributes false id data = data.attributes := rfl
  simp only [hfirst]
  cases hvalue : data.attributes.get? name with
  | some value =>
    have hnoted (run : Run) : (noteRead id name >>= fun _ => Pure.pure value) swap.setting run =
        (.ok value, { run with reads := (id, name) :: run.reads }) := by
      rw [bind_apply, noteRead_apply, swap.lint]
      rfl
    simp only [hnoted]
    refine ⟨List.suffix_cons _ _, fun hpre hintact hunread => ?_⟩
    rw [hsame hpre fun hid hname => hunread (hid ▸ hname ▸ List.mem_cons_self), hvalue]
    exact ⟨hnoted _, hintact.of_eq rfl, fun _ _ => trivial⟩
  | none =>
    obtain ⟨hreads, hmirrors⟩ := h run
    refine ⟨hreads, fun hpre hintact hunread => ?_⟩
    have hother (hid : id = swap.id) : name ≠ swap.name := by
      rintro rfl
      have hset := ((hfits hpre).1.known trivial hid).isSet
      rw [hvalue] at hset
      cases hset
    rw [hsame hpre hother, hvalue]
    exact hmirrors hpre hintact hunread

/-- It holds of creating an instance, which is not one of the caller. -/
theorem holds_create (scope : Scope) (definition : Definition) :
    swap.logic.Holds (swap.logic.Frame scope.innermost ∧ swap.logic.Usable definition)
      (fun _ => create scope definition)
      fun id => swap.logic.Fresh id ∧ swap.logic.Proper (.template id) := by
  refine holds_of_mirror (fun run => ?_) (fun _ run hintact => ?_) (fun _ run hintact => ?_)
    fun _ run id hintact hid => ?_
  · rw [create_apply]
    split <;> rfl
  · rw [create_apply, create_apply, mirror_instance]
    cases run.instances[scope.innermost.index]? with
    | none => rfl
    | some creator =>
      simp only [mirror_push hintact]
      simp only [mirror, Array.size_modify]
      rfl
  · rw [create_apply]
    split
    · exact hintact.push _
    · exact hintact
  · rw [create_apply] at hid
    split at hid
    · cases hid
      exact ⟨hintact.callers, trivial⟩
    · cases hid

/-- An instance that the render created is changed alike in both runs. -/
theorem holds_modifyInstance {pre : Prop} (id : InstanceId) (change : Instance → Instance) :
    swap.logic.Holds (swap.logic.Fresh id ∧ pre) (fun _ => modifyInstance id change)
      fun _ => True := by
  have hother (hfresh : swap.logic.Fresh id) : id.index ≠ swap.id.index :=
    Nat.ne_of_gt (Nat.lt_of_lt_of_le swap.caller hfresh)
  refine holds_of_mirror (fun _ => rfl) (fun hpre run hintact => ?_)
    (fun hpre run hintact => ⟨?_, fun data hdata => ?_⟩) fun _ _ _ _ _ => trivial
  · have hinstances : (run.instances.modify swap.id.index swap.change).modify id.index change =
        (run.instances.modify id.index change).modify swap.id.index swap.change := by
      refine Array.ext_getElem? fun index => ?_
      simp only [Array.getElem?_modify]
      have := hother hpre.1
      split <;> split <;> grind
    simp only [modifyInstance_apply, mirror, hinstances]
  · simp only [modifyInstance_apply, Array.size_modify]
    exact hintact.callers
  · simp only [modifyInstance_apply, Array.getElem?_modify, if_neg (hother hpre.1)] at hdata
    exact hintact.spares data hdata

/-- It holds of looking up a super-group. -/
theorem holds_above (group : GroupId) (name : String) :
    swap.logic.Holds True (fun _ => above group name) fun _ => True := by
  refine holds_of_blind (fun run => ?_) (fun run instances => ?_) fun _ _ _ _ => trivial
  · rw [above_apply]
  · rw [above_apply, above_apply]

/-- It holds of looking up a property, for which no attribute is read. -/
theorem holds_ownProperty (value : Value) (name : String) :
    swap.logic.Holds True (fun _ => ownProperty value name) fun _ => True := by
  refine holds_of_blind (fun run => ?_) (fun run instances => ?_) fun _ _ _ _ => trivial
  · rw [ownProperty_apply]
  · rw [ownProperty_apply, ownProperty_apply]

/-- It holds of actions on the store. -/
theorem holds_onStore {pre : Prop} {post : α → Prop} (operation : StateM Store α)
    (hanswer : ∀ value, post value) : swap.logic.Holds pre (fun _ => onStore operation) post :=
  holds_of_blind (fun _ => rfl) (fun _ _ => rfl) fun _ _ _ _ => hanswer _

/-- It holds of writing. -/
theorem holds_writing (operation : Writer.Writing Nat) :
    swap.logic.Holds True (fun _ => writing operation) fun _ => True := by
  refine holds_of_blind (fun run => ?_) (fun run instances => ?_) fun _ _ _ _ => trivial
  · rw [writing_apply]
  · rw [writing_apply, writing_apply]

/-- Renderers are found without looking at attributes. -/
theorem findRenderer_mirror (groups : Groups) (run : Run) (scope : Scope) (type : ScalarType) :
    findRenderer? groups (swap.mirror run).instances scope type =
      findRenderer? groups run.instances scope type := by
  unfold findRenderer?
  simp only [mirror_instance, Option.bind_map, Logic.seen, Function.comp_def]

/-- It holds of the text of a scalar, whose renderer does not depend on attributes. -/
theorem holds_scalarText (scope : Scope) (scalar : Scalar) (format : Option String) :
    swap.logic.Holds True (fun _ => scalarText scope scalar format) fun _ => True := by
  refine holds_of_mirror (fun run => ?_) (fun _ run hintact => ?_) (fun _ run hintact => ?_)
    fun _ _ _ _ _ => trivial
  · rw [scalarText_apply, rendering_apply]
  · simp only [scalarText_apply, rendering_apply, scalarAction, findRenderer_mirror]
    rfl
  · rw [scalarText_apply, rendering_apply]
    exact hintact.of_eq rfl

/-- The trace that the recursion guard gives names templates, which are the same in both runs. -/
theorem activeNames_mirror (run : Run) : activeNames (swap.mirror run) = activeNames run := by
  simp only [activeNames, mirror_instance, Option.map_map]
  rfl

/-- Something around an action that touches neither instances nor the notes of what was read. -/
theorem holds_cleaned {pre : Prop} {post : α → Prop} {a b : Bool → Render α}
    (h : swap.logic.Holds pre a post) (prepare : Run → Run) (cleanup : Run → Run → Run)
    (happly : ∀ i run, b i swap.setting run =
      cleaned (cleanup run) (a i swap.setting (prepare run)))
    (hprepare : ∀ run : Run, (prepare run).reads = run.reads ∧
      (prepare run).instances = run.instances ∧
      prepare (swap.mirror run) = swap.mirror (prepare run))
    (hcleanup : ∀ run after : Run, (cleanup run after).reads = after.reads ∧
      (cleanup run after).instances = after.instances ∧
      cleanup (swap.mirror run) (swap.mirror after) = swap.mirror (cleanup run after)) :
    swap.logic.Holds pre b post := by
  refine holds_around h prepare (fun run => cleaned (cleanup run)) happly hprepare
    (fun run outcome => ?_) fun _ _ hanswer => hanswer
  obtain ⟨hreads, hinstances, hsame⟩ := hcleanup run outcome.2
  exact ⟨hreads, hinstances, Prod.ext rfl hsame⟩

/-- It holds where a name may not be declared. -/
theorem holds_ifDeclared {pre : Prop} {a : Bool → Render Value}
    (h : swap.logic.Holds pre a swap.logic.Proper) :
    swap.logic.Holds pre (fun i => ifDeclared (a i)) fun found =>
      ∀ value, found = some value → swap.logic.Proper value :=
  holds_around h (fun run => run) (fun _ outcome => (declared outcome.1, outcome.2))
    (fun _ run => ifDeclared_apply _ run _) (fun _ => ⟨rfl, rfl, rfl⟩) (fun _ _ => ⟨rfl, rfl, rfl⟩)
    fun _ _ _ _ _ _ _ => trivial

/-- It holds of captured texts. -/
theorem holds_capture {pre : Prop} {a : Bool → Render Nat}
    (h : swap.logic.Holds pre a fun _ => True) :
    swap.logic.Holds pre (fun i => capture (a i)) fun _ => True :=
  holds_around h (fun run => { run with out := capturing swap.setting.config }) captured
    (fun _ run => capture_apply _ run _) (fun _ => ⟨rfl, rfl, rfl⟩) (fun _ _ => ⟨rfl, rfl, rfl⟩)
    fun _ _ _ _ _ => trivial

/-- It holds within an indentation. -/
theorem holds_indented {pre : Prop} {post : α → Prop} {a : Bool → Render α}
    (indent : Option String) (h : swap.logic.Holds pre a post) :
    swap.logic.Holds pre (fun i => indented indent (a i)) post := by
  cases indent with
  | none => exact h
  | some indent =>
    exact holds_cleaned h (fun run => { run with out := run.out.pushIndent indent })
      (fun _ after => { after with out := after.out.popIndent.2 })
      (fun _ run => indented_apply _ run indent _) (fun _ => ⟨rfl, rfl, rfl⟩)
      fun _ _ => ⟨rfl, rfl, rfl⟩

/-- It holds within an anchor. -/
theorem holds_anchored {pre : Prop} {post : α → Prop} {a : Bool → Render α} (anchor : Bool)
    (h : swap.logic.Holds pre a post) :
    swap.logic.Holds pre (fun i => anchored anchor (a i)) post := by
  cases anchor with
  | false => exact h
  | true =>
    exact holds_cleaned h (fun run => { run with out := run.out.pushAnchor })
      (fun _ after => { after with out := after.out.popAnchor })
      (fun _ run => anchored_apply _ run _) (fun _ => ⟨rfl, rfl, rfl⟩) fun _ _ => ⟨rfl, rfl, rfl⟩

/-- It holds under a permission of its own. -/
theorem holds_leniently {pre : Prop} {post : α → Prop} {a : Bool → Render α} (lenient : Bool)
    (h : swap.logic.Holds pre a post) :
    swap.logic.Holds pre (fun i => leniently lenient (a i)) post :=
  holds_cleaned h (fun run => { run with lenient })
    (fun run after => { after with lenient := run.lenient })
    (fun _ run => leniently_apply _ run lenient _) (fun _ => ⟨rfl, rfl, rfl⟩)
    fun _ _ => ⟨rfl, rfl, rfl⟩

/-- The recursion guard refuses the same instances with the same trace. -/
theorem holds_guarded {pre : Prop} {post : α → Prop} {a : Bool → Render α} (id : InstanceId)
    (name : String) (h : swap.logic.Holds pre a post) :
    swap.logic.Holds pre (fun i => guarded id name (a i)) post := by
  intro run
  have hinner : swap.logic.Holds pre (fun i setting run =>
      cleaned (fun after => { after with active := after.active.tail })
        (a i setting { run with active := id :: run.active })) post :=
    holds_cleaned h (fun run => { run with active := id :: run.active })
      (fun _ after => { after with active := after.active.tail }) (fun _ _ => rfl)
      (fun _ => ⟨rfl, rfl, rfl⟩) fun _ _ => ⟨rfl, rfl, rfl⟩
  have hrefuses : Run.refuses (swap.mirror run) swap.setting.config.maxDepth id =
      Run.refuses run swap.setting.config.maxDepth id := rfl
  simp only [guarded_apply, hrefuses, activeNames_mirror]
  split
  · exact ⟨List.suffix_rfl, fun _ hintact _ => ⟨rfl, hintact, nofun⟩⟩
  · exact hinner run

/-- The laws of actions that follow each other. -/
theorem compositional : swap.logic.Compositional where
  pure hpost := holds_of_blind (fun _ => rfl) (fun _ _ => rfl)
    fun hpre _ _ hvalue => by cases hvalue; exact hpost hpre
  bind := holds_bind
  weaken hpre hpost h run := by
    obtain ⟨hreads, hmirrors⟩ := h run
    refine ⟨hreads, fun hpre' hintact hunread => ?_⟩
    obtain ⟨hsame, hintact', hanswer⟩ := hmirrors (hpre hpre') hintact hunread
    exact ⟨hsame, hintact', fun value hvalue => hpost value hpre' (hanswer value hvalue)⟩

/-- The judgement holds of all actions of a render. -/
theorem lawful : swap.logic.Lawful where
  toCompositional := compositional
  closed := .trivial
  frame _ := trivial
  fail _ _ := holds_of_blind (fun _ => rfl) (fun _ _ => rfl) nofun
  getInstance := holds_getInstance
  getCreated := holds_getCreated
  -- A read is all by which the swapped attribute can be told.
  readAttribute := holds_readAttribute
  create := holds_create
  inlineOwner label owner := holds_onStore (Store.inlineOwner label owner) fun _ => trivial
  above := holds_above
  lookup _ _ := holds_of_blind (fun _ => rfl) (fun _ _ => rfl)
    fun _ _ _ _ _ _ => trivial
  dictionary _ _ := holds_of_blind (fun _ => rfl) (fun _ _ => rfl)
    fun _ _ _ _ _ _ => trivial
  assign id _ _ := holds_modifyInstance id _
  bindVariables id _ := holds_modifyInstance id _
  evalDefault := compositional.evalDefault trivial
    (fun _ _ => holds_of_blind (fun _ => rfl) (fun _ _ => rfl) fun _ _ _ _ _ _ => trivial)
    fun _ _ _ => holds_of_blind (fun _ => rfl) (fun _ _ => rfl) fun _ _ _ _ => trivial
  isLenient := holds_of_blind (fun _ => rfl) (fun _ _ => rfl) fun _ _ _ _ => trivial
  truthy _ := holds_of_blind (fun _ => rfl) (fun _ _ => rfl) fun _ _ _ _ => trivial
  ownProperty := holds_ownProperty
  next cursor := holds_onStore (Store.next cursor) fun _ _ _ => trivial
  drain cursor := holds_onStore (Store.drain cursor) fun _ _ _ => trivial
  scalarText scope scalar format := compositional.given (holds_scalarText scope scalar format)
  leniently := holds_leniently
  ifDeclared := holds_ifDeclared
  write _ := holds_writing _
  writeToken _ _ := holds_writing _
  wrap _ _ := holds_writing _
  capture := holds_capture
  indented := holds_indented
  anchored := holds_anchored

/-- Whatever is written, the runs keep in step unless the first one reads the attribute. -/
theorem ordinary : swap.logic.Ordinary where
  toLawful := lawful
  outOfFuel := holds_of_blind (fun _ => rfl) (fun _ _ => rfl) nofun
  enter id name _ h := by
    have hnoted : swap.logic.Holds True (fun _ => Evaluator.noteWritten id) fun _ => True := by
      refine holds_of_blind (fun run => ?_) (fun run _ => ?_) fun _ _ _ _ => trivial
      · rw [noteWritten_apply]
      · rw [noteWritten_apply, noteWritten_apply]
    refine holds_guarded id name (holds_bind (compositional.given hnoted) fun _ => ?_)
    exact compositional.of h fun hpre => ⟨hpre.1.1, trivial⟩

/-- Writing an instance does the same after the attribute is replaced, unless the attribute is read
before. -/
theorem exec (fuel : Nat) (id : InstanceId) {run : Run} (hintact : swap.Intact run)
    (hunread : (swap.id, swap.name) ∉
      ((Evaluator.upTo fuel).exec [] id swap.setting run).2.reads) :
    (Evaluator.upTo fuel).exec [] id swap.setting (swap.mirror run) =
      (((Evaluator.upTo fuel).exec [] id swap.setting run).1,
        swap.mirror ((Evaluator.upTo fuel).exec [] id swap.setting run).2) :=
  (((ordinary.sound fuel).exec [] id run).2 ⟨fun _ _ => trivial, trivial⟩ hintact hunread).same

end Replacement

end Stencil
