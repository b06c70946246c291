import Stencil.Proofs.Engine.Reachable
import Stencil.Proofs.Engine.Undisturbed
import Stencil.Proofs.Render.Unread

/-!
# Attributes that are reported as unused

With lint on, a render reports the attributes that are set in the instances it writes but that it
never reads. Only instances of the caller are concerned. Such a report can be relied on: if the
attribute is given any other value, or is taken away, then the same is rendered.
-/

namespace Stencil

/-! ### Instances that are written -/

namespace Render

/-- An action adds no instances but those of the caller to the ones that were written. -/
def NotesCallers {α : Type} (action : Render α) : Prop :=
  ∀ (setting : Setting) (run : Run), ∀ id ∈ (action setting run).2.written,
    id ∈ run.written ∨ id.index < setting.callers

variable {α β : Type} {action : Render α}

/-- An action that notes nothing adds no instances. -/
theorem notesCallers_of_written
    (h : ∀ setting run, (action setting run).2.written = run.written) : NotesCallers action :=
  fun setting run _ hid => Or.inl (h setting run ▸ hid)

/-- Actions that add no others do so one after the other. -/
theorem NotesCallers.bind {next : α → Render β} (h : NotesCallers action)
    (hnext : ∀ value, NotesCallers (next value)) : NotesCallers (action >>= next) := by
  intro setting run id hid
  have hfirst := h setting run id
  rw [bind_apply] at hid
  rcases heq : action setting run with ⟨_ | value, after⟩ <;> rw [heq] at hfirst hid
  · exact hfirst hid
  · rcases hnext value setting after id hid with hbefore | hcaller
    · exact hfirst hbefore
    · exact Or.inr hcaller

/-- They do so within an indentation. -/
theorem NotesCallers.indented (h : NotesCallers action) (indent : Option String) :
    NotesCallers (indented indent action) := by
  cases indent with
  | none => exact h
  | some indent => exact fun setting run => h setting { run with out := run.out.pushIndent indent }

/-- They do so within an anchor. -/
theorem NotesCallers.anchored (h : NotesCallers action) (anchor : Bool) :
    NotesCallers (anchored anchor action) := by
  cases anchor with
  | false => exact h
  | true => exact fun setting run => h setting { run with out := run.out.pushAnchor }

/-- They do so under the guard. -/
theorem NotesCallers.guarded (h : NotesCallers action) (id : InstanceId) (name : String) :
    NotesCallers (guarded id name action) := by
  intro setting run
  rw [guarded_apply]
  split
  · exact fun _ => Or.inl
  · exact h setting { run with active := id :: run.active }

/-- The note that an instance is written is made for those of the caller only. -/
theorem notesCallers_noteWritten (id : InstanceId) : NotesCallers (Evaluator.noteWritten id) := by
  intro setting run other hother
  rw [noteWritten_apply] at hother
  dsimp only at hother
  unfold noted at hother
  split at hother
  · next hnew =>
    rcases List.mem_append.mp hother with hbefore | hnoted
    · exact Or.inl hbefore
    · exact Or.inr (List.mem_singleton.mp hnoted ▸ hnew.1)
  · exact Or.inl hother

/-- The property is passed on where actions follow each other. -/
theorem compositional_notesCallers : (Logic.ofProperty NotesCallers).Compositional :=
  Logic.compositional_ofProperty (fun _ => notesCallers_of_written fun _ _ => rfl)
    NotesCallers.bind

/-- It is one of all actions of a render. -/
theorem lawful_notesCallers : (Logic.ofProperty NotesCallers).Lawful where
  toCompositional := compositional_notesCallers
  closed := .trivial
  frame _ := trivial
  fail _ _ := notesCallers_of_written fun _ _ => rfl
  getInstance _ h := compositional_notesCallers.getInstance (fun _ _ _ => rfl)
    (notesCallers_of_written fun _ _ => by simp only [getInstance_apply]) h
  getCreated _ h := compositional_notesCallers.getCreated
    (notesCallers_of_written fun _ _ => by simp only [getInstance_apply]) h
  readAttribute _ hfits h := compositional_notesCallers.readAttribute (fun _ _ _ => rfl)
    (notesCallers_of_written fun _ _ => by simp only [noteRead_apply]) hfits h
  create _ _ := notesCallers_of_written fun _ _ => by
    simp only [create_apply]
    split <;> rfl
  inlineOwner _ _ := notesCallers_of_written fun _ _ => rfl
  above _ _ := notesCallers_of_written fun _ _ => by simp only [above_apply]
  lookup _ _ := notesCallers_of_written fun _ _ => rfl
  dictionary _ _ := notesCallers_of_written fun _ _ => rfl
  assign _ _ _ := notesCallers_of_written fun _ _ => rfl
  bindVariables _ _ := notesCallers_of_written fun _ _ => rfl
  evalDefault := compositional_notesCallers.evalDefault trivial
    (fun _ _ => notesCallers_of_written fun _ _ => rfl)
    fun _ _ _ => notesCallers_of_written fun _ _ => rfl
  isLenient := notesCallers_of_written fun _ _ => rfl
  truthy _ := notesCallers_of_written fun _ _ => rfl
  ownProperty _ _ := notesCallers_of_written fun _ _ => by simp only [ownProperty_apply]
  next _ := notesCallers_of_written fun _ _ => rfl
  drain _ := notesCallers_of_written fun _ _ => rfl
  scalarText _ _ _ := notesCallers_of_written fun _ _ => by
    simp only [scalarText_apply, rendering_apply]
  -- What is put back in the end is no note.
  leniently lenient h := fun setting run => h setting { run with lenient }
  ifDeclared h := fun setting run => by
    simp only [ifDeclared_apply]
    exact h setting run
  write _ := notesCallers_of_written fun _ _ => by simp only [writing_apply]
  writeToken _ _ := notesCallers_of_written fun _ _ => by simp only [writing_apply]
  wrap _ _ := notesCallers_of_written fun _ _ => by simp only [writing_apply]
  capture h := fun setting run => h setting { run with out := capturing setting.config }
  indented indent h := NotesCallers.indented h indent
  anchored anchor h := NotesCallers.anchored h anchor

/-- It is one of whole renders. -/
theorem ordinary_notesCallers : (Logic.ofProperty NotesCallers).Ordinary where
  toLawful := lawful_notesCallers
  outOfFuel := notesCallers_of_written fun _ _ => rfl
  enter id name _ h :=
    ((notesCallers_noteWritten id).bind fun _ => h).guarded id name

end Render

/-! ### Reports -/

namespace Engine

/-- Writing the instance `id` reports an attribute of the instance `target` of the caller: `target`
was written, and the attribute was set in it but not read. -/
structure Reports (engine : Engine) (id : InstanceId) (out : Writer) (target : InstanceId)
    (data : Instance) (name : String) : Prop where
  lint : engine.config.lint = true
  caller : engine.instance? target = some data
  written : target ∈ engine.executed id out
  isSet : name ∈ data.attributes.keys
  unread : (target, name) ∉ (engine.runWithin fuel id out).2.reads

variable {engine : Engine} {id target : InstanceId} {data : Instance} {name : String} {out : Writer}

/-- Only instances of the caller are noted as written. -/
theorem lt_of_mem_written {fuel : Nat} (h : target ∈ (engine.runWithin fuel id out).2.written) :
    target.index < engine.instances.size := by
  rcases (Render.ordinary_notesCallers.sound fuel).exec [] id engine.setting (engine.start out)
    target h with hbefore | hcaller
  · cases hbefore
  · exact hcaller

/-- Nothing is written for a number under which no instance was issued. -/
theorem written_of_isNone {fuel : Nat} (h : (engine.instance? id).isNone) :
    (engine.runWithin fuel id out).2.written = [] := by
  cases fuel with
  | zero => rfl
  | succ fuel =>
    have hget := Render.getInstance_apply_none engine.setting (engine.start out)
      (Option.isNone_iff_eq_none.mp h)
    have hrun : engine.runWithin (fuel + 1) id out =
        (.error (.failed (.invalidInstance id.index)), engine.start out) :=
      Render.bind_apply_error _ _ hget
    rw [hrun]
    rfl

/-- What a run says of an instance of the caller. -/
theorem mem_unused_runWithin {fuel : Nat} {template : String}
    (hdata : engine.instance? target = some data) :
    .unusedAttribute template name ∈ (engine.runWithin fuel id out).2.unused target ↔
      data.definition.name = template ∧ name ∈ data.attributes.keys ∧
        (target, name) ∉ (engine.runWithin fuel id out).2.reads := by
  have hafter : (engine.runWithin fuel id out).2.instances[target.index]? = some data :=
    ((evolves_runWithin fuel engine id out).callers target.index
      (Array.getElem?_eq_some_iff.mp hdata).1).trans hdata
  simp only [Run.unused, hafter, List.mem_map, List.mem_filter, Warning.unusedAttribute.injEq,
    Bool.not_eq_true', List.contains_eq_mem, decide_eq_false_iff_not]
  constructor
  · rintro ⟨_, ⟨hset, hunread⟩, htemplate, rfl⟩
    exact ⟨htemplate, hset, hunread⟩
  · rintro ⟨htemplate, hset, hunread⟩
    exact ⟨name, ⟨hset, hunread⟩, htemplate, rfl⟩

/-- The warnings of a render are its reports. -/
theorem mem_warnings_write {template : String} :
    .unusedAttribute template name ∈ (engine.write id out).warnings ↔
      ∃ target data, engine.Reports id out target data name ∧ data.definition.name = template := by
  rw [write, writeWithin]
  split
  · next hnone =>
    refine ⟨fun h => absurd h List.not_mem_nil, fun ⟨target, _, hreports, _⟩ => ?_⟩
    have hwritten : target ∈ (engine.runWithin fuel id out).2.written := hreports.written
    rw [written_of_isNone hnone] at hwritten
    cases hwritten
  · cases hlint : engine.config.lint with
    | false =>
      refine ⟨fun h => absurd h List.not_mem_nil, fun ⟨target, _, hreports, _⟩ => ?_⟩
      cases hlint.symm.trans hreports.lint
    | true =>
      simp only [if_true, List.mem_flatMap]
      constructor
      · rintro ⟨target, hwritten, hwarned⟩
        have hdata : engine.instance? target = some _ :=
          Array.getElem?_eq_getElem (lt_of_mem_written hwritten)
        obtain ⟨htemplate, hset, hunread⟩ := (mem_unused_runWithin hdata).mp hwarned
        exact ⟨target, _, ⟨hlint, hdata, hwritten, hset, hunread⟩, htemplate⟩
      · rintro ⟨target, data, ⟨-, hdata, hwritten, hset, hunread⟩, htemplate⟩
        exact ⟨target, hwritten, (mem_unused_runWithin hdata).mpr ⟨htemplate, hset, hunread⟩⟩

end Engine

/-! ### What is reported has no influence -/

/-- The table with another value under a name, or without the name. -/
def Table.replace {α : Type} (table : Table α) (name : String) : Option α → Table α
  | some value => table.insert name value
  | none => table.erase name

/-- Other names have what they had. -/
theorem Table.get?_replace_of_ne {α : Type} (table : Table α) {name other : String}
    (value : Option α) (h : other ≠ name) :
    (table.replace name value).get? other = table.get? other := by
  cases value with
  | some value => exact table.get?_insert_of_ne value h
  | none => exact table.get?_erase_of_ne h

namespace Engine

/-- The engine where an attribute of an instance has another value, or is taken away. -/
def withAttribute (engine : Engine) (id : InstanceId) (name : String) (value : Option Value) :
    Engine :=
  engine.modifyInstance id fun data =>
    { data with attributes := data.attributes.replace name value }

variable {engine : Engine} {id target : InstanceId} {data : Instance} {name : String} {out : Writer}

/-- The replacement that takes place where an attribute of an instance of the caller has another
value or is taken away. -/
def replacing (engine : Engine) (hlint : engine.config.lint = true)
    (hcaller : target.index < engine.instances.size) (name : String) (attributes : Table Value) :
    Replacement :=
  { setting := engine.setting, lint := hlint, id := target, caller := hcaller, name, attributes }

/-- What a render does not change is not changed with the attribute. -/
theorem setting_withAttribute (value : Option Value) :
    (engine.withAttribute target name value).setting = engine.setting := by
  simp only [setting, withAttribute, modifyInstance, Array.size_modify]

/-- A render of the changed engine begins in the state in which the attribute is replaced. -/
theorem start_withAttribute (hlint : engine.config.lint = true)
    (hdata : engine.instance? target = some data) (hcaller : target.index < engine.instances.size)
    (value : Option Value) : (engine.withAttribute target name value).start out =
      (engine.replacing hlint hcaller name (data.attributes.replace name value)).mirror
        (engine.start out) := by
  have hinstances : (engine.withAttribute target name value).instances =
      engine.instances.modify target.index fun found =>
        { found with attributes := data.attributes.replace name value } := by
    refine Array.ext_getElem? fun index => ?_
    simp only [withAttribute, modifyInstance, Array.getElem?_modify]
    split
    · next heq =>
      rw [← heq, show engine.instances[target.index]? = some data from hdata]
      rfl
    · rfl
  simp only [start, hinstances]
  rfl

/-- A run is the same after an attribute is replaced that is set but that the run does not read. -/
theorem runWithin_withAttribute {fuel : Nat} (hlint : engine.config.lint = true)
    (hdata : engine.instance? target = some data) (hset : name ∈ data.attributes.keys)
    (hunread : (target, name) ∉ (engine.runWithin fuel id out).2.reads) (value : Option Value) :
    ∃ instances, (engine.withAttribute target name value).runWithin fuel id out =
      ((engine.runWithin fuel id out).1, { (engine.runWithin fuel id out).2 with instances }) := by
  have hcaller : target.index < engine.instances.size := (Array.getElem?_eq_some_iff.mp hdata).1
  have hintact : (engine.replacing hlint hcaller name
      (data.attributes.replace name value)).Intact (engine.start out) := by
    refine ⟨Nat.le_refl _, fun found hfound => ?_⟩
    obtain rfl : data = found := Option.some.inj (hdata.symm.trans hfound)
    exact ⟨Table.isSome_get?_of_mem_keys hset,
      fun other hother => data.attributes.get?_replace_of_ne value hother⟩
  rw [runWithin, setting_withAttribute, start_withAttribute hlint hdata hcaller]
  exact ⟨_, Replacement.exec fuel id hintact hunread⟩

end Engine

/-- Two renders have the same outcome, whatever they report. -/
structure Written.Coincides (written other : Written) : Prop where
  result : other.result = written.result
  out : other.out = written.out
  /-- The same is left of iterators. -/
  store : other.engine.store = written.engine.store

namespace Engine

variable {engine : Engine} {id target : InstanceId} {data : Instance} {name : String} {out : Writer}

/-- An attribute that a render reports as unused has no influence on the render. -/
theorem Reports.coincides (h : engine.Reports id out target data name) (value : Option Value) :
    (engine.write id out).Coincides ((engine.withAttribute target name value).write id out) := by
  have hknown : ((engine.withAttribute target name value).instance? id).isNone =
      (engine.instance? id).isNone := by
    simp only [instance?, withAttribute, modifyInstance, Array.getElem?_modify]
    split
    · rw [Option.isNone_map]
    · rfl
  obtain ⟨instances, hrun⟩ := runWithin_withAttribute h.lint h.caller h.isSet h.unread value
  rw [write, write, writeWithin, writeWithin, hknown]
  split
  · exact ⟨rfl, rfl, rfl⟩
  · rw [hrun]
    exact ⟨rfl, rfl, rfl⟩

/-- The text is the same, whatever value a reported attribute has. -/
theorem Reports.renderWithWidth {width : Nat}
    (h : engine.Reports id (engine.config.writer width) target data name)
    (value : Option Value) :
    ((engine.withAttribute target name value).renderWithWidth id width).1 =
      (engine.renderWithWidth id width).1 := by
  obtain ⟨hresult, hout, -⟩ := h.coincides value
  have hconfig : (engine.withAttribute target name value).config = engine.config := rfl
  simp only [Engine.renderWithWidth, hconfig, hresult, hout]

/-- The warnings of a render are sound. Whatever the instance is that is written, and whatever the
writer does, each warning is a report of an attribute, and the outcome is the same if this attribute
has any other value, or is not set. -/
theorem unused_write (engine : Engine) (id : InstanceId) :
    (∀ out template name, .unusedAttribute template name ∈ (engine.write id out).warnings ↔
      ∃ target data, engine.Reports id out target data name ∧ data.definition.name = template) ∧
    ∀ target data name value,
      (∀ out, engine.Reports id out target data name →
        (engine.write id out).Coincides ((engine.withAttribute target name value).write id out)) ∧
      (∀ width, engine.Reports id (engine.config.writer width) target data name →
        ((engine.withAttribute target name value).renderWithWidth id width).1 =
          (engine.renderWithWidth id width).1) ∧
      (engine.Reports id (engine.config.writer engine.config.lineWidth) target data name →
        ((engine.withAttribute target name value).render id).1 = (engine.render id).1) :=
  ⟨fun _ _ _ => mem_warnings_write, fun _ _ _ value =>
    ⟨fun _ h => h.coincides value, fun _ h => h.renderWithWidth value,
      fun h => h.renderWithWidth value⟩⟩

/-- A page with a title, a note and a body. The body writes the title, which it looks up in the page
around it. Nothing writes the note. -/
def annotated : Engine :=
  ({} : Engine).after
    [.configure { lint := true }, .defineGroup "group" .angle,
      .declare ⟨0⟩ (.template "page"
        (some [{ name := "title" }, { name := "note" }, { name := "body" }])
        [.literal "page of ", .expression (.attribute "body") {}]),
      .declare ⟨0⟩ (.template "body" none [.expression (.attribute "title") {}]),
      .instanceOf ⟨0⟩ "page", .instanceOf ⟨0⟩ "body",
      .assign ⟨0⟩ "title" (.string "names"), .assign ⟨0⟩ "note" (.string "draft"),
      .assign ⟨0⟩ "body" (.template ⟨1⟩)]

/-- The note is reported and has no influence on the page. The title is not reported. -/
theorem unused_write_annotated :
    (annotated.renderWithWidth ⟨0⟩ 0).2.warnings = [.unusedAttribute "page" "note"] ∧
      (annotated.renderWithWidth ⟨0⟩ 0).1.toOption = some "page of names" ∧
      (∃ data, annotated.Reports ⟨0⟩ (annotated.config.writer 0) ⟨0⟩ data "note") ∧
      ∀ value, ((annotated.withAttribute ⟨0⟩ "note" value).renderWithWidth ⟨0⟩ 0).1 =
        (annotated.renderWithWidth ⟨0⟩ 0).1 := by
  have hset : ((annotated.instance? ⟨0⟩).any fun data => "note" ∈ data.attributes.keys) = true := by
    decide +kernel
  obtain ⟨data, hdata, hnote⟩ := (Option.any_eq_true _ _).mp hset
  have hreports : annotated.Reports ⟨0⟩ (annotated.config.writer 0) ⟨0⟩ data "note" :=
    ⟨by decide +kernel, hdata, by decide +kernel, of_decide_eq_true hnote, by decide +kernel⟩
  exact ⟨by decide +kernel, by decide +kernel, ⟨data, hreports⟩, fun value =>
    ((unused_write annotated ⟨0⟩).2 ⟨0⟩ data "note" value).2.1 0 hreports⟩

end Engine

end Stencil
