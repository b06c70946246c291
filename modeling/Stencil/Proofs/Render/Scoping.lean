import Stencil.Proofs.Group.Chain
import Stencil.Proofs.Render.Defaults
import Stencil.Proofs.Render.Literals
import Stencil.Proofs.Render.Meaning

/-!
# Scoping

A name is looked up in the instances of a scope from the inside out, and the first instance in which
it means something decides what it comes to. The instances around that one, and the dictionaries,
are not looked at; they matter only to a default that has to be evaluated there. A name that means
nothing in any instance is looked up among the dictionaries, from the innermost instance on.
-/

namespace Stencil

open Render

/-- The default that a name has in an instance that does not set it. -/
def Meaning.default? : Meaning → Option Expr
  | .parameter formal => formal.default
  | _ => none

namespace Run

/-- The innermost instance of a scope in which a name means something, with the instances around it,
is `frame`; the instances inside it are `inner`. -/
structure Decides (run : Run) (scope : Scope) (name : String) (inner : List InstanceId)
    (frame : Scope) (meaning : Meaning) : Prop where
  frames_eq : scope.frames = inner ++ frame.frames
  inside : ∀ id ∈ inner, run.Means id name none
  here : run.Means frame.innermost name (some meaning)

/-- A name means nothing in any instance of a scope. -/
def Undeclared (run : Run) (scope : Scope) (name : String) : Prop :=
  ∀ id ∈ scope.frames, run.Means id name none

/-- Two states have the same instances under some numbers. -/
def AgreesOn (ids : List InstanceId) (run other : Run) : Prop :=
  ∀ id ∈ ids, other.instances[id.index]? = run.instances[id.index]?

variable {run other : Run} {id : InstanceId} {name : String} {scope frame : Scope}
variable {inner outer : List InstanceId} {meaning : Meaning}

/-- What a name means to an instance depends on the instance alone. -/
theorem Means.congr {found : Option Meaning} (h : run.Means id name found)
    (hsame : other.instances[id.index]? = run.instances[id.index]?) :
    other.Means id name found := by
  obtain ⟨data, hdata, hmeaning⟩ := h
  exact ⟨data, hsame.trans hdata, hmeaning⟩

/-- In some instances that there are, from the inside out, a name means nothing, or it does so up to
one of them. -/
theorem exists_means {frames : List InstanceId}
    (h : ∀ id ∈ frames, ∃ data, run.instances[id.index]? = some data) (name : String) :
    (∀ id ∈ frames, run.Means id name none) ∨
      ∃ inner id outer meaning, frames = inner ++ id :: outer ∧
        (∀ id ∈ inner, run.Means id name none) ∧ run.Means id name (some meaning) := by
  induction frames with
  | nil => exact .inl nofun
  | cons first rest ih =>
    obtain ⟨data, hdata⟩ := h first List.mem_cons_self
    cases hmeaning : data.meaning? name with
    | some meaning =>
      exact .inr ⟨[], first, rest, meaning, rfl, nofun, data, hdata, hmeaning⟩
    | none =>
      have hfirst : run.Means first name none := ⟨data, hdata, hmeaning⟩
      rcases ih fun id hid => h id (List.mem_cons_of_mem _ hid) with hnone | hsome
      · exact .inl (List.forall_mem_cons.mpr ⟨hfirst, hnone⟩)
      · obtain ⟨inner, id, outer, meaning, rfl, hinner, hid⟩ := hsome
        exact .inr ⟨first :: inner, id, outer, meaning, rfl,
          List.forall_mem_cons.mpr ⟨hfirst, hinner⟩, hid⟩

/-- What is outside the instance that decides does not matter to which one it is. -/
theorem Decides.congr (h : run.Decides scope name inner frame meaning) {other : Run}
    {around : Scope} (haround : around.frames = inner ++ frame.innermost :: outer)
    (hsame : run.AgreesOn (inner ++ [frame.innermost]) other) :
    other.Decides around name inner ⟨frame.innermost, outer⟩ meaning where
  frames_eq := haround
  inside id hid := (h.inside id hid).congr (hsame id (List.mem_append_left _ hid))
  here := h.here.congr (hsame _ (List.mem_append_right _ List.mem_cons_self))

/-- The innermost instance of a scope is among those that are looked at. -/
theorem innermost_mem {id : InstanceId} (h : scope.frames = inner ++ id :: outer) :
    scope.innermost ∈ inner ++ [id] := by
  cases inner with
  | nil => exact List.mem_singleton.mpr (List.cons.inj h).1
  | cons first rest => exact (List.cons.inj h).1 ▸ List.mem_cons_self

/-- Frames that begin alike have the same innermost instance. -/
theorem innermost_eq {around : Scope} {outer' : List InstanceId}
    (h : scope.frames = inner ++ id :: outer) (h' : around.frames = inner ++ id :: outer') :
    around.innermost = scope.innermost := by
  cases inner with
  | nil => exact (List.cons.inj h').1.trans (List.cons.inj h).1.symm
  | cons first rest => exact (List.cons.inj h').1.trans (List.cons.inj h).1.symm

/-- A scope in which a name is decided has an innermost instance. -/
theorem Decides.exists_innermost (h : run.Decides scope name inner frame meaning) :
    ∃ data, run.instances[scope.innermost.index]? = some data := by
  rcases List.mem_append.mp (innermost_mem h.frames_eq) with hmem | hmem
  · obtain ⟨data, hdata, -⟩ := h.inside _ hmem
    exact ⟨data, hdata⟩
  · obtain ⟨data, hdata, -⟩ := h.here
    exact ⟨data, List.mem_singleton.mp hmem ▸ hdata⟩

end Run

namespace Evaluator

variable (level : Evaluator) (setting : Setting)

section

variable {setting} {run : Run} {scope frame : Scope} {name : String} {id : InstanceId}
variable {inner outer : List InstanceId} {meaning : Meaning}

/-- What a name comes to is settled in the instance that decides. -/
theorem resolve_of_decides (h : run.Decides scope name inner frame meaning) :
    level.resolve scope name setting run = level.settle scope frame name meaning setting run := by
  rw [resolve, h.frames_eq, resolveIn_append level h.inside]
  exact resolveIn_of_means_some level h.here

/-- A name that means nothing in any instance is looked up among the dictionaries. -/
theorem resolve_of_undeclared (h : run.Undeclared scope name) :
    level.resolve scope name setting run = level.evalDictionary scope name setting run :=
  level.resolveIn_eq_evalDictionary h

end

/-- A default is evaluated to the same in two states, each time in the scope of the instance that
has it: it is known to be the same already, or it is not known and its expression comes to the
same. -/
def SameDefault (level : Evaluator) (name : String) (default : Expr) (setting setting' : Setting)
    (frame frame' : Scope) (run run' : Run) : Prop :=
  run'.defaults.lookup (frame'.innermost, name) = run.defaults.lookup (frame.innermost, name) ∧
    (run.defaults.lookup (frame.innermost, name) = none →
      (level.defaultValue frame' default setting' (run'.noting frame'.innermost name .absent)).1 =
        (level.defaultValue frame default setting (run.noting frame.innermost name .absent)).1)

/-- A default that is evaluated alike has the same outcome. -/
theorem SameDefault.evalDefault {name : String} {default : Expr} {setting setting' : Setting}
    {frame frame' : Scope} {run run' : Run}
    (h : level.SameDefault name default setting setting' frame frame' run run') :
    (level.evalDefault frame' name default setting' run').1 =
      (level.evalDefault frame name default setting run).1 := by
  obtain ⟨hknown, hvalue⟩ := h
  cases hlookup : run.defaults.lookup (frame.innermost, name) with
  | some value =>
    rw [level.evalDefault_of_known setting frame name default hlookup,
      level.evalDefault_of_known setting' frame' name default (hknown.trans hlookup)]
  | none =>
    rw [level.evalDefault_of_unknown setting frame name default hlookup,
      level.evalDefault_of_unknown setting' frame' name default (hknown.trans hlookup)]
    have hsame := hvalue hlookup
    generalize level.defaultValue frame default setting _ = outcome at hsame ⊢
    generalize level.defaultValue frame' default setting' _ = outcome' at hsame ⊢
    obtain ⟨_ | _, _⟩ := outcome <;> obtain ⟨_ | _, _⟩ := outcome' <;> exact hsame

/-- How a level looks up names in the instances of a scope. -/
structure Scopes : Prop where
  /-- Where the instances of a scope are there, one decides what a name comes to, or it means
  nothing in any of them. -/
  total : ∀ (run : Run) scope name,
    (∀ id ∈ scope.frames, ∃ data, run.instances[id.index]? = some data) →
      (∃ inner frame meaning, run.Decides scope name inner frame meaning) ∨
        run.Undeclared scope name
  bound : ∀ (run : Run) scope name inner frame value,
    run.Decides scope name inner frame (.loop (some value)) →
      level.resolve scope name setting run = (.ok value, run)
  /-- A variable whose sequence has run out cannot be read. -/
  unbound : ∀ (run : Run) scope name inner frame,
    run.Decides scope name inner frame (.loop none) →
      ∃ data, run.instances[scope.innermost.index]? = some data ∧
        level.resolve scope name setting run =
          (.error (.failed (.noSuchAttribute name data.definition.name)), run)
  /-- An attribute is read, which is noted if lint is on. -/
  assigned : ∀ (run : Run) scope name inner frame value,
    run.Decides scope name inner frame (.assigned value) →
      level.resolve scope name setting run = (.ok value, { run with
        reads := if setting.config.lint then (frame.innermost, name) :: run.reads else run.reads })
  unset : ∀ (run : Run) scope name inner frame formal,
    run.Decides scope name inner frame (.parameter formal) → formal.default = none →
      level.resolve scope name setting run = (.ok .absent, run)
  /-- A default is read in the instance that has it, with the instances around that one: it comes
  to what is known of it, or else to what it is evaluated to, which is known from then on. -/
  fallback : ∀ (run : Run) scope name inner frame formal expr,
    run.Decides scope name inner frame (.parameter formal) → formal.default = some expr →
      level.ReadsDefault setting frame name expr run (level.resolve scope name setting run)
  /-- In another state, with other dictionaries, with other instances outside the one that decides,
  and with other contents of those, the same instance decides, and the name comes to the same; a
  default does if it is evaluated to the same. -/
  shadows : ∀ (run : Run) scope name inner frame meaning,
    run.Decides scope name inner frame meaning →
      ∀ (setting' : Setting) (run' : Run) scope' outer,
        scope'.frames = inner ++ frame.innermost :: outer →
        run.AgreesOn (inner ++ [frame.innermost]) run' →
          run'.Decides scope' name inner ⟨frame.innermost, outer⟩ meaning ∧
            ((∀ expr, meaning.default? = some expr → level.SameDefault name expr setting setting'
                frame ⟨frame.innermost, outer⟩ run run') →
              (level.resolve scope' name setting' run').1 =
                (level.resolve scope name setting run).1)
  /-- A name that means nothing in any instance stands for the nearest dictionary of the groups from
  which the template of the innermost instance comes: it comes to the mapping that the values of the
  entries fill, and it fails as one of them fails. -/
  dictionary : ∀ (run : Run) scope name, run.Undeclared scope name →
    ∃ data, run.instances[scope.innermost.index]? = some data ∧
      (∀ nearer id group farther literal,
        setting.groups.chainGroups data.nativeGroup = nearer ++ (id, group) :: farther →
        (∀ entry ∈ nearer, entry.2.dictionaries.get? name = none) →
        group.dictionaries.get? name = some literal →
          level.resolve scope name setting run =
            (Value.mapping <$> level.evalMapping scope literal : Render Value) setting run ∧
          ∀ value ended, level.resolve scope name setting run = (.ok value, ended) ↔
            ∃ mapping, value = .mapping mapping ∧
              level.Fills setting scope literal run mapping ended) ∧
      ((∀ entry ∈ setting.groups.chainGroups data.nativeGroup,
          entry.2.dictionaries.get? name = none) →
        level.resolve scope name setting run =
          (.error (.failed (.noSuchAttribute name data.definition.name)), run))

/-- Names are scoped. -/
theorem scopes (level : Evaluator) (setting : Setting) : level.Scopes setting where
  total run scope name hthere := by
    rcases Run.exists_means hthere name with hnone | hsome
    · exact .inr hnone
    · obtain ⟨inner, id, outer, meaning, hframes, hinner, hid⟩ := hsome
      exact .inl ⟨inner, ⟨id, outer⟩, meaning, hframes, hinner, hid⟩
  bound run scope name inner frame value h := by
    rw [resolve_of_decides level h, settle, pure_apply]
  unbound run scope name inner frame h := by
    obtain ⟨data, hdata⟩ := h.exists_innermost
    refine ⟨data, hdata, ?_⟩
    rw [resolve_of_decides level h, settle, noSuchAttribute_apply hdata]
  assigned run scope name inner frame value h := by
    rw [resolve_of_decides level h, settle, bind_apply_ok _ _ (noteRead_apply _ _ _ _), pure_apply]
  unset run scope name inner frame formal h hdefault := by
    rw [resolve_of_decides level h, settle]
    simp only [hdefault, pure_apply]
  fallback run scope name inner frame formal expr h hdefault := by
    rw [resolve_of_decides level h, settle, hdefault]
    exact level.readsDefault_iff.mpr rfl
  shadows run scope name inner frame meaning h setting' run' scope' outer hframes hsame := by
    have h' := h.congr hframes hsame
    refine ⟨h', fun hdefault => ?_⟩
    rw [resolve_of_decides level h, resolve_of_decides level h']
    -- The same frame decides in both states, and each meaning settles in the same way.
    cases meaning with
    | loop binding =>
      cases binding with
      | some value => rfl
      | none =>
        obtain ⟨data, hdata⟩ := h.exists_innermost
        have hdata' : run'.instances[scope'.innermost.index]? = some data := by
          rw [Run.innermost_eq h.frames_eq hframes,
            hsame _ (Run.innermost_mem h.frames_eq), hdata]
        rw [settle, settle, noSuchAttribute_apply hdata, noSuchAttribute_apply hdata']
    | assigned value =>
      rw [settle, settle, bind_apply_ok _ _ (noteRead_apply _ _ _ _),
        bind_apply_ok _ _ (noteRead_apply _ _ _ _), pure_apply, pure_apply]
    | parameter formal =>
      rw [settle, settle]
      cases hformal : formal.default with
      | some default => exact (hdefault default hformal).evalDefault
      | none => rfl
  dictionary run scope name h := by
    obtain ⟨data, hdata, -⟩ := h scope.innermost List.mem_cons_self
    refine ⟨data, hdata, fun nearer id group farther literal hchain hnearer hget => ?_,
      fun hnone => ?_⟩
    · have hfound : setting.groups.findDictionary data.nativeGroup name = some literal :=
        List.findSome?_eq_some_iff.mpr ⟨nearer, (id, group), farther, hchain, hget, hnearer⟩
      rw [resolve_of_undeclared level h, evalDictionary_of_some level hdata hfound]
      exact ⟨rfl, fun _ _ => literal_eq_ok_iff⟩
    · have hfound : setting.groups.findDictionary data.nativeGroup name = none :=
        List.findSome?_eq_none_iff.mpr hnone
      rw [resolve_of_undeclared level h, evalDictionary_of_none level hdata hfound]

/-- Inside an instance that does not know a name stands one that sets it: the name comes to that
value, and it does so too if there is a further instance around both that sets it otherwise. What
neither of them declares comes to a dictionary. -/
theorem scopes_nested :
    let setting : Setting :=
      .ofGroup [] [("marks", { entries := [("end", .string ".")], fallback := some .key })]
    let inner : Definition := .template "inner" none []
    let outer : Definition := .template "outer" (some [{ name := "title" }]) []
    let run : Run := .ofInstances [(outer, [("title", .string "x")]), (inner, []),
      (outer, [("title", .string "y")])]
    ((upTo 1).resolve ⟨⟨1⟩, [⟨0⟩]⟩ "title" setting run).1 = .ok (.string "x") ∧
      ((upTo 1).resolve ⟨⟨1⟩, [⟨0⟩, ⟨2⟩]⟩ "title" setting run).1 = .ok (.string "x") ∧
      ∃ mapping ended, (upTo 1).resolve ⟨⟨1⟩, [⟨0⟩]⟩ "marks" setting run =
        (.ok (.mapping mapping), ended) ∧ mapping.lookup "end" = .string "." := by
  intro setting inner outer run
  have hscopes := scopes (upTo 1) setting
  have hdecides : run.Decides ⟨⟨1⟩, [⟨0⟩]⟩ "title" [⟨1⟩] ⟨⟨0⟩, []⟩ (.assigned (.string "x")) :=
    { frames_eq := rfl
      inside := List.forall_mem_singleton.mpr ⟨_, rfl, rfl⟩
      here := ⟨_, rfl, rfl⟩ }
  have hinner := congrArg Prod.fst (hscopes.assigned _ _ _ _ _ _ hdecides)
  obtain ⟨-, houter⟩ := hscopes.shadows _ _ _ _ _ _ hdecides setting run ⟨⟨1⟩, [⟨0⟩, ⟨2⟩]⟩ [⟨2⟩] rfl
    fun _ _ => rfl
  have hundeclared : run.Undeclared ⟨⟨1⟩, [⟨0⟩]⟩ "marks" := by
    intro id hid
    rcases List.mem_pair.mp hid with rfl | rfl <;> exact ⟨_, rfl, rfl⟩
  refine ⟨hinner, (houter nofun).trans hinner, ?_⟩
  obtain ⟨data, hdata, hfound, -⟩ := hscopes.dictionary run _ "marks" hundeclared
  cases hdata
  obtain ⟨-, hfills⟩ := hfound [] _ _ _ _ rfl nofun rfl
  exact ⟨_, run, (hfills _ _).mpr ⟨_, rfl, _, _, _, .cons rfl (.nil _), .key _, rfl⟩, rfl⟩

end Evaluator

end Stencil
