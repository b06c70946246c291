import Stencil.Proofs.Body.Parts
import Stencil.Proofs.Value.Closed
import Stencil.Render.Exec

/-!
# A logic of renders

Most that can be said of a render is said by one induction over its evaluation, whatever is said:
that two renders agree, that a render leaves something alone, that it ends. A `Logic` is a kind of
judgement about families of renders together with properties of the instances, values and groups
that they meet. Once the judgement holds of the few actions that touch the state of a render, and
once it is passed on by `bind`, it holds of everything that the evaluator puts together from them.
This module states what has to be shown for a kind of judgement; `Stencil.Proofs.Render.Evaluation`
draws the conclusion.

A family has one render for each index, such as one for each of two groups to be compared, or one
for each number of levels that evaluation may have. The members of a family may begin in different
states, and where instances have different attributes in these states, each member sees its own. So
what a member does with the attributes of an instance is part of the judgement: reading one of them
is an action by itself.

Evaluating an expression writes nothing, apart from texts that it captures. What has to be shown for
judgements about evaluation (`Logic.Quiet`) is therefore less than what has to be shown for those
about all that a render does (`Logic.Lawful`). Most of either (`Logic.Calm`, `Logic.Vocal`) does not
depend on whether loop variables may be read after their sequence, for which only the rows of a
parallel application ask.
-/

namespace Stencil

open Render

/-- Properties of what a render meets. -/
structure Scheme where
  /-- Instances that may stand in a scope. -/
  Frame : InstanceId → Prop
  /-- Instances that the render creates. -/
  Fresh : InstanceId → Prop
  /-- Values that the render may meet. -/
  Proper : Value → Prop
  /-- Groups that the render may look up names from. -/
  Start : GroupId → Prop
  /-- Definitions that a look-up of a name may find. -/
  Stored : String → Definition → Prop
  /-- Dictionaries that a look-up of a name from a group may find. -/
  Listed : GroupId → String → MapLiteral Expr → Prop
  /-- What is known of an instance that stands in a scope. -/
  Known : InstanceId → Instance → Prop

namespace Scheme

variable (S : Scheme)

/-- A scope of which all instances are frames. -/
def Inside (scope : Scope) : Prop := ∀ id ∈ scope.frames, S.Frame id

/-- A definition that an instance may be created of. -/
def Usable (definition : Definition) : Prop :=
  (∃ name, S.Stored name definition) ∨
    ∃ template owner, definition = Definition.inline template owner

/-- What may be relied on for an instance that is looked at. -/
structure Fits (id : InstanceId) (data : Instance) : Prop where
  group : S.Frame id → S.Start data.group
  native : S.Frame id → S.Start data.nativeGroup
  assigned : S.Proper (.template id) → ∀ name value, data.attributes.get? name = some value →
    S.Proper value
  bound : S.Proper (.template id) → ∀ name value,
    data.iteration.lookup name = some (some value) → S.Proper value
  known : S.Frame id → S.Known id data

variable {S}

/-- The innermost instance of a scope is a frame. -/
theorem Inside.innermost {scope : Scope} (h : S.Inside scope) : S.Frame scope.innermost :=
  h _ List.mem_cons_self

/-- A definition that a call refers to may be used. -/
theorem usable {callee : Callee Expr Chunk} {definition : Definition}
    (h : callee.Refers S.Stored definition) : S.Usable definition := by
  cases callee with
  | named name | inherited name => exact Or.inl ⟨name, h⟩
  | computed _ => exact Or.inl h
  | inline template => exact Or.inr ⟨template, h⟩

end Scheme

/-- A kind of judgement about families of renders. -/
structure Logic (ι : Type) extends Scheme where
  /-- The attributes of an instance that a member of a family sees, where another one sees the
  instance as it is given. -/
  attributes : ι → InstanceId → Instance → Table Value := fun _ _ data => data.attributes
  /-- The judgement about a family. The first argument is what it takes for granted, the last one
  what it says of the answers. -/
  Holds : {α : Type} → Prop → (ι → Render α) → (α → Prop) → Prop

namespace Logic

variable {ι : Type} (L : Logic ι)

/-- An instance as a member of a family sees it. -/
def seen (i : ι) (id : InstanceId) (data : Instance) : Instance :=
  { data with attributes := L.attributes i id data }

section

variable (i : ι) (id : InstanceId) (data : Instance)

/-- The template of an instance is seen as it is. -/
@[simp] theorem seen_definition : (L.seen i id data).definition = data.definition := rfl

/-- So is the group it belongs to. -/
@[simp] theorem seen_group : (L.seen i id data).group = data.group := rfl

/-- So is the group of its template. -/
@[simp] theorem seen_nativeGroup : (L.seen i id data).nativeGroup = data.nativeGroup := rfl

/-- So are its variables. -/
@[simp] theorem seen_iteration : (L.seen i id data).iteration = data.iteration := rfl

/-- Its attributes are seen as the judgement shows them. -/
@[simp] theorem seen_attributes : (L.seen i id data).attributes = L.attributes i id data := rfl

end

/-- What has to be shown for a kind of judgement about any renders: that it is passed on where they
follow each other. -/
structure Compositional : Prop where
  pure : ∀ {α : Type} {pre : Prop} {post : α → Prop} {value : α}, (pre → post value) →
    L.Holds pre (fun _ => Pure.pure value) post
  bind : ∀ {α β : Type} {pre : Prop} {mid : α → Prop} {post : β → Prop} {a : ι → Render α}
    {f : ι → α → Render β}, L.Holds pre a mid →
    (∀ value, L.Holds (pre ∧ mid value) (fun i => f i value) post) →
    L.Holds pre (fun i => a i >>= f i) post
  weaken : ∀ {α : Type} {pre pre' : Prop} {post post' : α → Prop} {a : ι → Render α},
    (pre' → pre) → (∀ value, pre' → post value → post' value) → L.Holds pre a post →
    L.Holds pre' a post'

namespace Compositional

variable {L} (laws : L.Compositional)
variable {α β : Type} {pre pre' : Prop} {post : α → Prop} {a : ι → Render α}
include laws

/-- A judgement that takes less for granted. -/
theorem of (h : L.Holds pre a post) (himp : pre' → pre) : L.Holds pre' a post :=
  laws.weaken himp (fun _ _ h => h) h

/-- A judgement about an action that takes for granted what is known. -/
theorem given (h : L.Holds True a post) : L.Holds pre a post := laws.of h fun _ => trivial

/-- What is made of the outcome of an action needs to be judged on the outcome alone. -/
theorem map {f : α → β} {post' : β → Prop} (h : L.Holds pre a post)
    (hf : ∀ value, pre → post value → post' (f value)) :
    L.Holds pre (fun i => a i >>= fun value => Pure.pure (f value)) post' :=
  laws.bind h fun value => laws.pure fun ⟨hpre, hvalue⟩ => hf value hpre hvalue

/-- To look at an instance of the render, one may take it that it fits. -/
theorem getCreated {f : ι → Instance → Render α} {id : InstanceId}
    (hget : L.Holds True (fun _ => Render.getInstance id) (L.Fits id))
    (h : ∀ data, L.Holds (pre ∧ L.Fits id data) (fun i => f i data) post) :
    L.Holds (pre ∧ L.Fresh id) (fun i => Render.getInstance id >>= f i) post :=
  laws.bind (laws.given hget) fun data => laws.of (h data) (And.imp_left And.left)

/-- A default is evaluated like anything else where notes are looked up and taken like any
others. -/
theorem evalDefault (habsent : L.Proper .absent)
    (hknown : ∀ id name, L.Holds True (fun _ => knownDefault? id name)
      fun found => ∀ value, found = some value → L.Proper value)
    (hnote : ∀ id name value, L.Holds (L.Proper value) (fun _ => noteDefault id name value)
      fun _ => True)
    {below : ι → Evaluator} {scope : Scope} {default : Expr} (name : String)
    (hvalue : L.Holds pre (fun i => (below i).defaultValue scope default) L.Proper) :
    L.Holds pre (fun i => (below i).evalDefault scope name default) L.Proper := by
  apply laws.bind (laws.given (hknown scope.innermost name))
  intro found
  cases found with
  | some value => exact laws.pure fun hpre => hpre.2 value rfl
  | none =>
    refine laws.bind (laws.of (hnote scope.innermost name .absent) fun _ => habsent) fun _ => ?_
    apply laws.bind (laws.of hvalue fun hpre => hpre.1.1)
    intro value
    exact laws.bind (laws.of (hnote scope.innermost name value) And.right) fun _ =>
      laws.pure fun hpre => hpre.1.2

section

variable (hsame : ∀ i id data, L.attributes i id data = data.attributes)
include hsame

/-- Looking at an instance is an action like others where all members see what is given. -/
theorem getInstance {f : ι → Instance → Render α} {id : InstanceId}
    (hget : L.Holds True (fun _ => Render.getInstance id) (L.Fits id))
    (h : ∀ data, L.Holds (pre ∧ L.Fits id data) (fun i => f i (L.seen i id data)) post) :
    L.Holds pre (fun i => Render.getInstance id >>= f i) post := by
  refine laws.bind (laws.given hget) fun data => ?_
  simpa only [seen, hsame] using h data

/-- Reading an attribute is noting it where all members see what is given. -/
theorem readAttribute {a : ι → Render Value} {id : InstanceId} {data : Instance} {name : String}
    (hnote : L.Holds True (fun _ => Render.noteRead id name) fun _ => True)
    (hfits : pre → L.Fits id data ∧ L.Proper (.template id)) (h : L.Holds pre a L.Proper) :
    L.Holds pre (fun i => match (L.attributes i id data).get? name with
      | some value => Render.noteRead id name >>= fun _ => Pure.pure value
      | none => a i) L.Proper := by
  simp only [hsame]
  cases hvalue : data.attributes.get? name with
  | some value =>
    exact laws.map (laws.given hnote) fun _ hpre _ =>
      (hfits hpre).1.assigned (hfits hpre).2 name value hvalue
  | none => exact h

end

end Compositional

/-- What has to be shown for a kind of judgement about evaluation where nothing depends on whether
loop variables may be read after their sequence: that it also holds of the other actions that touch
the state but do not write, and of the ways in which such actions are put together. -/
structure Calm : Prop extends L.Compositional where
  closed : Value.Closed L.Proper
  frame : ∀ {id}, L.Frame id → L.Proper (.template id)
  /-- Any error may stop a render here but that of the recursion guard, which is raised where
  instances are written. -/
  fail : ∀ {α : Type} {post : α → Prop} (error : RenderError),
    (∀ trace, error ≠ .infiniteRecursion trace) → L.Holds True (fun _ => Render.fail error) post
  /-- An instance is looked at, and each member goes on with what it sees. -/
  getInstance : ∀ {α : Type} {pre : Prop} {post : α → Prop} {f : ι → Instance → Render α} (id),
    (∀ data, L.Holds (pre ∧ L.Fits id data) (fun i => f i (L.seen i id data)) post) →
    L.Holds pre (fun i => Render.getInstance id >>= f i) post
  /-- An instance that the render created is the same for every member. -/
  getCreated : ∀ {α : Type} {pre : Prop} {post : α → Prop} {f : ι → Instance → Render α} (id),
    (∀ data, L.Holds (pre ∧ L.Fits id data) (fun i => f i data) post) →
    L.Holds (pre ∧ L.Fresh id) (fun i => Render.getInstance id >>= f i) post
  /-- An attribute is read, or something else is done where it is not set. -/
  readAttribute : ∀ {pre : Prop} {a : ι → Render Value} {id data} (name),
    (pre → L.Fits id data ∧ L.Proper (.template id)) → L.Holds pre a L.Proper →
    L.Holds pre (fun i => match (L.attributes i id data).get? name with
      | some value => Render.noteRead id name >>= fun _ => Pure.pure value
      | none => a i) L.Proper
  create : ∀ scope definition, L.Holds (L.Frame scope.innermost ∧ L.Usable definition)
    (fun _ => Render.create scope definition) fun id => L.Fresh id ∧ L.Proper (.template id)
  inlineOwner : ∀ label owner, L.Holds True
    (fun _ => onStore (Store.inlineOwner label owner)) fun _ => True
  above : ∀ group name, L.Holds (L.Start group) (fun _ => Render.above group name) L.Start
  lookup : ∀ start name, L.Holds (L.Start start) (fun _ => Render.lookup start name)
    fun found => ∀ definition, found = some definition → L.Stored name definition
  dictionary : ∀ start name, L.Holds (L.Start start) (fun _ => dictionary? start name)
    fun found => ∀ literal, found = some literal → L.Listed start name literal
  assign : ∀ id name value, L.Holds (L.Fresh id ∧ L.Proper value)
    (fun _ => Render.bind id name value) fun _ => True
  bindVariables : ∀ id iteration,
    L.Holds (L.Fresh id ∧ ∀ name value, (name, some value) ∈ iteration → L.Proper value)
      (fun _ => Render.bindVariables id iteration) fun _ => True
  /-- The value of a default, which is noted, is evaluated at most once. -/
  evalDefault : ∀ {pre : Prop} {below : ι → Evaluator} {scope : Scope} {default : Expr} (name),
    L.Holds pre (fun i => (below i).defaultValue scope default) L.Proper →
    L.Holds pre (fun i => (below i).evalDefault scope name default) L.Proper
  truthy : ∀ value, L.Holds (L.Proper value) (fun _ => Render.truthy value) fun _ => True
  ownProperty : ∀ value name, L.Holds (L.Proper value)
    (fun _ => Render.ownProperty value name) L.Proper
  next : ∀ cursor, L.Holds (L.Proper (.iterator cursor)) (fun _ => onStore (Store.next cursor))
    fun found => ∀ value, found = some value → L.Proper value
  drain : ∀ cursor, L.Holds (L.Proper (.iterator cursor))
    (fun _ => onStore (Store.drain cursor)) fun items => ∀ item ∈ items, L.Proper item
  scalarText : ∀ scope scalar format, L.Holds (L.Inside scope ∧ L.Proper (.scalar scalar))
    (fun _ => Render.scalarText scope scalar format) fun _ => True
  ifDeclared : ∀ {pre : Prop} {a : ι → Render Value}, L.Holds pre a L.Proper →
    L.Holds pre (fun i => Render.ifDeclared (a i))
      fun found => ∀ value, found = some value → L.Proper value

/-- What has to be shown for a kind of judgement about evaluation: that it also holds where a render
asks whether loop variables may be read after their sequence. -/
structure Quiet : Prop extends L.Calm where
  isLenient : L.Holds True (fun _ => Render.isLenient) fun _ => True

/-- What has to be shown for a kind of judgement about writing: that it also holds of the actions
that write. -/
structure Vocal : Prop extends L.Calm where
  leniently : ∀ {α : Type} {pre : Prop} {post : α → Prop} {a : ι → Render α} (lenient),
    L.Holds pre a post → L.Holds pre (fun i => Render.leniently lenient (a i)) post
  write : ∀ text, L.Holds True (fun _ => writing (Writer.write text)) fun _ => True
  writeToken : ∀ text wrap, L.Holds True (fun _ => writing (Writer.writeToken text wrap))
    fun _ => True
  wrap : ∀ text width, L.Holds True (fun _ => writing (Writer.wrap text width)) fun _ => True
  capture : ∀ {pre : Prop} {a : ι → Render Nat}, L.Holds pre a (fun _ => True) →
    L.Holds pre (fun i => Render.capture (a i)) fun _ => True
  indented : ∀ {α : Type} {pre : Prop} {post : α → Prop} {a : ι → Render α} (indent),
    L.Holds pre a post → L.Holds pre (fun i => Render.indented indent (a i)) post
  anchored : ∀ {α : Type} {pre : Prop} {post : α → Prop} {a : ι → Render α} (anchor),
    L.Holds pre a post → L.Holds pre (fun i => Render.anchored anchor (a i)) post

/-- What has to be shown for a kind of judgement about all that a render does. -/
structure Lawful : Prop extends L.Quiet, L.Vocal

/-- A check may be judged, and after it its condition does not hold. -/
theorem Calm.failIf {L : Logic ι} (laws : L.Calm) {pre : Prop} (condition : Bool)
    (error : RenderError) (herror : ∀ trace, error ≠ .infiniteRecursion trace) :
    L.Holds pre (fun _ => Render.failIf condition error) fun _ => condition = false := by
  cases condition with
  | true => exact laws.given (laws.fail error herror)
  | false => exact laws.pure fun _ => rfl

/-- A property of renders as a kind of judgement, which takes nothing for granted and says nothing
of what the renders meet or answer. -/
def ofProperty (P : {α : Type} → Render α → Prop) : Logic Unit where
  Holds _ a _ := P (a ())
  Frame _ := True
  Fresh _ := True
  Proper _ := True
  Start _ := True
  Stored _ _ := True
  Listed _ _ _ := True
  Known _ _ := True

/-- What holds of an answer and of two actions one after the other can be put together from
parts. -/
theorem compositional_ofProperty {P : {α : Type} → Render α → Prop}
    (hpure : ∀ {α : Type} (value : α), P (Pure.pure value))
    (hbind : ∀ {α β : Type} {action : Render α} {next : α → Render β}, P action →
      (∀ value, P (next value)) → P (action >>= next)) : (ofProperty P).Compositional where
  pure _ := hpure _
  bind := hbind
  weaken _ _ h := h

end Logic

end Stencil
