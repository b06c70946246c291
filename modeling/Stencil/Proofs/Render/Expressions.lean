import Stencil.Proofs.Render.Evaluation

/-!
# Judgements about names and expressions

What `Stencil.Proofs.Render.Evaluation` does for values and arguments is done here for names, calls,
applications and expressions.
-/

namespace Stencil

open Render

/-- Whether an expression is an application to several drivers, or to none, which are walked in
step. -/
def Expr.isParallel : Expr → Bool
  | .apply [_] _ => false
  | .apply _ _ => true
  | _ => false

namespace Logic.Calm

variable {ι : Type} {L : Logic ι} (laws : L.Calm) {below : ι → Evaluator} {pre : Prop}
variable {scope : Scope} {reads : String → Prop}
include laws

/-! ### Names -/

/-- The judgement holds of the error for a missing attribute. -/
theorem noSuchAttribute {α : Type} {post : α → Prop} (name : String) :
    L.Holds pre (fun _ => Render.noSuchAttribute scope name) post := by
  apply laws.getInstance scope.innermost
  intro data
  simp only [L.seen_definition]
  exact laws.given (laws.fail _ nofun)

/-- The entries of a literal come to proper values if their expressions do. -/
theorem evalEntries (entries : List (String × Expr))
    (heval : ∀ entry ∈ entries, L.Holds pre (fun i => (below i).eval scope entry.2) L.Proper) :
    L.Holds pre (fun i => (below i).evalEntries scope entries)
      fun values => ∀ entry ∈ values, L.Proper entry.2 := by
  induction entries with
  | nil => exact laws.pure fun _ _ hentry => by cases hentry
  | cons entry rest ih =>
    obtain ⟨name, expr⟩ := entry
    apply laws.bind (heval _ List.mem_cons_self)
    intro value
    have hrest := ih fun other hother => heval other (List.mem_cons_of_mem _ hother)
    refine laws.map (laws.of hrest And.left) fun values hpre hvalues other hother => ?_
    rcases List.mem_cons.mp hother with rfl | hother
    · exact hpre.2
    · exact hvalues other hother

/-- So does the fallback of a literal. -/
theorem evalFallback (fallback : Option (Fallback Expr))
    (heval : ∀ part ∈ Fallback.parts fallback,
      L.Holds pre (fun i => (below i).eval scope part) L.Proper) :
    L.Holds pre (fun i => (below i).evalFallback scope fallback)
      fun found => ∀ value, found = some (.value value) → L.Proper value := by
  rcases fallback with _ | _ | expr
  · exact laws.pure fun _ _ hfound => by cases hfound
  · exact laws.pure fun _ _ hfound => by cases hfound
  · refine laws.map (heval expr List.mem_cons_self) fun value _ hvalue other hother => ?_
    cases hother
    exact hvalue

/-- So does the whole literal. -/
theorem evalMapping {literal : MapLiteral Expr}
    (heval : ∀ part ∈ literal.parts, L.Holds pre (fun i => (below i).eval scope part) L.Proper) :
    L.Holds pre (fun i => (below i).evalMapping scope literal)
      fun mapping => L.Proper (.mapping mapping) := by
  have hentries := laws.evalEntries literal.entries fun entry hentry =>
    heval entry.2 (List.mem_append_left _ (List.mem_map_of_mem hentry))
  apply laws.bind hentries
  intro values
  have hfallback := laws.evalFallback literal.fallback fun part hpart =>
    heval part (List.mem_append_right _ hpart)
  refine laws.map (laws.of hfallback And.left) fun fallback hpre hfound => ?_
  refine (laws.closed.mapping _).mpr ⟨fun entry hentry => ?_, hfound⟩
  rcases Table.mem_insertAll hentry with hentry | ⟨pair, hpair, hvalue⟩
  · cases hentry
  · exact hvalue ▸ hpre.2 pair hpair

/-- A default comes to a proper value if its expression does, a text included. -/
theorem defaultValue (hcaptures : L.Captures below pre scope) {default : Expr}
    (heval : L.Holds pre (fun i => (below i).eval scope default) L.Proper) :
    L.Holds pre (fun i => (below i).defaultValue scope default) L.Proper := by
  unfold Evaluator.defaultValue
  split
  · next template =>
    split
    · apply laws.bind (laws.given (laws.inlineDefinition template))
      intro definition
      refine laws.bind (laws.of (laws.create scope definition) fun hpre =>
        ⟨(hcaptures.inside hpre.1).innermost, Scheme.usable hpre.2⟩) fun id => ?_
      exact laws.map (laws.of (hcaptures.exec id) fun hpre => ⟨hpre.1.1, hpre.2.2⟩)
        fun text _ _ => laws.closed.string text
    · exact heval
  · exact heval

/-- A dictionary comes to a proper value if the expressions of the literal that is found do. -/
theorem evalDictionary (hinside : pre → L.Inside scope) (name : String)
    (heval : ∀ data literal, ∀ part ∈ literal.parts,
      L.Holds (pre ∧ L.Known scope.innermost data ∧ L.Listed data.nativeGroup name literal)
        (fun i => (below i).eval scope part) L.Proper) :
    L.Holds pre (fun i => (below i).evalDictionary scope name) L.Proper := by
  apply laws.getInstance scope.innermost
  intro data
  simp only [L.seen_nativeGroup]
  have hframe (hpre : pre) := (hinside hpre).innermost
  refine laws.bind (laws.of (laws.dictionary data.nativeGroup name) fun hpre =>
    hpre.2.native (hframe hpre.1)) fun found => ?_
  cases found with
  | none => exact laws.noSuchAttribute name
  | some literal =>
    refine laws.map (laws.of (laws.evalMapping (heval data literal)) fun hpre => ?_)
      fun _ _ hmapping => hmapping
    exact ⟨hpre.1.1, hpre.1.2.known (hframe hpre.1.1), hpre.2 literal rfl⟩

/-- A name is looked up in one instance after the other. The search ends with a value, with the
default of a formal argument, or among the dictionaries. -/
theorem resolveIn (name : String) {frames : List InstanceId}
    (hframes : pre → ∀ id ∈ frames, L.Frame id)
    (hdefault : ∀ id outer data formal default, id :: outer <:+ frames →
      data.definition.formal? name = some formal → formal.default = some default →
      L.Holds (pre ∧ L.Known id data)
        (fun i => (below i).evalDefault ⟨id, outer⟩ name default) L.Proper)
    (hdictionary : L.Holds pre (fun i => (below i).evalDictionary scope name) L.Proper) :
    L.Holds pre (fun i => (below i).resolveIn scope name frames) L.Proper := by
  induction frames with
  | nil => exact hdictionary
  | cons id outer ih =>
    apply laws.getInstance id
    intro data
    have hframe (hpre : pre) := hframes hpre id List.mem_cons_self
    simp only [L.seen_iteration, L.seen_attributes, L.seen_definition]
    split
    · next value hfound =>
      exact laws.pure fun hpre => hpre.2.bound (laws.frame (hframe hpre.1)) name value hfound
    · exact laws.noSuchAttribute name
    · refine laws.readAttribute name (fun hpre => ⟨hpre.2, laws.frame (hframe hpre.1)⟩) ?_
      split
      · refine laws.of (ih (fun hpre other hother => ?_) fun other rest data formal default
          hsuffix => ?_) And.left
        · exact hframes hpre other (List.mem_cons_of_mem _ hother)
        · exact hdefault other rest data formal default
            (hsuffix.trans (List.suffix_cons id outer))
      · next formal hformal =>
        split
        · next default hdef =>
          exact laws.of (hdefault id outer data formal default List.suffix_rfl hformal hdef)
            fun hpre => ⟨hpre.1, hpre.2.known (hframe hpre.1)⟩
        · exact laws.pure fun _ => laws.closed.absent

/-! ### Calls and applications -/

/-- The arguments of a call are bound in a scope that may read what the call may read. -/
theorem arguments {inner : Call Expr Chunk} {definition : Definition}
    (h : L.Supports below pre scope inner.parts (Call.Reads L.Stored inner)) :
    L.Supports below (pre ∧ inner.callee.Refers L.Stored definition) scope inner.arguments.parts
      fun name => inner.arguments.passThrough = true ∧
        ∃ formal ∈ definition.parameters, formal.name = name :=
  laws.narrow h And.left (List.subset_append_right _ _) fun _ hpre hreads =>
    ⟨hreads.1, definition, hpre.2, hreads.2⟩

/-- A call creates a proper instance if what it refers to and its arguments are supported. -/
theorem call {inner : Call Expr Chunk}
    (h : L.Supports below pre scope inner.parts (Call.Reads L.Stored inner)) :
    L.Holds pre (fun i => (below i).call scope inner) fun id => L.Proper (.template id) := by
  apply laws.bind (laws.callee (h.within (List.subset_append_left _ _)))
  intro definition
  refine laws.bind (laws.of (laws.create scope definition) fun hpre =>
    ⟨(h.inside hpre.1).innermost, Scheme.usable hpre.2⟩) fun id => ?_
  refine laws.bind (laws.of (laws.bindArguments id definition 0 (laws.arguments h)) fun hpre =>
    ⟨hpre.1, hpre.2.1⟩) fun _ => laws.pure fun hpre => hpre.1.2.2

/-- The numbers of an instance are proper values. -/
theorem numbered (index : Nat) (name : String) (value : Value)
    (h : (name, some value) ∈ Evaluator.numbering index) : L.Proper value := by
  simp only [Evaluator.numbering, List.mem_cons, List.not_mem_nil, or_false, Prod.mk.injEq,
    Option.some.injEq] at h
  rcases h with ⟨-, rfl⟩ | ⟨-, rfl⟩
  · exact laws.closed.count _
  · exact laws.closed.count _

/-- The judgement holds of binding an element to a fresh instance. -/
theorem bindFirst (id : InstanceId) (formals : List (Formal Expr)) (named : List (String × Expr))
    (item : Value) :
    L.Holds (L.Fresh id ∧ L.Proper item)
      (fun _ => Evaluator.bindFirst id formals named item) fun _ => True := by
  cases formals with
  | nil => exact laws.pure fun _ => trivial
  | cons first rest =>
    simp only [Evaluator.bindFirst]
    split
    · exact laws.pure fun _ => trivial
    · exact laws.assign id first.name item

/-- An application creates a proper instance for a proper element. -/
theorem applyOne {inner : Call Expr Chunk} (item : Value) (index : Nat)
    (h : L.Supports below pre scope inner.parts (Call.Reads L.Stored inner)) :
    L.Holds (pre ∧ L.Proper item) (fun i => (below i).applyOne scope inner item index)
      fun id => L.Proper (.template id) := by
  refine laws.bind (laws.of (laws.callee (h.within (List.subset_append_left _ _))) And.left)
    fun definition => ?_
  refine laws.bind (laws.of (laws.create scope definition) fun hpre =>
    ⟨(h.inside hpre.1.1).innermost, Scheme.usable hpre.2⟩) fun id => ?_
  refine laws.bind (laws.failIf _ _ nofun) fun _ => ?_
  refine laws.bind (laws.of (laws.bindVariables id _) fun hpre => ⟨hpre.1.2.1, ?_⟩) fun _ => ?_
  · intro name value hvariable
    rcases List.mem_cons.mp hvariable with heq | hnumber
    · cases heq
      exact hpre.1.1.1.2
    · exact laws.numbered index name value hnumber
  refine laws.bind (laws.of (laws.bindFirst id _ _ item) fun hpre =>
    ⟨hpre.1.1.2.1, hpre.1.1.1.1.2⟩) fun _ => ?_
  refine laws.bind (laws.of (laws.bindArguments id definition 1 (laws.arguments h)) fun hpre =>
    ⟨⟨hpre.1.1.1.1.1.1, hpre.1.1.1.1.2⟩, hpre.1.1.1.2.1⟩) fun _ => ?_
  exact laws.pure fun hpre => hpre.1.1.1.1.2.2

omit laws in
/-- The call whose turn it is is one of the calls. -/
theorem turn_mem (first : Call Expr Chunk) (more : List (Call Expr Chunk)) (index : Nat) :
    Evaluator.turn first more index ∈ first :: more := by
  unfold Evaluator.turn
  cases hturn : (first :: more)[index % (more.length + 1)]? with
  | none => exact List.mem_cons_self
  | some inner => exact List.mem_of_getElem? hturn

/-- An application makes proper values of proper elements. -/
theorem applyItems {first : Call Expr Chunk} {more : List (Call Expr Chunk)} (index : Nat)
    {items : List Value}
    (h : ∀ inner ∈ first :: more,
      L.Supports below pre scope inner.parts (Call.Reads L.Stored inner)) :
    L.Holds (pre ∧ ∀ item ∈ items, L.Proper item)
      (fun i => (below i).applyItems scope first more index items)
      fun values => ∀ value ∈ values, L.Proper value := by
  induction items generalizing index with
  | nil => exact laws.pure fun _ _ hvalue => by cases hvalue
  | cons item rest ih =>
    have hrest (index : Nat) := laws.of (ih index)
      fun hpre : pre ∧ ∀ other ∈ item :: rest, L.Proper other =>
        ⟨hpre.1, fun other hother => hpre.2 other (List.mem_cons_of_mem _ hother)⟩
    have htaken : L.Holds (pre ∧ ∀ other ∈ item :: rest, L.Proper other)
        (fun i => (below i).applyOne scope (Evaluator.turn first more index) item index >>=
          fun id => (below i).applyItems scope first more (index + 1) rest >>= fun values =>
            Pure.pure (.template id :: values)) fun values => ∀ value ∈ values, L.Proper value := by
      refine laws.bind (laws.of (laws.applyOne item index (h _ (turn_mem first more index)))
        fun hpre => ⟨hpre.1, hpre.2 item List.mem_cons_self⟩) fun id => ?_
      refine laws.map (laws.of (hrest (index + 1)) And.left) fun values hpre hvalues => ?_
      exact List.forall_mem_cons.mpr ⟨hpre.2, hvalues⟩
    cases item with
    | absent =>
      refine laws.map (hrest index) fun values _ hvalues => ?_
      exact List.forall_mem_cons.mpr ⟨laws.closed.absent, hvalues⟩
    | scalar _ | list _ | mapping _ | template _ | iterator _ => exact htaken

/-- So it makes a proper value of a proper driver. -/
theorem apply {calls : List (Call Expr Chunk)} (driver : Value)
    (h : ∀ inner ∈ calls, L.Supports below pre scope inner.parts (Call.Reads L.Stored inner)) :
    L.Holds (pre ∧ L.Proper driver) (fun i => (below i).apply scope driver calls) L.Proper := by
  cases calls with
  | nil => exact laws.pure And.right
  | cons first more =>
    simp only [Evaluator.apply]
    split
    · exact laws.pure fun _ => laws.closed.absent
    · apply laws.bind (laws.of (laws.elements? driver) And.right)
      intro found
      cases found with
      | some items =>
        refine laws.map (laws.of (laws.applyItems 0 h) fun hpre =>
          ⟨hpre.1.1, hpre.2 items rfl⟩) fun values _ hvalues => ?_
        exact (laws.closed.list values).mpr hvalues
      | none =>
        refine laws.map (laws.of (laws.applyOne driver 0 (h first List.mem_cons_self)) And.left)
          fun id _ hid => hid

/-- The judgement holds of binding a row to a fresh instance. -/
theorem bindRow (id : InstanceId) (index : Nat) {cells : List (String × List Value)} :
    L.Holds (L.Fresh id ∧ ∀ cell ∈ cells, ∀ item ∈ cell.2, L.Proper item)
      (fun _ => Evaluator.bindRow id index cells) fun _ => True := by
  induction cells with
  | nil => exact laws.pure fun _ => trivial
  | cons cell rest ih =>
    obtain ⟨name, items⟩ := cell
    have hrest := laws.of ih
      fun hpre : L.Fresh id ∧ ∀ cell ∈ (name, items) :: rest, ∀ item ∈ cell.2, L.Proper item =>
        ⟨hpre.1, fun other hother => hpre.2 other (List.mem_cons_of_mem _ hother)⟩
    simp only [Evaluator.bindRow]
    cases hitem : items[index]? with
    | none => exact laws.map hrest fun _ _ _ => trivial
    | some value =>
      refine laws.bind (laws.of (laws.assign id name value) fun hpre =>
        ⟨hpre.1, hpre.2 _ List.mem_cons_self value (List.mem_of_getElem? hitem)⟩) fun _ => ?_
      exact laws.of hrest And.left

/-- A row asks whether its loop variables may be read after their sequence. -/
theorem applyRow (hlenient : L.Holds True (fun _ => Render.isLenient) fun _ => True)
    {inner : Call Expr Chunk} {definition : Definition}
    {cells : List (String × List Value)} (index : Nat)
    (h : L.Supports below pre scope inner.parts (Call.Reads L.Stored inner)) :
    L.Holds ((pre ∧ inner.callee.Refers L.Stored definition) ∧
        ∀ cell ∈ cells, ∀ item ∈ cell.2, L.Proper item)
      (fun i => (below i).applyRow scope definition inner.arguments cells index)
      fun id => L.Proper (.template id) := by
  refine laws.bind (laws.of (laws.create scope definition) fun hpre =>
    ⟨(h.inside hpre.1.1).innermost, Scheme.usable hpre.1.2⟩) fun id => ?_
  refine laws.bind (laws.of (laws.bindRow id index) fun hpre => ⟨hpre.2.1, hpre.1.2⟩)
    fun exhausted => ?_
  apply laws.bind (laws.given hlenient)
  intro lenient
  refine laws.bind (laws.of (laws.bindVariables id _) fun hpre => ⟨hpre.1.1.2.1, ?_⟩) fun _ => ?_
  · intro name value hvariable
    rcases List.mem_append.mp hvariable with hnumber | hexhausted
    · exact laws.numbered index name value hnumber
    · split at hexhausted
      · cases hexhausted
      · obtain ⟨other, -, heq⟩ := List.mem_map.mp hexhausted
        cases heq
  refine laws.bind (laws.of (laws.bindArguments id definition cells.length (laws.arguments h))
    fun hpre => ⟨hpre.1.1.1.1.1, hpre.1.1.1.2.1⟩) fun _ => ?_
  exact laws.pure fun hpre => hpre.1.1.1.1.2.2

/-- Rows of proper elements come to proper values. -/
theorem applyRows (hlenient : L.Holds True (fun _ => Render.isLenient) fun _ => True)
    {inner : Call Expr Chunk} {definition : Definition}
    {cells : List (String × List Value)} (index count : Nat)
    (h : L.Supports below pre scope inner.parts (Call.Reads L.Stored inner)) :
    L.Holds ((pre ∧ inner.callee.Refers L.Stored definition) ∧
        ∀ cell ∈ cells, ∀ item ∈ cell.2, L.Proper item)
      (fun i => (below i).applyRows scope definition inner.arguments cells index count)
      fun values => ∀ value ∈ values, L.Proper value := by
  induction count generalizing index with
  | zero => exact laws.pure fun _ _ hvalue => by cases hvalue
  | succ count ih =>
    apply laws.bind (laws.applyRow hlenient index h)
    intro id
    refine laws.map (laws.of (ih (index + 1)) And.left) fun values hpre hvalues => ?_
    exact List.forall_mem_cons.mpr ⟨hpre.2, hvalues⟩

/-- An application to several drivers makes a proper value of proper ones. -/
theorem applyParallel (hlenient : L.Holds True (fun _ => Render.isLenient) fun _ => True)
    {calls : List (Call Expr Chunk)} (drivers : List Value)
    (h : ∀ inner ∈ calls, L.Supports below pre scope inner.parts (Call.Reads L.Stored inner)) :
    L.Holds (pre ∧ ∀ driver ∈ drivers, L.Proper driver)
      (fun i => (below i).applyParallel scope drivers calls) L.Proper := by
  unfold Evaluator.applyParallel
  split
  · next inner =>
    have hinner := h inner List.mem_cons_self
    refine laws.bind (laws.of (laws.callee (hinner.within (List.subset_append_left _ _)))
      And.left) fun definition => ?_
    refine laws.bind (laws.failIf _ _ nofun) fun _ => ?_
    apply laws.bind (laws.of (laws.columns drivers) fun hpre => hpre.1.1.2)
    intro columns
    refine laws.map (laws.of (laws.applyRows hlenient 0 _ hinner) fun hpre =>
      ⟨⟨hpre.1.1.1.1, hpre.1.1.2⟩, fun cell hcell => ?_⟩) fun values _ hvalues => ?_
    · exact hpre.2 cell.2 (List.of_mem_zip hcell).2
    · exact (laws.closed.list values).mpr hvalues
  · exact laws.given (laws.fail _ nofun)

/-! ### Expressions -/

/-- Several expressions come to proper values if each of them does. -/
theorem evalAll {exprs : List Expr}
    (heval : ∀ expr ∈ exprs, L.Holds pre (fun i => (below i).eval scope expr) L.Proper) :
    L.Holds pre (fun i => (below i).evalAll scope exprs)
      fun values => ∀ value ∈ values, L.Proper value := by
  induction exprs with
  | nil => exact laws.pure fun _ _ hvalue => by cases hvalue
  | cons expr rest ih =>
    apply laws.bind (heval expr List.mem_cons_self)
    intro value
    have hrest := ih fun other hother => heval other (List.mem_cons_of_mem _ hother)
    refine laws.map (laws.of hrest And.left) fun values hpre hvalues => ?_
    exact List.forall_mem_cons.mpr ⟨hpre.2, hvalues⟩

/-- The judgement holds of the texts of several values if it holds of capturing each of them. -/
theorem textOfAll (hcaptures : L.Captures below pre scope) (values : List Value) :
    L.Holds (pre ∧ ∀ value ∈ values, L.Proper value)
      (fun i => (below i).textOfAll scope values) fun _ => True := by
  induction values with
  | nil => exact laws.pure fun _ => trivial
  | cons value rest ih =>
    refine laws.bind (laws.of (laws.textOf hcaptures value) fun hpre =>
      ⟨hpre.1, hpre.2 value List.mem_cons_self⟩) fun text => ?_
    refine laws.map (laws.of ih fun hpre => ⟨hpre.1.1, fun other hother => ?_⟩)
      fun _ _ _ => trivial
    exact hpre.1.2 other (List.mem_cons_of_mem _ hother)

/-- So values that are put together come to a proper value. -/
theorem concat (hcaptures : L.Captures below pre scope) (values : List Value) :
    L.Holds (pre ∧ ∀ value ∈ values, L.Proper value)
      (fun i => (below i).concat scope values) L.Proper := by
  unfold Evaluator.concat
  split
  · exact laws.map (laws.of (laws.spliced values) And.right) fun items _ hitems =>
      (laws.closed.list items).mpr hitems
  · exact laws.map (laws.textOfAll hcaptures values) fun text _ _ => laws.closed.string text

/-- The judgement holds of a test if it holds of its expression. -/
theorem holds {expr : Expr}
    (heval : L.Holds pre (fun i => (below i).eval scope expr) L.Proper) :
    L.Holds pre (fun i => (below i).holds scope expr) fun _ => True :=
  laws.bind heval fun value => laws.of (laws.truthy value) And.right

/-- An expression is evaluated by evaluating its parts and by looking up the names it reads. -/
theorem evalExpr {expr : Expr} (h : L.Supports below pre scope expr.parts (expr.Reads L.Stored))
    (hlenient : expr.isParallel = true → L.Holds True (fun _ => Render.isLenient) fun _ => True) :
    L.Holds pre (fun i => (below i).evalExpr scope expr) L.Proper := by
  have hcall {inner : Call Expr Chunk} (hinner : inner ∈ expr.calls)
      (hparts : inner.parts ⊆ expr.parts) :
      L.Supports below pre scope inner.parts (Call.Reads L.Stored inner) :=
    laws.narrow h (fun hpre => hpre) hparts fun name _ hreads => Or.inr ⟨inner, hinner, hreads⟩
  cases expr with
  | «attribute» name => exact laws.of (h.resolve name) fun hpre => ⟨hpre, Or.inl rfl⟩
  | string text => exact laws.pure fun _ => laws.closed.string text
  | bool truth => exact laws.pure fun _ => laws.closed.bool truth
  | property target name =>
    apply laws.bind (h.eval target List.mem_cons_self)
    intro value
    exact laws.of (laws.property value name) And.right
  | computedProperty target name =>
    apply laws.bind (h.eval target List.mem_cons_self)
    intro value
    apply laws.bind (laws.of (h.eval name (by simp [Expr.parts])) And.left)
    intro name
    refine laws.bind (laws.of (laws.textOf h.toCaptures name) fun hpre => ⟨hpre.1.1, hpre.2⟩)
      fun text => ?_
    exact laws.of (laws.property value text) fun hpre => hpre.1.1.2
  | call inner =>
    exact laws.map (laws.call (hcall List.mem_cons_self (List.Subset.refl _)))
      fun id _ hid => hid
  | apply drivers calls =>
    have hcalls (inner) (hinner : inner ∈ calls) :
        L.Supports below pre scope inner.parts (Call.Reads L.Stored inner) :=
      hcall hinner fun part hpart =>
        List.mem_append_right _ (List.mem_flatMap.mpr ⟨inner, hinner, hpart⟩)
    have hdrivers (driver) (hdriver : driver ∈ drivers) :=
      h.eval driver (List.mem_append_left _ hdriver)
    simp only [Evaluator.evalExpr]
    split
    · next driver =>
      exact laws.bind (hdrivers driver List.mem_cons_self) fun value =>
        laws.apply value hcalls
    · -- Only an application to several drivers looks at the permission.
      next hseveral =>
      have hparallel : (Expr.apply drivers calls).isParallel = true := by
        unfold Expr.isParallel
        split
        · next heq =>
          cases heq
          exact absurd rfl (hseveral _)
        · rfl
        · next hnot => exact absurd rfl (hnot _ _)
      exact laws.bind (laws.evalAll hdrivers) fun values =>
        laws.applyParallel (hlenient hparallel) values hcalls
  | inline template =>
    apply laws.bind (laws.given (laws.inlineDefinition template))
    intro definition
    refine laws.map (laws.of (laws.create scope definition) fun hpre =>
      ⟨(h.inside hpre.1).innermost, Scheme.usable hpre.2⟩) fun id _ hid => hid.2
  | mapping literal => exact laws.map (laws.evalMapping h.eval) fun _ _ hmapping => hmapping
  | concat items =>
    exact laws.bind (laws.evalAll h.eval) fun values => laws.concat h.toCaptures values
  | operator operator operand =>
    apply laws.bind (h.eval operand List.mem_cons_self)
    intro value
    exact laws.of (laws.operator operator value) And.right
  | rendered inner =>
    apply laws.bind (h.eval inner List.mem_cons_self)
    intro value
    exact laws.map (laws.textOf h.toCaptures value) fun text _ _ => laws.closed.string text
  | not inner =>
    exact laws.map (laws.holds (h.eval inner List.mem_cons_self)) fun truth _ _ =>
      laws.closed.bool _
  | and left right =>
    apply laws.bind (laws.holds (h.eval left List.mem_cons_self))
    intro truth
    have hright := laws.holds (h.eval right (by simp [Expr.parts]))
    cases truth with
    | true => exact laws.map (laws.of hright And.left) fun truth _ _ => laws.closed.bool truth
    | false => exact laws.pure fun _ => laws.closed.bool false
  | or left right =>
    apply laws.bind (laws.holds (h.eval left List.mem_cons_self))
    intro truth
    have hright := laws.holds (h.eval right (by simp [Expr.parts]))
    cases truth with
    | true => exact laws.pure fun _ => laws.closed.bool true
    | false => exact laws.map (laws.of hright And.left) fun truth _ _ => laws.closed.bool truth

/-! ### Levels of evaluation -/

/-- What evaluation can be said to do in every scope where texts can be captured. -/
theorem supports (hcaptures : ∀ scope, L.Captures below (L.Inside scope) scope)
    (heval : ∀ scope expr, L.Holds (L.Inside scope) (fun i => (below i).eval scope expr) L.Proper)
    (scope : Scope) (parts : List Expr) (reads : String → Prop) :
    L.Supports below (L.Inside scope) scope parts reads where
  toCaptures := hcaptures scope
  eval part _ := heval scope part
  resolve name := by
    suffices h : L.Holds (L.Inside scope) (fun i => (below i).resolve scope name) L.Proper from
      laws.of h And.left
    refine laws.resolveIn name (fun hinside => hinside)
      (fun id outer data formal default hsuffix _ _ => ?_) ?_
    · have hinner : L.Inside scope ∧ L.Known id data → L.Inside ⟨id, outer⟩ :=
        fun hpre other hother => hpre.1 other (hsuffix.subset hother)
      refine laws.of (laws.evalDefault name ?_) hinner
      exact laws.defaultValue (hcaptures _) (heval _ default)
    · exact laws.evalDictionary (fun hinside => hinside) name fun data literal part _ =>
        laws.of (heval scope part) And.left

end Logic.Calm

namespace Logic.Quiet

variable {ι : Type} {L : Logic ι} (laws : L.Quiet) {below : ι → Evaluator} {pre : Prop}
variable {scope : Scope}
include laws

/-- The judgement holds of an expression that is supported by its parts. -/
theorem evalExpr {expr : Expr} (h : L.Supports below pre scope expr.parts (expr.Reads L.Stored)) :
    L.Holds pre (fun i => (below i).evalExpr scope expr) L.Proper :=
  laws.toCalm.evalExpr h fun _ => laws.isLenient

/-- Where texts can be captured at every level, expressions can be evaluated at every level. -/
theorem evaluates (houtOfFuel : L.Holds True (fun _ => throw .outOfFuel) L.Proper)
    (hcaptures : ∀ fuel scope,
      L.Captures (fun _ => Evaluator.upTo fuel) (L.Inside scope) scope)
    (fuel : Nat) (scope : Scope) (expr : Expr) :
    L.Holds (L.Inside scope) (fun _ => (Evaluator.upTo fuel).eval scope expr) L.Proper := by
  induction fuel generalizing scope expr with
  | zero => exact laws.given houtOfFuel
  | succ fuel ih => exact laws.evalExpr (laws.supports (hcaptures fuel) ih scope _ _)

end Logic.Quiet

end Stencil
