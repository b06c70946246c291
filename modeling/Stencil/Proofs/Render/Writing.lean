import Stencil.Proofs.Render.Expressions

/-!
# Judgements about writing

The functions that write values and nodes come last. Together with the ones before them they make
up a level of the evaluator, so that a kind of judgement that does not care how many levels there
are holds of every level; `Logic.Ordinary.sound` says so.
-/

namespace Stencil

open Render

/-- The values that are written when a value is written. -/
def Value.elements : Value → List Value
  | .list items => items
  | .mapping entries => entries.keyValues
  | .absent | .scalar _ | .template _ | .iterator _ => []

/-- The bodies that may be written for a node, of which a conditional has several. -/
def Node.bodies : Node → List (List Node)
  | .conditional branches otherwise _ => otherwise :: branches.map Branch.body
  | .text _ | .newline | .expression _ _ _ | .region _ _ _ => []

/-- The expressions of a node that are evaluated on the side: options, and the tests of a
conditional. -/
def Node.aside : Node → List Expr
  | .expression _ options _ => options.parts
  | .conditional branches _ _ => branches.map Branch.test
  | .text _ | .newline | .region _ _ _ => []

/-- What is written of some items is one of them or a text. -/
theorem Render.mem_survivors {null : Option String} {items : List Value} {item : Value}
    (h : item ∈ survivors null items) : item ∈ items ∨ ∃ text, item = .string text := by
  obtain ⟨other, hother, hitem⟩ := List.mem_filterMap.mp h
  cases other with
  | absent =>
    obtain ⟨text, -, htext⟩ := Option.map_eq_some_iff.mp hitem
    exact Or.inr ⟨text, htext.symm⟩
  | scalar _ | list _ | mapping _ | template _ | iterator _ =>
    cases hitem
    exact Or.inl hother

namespace Logic.Calm

variable {ι : Type} {L : Logic ι} (laws : L.Calm) {below : ι → Evaluator} {pre : Prop}
variable {scope : Scope}
include laws

/-! ### What is evaluated before something is written -/

/-- An option is evaluated, captured and kept as a text. -/
theorem optionText (hcaptures : L.Captures below pre scope) {option : Option Expr}
    (heval : ∀ expr, option = some expr →
      L.Holds pre (fun i => (below i).eval scope expr) L.Proper) :
    L.Holds pre (fun i => (below i).optionText scope option) fun _ => True := by
  cases option with
  | none => exact laws.pure fun _ => trivial
  | some expr =>
    apply laws.bind (heval expr rfl)
    intro value
    exact laws.map (laws.textOf hcaptures value) fun _ _ _ => trivial

/-- The judgement holds of all the options of an expression. -/
theorem evalOptions (hcaptures : L.Captures below pre scope) {options : Options Expr}
    (heval : ∀ part ∈ options.parts,
      L.Holds pre (fun i => (below i).eval scope part) L.Proper) :
    L.Holds pre (fun i => (below i).evalOptions scope options) fun _ => True := by
  have htext (option : Option Expr) (hoption : ∀ expr, option = some expr → expr ∈ options.parts) :
      L.Holds pre (fun i => (below i).optionText scope option) fun _ => True :=
    laws.optionText hcaptures fun expr hexpr => heval expr (hoption expr hexpr)
  apply laws.bind (htext options.separator fun expr h => by simp [Options.parts, h])
  intro _
  apply laws.bind (laws.of (htext options.wrap fun expr h => by simp [Options.parts, h]) And.left)
  intro _
  apply laws.bind (laws.of (htext options.null fun expr h => by simp [Options.parts, h])
    fun hpre => hpre.1.1)
  intro _
  exact laws.map (laws.of (htext options.format fun expr h => by simp [Options.parts, h])
    fun hpre => hpre.1.1.1) fun _ _ _ => trivial

/-- It holds of choosing a branch, and what is chosen is one of the bodies. -/
theorem choose (otherwise : List Node) {branches : List (Branch Expr Node)}
    (heval : ∀ branch ∈ branches,
      L.Holds pre (fun i => (below i).eval scope branch.test) L.Proper) :
    L.Holds pre (fun i => (below i).choose scope otherwise branches)
      fun body => body ∈ otherwise :: branches.map Branch.body := by
  induction branches with
  | nil => exact laws.pure fun _ => List.mem_cons_self
  | cons branch rest ih =>
    apply laws.bind (laws.holds (heval branch List.mem_cons_self))
    intro truth
    cases truth with
    | true => exact laws.pure fun _ => by simp
    | false =>
      have hrest := ih fun other hother => heval other (List.mem_cons_of_mem _ hother)
      refine laws.weaken And.left (fun body _ hbody => ?_) hrest
      rcases List.mem_cons.mp hbody with rfl | hbody
      · exact List.mem_cons_self
      · exact List.mem_cons_of_mem _ (List.mem_cons_of_mem _ hbody)

/-- A region is looked for from a group on from which the search may start. -/
theorem regionStart (hinside : pre → L.Inside scope) (data : Instance) (name : String)
    (ascending : Bool) :
    L.Holds (pre ∧ L.Fits scope.innermost data)
      (fun i => Evaluator.regionStart scope (L.seen i scope.innermost data) name ascending)
      L.Start := by
  unfold Evaluator.regionStart
  split
  · exact laws.superGroup (fun hpre => hinside hpre.1) _
  · exact laws.pure fun hpre => hpre.2.group (hinside hpre.1).innermost

end Logic.Calm

namespace Logic.Vocal

variable {ι : Type} {L : Logic ι} (laws : L.Vocal) {below : ι → Evaluator} {pre : Prop}
variable {scope : Scope} {reads : String → Prop}
include laws

/-! ### Values -/

/-- The judgement holds of writing a separator. -/
theorem writeSeparator (options : WriteOptions) :
    L.Holds pre (fun _ => Render.writeSeparator options) fun _ => True := by
  unfold Render.writeSeparator
  split
  · exact laws.given (laws.write _)
  · exact laws.pure fun _ => trivial

/-- It holds of writing the text of a wrap. -/
theorem writeWrap (options : WriteOptions) :
    L.Holds pre (fun _ => Render.writeWrap options) fun _ => True := by
  unfold Render.writeWrap
  split
  · exact laws.given (laws.wrap _ _)
  · exact laws.pure fun _ => trivial

/-- It holds of the elements behind the first one if it holds of each of them. -/
theorem writeFurther {options : WriteOptions} {items : List Value}
    (hvalue : ∀ item ∈ items,
      L.Holds pre (fun i => (below i).value scope options item) fun _ => True) :
    L.Holds pre (fun i => (below i).writeFurther scope options items) fun _ => True := by
  induction items with
  | nil => exact laws.pure fun _ => trivial
  | cons item rest ih =>
    apply laws.bind (laws.writeSeparator options)
    intro _
    apply laws.bind (laws.of (hvalue item List.mem_cons_self) And.left)
    intro _
    have hrest := ih fun other hother => hvalue other (List.mem_cons_of_mem _ hother)
    exact laws.map (laws.of hrest fun hpre => hpre.1.1) fun _ _ _ => trivial

/-- Elements are written if each of them is, and if texts are: a null text may stand for an absent
element. -/
theorem writeElements {options : WriteOptions} {items : List Value}
    (hvalue : ∀ item, item ∈ items ∨ (∃ text, item = .string text) →
      L.Holds (pre ∧ L.Proper item) (fun i => (below i).value scope options item) fun _ => True) :
    L.Holds (pre ∧ ∀ item ∈ items, L.Proper item)
      (fun i => (below i).writeElements scope options items) fun _ => True := by
  have hsurvivor (item) (hitem : item ∈ survivors options.null items) :
      L.Holds (pre ∧ ∀ item ∈ items, L.Proper item)
        (fun i => (below i).value scope options item) fun _ => True := by
    have hcase := mem_survivors hitem
    refine laws.of (hvalue item hcase) fun hpre => ⟨hpre.1, ?_⟩
    rcases hcase with hold | ⟨text, rfl⟩
    · exact hpre.2 item hold
    · exact laws.closed.string text
  unfold Evaluator.writeElements
  split
  · exact laws.pure fun _ => trivial
  · next item rest hsurvivors =>
    rw [hsurvivors] at hsurvivor
    apply laws.bind (hsurvivor item List.mem_cons_self)
    intro _
    have hrest := laws.writeFurther fun other hother =>
      hsurvivor other (List.mem_cons_of_mem _ hother)
    exact laws.map (laws.of hrest And.left) fun _ _ _ => trivial

/-- It holds of writing a scalar. -/
theorem writeScalar (hinside : pre → L.Inside scope) (options : WriteOptions) (scalar : Scalar) :
    L.Holds (pre ∧ L.Proper (.scalar scalar))
      (fun i => (below i).writeValue scope options (.scalar scalar)) fun _ => True := by
  refine laws.bind (laws.of (laws.scalarText scope scalar options.format) fun hpre =>
    ⟨hinside hpre.1, hpre.2⟩) fun text => ?_
  exact laws.given (laws.writeToken _ _)

/-- A value is written by writing its elements, the instance that it is, or what the iterator that
it is delivers. -/
theorem writeValue (hinside : pre → L.Inside scope) {options : WriteOptions} {value : Value}
    (hexec : ∀ id, value = .template id → L.Holds (pre ∧ L.Proper value)
      (fun i => (below i).exec scope.frames id) fun _ => True)
    (hvalue : ∀ item, item ∈ value.elements ∨ (∃ text, item = .string text) →
      L.Holds (pre ∧ L.Proper item) (fun i => (below i).value scope options item) fun _ => True)
    (hdrain : ∀ cursor, value = .iterator cursor → L.Holds (pre ∧ L.Proper value)
      (fun i => onStore (Store.drain cursor) >>= (below i).writeElements scope options)
      fun _ => True) :
    L.Holds (pre ∧ L.Proper value) (fun i => (below i).writeValue scope options value)
      fun _ => True := by
  cases value with
  | absent =>
    simp only [Evaluator.writeValue]
    split
    · exact laws.given (laws.writeToken _ _)
    · exact laws.pure fun _ => trivial
  | scalar scalar => exact laws.writeScalar hinside options scalar
  | template id =>
    apply laws.bind (laws.writeWrap options)
    intro _
    exact laws.map (laws.of (hexec id rfl) And.left) fun _ _ _ => trivial
  | list items =>
    exact laws.of (laws.writeElements hvalue) (And.imp_right (laws.closed.list items).mp)
  | iterator cursor => exact hdrain cursor rfl
  | mapping entries =>
    exact laws.of (laws.writeElements hvalue) fun hpre =>
      ⟨hpre.1, laws.closed.keyValues entries⟩

/-! ### Expressions with options -/

/-- It holds of writing an expression if it holds of its value and of its options. -/
theorem writeExpression (hwrites : L.Writes below pre scope) {expr : Expr}
    {options : Options Expr}
    (hexpr : L.Holds pre
      (fun i => Render.leniently options.null.isSome ((below i).eval scope expr)) L.Proper)
    (heval : ∀ part ∈ options.parts,
      L.Holds pre (fun i => (below i).eval scope part) L.Proper) :
    L.Holds pre (fun i => (below i).writeExpression scope expr options) fun _ => True := by
  apply laws.bind hexpr
  intro value
  apply laws.bind (laws.of (laws.evalOptions (hwrites.captures laws) heval) And.left)
  intro evaluated
  exact laws.anchored _ (laws.of (hwrites.value evaluated value) And.left)

/-! ### Nodes -/

/-- It holds of writing a region. -/
theorem writeRegion (hwrites : L.Writes below pre scope) (region : String) (ascending : Bool) :
    L.Holds pre (fun i => (below i).writeRegion scope region ascending) fun _ => True := by
  apply laws.getInstance scope.innermost
  intro data
  simp only [L.seen_definition]
  apply laws.bind (laws.regionStart hwrites.inside data _ ascending)
  intro start
  apply laws.bind (laws.of (laws.lookup start _) And.right)
  intro found
  cases found with
  | some definition =>
    refine laws.bind (laws.of (laws.create scope definition) fun hpre =>
      ⟨(hwrites.inside hpre.1.1.1).innermost, Or.inl ⟨_, hpre.2 definition rfl⟩⟩) fun id => ?_
    exact laws.of (hwrites.exec id) fun hpre => ⟨hpre.1.1.1.1, hpre.2.2⟩
  | none =>
    simp only
    split
    · exact laws.given (laws.fail _ nofun)
    · exact laws.pure fun _ => trivial

/-- A node is written by evaluating expressions, of which an expression with options has its own,
and by writing one of the bodies inside it. -/
theorem writeNode (hwrites : L.Writes below pre scope) {node : Node}
    (hexpr : ∀ expr options indent, node = .expression expr options indent → L.Holds pre
      (fun i => Render.leniently options.null.isSome ((below i).eval scope expr)) L.Proper)
    (heval : ∀ part ∈ node.aside, L.Holds pre (fun i => (below i).eval scope part) L.Proper)
    (line : Line) (hnodes : ∀ line body, L.Holds (pre ∧ body ∈ node.bodies)
      (fun i => (below i).nodes scope line body) fun _ => True) :
    L.Holds pre (fun i => (below i).writeNode scope line node) fun _ => True := by
  cases node with
  | text text => exact laws.map (laws.given (laws.write text)) fun _ _ _ => trivial
  | newline =>
    have hbreak : L.Holds pre (fun _ => Evaluator.writeBreak line) fun _ => True := by
      unfold Evaluator.writeBreak
      split
      · exact laws.given (laws.write _)
      · exact laws.pure fun _ => trivial
    exact laws.map hbreak fun _ _ _ => trivial
  | expression expr options indent =>
    have hwritten := laws.writeExpression hwrites (hexpr expr options indent rfl) heval
    exact laws.map (laws.indented indent hwritten)
      fun _ _ _ => trivial
  | conditional branches otherwise indent =>
    have hchosen := laws.choose otherwise fun branch hbranch =>
      heval branch.test (List.mem_map_of_mem hbranch)
    exact laws.bind hchosen fun body =>
      laws.indented indent (hnodes _ body)
  | region name ascending indent =>
    exact laws.map (laws.indented indent (laws.writeRegion hwrites name ascending))
      fun _ _ _ => trivial

/-- It holds of nodes one after the other if it holds of each of them on every line. -/
theorem writeNodes (line : Line) {nodes : List Node}
    (hnode : ∀ node ∈ nodes, ∀ line,
      L.Holds pre (fun i => (below i).writeNode scope line node) fun _ => True) :
    L.Holds pre (fun i => (below i).writeNodes scope line nodes) fun _ => True := by
  induction nodes generalizing line with
  | nil => exact laws.pure fun _ => trivial
  | cons node rest ih =>
    apply laws.bind (hnode node List.mem_cons_self line)
    intro written
    have hrest := ih written.2 fun other hother => hnode other (List.mem_cons_of_mem _ hother)
    exact laws.map (laws.of hrest And.left) fun _ _ _ => trivial

end Logic.Vocal

namespace Logic.Lawful

variable {ι : Type} {L : Logic ι} (laws : L.Lawful) {below : ι → Evaluator} {pre : Prop}
variable {scope : Scope}
include laws

/-- Nodes are written where all expressions can be evaluated and the bodies inside them can be
written. -/
theorem writeNodes (hwrites : L.Writes below pre scope)
    (heval : ∀ expr, L.Holds pre (fun i => (below i).eval scope expr) L.Proper) (line : Line)
    {nodes : List Node} (hnodes : ∀ node ∈ nodes, ∀ line body,
      L.Holds (pre ∧ body ∈ node.bodies) (fun i => (below i).nodes scope line body)
        fun _ => True) :
    L.Holds pre (fun i => (below i).writeNodes scope line nodes) fun _ => True :=
  laws.toVocal.writeNodes line fun node hnode line => laws.writeNode hwrites
    (fun expr _ _ _ => laws.leniently _ (heval expr)) (fun part _ => heval part) line
    (hnodes node hnode)

end Logic.Lawful

namespace Logic

variable {ι : Type} (L : Logic ι)

/-- What the members of a family of evaluators, each one level, are said to do. -/
structure Sound (level : ι → Evaluator) : Prop where
  eval : ∀ scope expr, L.Holds (L.Inside scope) (fun i => (level i).eval scope expr) L.Proper
  exec : ∀ outer id, L.Holds ((∀ other ∈ outer, L.Frame other) ∧ L.Proper (.template id))
    (fun i => (level i).exec outer id) fun _ => True
  nodes : ∀ scope line nodes, L.Holds (L.Inside scope)
    (fun i => (level i).nodes scope line nodes) fun _ => True
  value : ∀ scope options value, L.Holds (L.Inside scope ∧ L.Proper value)
    (fun i => (level i).value scope options value) fun _ => True

/-- A kind of judgement that does not depend on how many levels an evaluator has: it holds where
there are none left, and it passes from the body of an instance to the instance. -/
structure Ordinary : Prop extends L.Lawful where
  outOfFuel : ∀ {α : Type} {post : α → Prop}, L.Holds True (fun _ => throw .outOfFuel) post
  enter : ∀ {pre : Prop} (id : InstanceId) (name : String) {a : ι → Render Nat},
    L.Holds (pre ∧ L.Frame id) a (fun _ => True) →
    L.Holds (pre ∧ L.Proper (.template id))
      (fun i => guarded id name do Evaluator.noteWritten id; a i) fun _ => True

variable {L} in
/-- Of sound evaluators it holds of whatever they write. -/
theorem Sound.writes {below : ι → Evaluator} (h : L.Sound below) (scope : Scope) :
    L.Writes below (L.Inside scope) scope where
  inside hinside := hinside
  value := h.value scope
  exec := h.exec scope.frames

variable {L} in
/-- What holds of one level of each member holds of the ones above, if it holds of the instances
that are written there. -/
theorem Lawful.sound_next (laws : L.Lawful) {below : ι → Evaluator} (h : L.Sound below)
    (hexec : ∀ outer id, L.Holds ((∀ other ∈ outer, L.Frame other) ∧ L.Proper (.template id))
      (fun i => (below i).writeInstance outer id) fun _ => True) :
    L.Sound fun i => (below i).next where
  eval scope expr := laws.evalExpr
    (laws.toQuiet.supports (fun scope => (h.writes scope).captures laws.toVocal) h.eval scope _ _)
  exec := hexec
  nodes scope line nodes := laws.writeNodes (h.writes scope) (h.eval scope) line
    fun node _ line body => laws.of (h.nodes scope line body) And.left
  value scope options value := by
    refine laws.writeValue (fun hinside => hinside)
      (fun id heq => heq ▸ h.exec scope.frames id) (fun item _ => h.value scope options item)
      fun cursor heq => heq ▸ ?_
    apply laws.bind (laws.of (laws.drain cursor) And.right)
    intro items
    exact laws.of (laws.writeElements fun item _ => h.value scope options item) fun hpre =>
      ⟨hpre.1.1, hpre.2⟩

variable {L} in
/-- The nodes of an instance can be written and counted where nodes can be written. -/
theorem Lawful.countNodes (laws : L.Lawful) {below : ι → Evaluator} (h : L.Sound below)
    (outer : List InstanceId) (id : InstanceId) (nodes : List Node) :
    L.Holds ((∀ other ∈ outer, L.Frame other) ∧ L.Frame id)
      (fun i => (below i).nodes ⟨id, outer⟩ {} nodes >>= fun written => Pure.pure written.1)
      fun _ => True :=
  laws.map (laws.of (h.nodes ⟨id, outer⟩ {} nodes) fun hpre =>
    List.forall_mem_cons.mpr ⟨hpre.2, hpre.1⟩) fun _ _ _ => trivial

variable {L} in
/-- What can be said where no levels are left. -/
theorem Compositional.sound_exhausted (laws : L.Compositional)
    (hfuel : ∀ {α : Type} {post : α → Prop}, L.Holds True (fun _ => throw .outOfFuel) post) :
    L.Sound fun _ => Evaluator.exhausted :=
  ⟨fun _ _ => laws.given hfuel, fun _ _ => laws.given hfuel, fun _ _ _ => laws.given hfuel,
    fun _ _ _ => laws.given hfuel⟩

variable {L} in
/-- What holds where no levels are left, and passes from each level to the next, holds at every
number of levels. -/
theorem sound_upTo (hexhausted : L.Sound fun _ => Evaluator.exhausted)
    (hnext : ∀ {below : ι → Evaluator}, L.Sound below → L.Sound fun i => (below i).next)
    (fuel : Nat) : L.Sound fun _ => Evaluator.upTo fuel := by
  induction fuel with
  | zero => exact hexhausted
  | succ fuel ih => exact ⟨(hnext ih).eval, (hnext ih).exec, (hnext ih).nodes, (hnext ih).value⟩

namespace Ordinary

variable {L} (laws : L.Ordinary)
include laws

/-- Of sound evaluators it holds of whatever an expression needs. -/
theorem supports {below : ι → Evaluator} (h : L.Sound below) (scope : Scope)
    (parts : List Expr) (reads : String → Prop) :
    L.Supports below (L.Inside scope) scope parts reads :=
  laws.toQuiet.supports (fun scope => (h.writes scope).captures laws.toVocal) h.eval scope parts
    reads

/-- What holds of one level of each member holds of the ones above. -/
theorem sound_next {below : ι → Evaluator} (h : L.Sound below) :
    L.Sound fun i => (below i).next := by
  refine laws.toLawful.sound_next h fun outer id => ?_
  apply laws.getInstance id
  intro data
  simp only [L.seen_definition]
  exact laws.of (laws.enter id _ (laws.countNodes h outer id data.definition.nodes)) And.left

/-- Evaluators that have no level left are sound. -/
theorem sound_exhausted : L.Sound fun _ => Evaluator.exhausted :=
  laws.toCompositional.sound_exhausted laws.outOfFuel

/-- A kind of judgement that does not depend on the number of levels holds for every number. -/
theorem sound (fuel : Nat) : L.Sound fun _ => Evaluator.upTo fuel :=
  sound_upTo laws.sound_exhausted laws.sound_next fuel

end Ordinary

end Logic

end Stencil
