import Stencil.Proofs.Render.Indentation
import Stencil.Proofs.Render.Silence
import Stencil.Proofs.Render.Stopping
import Stencil.Proofs.Writer.Pairs

/-!
# Renders in tandem

Two renders that evaluate alike may write to different writers. As evaluation has nothing to do with
the writer, the writers are moved along by the same operations, but for one thing: where a line
ends, the counts decide whether its break is written, and the two writers may have counted
differently. A `Tandem` says how the writers go together and how the counts do. Once the operations
keep it up, it is kept up by everything that is written, as long as the first render is not stopped
by what may stop it.
-/

namespace Stencil

open Render

/-- How the writers of two renders go together. -/
structure Tandem where
  /-- What the renders do not change, and what may stop the first one. -/
  stopping : Stopping
  Paired : Writer → Writer → Prop
  /-- How the numbers of characters that are written to them go together. -/
  Counted : Nat → Nat → Prop
  /-- What the second render captures for an option where the first one captures a text. -/
  rewrite : String → String := id

/-- Options with other texts. -/
def WriteOptions.map (change : String → String) (options : WriteOptions) : WriteOptions where
  separator := options.separator.map change
  wrap := options.wrap.map change
  null := options.null.map change
  format := options.format.map change

/-- What a conditional writes is one of its bodies. -/
theorem Evaluator.mem_of_choose {below : Evaluator} {scope : Scope} {setting : Setting} {run : Run}
    {otherwise body : List Node} {branches : List (Branch Expr Node)}
    (h : (below.choose scope otherwise branches setting run).1 = .ok body) :
    body ∈ otherwise :: branches.map Branch.body := by
  induction branches generalizing run with
  | nil =>
    cases h
    exact List.mem_cons_self
  | cons branch rest ih =>
    rw [choose, bind_apply] at h
    rcases heq : below.holds scope branch.test setting run with ⟨_ | truth, after⟩ <;> rw [heq] at h
    · cases h
    · cases truth with
      | true =>
        cases h
        simp
      | false =>
        rcases List.mem_cons.mp (ih h) with rfl | hbody
        · exact List.mem_cons_self
        · exact List.mem_cons_of_mem _ (List.mem_cons_of_mem _ hbody)

namespace Tandem

variable (T : Tandem) {α β γ δ : Type}

/-- What is known of one line while it is written to either writer. -/
structure Lines (left right : Line) : Prop where
  written : T.Counted left.written right.written
  fresh : left.fresh = right.fresh

/-- What the writing of nodes answers. -/
structure Ends (left right : Nat × Line) : Prop where
  count : T.Counted left.1 right.1
  line : T.Lines left.2 right.2

/-- Two outcomes that differ in the answer and the writer at most, as the writers may differ. -/
inductive Parallel (post : α → β → Prop) : Except Halt α × Run → Except Halt β × Run → Prop
  | intro (run : Run) {left right : Writer} {result : Except Halt α} {other : Except Halt β}
    (hresult : Answers post result other) (hpaired : T.Paired left right) :
    Parallel post (result, { run with out := left }) (other, { run with out := right })

/-- Two renders, one into each of the writers, have parallel outcomes if the first one is not
stopped. -/
def Holds (post : α → β → Prop) (first : Render α) (second : Render β) : Prop :=
  ∀ (run : Run) (left right : Writer), T.Paired left right →
    T.stopping.Stopped (first T.stopping.setting { run with out := left }).1 ∨
      T.Parallel post (first T.stopping.setting { run with out := left })
        (second T.stopping.other { run with out := right })

/-- Two renders that have nothing to do with the writer agree if the first one is not stopped. -/
structure Evaluates (post : α → β → Prop) (first : Render α) (second : Render β) : Prop where
  left : Silent first
  right : Silent second
  agree : T.stopping.Agrees post first second

/-- Options that may be used for a pair of writers. -/
structure Suits (options : WriteOptions) : Prop where
  separator : ∀ text, options.separator = some text →
    Writer.Keeps T.Paired T.Counted (Writer.write text) (Writer.write (T.rewrite text))
  wrap : ∀ text, options.wrap = some text → ∀ width,
    Writer.Keeps T.Paired T.Counted (Writer.wrap text width) (Writer.wrap (T.rewrite text) width)
  null : options.null.map T.rewrite = options.null
  format : options.format.map T.rewrite = options.format

/-- What has to be shown for a pair of writers. -/
structure Lawful : Prop where
  zero : T.Counted 0 0
  add : ∀ {count other more further}, T.Counted count other → T.Counted more further →
    T.Counted (count + more) (other + further)
  empty : T.rewrite "" = ""
  write : ∀ text, Writer.Keeps T.Paired T.Counted (Writer.write text) (Writer.write text)
  /-- A line may vanish from one text and be kept in the other one. -/
  writeBreak : ∀ {left right}, T.Lines left right →
    T.Holds T.Counted (Evaluator.writeBreak left) (Evaluator.writeBreak right)
  pushIndent : ∀ {left right} indent, Node.isIndent indent.toList → T.Paired left right →
    T.Paired (left.pushIndent indent) (right.pushIndent indent)
  popIndent : ∀ {left right}, T.Paired left right → T.Paired left.popIndent.2 right.popIndent.2
  pushAnchor : ∀ {left right}, T.Paired left right → T.Paired left.pushAnchor right.pushAnchor
  popAnchor : ∀ {left right}, T.Paired left right → T.Paired left.popAnchor right.popAnchor

variable {T}

/-! ### Actions -/

/-- Answers that go together are given by renders that do. -/
theorem holds_pure {post : α → β → Prop} {value : α} {other : β} (h : post value other) :
    T.Holds post (pure value) (pure other) :=
  fun run _ _ hpaired => Or.inr (.intro run (.ok h) hpaired)

/-- A halt of both renders is a parallel outcome. -/
theorem holds_throw (post : α → β → Prop) (halt : Halt) :
    T.Holds post (throw halt) (throw halt) :=
  fun run _ _ hpaired => Or.inr (.intro run (.error halt) hpaired)

/-- Renders that go together may follow each other. -/
theorem Holds.bind {mid : α → β → Prop} {post : γ → δ → Prop} {first : Render α}
    {second : Render β} {next : α → Render γ} {further : β → Render δ}
    (h : T.Holds mid first second)
    (hnext : ∀ value other, mid value other → T.Holds post (next value) (further other)) :
    T.Holds post (first >>= next) (second >>= further) := by
  intro run left right hpaired
  have hfirst := h run left right hpaired
  rw [bind_apply, bind_apply]
  generalize first T.stopping.setting { run with out := left } = here at hfirst ⊢
  generalize second T.stopping.other { run with out := right } = there at hfirst ⊢
  rcases hfirst with ⟨halt, hstops, hhalt⟩ | ⟨after, hresult, hafter⟩
  · obtain ⟨result, after⟩ := here
    obtain rfl : result = .error halt := hhalt
    exact Or.inl ⟨halt, hstops, rfl⟩
  · cases hresult with
    | ok hmid => exact hnext _ _ hmid after _ _ hafter
    | error halt => exact Or.inr (.intro after (.error halt) hafter)

/-- Operations that keep two writers paired do so as renders. -/
theorem holds_writing {first second : Writer.Writing Nat}
    (h : Writer.Keeps T.Paired T.Counted first second) :
    T.Holds T.Counted (writing first) (writing second) := by
  intro run left right hpaired
  obtain ⟨count, other, hcounted, hfirst, hsecond, hout⟩ := h left right hpaired
  rw [writing_apply, writing_apply]
  simp only [hfirst, hsecond]
  exact Or.inr (.intro run (.ok hcounted) hout)

/-- What is evaluated leaves the writers as they are. -/
theorem Evaluates.holds {post : α → β → Prop} {first : Render α} {second : Render β}
    (h : T.Evaluates post first second) : T.Holds post first second := by
  intro run left right hpaired
  rw [h.left T.stopping.setting run left, h.right T.stopping.other run right]
  refine (h.agree run).imp_right fun ⟨hresult, hstate⟩ => ?_
  rw [hstate]
  exact .intro _ hresult hpaired

/-- The two go on alike after what they evaluate alike. -/
theorem Holds.after {first second : Render α} (h : T.Evaluates Eq first second)
    {post : γ → δ → Prop} {next : α → Render γ} {further : α → Render δ}
    (hnext : ∀ value, T.Holds post (next value) (further value)) :
    T.Holds post (first >>= next) (second >>= further) :=
  h.holds.bind fun value _ heq => heq ▸ hnext value

/-- The writers may be changed before an action begins, and again in the end. -/
theorem Holds.around {post : α → β → Prop} {first outer : Render α} {second further : Render β}
    (h : T.Holds post first second) (enter leave : Writer → Writer)
    (henter : ∀ {left right}, T.Paired left right → T.Paired (enter left) (enter right))
    (hleave : ∀ {left right}, T.Paired left right → T.Paired (leave left) (leave right))
    (hfirst : ∀ setting run, outer setting run =
      cleaned (fun after => { after with out := leave after.out })
        (first setting { run with out := enter run.out }))
    (hsecond : ∀ setting run, further setting run =
      cleaned (fun after => { after with out := leave after.out })
        (second setting { run with out := enter run.out })) : T.Holds post outer further := by
  intro run left right hpaired
  have hinner := h run _ _ (henter hpaired)
  rw [hfirst, hsecond]
  generalize first T.stopping.setting { run with out := enter left } = here at hinner ⊢
  generalize second T.stopping.other { run with out := enter right } = there at hinner ⊢
  refine hinner.imp_right fun hparallel => ?_
  obtain ⟨after, hresult, hafter⟩ := hparallel
  exact .intro after hresult (hleave hafter)

/-- An instance that is put on the stack of the one render is put on that of the other one, unless
this is what stops the first one. -/
theorem Holds.guarded {post : α → β → Prop} {first : Render α} {second : Render β}
    (h : T.Holds post first second) (id : InstanceId) (name : String) :
    T.Holds post (guarded id name first) (guarded id name second) := by
  intro run left right hpaired
  have hactive (out : Writer) (maxDepth : Nat) :
      Run.refuses { run with out } maxDepth id = Run.refuses run maxDepth id := rfl
  rw [guarded_apply, guarded_apply, hactive left, hactive right]
  rcases T.stopping.refuses_cases run id with
    ⟨hfirst, hsecond⟩ | ⟨hfirst, hstops⟩ | ⟨hfirst, hsecond⟩
  · rw [if_pos hfirst, if_pos hsecond]
    exact Or.inr (.intro run (.error _) hpaired)
  · rw [if_pos hfirst]
    exact Or.inl ⟨_, hstops _, rfl⟩
  · rw [if_neg hfirst, if_neg hsecond]
    have hinner := h { run with active := id :: run.active } left right hpaired
    generalize first T.stopping.setting { run with out := left, active := id :: run.active } = here
      at hinner ⊢
    generalize second T.stopping.other { run with out := right, active := id :: run.active } =
      there at hinner ⊢
    refine hinner.imp_right fun hparallel => ?_
    obtain ⟨after, hresult, hafter⟩ := hparallel
    exact .intro { after with active := after.active.tail } hresult hafter

variable (laws : T.Lawful)
include laws

/-- Renders go together within an indentation of spaces and tabs. -/
theorem Holds.indented {post : α → β → Prop} {first : Render α} {second : Render β}
    (h : T.Holds post first second) {indent : Option String}
    (hindent : ∀ text, indent = some text → Node.isIndent text.toList) :
    T.Holds post (indented indent first) (indented indent second) := by
  cases indent with
  | none => exact h
  | some indent =>
    exact h.around (fun out => out.pushIndent indent) (fun out => out.popIndent.2)
      (laws.pushIndent indent (hindent indent rfl)) laws.popIndent
      (fun setting run => indented_apply setting run indent first)
      fun setting run => indented_apply setting run indent second

/-- Renders go together within an anchor. -/
theorem Holds.anchored {post : α → β → Prop} {first : Render α} {second : Render β}
    (h : T.Holds post first second) (anchor : Bool) :
    T.Holds post (anchored anchor first) (anchored anchor second) := by
  cases anchor with
  | false => exact h
  | true =>
    exact h.around Writer.pushAnchor Writer.popAnchor laws.pushAnchor laws.popAnchor
      (fun setting run => anchored_apply setting run first)
      fun setting run => anchored_apply setting run second

/-- The sum of what was counted before and what a further action counts. -/
theorem Holds.sum {first second : Render Nat} (h : T.Holds T.Counted first second)
    {count other : Nat} (hcounted : T.Counted count other) :
    T.Holds T.Counted (do return count + (← first)) (do return other + (← second)) :=
  h.bind fun _ _ hmore => holds_pure (laws.add hcounted hmore)

/-- What is written to a line is added up on both sides. -/
theorem Lines.add {left right : Line} (h : T.Lines left right) {count other : Nat}
    (hcounted : T.Counted count other) : T.Lines (left.add count) (right.add other) :=
  ⟨laws.add h.written hcounted, rfl⟩

/-- Lines on which nothing was written yet. -/
theorem Lines.begun (fresh : Bool) : T.Lines { fresh } { fresh } := ⟨laws.zero, rfl⟩

/-! ### What renders write -/

section

variable {options : WriteOptions} (hsuits : T.Suits options)
include hsuits

/-- Separators are written in step. -/
theorem holds_writeSeparator : T.Holds T.Counted (writeSeparator options)
    (writeSeparator (options.map T.rewrite)) := by
  simp only [writeSeparator, WriteOptions.map]
  cases hseparator : options.separator with
  | some text => exact holds_writing (hsuits.separator text hseparator)
  | none => exact holds_pure laws.zero

/-- So are the texts of wraps. -/
theorem holds_writeWrap :
    T.Holds T.Counted (writeWrap options) (writeWrap (options.map T.rewrite)) := by
  simp only [writeWrap, WriteOptions.map]
  cases hwrap : options.wrap with
  | some text => exact holds_writing (hsuits.wrap text hwrap 1)
  | none => exact holds_pure laws.zero

/-- So are tokens, each in front of its own wrap. -/
theorem holds_writeToken (text : String) :
    T.Holds T.Counted (writing (Writer.writeToken text options.wrap))
      (writing (Writer.writeToken text (options.map T.rewrite).wrap)) := by
  have hrest (lead other : Nat) (hlead : T.Counted lead other) :
      Writer.Keeps T.Paired T.Counted (do return lead + (← Writer.write text))
        (do return other + (← Writer.write text)) :=
    (laws.write text).bind fun _ _ hcount => Writer.keeps_pure (laws.add hlead hcount)
  refine holds_writing ?_
  simp only [Writer.writeToken, WriteOptions.map]
  cases hwrap : options.wrap with
  | some wrapText => exact (hsuits.wrap wrapText hwrap _).bind hrest
  | none => exact hrest 0 0 laws.zero

end

/-! ### What is evaluated -/

section

omit laws

variable {first second : Evaluator}

/-- An action of both renders that is the same in both. -/
theorem evaluates_of_silent {action : Render α} (h : Silent action)
    (hagree : ∀ run, action T.stopping.other run = action T.stopping.setting run) :
    T.Evaluates Eq action action := ⟨h, h, (Stopping.holds_of_eq hagree).agrees⟩

/-- What evaluates alike does so under a permission of its own. -/
theorem Evaluates.leniently {first second : Render α} (h : T.Evaluates Eq first second)
    (lenient : Bool) : T.Evaluates Eq (leniently lenient first) (leniently lenient second) :=
  ⟨h.left.leniently lenient, h.right.leniently lenient, (h.agree.holds.leniently lenient).agrees⟩

/-- The search for a region starts in the same group. -/
theorem evaluates_regionStart (scope : Scope) (data : Instance) (name : String)
    (ascending : Bool) : T.Evaluates Eq (Evaluator.regionStart scope data name ascending)
      (Evaluator.regionStart scope data name ascending) := by
  have hstart : T.stopping.logic.Holds (True ∧ T.stopping.logic.Fits scope.innermost data) _ _ :=
    T.stopping.quiet.regionStart (fun _ _ _ => trivial) data name ascending
  exact ⟨silent_regionStart scope data name ascending,
    silent_regionStart scope data name ascending, Stopping.Holds.agrees hstart⟩

variable (heval : ∀ scope expr, T.Evaluates Eq (first.eval scope expr) (second.eval scope expr))
include heval

/-- What the two evaluate alike below, and capture alike, they evaluate alike one level higher. -/
theorem evaluates_evalExpr
    (hvalue : ∀ scope value, T.stopping.Holds (capture (first.value scope {} value))
      (capture (second.value scope {} value)))
    (hexec : ∀ outer id,
      T.stopping.Holds (capture (first.exec outer id)) (capture (second.exec outer id)))
    (scope : Scope) (expr : Expr) :
    T.Evaluates Eq (first.evalExpr scope expr) (second.evalExpr scope expr) := by
  have hagree (scope : Scope) (expr : Expr) : T.stopping.logic.Holds (T.stopping.logic.Inside scope)
      (fun i => (cond i second first).eval scope expr) T.stopping.logic.Proper :=
    (heval scope expr).agree.holds
  have hcaptures (scope : Scope) : T.stopping.logic.Captures (fun i => cond i second first)
      (T.stopping.logic.Inside scope) scope := ⟨fun _ _ _ => trivial, hvalue scope, hexec _⟩
  have hexpr : T.stopping.logic.Holds (T.stopping.logic.Inside scope)
      (fun i => (cond i second first).evalExpr scope expr) T.stopping.logic.Proper :=
    T.stopping.quiet.evalExpr (T.stopping.quiet.supports hcaptures hagree scope _ _)
  exact ⟨silent_evalExpr (fun scope expr => (heval scope expr).left) scope expr,
    silent_evalExpr (fun scope expr => (heval scope expr).right) scope expr,
    Stopping.Holds.agrees hexpr⟩

/-- The two choose the same body. -/
theorem evaluates_choose (scope : Scope) (otherwise : List Node)
    (branches : List (Branch Expr Node)) :
    T.Evaluates (fun body other => body = other ∧ body ∈ otherwise :: branches.map Branch.body)
      (first.choose scope otherwise branches) (second.choose scope otherwise branches) where
  left := silent_choose (fun expr => (heval scope expr).left) otherwise branches
  right := silent_choose (fun expr => (heval scope expr).right) otherwise branches
  agree := by
    have hagree (expr : Expr) : T.stopping.logic.Holds True
        (fun i => (cond i second first).eval scope expr) T.stopping.logic.Proper :=
      (heval scope expr).agree.holds
    have hchoose : T.stopping.logic.Holds True
        (fun i => (cond i second first).choose scope otherwise branches) _ :=
      T.stopping.quiet.choose otherwise fun branch _ => hagree branch.test
    intro run
    refine (hchoose run).imp_right fun hsame => ?_
    change second.choose scope otherwise branches _ run =
      first.choose scope otherwise branches _ run at hsame
    rw [hsame]
    refine ⟨?_, rfl⟩
    cases heq : (first.choose scope otherwise branches T.stopping.setting run).1 with
    | ok body => exact .ok ⟨rfl, Evaluator.mem_of_choose heq⟩
    | error halt => exact .error halt

/-- Where texts are captured as other ones, so are those of options. -/
theorem evaluates_evalOptions (hempty : T.rewrite "" = "") (scope : Scope)
    (hcaptures : ∀ value, T.stopping.Agrees (fun text other => T.rewrite text = other)
      (capture (first.value scope {} value)) (capture (second.value scope {} value)))
    (options : Options Expr) :
    T.Evaluates (fun evaluated other => evaluated.map T.rewrite = other)
      (first.evalOptions scope options) (second.evalOptions scope options) where
  left := silent_evalOptions (fun expr => (heval scope expr).left) options
  right := silent_evalOptions (fun expr => (heval scope expr).right) options
  agree := by
    have htext (value : Value) : T.stopping.Agrees (fun text other => T.rewrite text = other)
        (first.textOf scope value) (second.textOf scope value) := by
      unfold Evaluator.textOf
      split
      · exact Stopping.agrees_pure hempty
      · exact hcaptures value
    have hoption (option : Option Expr) :
        T.stopping.Agrees (fun text other => Option.map T.rewrite text = other)
          (first.optionText scope option) (second.optionText scope option) := by
      cases option with
      | none => exact Stopping.agrees_pure rfl
      | some expr =>
        refine (heval scope expr).agree.bind fun value _ heq => ?_
        subst heq
        exact (htext value).bind fun _ _ heq => Stopping.agrees_pure (congrArg some heq)
    refine (hoption options.separator).bind fun _ _ hseparator => ?_
    refine (hoption options.wrap).bind fun _ _ hwrap => ?_
    refine (hoption options.null).bind fun _ _ hnull => ?_
    refine (hoption options.format).bind fun _ _ hformat => Stopping.agrees_pure ?_
    rw [← hseparator, ← hwrap, ← hnull, ← hformat]
    rfl

end

/-! ### What is written -/

variable (T) in
/-- What is said of one level of each of two evaluators: expressions are evaluated alike, texts of
options are captured alike, and writing keeps the writers paired. -/
structure Level (first second : Evaluator) : Prop where
  eval : ∀ scope expr, T.Evaluates Eq (first.eval scope expr) (second.eval scope expr)
  captures : ∀ scope value, T.stopping.Agrees (fun text other => T.rewrite text = other)
    (capture (first.value scope {} value)) (capture (second.value scope {} value))
  exec : ∀ outer id, T.Holds T.Counted (first.exec outer id) (second.exec outer id)
  nodes : ∀ scope {left right} nodes, (∀ node ∈ nodes, node.Spaced) → T.Lines left right →
    T.Holds T.Ends (first.nodes scope left nodes) (second.nodes scope right nodes)
  value : ∀ scope options value, T.Holds T.Counted (first.value scope options value)
    (second.value scope (options.map T.rewrite) value)

omit laws in
/-- Without a level both renders stop. -/
theorem level_exhausted : T.Level Evaluator.exhausted Evaluator.exhausted where
  eval _ _ := ⟨fun _ _ _ => rfl, fun _ _ _ => rfl, fun _ => Or.inr ⟨.error _, rfl⟩⟩
  captures _ _ _ := Or.inr ⟨.error _, rfl⟩
  exec _ _ := holds_throw _ _
  nodes _ _ _ _ _ _ := holds_throw _ _
  value _ _ _ := holds_throw _ _

variable {first second : Evaluator} (h : T.Level first second) (scope : Scope)
include h

section

variable {options : WriteOptions} (hsuits : T.Suits options)
include hsuits

/-- The elements behind the first one are written in step. -/
theorem holds_writeFurther (items : List Value) :
    T.Holds T.Counted (first.writeFurther scope options items)
      (second.writeFurther scope (options.map T.rewrite) items) := by
  induction items with
  | nil => exact holds_pure laws.zero
  | cons item rest ih =>
    refine (holds_writeSeparator laws hsuits).bind fun _ _ hseparator => ?_
    refine (h.value scope options item).bind fun _ _ hcount => ?_
    exact ih.sum laws (laws.add hseparator hcount)

/-- So are the elements of a list. -/
theorem holds_writeElements (items : List Value) :
    T.Holds T.Counted (first.writeElements scope options items)
      (second.writeElements scope (options.map T.rewrite) items) := by
  have hnull : (options.map T.rewrite).null = options.null := hsuits.null
  unfold Evaluator.writeElements
  rw [hnull]
  split
  · exact holds_pure laws.zero
  · next item rest _ =>
    refine (h.value scope options item).bind fun _ _ hcount => ?_
    exact (holds_writeFurther laws h scope hsuits rest).sum laws hcount

/-- So is a value. -/
theorem holds_writeValue (value : Value) :
    T.Holds T.Counted (first.writeValue scope options value)
      (second.writeValue scope (options.map T.rewrite) value) := by
  have hnull : (options.map T.rewrite).null = options.null := hsuits.null
  have hformat : (options.map T.rewrite).format = options.format := hsuits.format
  cases value with
  | absent =>
    simp only [Evaluator.writeValue, hnull]
    split
    · exact holds_writeToken laws hsuits _
    · exact holds_pure laws.zero
  | scalar scalar =>
    have htext : T.Evaluates Eq (scalarText scope scalar options.format)
        (scalarText scope scalar options.format) :=
      ⟨silent_scalarText scope scalar _, silent_scalarText scope scalar _,
        Stopping.Holds.agrees (T.stopping.quiet.scalarText scope scalar _)⟩
    simp only [Evaluator.writeValue, hformat]
    exact .after htext fun text => holds_writeToken laws hsuits text
  | template id =>
    exact (holds_writeWrap laws hsuits).bind fun _ _ hlead =>
      (h.exec scope.frames id).sum laws hlead
  | list items => exact holds_writeElements laws h scope hsuits items
  | iterator cursor =>
    have hdrain : T.Evaluates Eq (onStore (Store.drain cursor)) (onStore (Store.drain cursor)) :=
      evaluates_of_silent (quiet_silence.drain cursor) fun _ => rfl
    exact .after hdrain fun items => holds_writeElements laws h scope hsuits items
  | mapping entries => exact holds_writeElements laws h scope hsuits entries.keyValues

end

/-- So is an expression with its options. -/
theorem holds_writeExpression (expr : Expr) (options : Options Expr) :
    T.Holds T.Counted (first.writeExpression scope expr options)
      (second.writeExpression scope expr options) := by
  refine .after ((h.eval scope expr).leniently options.null.isSome) fun value => ?_
  have hoptions := evaluates_evalOptions h.eval laws.empty scope (h.captures scope) options
  refine hoptions.holds.bind fun evaluated _ heq => ?_
  rw [← heq]
  exact (h.value scope evaluated value).anchored laws options.anchor

/-- So is a region. -/
theorem holds_writeRegion (region : String) (ascending : Bool) :
    T.Holds T.Counted (first.writeRegion scope region ascending)
      (second.writeRegion scope region ascending) := by
  have hdata : T.Evaluates Eq (getInstance scope.innermost) (getInstance scope.innermost) :=
    evaluates_of_silent (silent_getInstance scope.innermost) fun _ => by
      rw [getInstance_apply, getInstance_apply]
  refine .after hdata fun data => ?_
  refine .after (evaluates_regionStart scope data _ ascending) fun start => ?_
  have hlookup (name : String) : T.Evaluates Eq (lookup start name) (lookup start name) :=
    evaluates_of_silent (quiet_silence.lookup start name) fun _ => rfl
  refine .after (hlookup _) fun found => ?_
  cases found with
  | some definition =>
    have hcreate : T.Evaluates Eq (create scope definition) (create scope definition) :=
      evaluates_of_silent (silent_create scope definition) fun _ => by
        rw [create_apply, create_apply]
    exact .after hcreate fun id => h.exec scope.frames id
  | none =>
    cases ascending with
    | true => exact holds_throw _ _
    | false => exact holds_pure laws.zero

/-- So is a node, with the same line breaks. -/
theorem holds_writeNode {left right : Line} (hlines : T.Lines left right) {node : Node}
    (hspaced : node.Spaced) : T.Holds T.Ends (first.writeNode scope left node)
      (second.writeNode scope right node) := by
  cases node with
  | text text =>
    exact (holds_writing (laws.write text)).bind fun _ _ hcount =>
      holds_pure ⟨hcount, hlines.add laws hcount⟩
  | newline =>
    exact (laws.writeBreak hlines).bind fun _ _ hcount =>
      holds_pure ⟨hcount, .begun laws true⟩
  | expression expr options indent =>
    have hwritten := (holds_writeExpression laws h scope expr options).indented laws
      fun _ => hspaced.isIndent_of_indent?
    exact hwritten.bind fun _ _ hcount => holds_pure ⟨hcount, hlines.add laws hcount⟩
  | conditional branches otherwise indent =>
    refine (evaluates_choose h.eval scope otherwise branches).holds.bind fun body _ hbody => ?_
    obtain ⟨rfl, hmem⟩ := hbody
    have hlines' : T.Lines { left with fresh := false } { right with fresh := false } :=
      ⟨hlines.written, rfl⟩
    exact (h.nodes scope body (fun _ => hspaced.inner hmem) hlines').indented laws
      fun _ => hspaced.isIndent_of_indent?
  | region name ascending indent =>
    have hwritten := (holds_writeRegion laws h scope name ascending).indented laws
      fun _ => hspaced.isIndent_of_indent?
    exact hwritten.bind fun _ _ hcount => holds_pure ⟨hcount, hlines.add laws hcount⟩

/-- So are nodes one after the other. -/
theorem holds_writeNodes {left right : Line} (hlines : T.Lines left right) {nodes : List Node}
    (hspaced : ∀ node ∈ nodes, node.Spaced) : T.Holds T.Ends (first.writeNodes scope left nodes)
      (second.writeNodes scope right nodes) := by
  induction nodes generalizing left right with
  | nil => exact holds_pure ⟨laws.zero, hlines⟩
  | cons node rest ih =>
    obtain ⟨hnode, hrest⟩ := List.forall_mem_cons.mp hspaced
    refine (holds_writeNode laws h scope hlines hnode).bind fun _ _ hwritten => ?_
    exact (ih hwritten.line hrest).bind fun _ _ hmore =>
      holds_pure ⟨laws.add hwritten.count hmore.count, hmore.line⟩

omit scope in
/-- So is an instance. -/
theorem holds_writeInstance (outer : List InstanceId) (id : InstanceId) :
    T.Holds T.Counted (first.writeInstance outer id) (second.writeInstance outer id) := by
  have hdata : T.Evaluates Eq (getInstance id) (getInstance id) :=
    evaluates_of_silent (silent_getInstance id) fun _ => by
      rw [getInstance_apply, getInstance_apply]
  refine .after hdata fun data => Holds.guarded ?_ id _
  have hnoted : T.Evaluates Eq (Evaluator.noteWritten id) (Evaluator.noteWritten id) :=
    evaluates_of_silent (fun _ _ _ => by rw [noteWritten_apply, noteWritten_apply]) fun _ => by
      rw [noteWritten_apply, noteWritten_apply]
      rfl
  refine .after hnoted fun _ => ?_
  have hnodes := h.nodes ⟨id, outer⟩ data.definition.nodes (Node.spaced_nodes data.definition)
    (.begun laws false)
  exact hnodes.bind fun _ _ hwritten => holds_pure hwritten.count

end Tandem

end Stencil
