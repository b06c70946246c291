import Stencil.Proofs.Body.Sites
import Stencil.Proofs.Render.Breaks
import Stencil.Proofs.Render.Silence
import Stencil.Proofs.Render.Untouched

/-!
# Lines that vanish

A line that holds nothing but one chunk, and that writes nothing and has no side effects when its
turn comes, leaves the state of the line as a break leaves it: its own break is not written, and
what comes after it is written as if the line were not there.
-/

namespace Stencil

open Render

namespace Evaluator

variable (below : Evaluator)

/-- The number of the first test that holds, if one does. -/
def firstHolding (scope : Scope) : List Expr → Render (Option Nat)
  | [] => return none
  | test :: rest => do
    if ← below.holds scope test then return some 0
    else return (← firstHolding scope rest).map (· + 1)

/-- What is written of a conditional. -/
def chosen (otherwise : List Node) (branches : List (Branch Expr Node)) : Option Nat → List Node
  | none => otherwise
  | some index => (branches[index]?.map Branch.body).getD []

/-- The body that is chosen is that of the first test that holds. -/
theorem choose_eq (scope : Scope) (otherwise : List Node) (branches : List (Branch Expr Node)) :
    below.choose scope otherwise branches =
      below.firstHolding scope (branches.map Branch.test) >>= fun index =>
        pure (chosen otherwise branches index) := by
  induction branches with
  | nil => rfl
  | cons branch rest ih =>
    rw [choose, List.map_cons, firstHolding, bind_assoc]
    refine congrArg (below.holds scope branch.test >>= ·) (funext fun truth => ?_)
    cases truth with
    | true => rfl
    | false =>
      simp only [Bool.false_eq_true, if_false, ih, bind_assoc, pure_bind]
      refine congrArg (below.firstHolding scope (rest.map Branch.test) >>= ·)
        (funext fun index => ?_)
      cases index <;> rfl

/-- A chunk that is written in a run writes nothing and has no side effects. A conditional has no
branch that is taken. -/
structure Idles (setting : Setting) (scope : Scope) (node : Node) (run after : Run) : Prop where
  writes : ∃ line, below.writeNode scope { fresh := true } node setting run = (.ok (0, line), after)
  unbranched : ∀ branches otherwise indent, node = .conditional branches otherwise indent →
    otherwise = [] ∧ ∃ mid,
      below.firstHolding scope (branches.map Branch.test) setting run = (.ok none, mid)
  untouched : run.Untouched scope after

end Evaluator

/-- The turn of a place comes: what is in front of it has been written, and the branches that it is
in were taken. `fuel` and `line` are what the nodes are written with from `run` on, `level` is what
is left of the levels of evaluation, and `now` is the run at the place. -/
inductive Spot.Reaches (setting : Setting) (scope : Scope) :
    Spot → (fuel : Nat) → Line → (run : Run) → (level : Nat) → (now : Run) → Prop where
  | here {before after : List Node} {fuel : Nat} {line : Line} {run now : Run}
    {outcome : Nat × Line}
    (hbefore : (Evaluator.upTo fuel).writeNodes scope line before setting run =
      (.ok outcome, now)) :
    Reaches setting scope (.here before after) fuel line run fuel now
  | branch {before after : List Node} {front back : List (Branch Expr Node)} {test : Expr}
    {inner : Spot} {otherwise : List Node} {indent : Option String} {fuel level : Nat} {line : Line}
    {run mid late now : Run} {outcome : Nat × Line}
    (hbefore : (Evaluator.upTo (fuel + 1)).writeNodes scope line before setting run =
      (.ok outcome, mid))
    (htests : (Evaluator.upTo (fuel + 1)).firstHolding scope
      (front.map Branch.test ++ test :: back.map Branch.test) setting mid =
        (.ok (some front.length), late))
    (hinner : Reaches setting scope inner fuel { outcome.2 with fresh := false }
      (late.pushIndent indent) level now) :
    Reaches setting scope (.branch before front test inner back otherwise indent after)
      (fuel + 1) line run level now
  | instead {before after : List Node} {branches : List (Branch Expr Node)} {inner : Spot}
    {indent : Option String} {fuel level : Nat} {line : Line} {run mid late now : Run}
    {outcome : Nat × Line}
    (hbefore : (Evaluator.upTo (fuel + 1)).writeNodes scope line before setting run =
      (.ok outcome, mid))
    (htests : (Evaluator.upTo (fuel + 1)).firstHolding scope (branches.map Branch.test) setting
      mid = (.ok none, late))
    (hinner : Reaches setting scope inner fuel { outcome.2 with fresh := false }
      (late.pushIndent indent) level now) :
    Reaches setting scope (.instead before branches inner indent after) (fuel + 1) line run level
      now

namespace Evaluator

variable {below : Evaluator} {scope : Scope} {setting : Setting}

/-- Nodes are written in two parts on one line. -/
theorem writeNodes_append (line : Line) (nodes more : List Node) :
    below.writeNodes scope line (nodes ++ more) = (do
      let (count, line) ← below.writeNodes scope line nodes
      let (rest, line) ← below.writeNodes scope line more
      return (count + rest, line)) := by
  induction nodes generalizing line with
  | nil => simp [writeNodes]
  | cons node nodes ih =>
    simp only [List.cons_append, writeNodes, ih, bind_assoc, pure_bind, Nat.add_assoc]

/-- After a break a line has no nodes. -/
theorem line_of_newline {line last : Line} {earlier : List Node} {run after : Run} {count : Nat}
    (h : below.writeNodes scope line (earlier ++ [.newline]) setting run =
      (.ok (count, last), after)) : last = { fresh := true } := by
  rw [writeNodes_append] at h
  obtain ⟨outcome, mid, -, h⟩ := (bind_eq_ok _ _).mp h
  obtain ⟨outcome', mid', hlast, h⟩ := (bind_eq_ok _ _).mp h
  obtain ⟨written, mid'', hbreak, hlast⟩ := (bind_eq_ok _ _).mp hlast
  obtain ⟨kept, mid''', -, hbreak⟩ := (bind_eq_ok _ _).mp hbreak
  cases hbreak
  cases hlast
  cases h
  rfl

/-- A line is left with nothing written by a node that idles. -/
theorem Idles.writeNode_eq {level : Nat} {node : Node} {run after : Run}
    (h : (upTo level).Idles setting scope node run after) (hnode : node ≠ .newline) :
    (upTo level).writeNode scope { fresh := true } node setting run = (.ok (0, {}), after) := by
  obtain ⟨⟨line, hwrites⟩, hunbranched, -⟩ := h
  suffices hline : line = {} by rw [hwrites, hline]
  cases node with
  | newline => exact absurd rfl hnode
  | text _ | expression _ _ _ | region _ _ _ =>
    obtain ⟨count, mid, -, hadd⟩ := (bind_eq_ok _ _).mp hwrites
    cases hadd
    rfl
  | conditional branches otherwise indent =>
    obtain ⟨rfl, mid, htests⟩ := hunbranched _ _ _ rfl
    have hchoose : (upTo level).choose scope [] branches setting run = (.ok [], mid) := by
      rw [choose_eq, bind_apply_ok _ _ htests]
      rfl
    rw [writeNode, bind_apply_ok _ _ hchoose, indented_eq] at hwrites
    cases level with
    | zero =>
      have hresult := congrArg Prod.fst hwrites
      cases hresult
    | succ level =>
      cases hwrites
      rfl

/-- An expression without options idles if its value is absent and evaluating it changes nothing. -/
theorem idles_absent {level : Nat} {expr : Expr} {run : Run}
    (heval : (upTo (level + 1)).eval scope expr setting { run with lenient := false } =
      (.ok .absent, { run with lenient := false })) (indent : Option String) :
    (upTo (level + 1)).Idles setting scope (.expression expr {} indent) run run where
  writes := by
    have hsilent := silent_eval (level + 1) scope expr setting { run with lenient := false }
      (run.pushIndent indent).out
    rw [heval] at hsilent
    have hthere : (upTo (level + 1)).eval scope expr setting
        { run.pushIndent indent with lenient := ({} : Options Expr).null.isSome } =
          (.ok .absent, { run.pushIndent indent with lenient := false }) := hsilent
    have hwrite : (upTo (level + 1)).writeExpression scope expr {} setting (run.pushIndent indent) =
        (.ok 0, run.pushIndent indent) := by
      rw [writeExpression_apply, hthere]
      rfl
    rw [writeNode, bind_apply, indented_eq, hwrite]
    refine ⟨_, Prod.ext rfl ?_⟩
    exact run.popIndent_pushIndent indent
  unbranched := nofun
  untouched := .refl scope run

/-- Nothing is added by a count of zero. -/
theorem zero_count (action : Render (Nat × Line)) :
    (action >>= fun outcome => pure (0 + outcome.1, outcome.2)) = action := by
  simp only [Nat.zero_add]
  exact bind_pure action

/-- Its whole line is passed over, and ends where it began. -/
theorem Idles.writeNodes_eq {level : Nat} {node : Node} {run after : Run}
    (h : (upTo level).Idles setting scope node run after) (hnode : node ≠ .newline)
    (rest : List Node) :
    (upTo level).writeNodes scope { fresh := true } ([node, .newline] ++ rest) setting run =
      (upTo level).writeNodes scope { fresh := true } rest setting after := by
  have hbreak : (upTo level).writeNodes scope {} (.newline :: rest) =
      (upTo level).writeNodes scope { fresh := true } rest := zero_count _
  rw [List.cons_append, List.singleton_append, writeNodes,
    bind_apply_ok _ _ (h.writeNode_eq hnode)]
  change ((upTo level).writeNodes scope {} (.newline :: rest) >>= fun outcome =>
    pure (0 + outcome.1, outcome.2)) setting after = _
  rw [zero_count, hbreak]

end Evaluator

namespace Shift

variable {S : Shift} {setting : Setting} {scope : Scope} {α β γ : Type} {answer : α → β}
  {active : List InstanceId}

/-- The outcomes of two renders go together under some numbers for the instances, but not for those
of a scope. -/
def Finds (S : Shift) (scope : Scope) (active : List InstanceId)
    (outcome other : Except Halt α × Run) :
    Prop :=
  ∃ further : Shift, further.bodies = S.bodies ∧ further.scope scope = scope ∧
    further.Meets id active outcome other

/-- A part that finds nothing of the difference may come in front. -/
theorem Finds.bind {a b : Render α} {next : α → Render β} {run other : Run}
    (h : S.Finds scope active (a setting run) (b setting other))
    (hnext : ∀ further : Shift, further.scope scope = scope → ∀ value,
      further.Tracks setting id (next value) (next value)) :
    S.Finds scope active ((a >>= next) setting run) ((b >>= next) setting other) := by
  obtain ⟨further, hbodies, hscope, hmeets⟩ := h
  exact ⟨further, hbodies, hscope, hmeets.bind (hnext further hscope)⟩

/-- What two renders do after outcomes that go together as they are. -/
theorem Meets.finds {a b : Render α} {next later : α → Render β} {run other : Run}
    (h : S.Meets id active (a setting run) (b setting other)) (hscope : S.scope scope = scope)
    (hnext : ∀ value mid mid', a setting run = (.ok value, mid) →
      b setting other = (.ok value, mid') → S.Mirrors mid mid' →
        S.Finds scope mid.active (next value setting mid) (later value setting mid')) :
    S.Finds scope active ((a >>= next) setting run) ((b >>= later) setting other) := by
  obtain ⟨hafter, hresult, hactive⟩ := h
  rw [bind_apply, bind_apply]
  rcases hfirst : a setting run with ⟨result, after⟩
  rcases hsecond : b setting other with ⟨result', after'⟩
  rw [hfirst] at hafter hresult hactive
  rw [hsecond] at hafter hresult
  cases hresult with
  | halt stop => exact ⟨S, rfl, hscope, hafter, .halt stop, hactive⟩
  | invalid id => exact ⟨S, rfl, hscope, hafter, .invalid id, hactive⟩
  | ok value =>
    have hfinds := hnext value after after' hfirst hsecond hafter
    rw [hactive] at hfinds
    exact hfinds

/-- Both runs may be put under a further indentation string. -/
theorem Mirrors.pushIndent {run other : Run} (h : S.Mirrors run other) (indent : Option String) :
    S.Mirrors (run.pushIndent indent) (other.pushIndent indent) := by
  rw [Run.pushIndent, Run.pushIndent, h.out]
  exact h.withOut _

/-- Both may be freed of it again. -/
theorem Finds.popIndent {outcome other : Except Halt α × Run}
    (h : S.Finds scope active outcome other)
    (indent : Option String) : S.Finds scope active (cleaned (·.popIndent indent) outcome)
      (cleaned (·.popIndent indent) other) := by
  obtain ⟨further, hbodies, hscope, hafter, hresult, hactive⟩ := h
  refine ⟨further, hbodies, hscope, ?_, hresult, hactive⟩
  rw [cleaned, cleaned, Run.popIndent, Run.popIndent, hafter.out]
  exact hafter.withOut _

/-- Nodes of another instance are written alike. -/
theorem tracks_writeNodes (hscope : S.scope scope = scope) (fuel : Nat) (line : Line)
    (nodes : List Node) :
    S.Tracks setting id ((Evaluator.upTo fuel).writeNodes scope line nodes)
      ((Evaluator.upTo fuel).writeNodes scope line nodes) := by
  have htracks := (level_upTo S setting fuel).writeNodes scope line nodes
  rwa [hscope] at htracks

/-- The tests of another instance come out alike. -/
theorem tracks_firstHolding (hscope : S.scope scope = scope) (fuel : Nat) (tests : List Expr) :
    S.Tracks setting id ((Evaluator.upTo fuel).firstHolding scope tests)
      ((Evaluator.upTo fuel).firstHolding scope tests) := by
  induction tests with
  | nil => exact tracks_pure rfl
  | cons test rest ih =>
    have hholds := (level_upTo S setting fuel).holds scope test
    rw [hscope] at hholds
    refine hholds.then fun truth => ?_
    cases truth with
    | true => exact tracks_pure rfl
    | false => exact ih.then fun _ => tracks_pure rfl

end Shift

open Shift Evaluator

variable {S : Shift} {setting : Setting} {scope : Scope} {node : Node}

/-- The turn of a place comes only where the node idles. -/
def Spot.Vanishes (spot : Spot) (setting : Setting) (scope : Scope) (node : Node) (fuel : Nat)
    (line : Line) (run : Run) : Prop :=
  ∀ level now, spot.Reaches setting scope fuel line run level now →
    ∃ after, (upTo level).Idles setting scope node now after

/-- What is written of a conditional at another number than that of a branch does not depend on the
body of the branch. -/
theorem Evaluator.chosen_of_ne {otherwise : List Node} {front back : List (Branch Expr Node)}
    {test : Expr} {index : Option Nat} (h : index ≠ some front.length) (body body' : List Node) :
    chosen otherwise (front ++ ⟨test, body⟩ :: back) index =
      chosen otherwise (front ++ ⟨test, body'⟩ :: back) index := by
  cases index with
  | none => rfl
  | some index =>
    have hne : index ≠ front.length := fun heq => h (congrArg some heq)
    rw [chosen, chosen]
    obtain hlt | hge := Nat.lt_or_ge index front.length
    · rw [List.getElem?_append_left hlt, List.getElem?_append_left hlt]
    · rw [List.getElem?_append_right hge, List.getElem?_append_right hge,
        List.getElem?_cons, List.getElem?_cons, if_neg (by omega), if_neg (by omega)]

/-- The index of a branch chooses its body. -/
theorem Evaluator.chosen_self (otherwise : List Node) (front back : List (Branch Expr Node))
    (test : Expr) (body : List Node) :
    chosen otherwise (front ++ ⟨test, body⟩ :: back) (some front.length) = body := by
  simp [chosen]

/-- A conditional inside a body, where the bodies may differ that are written if a certain test is
the first to hold. -/
theorem Shift.Mirrors.conditional {run other : Run} (h : S.Mirrors run other)
    (hscope : S.scope scope = scope) {fuel : Nat} {line : Line} {before after : List Node}
    {branches branches' : List (Branch Expr Node)} {otherwise otherwise' : List Node}
    {indent : Option String} (htests : branches'.map Branch.test = branches.map Branch.test)
    (hbody : ∀ (outcome : Nat × Line) (late mid' late' : Run) (index : Option Nat),
      (upTo fuel).writeNodes scope line before setting other = (.ok outcome, mid') →
      (upTo fuel).firstHolding scope (branches.map Branch.test) setting mid' = (.ok index, late') →
      S.Mirrors late late' →
      S.Finds scope late.active
        ((upTo fuel).nodes scope { outcome.2 with fresh := false } (chosen otherwise branches index)
          setting (late.pushIndent indent))
        ((upTo fuel).nodes scope { outcome.2 with fresh := false }
          (chosen otherwise' branches' index) setting (late'.pushIndent indent))) :
    S.Finds scope run.active
      ((upTo fuel).writeNodes scope line
        (before ++ .conditional branches otherwise indent :: after) setting run)
      ((upTo fuel).writeNodes scope line
        (before ++ .conditional branches' otherwise' indent :: after) setting other) := by
  have hnode (line : Line) (branches : List (Branch Expr Node)) (otherwise : List Node) :
      (upTo fuel).writeNode scope line (.conditional branches otherwise indent) = (do
        let index ← (upTo fuel).firstHolding scope (branches.map Branch.test)
        indented indent ((upTo fuel).nodes scope { line with fresh := false }
          (chosen otherwise branches index))) := by
    rw [writeNode, choose_eq, bind_assoc]
    rfl
  rw [writeNodes_append, writeNodes_append]
  refine (tracks_writeNodes hscope fuel line before run other h).finds hscope
    fun outcome mid mid' _ hbefore hmid => Finds.bind ?_ fun _ _ _ => tracks_pure rfl
  rw [writeNodes, writeNodes]
  refine Finds.bind ?_ fun further hfurther outcome =>
    (tracks_writeNodes hfurther fuel outcome.2 after).then fun _ => tracks_pure rfl
  rw [hnode, hnode, htests]
  refine (tracks_firstHolding hscope fuel _ mid mid' hmid).finds hscope
    fun index late late' _ hindex hlate => ?_
  rw [indented_eq, indented_eq]
  exact (hbody outcome late mid' late' index hbefore hindex hlate).popIndent indent

/-- A line after a break, which idles when the nodes in front of it have been written. -/
theorem Shift.Mirrors.afterBreak {run other : Run} (h : S.Mirrors run other) (hgap : S.gap = 0)
    (hnode : node ≠ .newline) {fuel : Nat} {line : Line} {earlier after : List Node}
    (hidles : ∀ outcome now,
      (upTo fuel).writeNodes scope line (earlier ++ [.newline]) setting other = (.ok outcome, now) →
        ∃ passed, (upTo fuel).Idles setting scope node now passed) :
    S.Finds scope run.active
      ((upTo fuel).writeNodes scope line (earlier ++ [.newline] ++ after) setting run)
      ((upTo fuel).writeNodes scope line (earlier ++ [.newline] ++ ([node, .newline] ++ after))
        setting other) := by
  have hscope : S.scope scope = scope := scope_of_move fun id _ => move_of_gap hgap id
  rw [writeNodes_append, writeNodes_append line (earlier ++ [Node.newline])]
  refine (tracks_writeNodes hscope fuel line _ run other h).finds hscope
    fun outcome mid mid' _ hbefore hmid => Finds.bind ?_ fun _ _ _ => tracks_pure rfl
  obtain ⟨count, last⟩ := outcome
  obtain rfl := line_of_newline hbefore
  obtain ⟨passed, hidle⟩ := hidles _ _ hbefore
  obtain ⟨further, hbodies, hfurther, hmirrors⟩ := hmid.untouched hgap hidle.untouched
  rw [hidle.writeNodes_eq hnode]
  exact ⟨further, hbodies, hfurther,
    tracks_writeNodes hfurther fuel { fresh := true } after mid passed hmirrors⟩

/-- A line that idles where its turn comes leaves no trace in what is written. -/
theorem Spot.elided {run other : Run} (spot : Spot) (h : S.Mirrors run other) (hgap : S.gap = 0)
    (hfollows : spot.FollowsBreak) (hnode : node ≠ .newline) (fuel : Nat) (line : Line)
    (hvanishes : spot.Vanishes setting scope node fuel line other) :
    S.Finds scope run.active
      ((upTo fuel).writeNodes scope line (spot.fill []) setting run)
      ((upTo fuel).writeNodes scope line (spot.fill [node, .newline]) setting other) := by
  have hscope : S.scope scope = scope := scope_of_move fun id _ => move_of_gap hgap id
  induction spot generalizing fuel line run other with
  | here before after =>
    obtain ⟨earlier, rfl⟩ := hfollows
    rw [Spot.fill, Spot.fill, List.append_nil, List.append_assoc _ [node, .newline]]
    exact h.afterBreak hgap hnode fun _ now hbefore => hvanishes fuel now (.here hbefore)
  | branch before front test inner back otherwise indent after ih =>
    have htests (added : List Node) :
        (front ++ ⟨test, inner.fill added⟩ :: back).map Branch.test =
          front.map Branch.test ++ test :: back.map Branch.test := by
      rw [List.map_append, List.map_cons]
    refine h.conditional hscope ((htests _).trans (htests []).symm)
      fun outcome late mid' late' index hbefore hindex hlate => ?_
    rw [htests] at hindex
    cases fuel with
    | zero => exact ⟨S, rfl, hscope, hlate.pushIndent indent, .halt _, rfl⟩
    | succ fuel =>
      -- The bodies differ only in the branch that has the spot.
      by_cases hchosen : index = some front.length
      · subst hchosen
        rw [chosen_self, chosen_self]
        exact ih (hlate.pushIndent indent) hfollows fuel _ fun level now hreaches =>
          hvanishes level now (.branch hbefore hindex hreaches)
      · rw [chosen_of_ne hchosen (inner.fill [node, .newline]) (inner.fill [])]
        exact ⟨S, rfl, hscope, tracks_writeNodes hscope fuel _ _ _ _ (hlate.pushIndent indent)⟩
  | instead before branches inner indent after ih =>
    refine h.conditional hscope rfl fun outcome late mid' late' index hbefore hindex hlate => ?_
    cases fuel with
    | zero => exact ⟨S, rfl, hscope, hlate.pushIndent indent, .halt _, rfl⟩
    | succ fuel =>
      cases index with
      | none =>
        exact ih (hlate.pushIndent indent) hfollows fuel _ fun level now hreaches =>
          hvanishes level now (.instead hbefore hindex hreaches)
      | some index =>
        exact ⟨S, rfl, hscope, tracks_writeNodes hscope fuel _ _ _ _ (hlate.pushIndent indent)⟩

end Stencil
