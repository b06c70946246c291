import Stencil.Proofs.Render.Steps

/-!
# Breaks that are written

What happens while nodes are written is a course of events: some characters are written for a text,
an expression or a region, and a break that ends a line is written or is not. The bodies of
conditionals belong to the lines around them, so their events come in between. Whatever the body
is, a break is written if anything was written on its line.
-/

namespace Stencil

open Render

/-- A run with a further indentation string in force. -/
def Run.pushIndent (run : Run) (indent : Option String) : Run :=
  { run with out := indent.elim run.out run.out.pushIndent }

/-- A run without the indentation string that was put in force last. -/
def Run.popIndent (run : Run) (indent : Option String) : Run :=
  { run with out := if indent.isSome then run.out.popIndent.2 else run.out }

/-- An indentation string that was put in force can be taken back. -/
theorem Run.popIndent_pushIndent (run : Run) (indent : Option String) :
    (run.pushIndent indent).popIndent indent = run := by
  cases indent with
  | none => rfl
  | some indent =>
    have hout : (run.out.pushIndent indent).popIndent.2 = run.out := by
      cases hindenting : run.out.indenting with
      | true => rw [Writer.popIndent_pushIndent _ _ hindenting]
      | false =>
        rw [Writer.pushIndent_of_not_indenting _ _ hindenting, Writer.popIndent, hindenting]
        rfl
    exact congrArg (fun out => { run with out }) hout

/-- What is done under an indentation string is done between putting it in force and taking it
back. -/
theorem Render.indented_eq {α : Type} (setting : Setting) (run : Run) (indent : Option String)
    (action : Render α) : indented indent action setting run =
      cleaned (·.popIndent indent) (action setting (run.pushIndent indent)) := by
  cases indent <;> rfl

/-- What happens while nodes are written. -/
inductive Event where
  /-- A text, an expression or a region was written, as so many characters. -/
  | wrote (count : Nat)
  /-- A line ended. -/
  | broke (kept : Bool)

namespace Evaluator

/-- How a node is written that has neither a break nor nodes inside it. -/
def leaf? (below : Evaluator) (scope : Scope) : Node → Option (Render Nat)
  | .text text => some (writing (Writer.write text))
  | .expression expr options indent =>
    some (indented indent (below.writeExpression scope expr options))
  | .region name ascending indent =>
    some (indented indent (below.writeRegion scope name ascending))
  | .newline | .conditional _ _ _ => none

/-- A node without a break and without nodes inside it adds to its line what it writes. -/
theorem writeNode_leaf {below : Evaluator} {scope : Scope} {node : Node} {action : Render Nat}
    (h : below.leaf? scope node = some action) (line : Line) :
    below.writeNode scope line node = action >>= fun count => pure (count, line.add count) := by
  cases node with
  | newline | conditional _ _ _ => cases h
  | text _ | expression _ _ _ | region _ _ _ =>
    cases h
    rfl

end Evaluator

open Evaluator

/-- The events of nodes that are written from a run on, with what stopped them, if anything did, and
the run that they led to. It is left open which breaks are written. -/
inductive Unfolds (setting : Setting) (scope : Scope) :
    (fuel : Nat) → List Node → (run : Run) → List Event → Option Halt → (after : Run) → Prop where
  | nil {fuel : Nat} {run : Run} : Unfolds setting scope fuel [] run [] none run
  | leaf {fuel : Nat} {node : Node} {rest : List Node} {action : Render Nat} {run mid after : Run}
    {count : Nat} {events : List Event} {halt : Option Halt}
    (hnode : (upTo fuel).leaf? scope node = some action)
    (haction : action setting run = (.ok count, mid))
    (hrest : Unfolds setting scope fuel rest mid events halt after) :
    Unfolds setting scope fuel (node :: rest) run (.wrote count :: events) halt after
  | leafHalts {fuel : Nat} {node : Node} {rest : List Node} {action : Render Nat}
    {run after : Run} {halt : Halt} (hnode : (upTo fuel).leaf? scope node = some action)
    (haction : action setting run = (.error halt, after)) :
    Unfolds setting scope fuel (node :: rest) run [] (some halt) after
  | kept {fuel : Nat} {rest : List Node} {run mid after : Run} {count : Nat} {events : List Event}
    {halt : Option Halt} (hbreak : writing (Writer.write "\n") setting run = (.ok count, mid))
    (hrest : Unfolds setting scope fuel rest mid events halt after) :
    Unfolds setting scope fuel (.newline :: rest) run (.broke true :: events) halt after
  | keptHalts {fuel : Nat} {rest : List Node} {run after : Run} {halt : Halt}
    (hbreak : writing (Writer.write "\n") setting run = (.error halt, after)) :
    Unfolds setting scope fuel (.newline :: rest) run [] (some halt) after
  | lost {fuel : Nat} {rest : List Node} {run after : Run} {events : List Event}
    {halt : Option Halt} (hrest : Unfolds setting scope fuel rest run events halt after) :
    Unfolds setting scope fuel (.newline :: rest) run (.broke false :: events) halt after
  | testHalts {fuel : Nat} {branches : List (Branch Expr Node)} {otherwise rest : List Node}
    {indent : Option String} {run after : Run} {halt : Halt}
    (htests : (upTo fuel).choose scope otherwise branches setting run = (.error halt, after)) :
    Unfolds setting scope fuel (.conditional branches otherwise indent :: rest) run [] (some halt)
      after
  | exhausted {branches : List (Branch Expr Node)} {otherwise rest body : List Node}
    {indent : Option String} {run mid : Run}
    (htests : (upTo 0).choose scope otherwise branches setting run = (.ok body, mid)) :
    Unfolds setting scope 0 (.conditional branches otherwise indent :: rest) run []
      (some .outOfFuel) ((mid.pushIndent indent).popIndent indent)
  | bodyHalts {fuel : Nat} {branches : List (Branch Expr Node)} {otherwise rest body : List Node}
    {indent : Option String} {run mid last : Run} {inner : List Event} {halt : Halt}
    (htests : (upTo (fuel + 1)).choose scope otherwise branches setting run = (.ok body, mid))
    (hbody : Unfolds setting scope fuel body (mid.pushIndent indent) inner (some halt) last) :
    Unfolds setting scope (fuel + 1) (.conditional branches otherwise indent :: rest) run inner
      (some halt) (last.popIndent indent)
  | conditional {fuel : Nat} {branches : List (Branch Expr Node)} {otherwise rest body : List Node}
    {indent : Option String} {run mid last after : Run} {inner events : List Event}
    {halt : Option Halt}
    (htests : (upTo (fuel + 1)).choose scope otherwise branches setting run = (.ok body, mid))
    (hbody : Unfolds setting scope fuel body (mid.pushIndent indent) inner none last)
    (hrest : Unfolds setting scope (fuel + 1) rest (last.popIndent indent) events halt after) :
    Unfolds setting scope (fuel + 1) (.conditional branches otherwise indent :: rest) run
      (inner ++ events) halt after

namespace Event

/-- How many characters were written since the last break, if it were `written` before. -/
def tally (written : Nat) : List Event → Nat
  | [] => written
  | .wrote count :: rest => tally (written + count) rest
  | .broke _ :: rest => tally 0 rest

/-- A break is written if anything was written since the break before it. -/
def Sound (written : Nat) : List Event → Prop
  | [] => True
  | .wrote count :: rest => Sound (written + count) rest
  | .broke kept :: rest => (0 < written → kept = true) ∧ Sound 0 rest

/-- The tally goes on from event to event. -/
theorem tally_append (written : Nat) (events more : List Event) :
    tally written (events ++ more) = tally (tally written events) more := by
  induction events generalizing written with
  | nil => rfl
  | cons event rest ih => cases event <;> exact ih _

/-- Events are sound if the first ones are, and those after them with the tally so far. -/
theorem sound_append {written : Nat} {events more : List Event} :
    Sound written (events ++ more) ↔ Sound written events ∧ Sound (tally written events) more := by
  induction events generalizing written with
  | nil => exact (and_iff_right .intro).symm
  | cons event rest ih =>
    cases event with
    | wrote count => exact ih
    | broke kept => exact (and_congr_right fun _ => ih).trans and_assoc.symm

/-- The tally of a line is positive as soon as something was written on it. -/
theorem tally_wrote_pos {written : Nat} {counts : List Nat}
    (h : 0 < written ∨ ∃ count ∈ counts, 0 < count) : 0 < tally written (counts.map wrote) := by
  induction counts generalizing written with
  | nil => simpa [tally] using h
  | cons count rest ih =>
    refine ih ?_
    obtain hwritten | ⟨other, hother, hpos⟩ := h
    · exact Or.inl (Nat.add_pos_left hwritten count)
    · cases hother with
      | head => exact Or.inl (Nat.add_pos_right written hpos)
      | tail _ hrest => exact Or.inr ⟨other, hrest, hpos⟩

/-- A break that ends a line with characters is written. -/
theorem Sound.kept {written : Nat} {earlier later : List Event} {counts : List Nat} {kept : Bool}
    (h : Sound written (earlier ++ counts.map wrote ++ .broke kept :: later))
    (hcounts : ∃ count ∈ counts, 0 < count) : kept = true := by
  obtain ⟨-, hbroke, -⟩ := sound_append.mp h
  refine hbroke ?_
  rw [tally_append]
  exact tally_wrote_pos (Or.inr hcounts)

end Event

variable {setting : Setting} {scope : Scope}

/-- There are events for what nodes that begin on a line come to, in which no break is lost that
ends a line with characters. -/
inductive Explains (setting : Setting) (scope : Scope) (fuel : Nat) (line : Line)
    (nodes : List Node) (run : Run) : Except Halt (Nat × Line) × Run → Prop where
  | ends {events : List Event} {count : Nat} {last : Line} {after : Run}
    (h : Unfolds setting scope fuel nodes run events none after)
    (hsound : Event.Sound line.written events)
    (htally : last.written = Event.tally line.written events) :
    Explains setting scope fuel line nodes run (.ok (count, last), after)
  | halts {events : List Event} {halt : Halt} {after : Run}
    (h : Unfolds setting scope fuel nodes run events (some halt) after)
    (hsound : Event.Sound line.written events) :
    Explains setting scope fuel line nodes run (.error halt, after)

/-- The outcome of nodes after a node that wrote some characters. -/
def recount (count : Nat) (outcome : Except Halt (Nat × Line) × Run) :
    Except Halt (Nat × Line) × Run :=
  (outcome.1.map fun (more, line) => (count + more, line), outcome.2)

/-- After a node that was written the other nodes are written on the line that it leads to. -/
theorem writeNodes_cons_ok {below : Evaluator} {line next : Line} {node : Node} {count : Nat}
    {run mid : Run} (h : below.writeNode scope line node setting run = (.ok (count, next), mid))
    (rest : List Node) : below.writeNodes scope line (node :: rest) setting run =
      recount count (below.writeNodes scope next rest setting mid) := by
  rw [writeNodes, bind_apply_ok _ _ h]
  simp only [bind_apply]
  rcases below.writeNodes scope next rest setting mid with ⟨_ | ⟨_, _⟩, _⟩ <;> rfl

/-- What stops a node stops those after it. -/
theorem writeNodes_cons_error {below : Evaluator} {line : Line} {node : Node} {halt : Halt}
    {run after : Run} (h : below.writeNode scope line node setting run = (.error halt, after))
    (rest : List Node) :
    below.writeNodes scope line (node :: rest) setting run = (.error halt, after) := by
  rw [writeNodes, bind_apply_error _ _ h]

/-- What nodes come to after some events of the same line. -/
theorem Explains.after {fuel : Nat} {line next : Line} {nodes rest : List Node} {run mid : Run}
    {outcome : Except Halt (Nat × Line) × Run} (front : List Event)
    (h : Explains setting scope fuel next rest mid outcome)
    (hunfolds : ∀ {events halt after}, Unfolds setting scope fuel rest mid events halt after →
      Unfolds setting scope fuel nodes run (front ++ events) halt after)
    (hsound : Event.Sound line.written front)
    (htally : next.written = Event.tally line.written front) (count : Nat) :
    Explains setting scope fuel line nodes run (recount count outcome) := by
  cases h with
  | ends hrest hlater hlast =>
    rw [htally] at hlater hlast
    exact .ends (hunfolds hrest) (Event.sound_append.mpr ⟨hsound, hlater⟩)
      (hlast.trans (Event.tally_append _ _ _).symm)
  | halts hrest hlater =>
    rw [htally] at hlater
    exact .halts (hunfolds hrest) (Event.sound_append.mpr ⟨hsound, hlater⟩)

section

variable {fuel : Nat} {rest : List Node}
  (hrest : ∀ line mid, Explains setting scope fuel line rest mid
    ((upTo fuel).writeNodes scope line rest setting mid))
include hrest

/-- There are events for nodes that begin with one that is nothing but text, an expression or a
region. -/
theorem explains_leaf {node : Node} {action : Render Nat}
    (hnode : (upTo fuel).leaf? scope node = some action) (line : Line) (run : Run) :
    Explains setting scope fuel line (node :: rest) run
      ((upTo fuel).writeNodes scope line (node :: rest) setting run) := by
  have hwrite := writeNode_leaf hnode line
  rcases haction : action setting run with ⟨halt | count, mid⟩
  · rw [writeNodes_cons_error (by rw [hwrite, bind_apply_error _ _ haction])]
    exact .halts (.leafHalts hnode haction) .intro
  · rw [writeNodes_cons_ok (by rw [hwrite, bind_apply_ok _ _ haction]; rfl)]
    exact (hrest _ mid).after [.wrote count] (.leaf hnode haction) .intro rfl count

/-- So there are for nodes that begin with a break. -/
theorem explains_newline (line : Line) (run : Run) :
    Explains setting scope fuel line (.newline :: rest) run
      ((upTo fuel).writeNodes scope line (.newline :: rest) setting run) := by
  have hnode : (upTo fuel).writeNode scope line .newline =
      writeBreak line >>= fun count => pure (count, { fresh := true }) := rfl
  by_cases hkept : line.isKept
  · rw [writeBreak, if_pos hkept] at hnode
    rcases hbreak : writing (Writer.write "\n") setting run with ⟨halt | count, mid⟩
    · rw [writeNodes_cons_error (by rw [hnode, bind_apply_error _ _ hbreak])]
      exact .halts (.keptHalts hbreak) .intro
    · rw [writeNodes_cons_ok (by rw [hnode, bind_apply_ok _ _ hbreak]; rfl)]
      exact (hrest _ mid).after [.broke true] (.kept hbreak) ⟨fun _ => rfl, .intro⟩ rfl count
  · -- A line that loses its break has nothing on it.
    have hwritten : ¬ 0 < line.written := fun hpos => hkept (by simp [Line.isKept, hpos])
    rw [writeBreak, if_neg hkept, pure_bind] at hnode
    rw [writeNodes_cons_ok (by rw [hnode]; rfl)]
    exact (hrest _ run).after [.broke false] .lost
      ⟨fun hpos => absurd hpos hwritten, .intro⟩ rfl 0

/-- The events of the body of a conditional come in between. -/
theorem explains_conditional
    (hbody : ∀ less, fuel = less + 1 → ∀ line nodes run, Explains setting scope less line nodes run
      ((upTo less).writeNodes scope line nodes setting run))
    (branches : List (Branch Expr Node)) (otherwise : List Node) (indent : Option String)
    (line : Line) (run : Run) :
    Explains setting scope fuel line (.conditional branches otherwise indent :: rest) run
      ((upTo fuel).writeNodes scope line (.conditional branches otherwise indent :: rest) setting
        run) := by
  rcases htests : (upTo fuel).choose scope otherwise branches setting run with ⟨halt | body, mid⟩
  · rw [writeNodes_cons_error (by rw [writeNode, bind_apply_error _ _ htests])]
    exact .halts (.testHalts htests) .intro
  · have hnode : (upTo fuel).writeNode scope line (.conditional branches otherwise indent) setting
        run = cleaned (·.popIndent indent)
          ((upTo fuel).nodes scope { line with fresh := false } body setting
            (mid.pushIndent indent)) := by
      rw [writeNode, bind_apply_ok _ _ htests, indented_eq]
    cases fuel with
    | zero =>
      rw [writeNodes_cons_error hnode]
      exact .halts (.exhausted htests) .intro
    | succ less =>
      have hinner := hbody less rfl { line with fresh := false } body (mid.pushIndent indent)
      change _ = cleaned (·.popIndent indent) ((upTo less).writeNodes scope
        { line with fresh := false } body setting (mid.pushIndent indent)) at hnode
      generalize (upTo less).writeNodes scope { line with fresh := false } body setting
        (mid.pushIndent indent) = outcome at hinner hnode
      cases hinner with
      | halts hevents hsound =>
        rw [writeNodes_cons_error hnode]
        exact .halts (.bodyHalts htests hevents) hsound
      | ends hevents hsound htally =>
        have hline : Event.Sound line.written _ := hsound
        rw [writeNodes_cons_ok hnode]
        exact (hrest _ _).after _ (.conditional htests hevents) hline htally _

end

/-- Nodes can be explained if the bodies of the conditionals among them can. -/
theorem explains_of_less (fuel : Nat)
    (hbody : ∀ less, fuel = less + 1 → ∀ line nodes run, Explains setting scope less line nodes run
      ((upTo less).writeNodes scope line nodes setting run))
    (line : Line) (nodes : List Node) (run : Run) :
    Explains setting scope fuel line nodes run
      ((upTo fuel).writeNodes scope line nodes setting run) := by
  induction nodes generalizing line run with
  | nil => exact .ends .nil .intro rfl
  | cons node rest ih =>
    cases node with
    | text text => exact explains_leaf ih rfl line run
    | newline => exact explains_newline ih line run
    | expression expr options indent => exact explains_leaf ih rfl line run
    | conditional branches otherwise indent =>
      exact explains_conditional ih hbody branches otherwise indent line run
    | region name ascending indent => exact explains_leaf ih rfl line run

/-- Nodes are written event by event, and each break is written that ends a line with characters. -/
theorem explains_writeNodes (fuel : Nat) (line : Line) (nodes : List Node) (run : Run) :
    Explains setting scope fuel line nodes run
      ((upTo fuel).writeNodes scope line nodes setting run) := by
  induction fuel generalizing line nodes run with
  | zero => exact explains_of_less 0 nofun line nodes run
  | succ fuel ih =>
    refine explains_of_less (fuel + 1) (fun less hless => ?_) line nodes run
    obtain rfl := Nat.succ.inj hless
    exact ih

end Stencil
