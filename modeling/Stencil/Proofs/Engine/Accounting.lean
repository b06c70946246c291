import Stencil.Proofs.Engine.Reachable
import Stencil.Proofs.Render.Silence
import Stencil.Proofs.Writer.Accounting

/-!
# What renders count

Each function that writes answers how many characters it wrote, summed up from what it called. The
sums decide which lines of a body vanish, and in the end the caller gets one of them. Here it is
shown that no function drops or doubles a part: a render that succeeds answers by how many
characters it made the text longer.
-/

namespace Stencil

open Render

namespace Render

/-- An action that answers has written as many characters as the count of its answer says, less the
`start` that were counted before it. -/
def Counts {α : Type} (start : Nat) (action : Render α) (count : α → Nat) : Prop :=
  ∀ (setting : Setting) (run : Run) (value : α), (action setting run).1 = .ok value →
    ∃ more, count value = start + more ∧
      Writer.Advances more run.out (action setting run).2.out

variable {α β : Type} {start : Nat} {action : Render α} {count : α → Nat}

/-- An action that does not write leaves the count as it was. -/
theorem Silent.counts (h : Silent action) (start : Nat) : Counts start action fun _ => start := by
  intro setting run _ _
  rw [h.out_eq]
  exact ⟨0, rfl, .refl run.out⟩

/-- An answer counts what was counted before. -/
theorem counts_pure {value : α} (h : count value = start) : Counts start (pure value) count := by
  intro _ run result hresult
  cases hresult
  exact ⟨0, h, .refl run.out⟩

/-- What stops has no answer. -/
theorem counts_throw (halt : Halt) : Counts start (throw halt) count := by
  intro _ _ _ hresult
  cases hresult

/-- The second action goes on counting where the first one stops. -/
theorem Counts.bind {next : α → Render β} {count' : β → Nat} (h : Counts start action count)
    (hnext : ∀ value, Counts (count value) (next value) count') :
    Counts start (action >>= next) count' := by
  intro setting run result hresult
  have hfirst := h setting run
  rw [bind_apply] at hresult ⊢
  rcases heq : action setting run with ⟨_ | value, after⟩ <;> rw [heq] at hfirst hresult
  · cases hresult
  · obtain ⟨more, hmore, hadvances⟩ := hfirst value rfl
    obtain ⟨further, hfurther, hadvances'⟩ := hnext value setting after result hresult
    refine ⟨more + further, ?_, hadvances.trans hadvances'⟩
    rw [hfurther, hmore, Nat.add_assoc]

/-- Where an action starts to count does not matter to what it counts. -/
theorem Counts.after (h : Counts 0 action count) (start : Nat) :
    Counts start action fun value => start + count value := by
  intro setting run value hvalue
  obtain ⟨more, hmore, hadvances⟩ := h setting run value hvalue
  exact ⟨more, congrArg (start + ·) (hmore.trans (Nat.zero_add more)), hadvances⟩

/-- An operation of the writer counts its characters. -/
theorem counts_writing {operation : Writer.Writing Nat} (h : Writer.Accounts 0 operation id) :
    Counts 0 (writing operation) id := by
  intro setting run value hvalue
  rw [writing_apply] at hvalue ⊢
  cases hresult : (operation run.out).1 with
  | ok written =>
    simp only [hresult, Except.ok.injEq] at hvalue
    exact h run.out value (hvalue ▸ hresult)
  | error _ => simp [hresult] at hvalue

/-- Putting an indentation string in force and withdrawing it is not counted. -/
theorem Counts.indented (h : Counts start action count) (indent : Option String) :
    Counts start (indented indent action) count := by
  intro setting run value hvalue
  cases indent with
  | none => exact h setting run value hvalue
  | some indent =>
    rw [indented_apply] at hvalue ⊢
    obtain ⟨more, hmore, hadvances⟩ :=
      h setting { run with out := run.out.pushIndent indent } value hvalue
    refine ⟨more, hmore, hadvances.congr ?_ ?_ ?_ ?_⟩
    · simp only [Writer.sink_pushIndent]
    · simp only [Writer.index_pushIndent]
    · simp only [cleaned, Writer.sink_popIndent]
    · simp only [cleaned, Writer.index_popIndent]

/-- An action counts the same within an anchor. -/
theorem Counts.anchored (h : Counts start action count) (anchor : Bool) :
    Counts start (anchored anchor action) count := by
  intro setting run value hvalue
  cases anchor with
  | false => exact h setting run value hvalue
  | true =>
    rw [anchored_apply] at hvalue ⊢
    obtain ⟨more, hmore, hadvances⟩ :=
      h setting { run with out := run.out.pushAnchor } value hvalue
    exact ⟨more, hmore, hadvances.congr rfl rfl rfl rfl⟩

/-- It counts the same under the guard. -/
theorem Counts.guarded (h : Counts start action count) (id : InstanceId) (name : String) :
    Counts start (guarded id name action) count := by
  intro setting run value hvalue
  rw [guarded_apply] at hvalue ⊢
  split at hvalue
  · cases hvalue
  · next hrefuses =>
    rw [if_neg hrefuses]
    exact h setting { run with active := id :: run.active } value hvalue

end Render

namespace Evaluator

/-- What is said of one level of the evaluator: evaluation is silent, and writing is counted. -/
structure Counting (level : Evaluator) : Prop where
  eval : ∀ scope expr, Silent (level.eval scope expr)
  exec : ∀ outer id, Counts 0 (level.exec outer id) fun count => count
  nodes : ∀ scope line nodes, Counts 0 (level.nodes scope line nodes) Prod.fst
  value : ∀ scope options value, Counts 0 (level.value scope options value) id

/-- A separator counts its characters. -/
theorem counts_writeSeparator (options : WriteOptions) : Counts 0 (writeSeparator options) id := by
  unfold writeSeparator
  split
  · exact counts_writing (Writer.accounts_write _)
  · exact counts_pure rfl

/-- So does the text of a wrap, as far as it is written. -/
theorem counts_writeWrap (options : WriteOptions) : Counts 0 (writeWrap options) id := by
  unfold writeWrap
  split
  · exact counts_writing (Writer.accounts_wrap _ _)
  · exact counts_pure rfl

/-- So does a line break. -/
theorem counts_writeBreak (line : Line) : Counts 0 (writeBreak line) id := by
  unfold writeBreak
  split
  · exact counts_writing (Writer.accounts_write _)
  · exact counts_pure rfl

variable {below : Evaluator} (h : below.Counting) (scope : Scope)
include h

/-- The elements behind the first one count their characters, with the separators. -/
theorem counts_writeFurther (options : WriteOptions) (items : List Value) :
    Counts 0 (below.writeFurther scope options items) id := by
  induction items with
  | nil => exact counts_pure rfl
  | cons item rest ih =>
    refine (counts_writeSeparator options).bind fun separator => ?_
    refine ((h.value scope options item).after separator).bind fun count => ?_
    exact (ih.after (separator + count)).bind fun _ => counts_pure rfl

/-- So do the elements of a list. -/
theorem counts_writeElements (options : WriteOptions) (items : List Value) :
    Counts 0 (below.writeElements scope options items) id := by
  unfold writeElements
  split
  · exact counts_pure rfl
  · next item rest _ =>
    refine (h.value scope options item).bind fun count => ?_
    exact ((counts_writeFurther h scope options rest).after count).bind fun _ => counts_pure rfl

/-- So does a value. -/
theorem counts_writeValue (options : WriteOptions) (value : Value) :
    Counts 0 (below.writeValue scope options value) id := by
  cases value with
  | absent =>
    simp only [writeValue]
    split
    · exact counts_writing (Writer.accounts_writeToken _ _)
    · exact counts_pure rfl
  | scalar scalar =>
    exact ((silent_scalarText scope scalar options.format).counts 0).bind fun _ =>
      counts_writing (Writer.accounts_writeToken _ _)
  | template id =>
    refine (counts_writeWrap options).bind fun lead => ?_
    exact ((h.exec scope.frames id).after lead).bind fun _ => counts_pure rfl
  | list items => exact counts_writeElements h scope options items
  | iterator cursor =>
    have hdrain : Silent (onStore (Store.drain cursor)) := quiet_silence.drain cursor
    exact (hdrain.counts 0).bind fun items => counts_writeElements h scope options items
  | mapping entries => exact counts_writeElements h scope options entries.keyValues

/-- So does an expression with its options. -/
theorem counts_writeExpression (expr : Expr) (options : Options Expr) :
    Counts 0 (below.writeExpression scope expr options) id := by
  have hvalue := (h.eval scope expr).leniently options.null.isSome
  refine (hvalue.counts 0).bind fun value => ?_
  have hoptions := silent_evalOptions (h.eval scope) options
  refine (hoptions.counts 0).bind fun evaluated => ?_
  exact (h.value scope evaluated value).anchored options.anchor

/-- So does a region. -/
theorem counts_writeRegion (region : String) (ascending : Bool) :
    Counts 0 (below.writeRegion scope region ascending) id := by
  refine ((silent_getInstance scope.innermost).counts 0).bind fun data => ?_
  refine ((silent_regionStart scope data _ ascending).counts 0).bind fun start => ?_
  have hlookup (name : String) : Silent (lookup start name) := quiet_silence.lookup start name
  refine ((hlookup _).counts 0).bind fun found => ?_
  cases found with
  | some definition =>
    exact ((silent_create scope definition).counts 0).bind fun id => h.exec scope.frames id
  | none =>
    cases ascending with
    | true => exact counts_throw _
    | false => exact counts_pure rfl

/-- What a node is said to have written is what it wrote, whether its line is kept or not. -/
theorem counts_writeNode (line : Line) (node : Node) :
    Counts 0 (below.writeNode scope line node) Prod.fst := by
  cases node with
  | text text =>
    exact (counts_writing (Writer.accounts_write text)).bind fun _ => counts_pure rfl
  | newline => exact (counts_writeBreak line).bind fun _ => counts_pure rfl
  | expression expr options indent =>
    have hwritten := (counts_writeExpression h scope expr options).indented indent
    exact hwritten.bind fun _ => counts_pure rfl
  | conditional branches otherwise indent =>
    have hchoose := silent_choose (h.eval scope) otherwise branches
    exact (hchoose.counts 0).bind fun body => (h.nodes scope _ body).indented indent
  | region name ascending indent =>
    have hwritten := (counts_writeRegion h scope name ascending).indented indent
    exact hwritten.bind fun _ => counts_pure rfl

/-- So do nodes one after the other. -/
theorem counts_writeNodes (line : Line) (nodes : List Node) :
    Counts 0 (below.writeNodes scope line nodes) Prod.fst := by
  induction nodes generalizing line with
  | nil => exact counts_pure rfl
  | cons node rest ih =>
    refine (counts_writeNode h scope line node).bind fun written => ?_
    exact ((ih written.2).after written.1).bind fun _ => counts_pure rfl

omit scope in
/-- So does an instance. -/
theorem counts_writeInstance (outer : List InstanceId) (id : InstanceId) :
    Counts 0 (below.writeInstance outer id) fun count => count := by
  refine ((silent_getInstance id).counts 0).bind fun data => Counts.guarded ?_ id _
  have hnoted : Silent (noteWritten id) := fun _ _ _ => by
    rw [noteWritten_apply, noteWritten_apply]
  refine (hnoted.counts 0).bind fun _ => ?_
  exact (h.nodes ⟨id, outer⟩ {} data.definition.nodes).bind fun _ => counts_pure rfl

omit h in
/-- Every level counts what it writes. -/
theorem counting_upTo (fuel : Nat) : (upTo fuel).Counting := by
  induction fuel with
  | zero =>
    exact ⟨silent_eval 0, fun _ _ => counts_throw _, fun _ _ _ => counts_throw _,
      fun _ _ _ => counts_throw _⟩
  | succ fuel ih =>
    exact ⟨silent_eval (fuel + 1), counts_writeInstance ih, counts_writeNodes ih,
      counts_writeValue ih⟩

end Evaluator

namespace Engine

/-- Whatever number of levels evaluation may have, the run of an instance answers by how much it
made the text longer. -/
theorem accounted_runWithin (fuel : Nat) (engine : Engine) (id : InstanceId) (out : Writer)
    {count : Nat} (h : (engine.runWithin fuel id out).1 = .ok count) :
    out.Advances count (engine.runWithin fuel id out).2.out := by
  obtain ⟨more, hmore, hadvances⟩ :=
    (Evaluator.counting_upTo fuel).exec [] id engine.setting (engine.start out) count h
  obtain rfl : count = more := hmore.trans (Nat.zero_add more)
  exact hadvances

/-- A render that answers a number has made the text of the sink longer by so many characters, and
the writer has counted as many: those of texts and separators, of indentation and padding, of wraps
and of each line break as it is configured. -/
theorem accounted_write (engine : Engine) (id : InstanceId) (out : Writer) {count : Nat}
    (h : (engine.write id out).result = .ok count) :
    out.Advances count (engine.write id out).out := by
  rw [write, writeWithin] at h ⊢
  split at h
  · cases h
  · next hknown =>
    rw [if_neg hknown]
    exact accounted_runWithin fuel engine id out h

/-- A template that writes a list in an indented line, with separators, and wraps it to where it
begins. -/
def enumerating : Engine :=
  ({} : Engine).after
    [.defineGroup "group" .angle,
      .declare ⟨0⟩ (.template "call" (some [{ name := "names" }])
        [.literal "call\n  of ", .expression (.attribute "names")
          { separator := some (.string ", "), wrap := some (.string "\n"), anchor := true }]),
      .instanceOf ⟨0⟩ "call",
      .assign ⟨0⟩ "names" (.list [.string "first", .string "second", .string "third"])]

/-- A writer of narrow lines that end in two characters, with an indentation string in force. -/
def narrow : Writer := { newline := "\r\n", lineWidth := 16, indents := ["\t"] }

/-- Indentation of the caller and of the template, padding, separators and line breaks are all
counted. -/
theorem accounted_write_enumerating :
    (enumerating.write ⟨0⟩ narrow).result = .ok 49 ∧
      narrow.Advances 49 (enumerating.write ⟨0⟩ narrow).out ∧
      (enumerating.write ⟨0⟩ narrow).out.sink.text =
        "\tcall\r\n\t  of first, \r\n\t     second, \r\n\t     third" := by
  have hresult : (enumerating.write ⟨0⟩ narrow).result = .ok 49 := by decide +kernel
  exact ⟨hresult, accounted_write enumerating ⟨0⟩ narrow hresult, by decide +kernel⟩

end Engine

end Stencil
