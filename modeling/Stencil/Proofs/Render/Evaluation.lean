import Stencil.Proofs.Render.Logic

/-!
# Judgements about evaluation

A kind of judgement that is lawful holds of each function of the evaluator, provided that it holds
of the evaluations that the function itself asks for. There is one theorem for each function, and
the hypotheses of a theorem name exactly those evaluations: the parts of an expression, the names
that it reads, the values that it turns into text. An induction over the evaluator then only has to
say why these are simpler than what they belong to.
-/

namespace Stencil

open Render

namespace Logic

variable {ι : Type} (L : Logic ι)

/-- What evaluation in a scope may always ask of the evaluator below: the texts of values and of
instances inside the scope. -/
structure Captures (below : ι → Evaluator) (pre : Prop) (scope : Scope) : Prop where
  inside : pre → L.Inside scope
  value : ∀ value, L.Holds (pre ∧ L.Proper value)
    (fun i => capture ((below i).value scope {} value)) fun _ => True
  exec : ∀ id, L.Holds (pre ∧ L.Proper (.template id))
    (fun i => capture ((below i).exec scope.frames id)) fun _ => True

/-- What writing in a scope may always ask of the evaluator below: to write values and instances
inside the scope. -/
structure Writes (below : ι → Evaluator) (pre : Prop) (scope : Scope) : Prop where
  inside : pre → L.Inside scope
  value : ∀ options value, L.Holds (pre ∧ L.Proper value)
    (fun i => (below i).value scope options value) fun _ => True
  exec : ∀ id, L.Holds (pre ∧ L.Proper (.template id))
    (fun i => (below i).exec scope.frames id) fun _ => True

variable {L} in
/-- What can be written can be captured. -/
theorem Writes.captures {below : ι → Evaluator} {pre : Prop} {scope : Scope}
    (h : L.Writes below pre scope) (laws : L.Vocal) : L.Captures below pre scope where
  inside := h.inside
  value value := laws.capture (h.value {} value)
  exec id := laws.capture (h.exec id)

/-- What evaluation may ask for in a scope: the values of some expressions and of some names. -/
structure Supports (below : ι → Evaluator) (pre : Prop) (scope : Scope) (parts : List Expr)
    (reads : String → Prop) : Prop extends L.Captures below pre scope where
  eval : ∀ part ∈ parts, L.Holds pre (fun i => (below i).eval scope part) L.Proper
  resolve : ∀ name, L.Holds (pre ∧ reads name) (fun i => (below i).resolve scope name) L.Proper

variable {L} in
/-- Fewer expressions can be asked for. -/
theorem Supports.within {below : ι → Evaluator} {pre : Prop} {scope : Scope}
    {parts parts' : List Expr} {reads : String → Prop}
    (h : L.Supports below pre scope parts reads) (hparts : parts' ⊆ parts) :
    L.Supports below pre scope parts' reads :=
  { h with eval := fun part hpart => h.eval part (hparts hpart) }

namespace Calm

variable {L} (laws : L.Calm) {below : ι → Evaluator} {pre : Prop} {scope : Scope}
variable {parts : List Expr} {reads : String → Prop}
include laws

/-- Fewer evaluations can be asked for where more is known. -/
theorem narrow {pre' : Prop} {parts' : List Expr} {reads' : String → Prop}
    (h : L.Supports below pre scope parts reads) (hpre : pre' → pre) (hparts : parts' ⊆ parts)
    (hreads : ∀ name, pre' → reads' name → reads name) :
    L.Supports below pre' scope parts' reads' where
  inside hpre' := h.inside (hpre hpre')
  value value := laws.of (h.value value) (And.imp_left hpre)
  exec id := laws.of (h.exec id) (And.imp_left hpre)
  eval part hpart := laws.of (h.eval part (hparts hpart)) hpre
  resolve name := laws.of (h.resolve name) fun hname =>
    ⟨hpre hname.1, hreads name hname.1 hname.2⟩

/-! ### Values -/

/-- A proper value has proper elements. -/
theorem elements? (value : Value) :
    L.Holds (L.Proper value) (fun _ => onStore value.elements?)
      fun found => ∀ items, found = some items → ∀ item ∈ items, L.Proper item := by
  cases value with
  | list items =>
    refine laws.pure fun hvalue found hfound => ?_
    cases hfound
    exact (laws.closed.list items).mp hvalue
  | iterator cursor =>
    simp only [Value.elements?, onStore_map]
    refine laws.map (laws.drain cursor) fun items _ hitems found hfound => ?_
    cases hfound
    exact hitems
  | mapping entries =>
    refine laws.pure fun _ found hfound => ?_
    cases hfound
    exact laws.closed.keyValues entries
  | absent | scalar _ | template _ => exact laws.pure fun _ _ hfound => by cases hfound

/-- It contributes proper values to a list. -/
theorem contribution (value : Value) :
    L.Holds (L.Proper value) (fun _ => onStore value.contribution)
      fun items => ∀ item ∈ items, L.Proper item := by
  cases value with
  | list items => exact laws.pure fun hvalue => (laws.closed.list items).mp hvalue
  | iterator cursor => exact laws.drain cursor
  | absent | scalar _ | mapping _ | template _ =>
    refine laws.pure fun hvalue item hitem => ?_
    cases List.mem_singleton.mp hitem
    exact hvalue

/-- Several proper values contribute proper ones. -/
theorem spliced (values : List Value) :
    L.Holds (∀ value ∈ values, L.Proper value) (fun _ => onStore (Value.spliced values))
      fun items => ∀ item ∈ items, L.Proper item := by
  induction values with
  | nil => exact laws.pure fun _ _ hitem => by cases hitem
  | cons value rest ih =>
    have hfurther : L.Holds (∀ item ∈ value :: rest, L.Proper item)
        (fun _ => onStore value.contribution >>= fun items =>
          onStore (Value.spliced rest) >>= fun more => Pure.pure (items ++ more))
        fun items => ∀ item ∈ items, L.Proper item := by
      refine laws.bind (laws.of (laws.contribution value) fun h => h _ List.mem_cons_self)
        fun items => ?_
      refine laws.map (laws.of ih fun h item hitem => h.1 _ (List.mem_cons_of_mem _ hitem)) ?_
      intro more hpre hmore item hitem
      rcases List.mem_append.mp hitem with hitem | hitem
      · exact hpre.2 item hitem
      · exact hmore item hitem
    cases value with
    | absent => exact laws.of ih fun h item hitem => h _ (List.mem_cons_of_mem _ hitem)
    | scalar _ | list _ | mapping _ | template _ | iterator _ => exact hfurther

/-- A proper driver has proper elements. -/
theorem column (driver : Value) :
    L.Holds (L.Proper driver) (fun _ => onStore (Evaluator.column driver))
      fun items => ∀ item ∈ items, L.Proper item := by
  simp only [Evaluator.column, onStore_bind]
  apply laws.bind (laws.elements? driver)
  intro found
  cases found with
  | some items => exact laws.pure fun h => h.2 items rfl
  | none =>
    refine laws.pure fun h item hitem => ?_
    split at hitem
    · cases hitem
    · cases List.mem_singleton.mp hitem
      exact h.1

/-- So do several drivers. -/
theorem columns (drivers : List Value) :
    L.Holds (∀ driver ∈ drivers, L.Proper driver) (fun _ => onStore (Evaluator.columns drivers))
      fun columns => ∀ items ∈ columns, ∀ item ∈ items, L.Proper item := by
  induction drivers with
  | nil => exact laws.pure fun _ _ hitems => by cases hitems
  | cons driver rest ih =>
    simp only [Evaluator.columns, onStore_bind, onStore_pure]
    apply laws.bind (laws.of (laws.column driver) fun h => h _ List.mem_cons_self)
    intro items
    refine laws.map (laws.of ih fun h other hother => h.1 _ (List.mem_cons_of_mem _ hother)) ?_
    intro more hpre hmore column hcolumn
    rcases List.mem_cons.mp hcolumn with rfl | hcolumn
    · exact hpre.2
    · exact hmore column hcolumn

/-- An operator takes one item from an iterator, or it takes all of them and works on the list. -/
theorem operator (operator : Operator) (value : Value) :
    L.Holds (L.Proper value) (fun _ => onStore (operator.apply value)) L.Proper := by
  have helements : L.Holds (L.Proper value)
      (fun _ => onStore value.elements? >>= fun found =>
        found.elim (Pure.pure (operator.onSingle value)) fun items =>
          Pure.pure (operator.onElements items)) L.Proper := by
    apply laws.bind (laws.elements? value)
    intro found
    cases found with
    | some items => exact laws.pure fun h => laws.closed.onElements (h.2 items rfl) operator
    | none => exact laws.pure fun h => laws.closed.onSingle h.1 operator
  cases value with
  | iterator cursor =>
    cases operator with
    | first =>
      simp only [Operator.apply, onStore_bind, onStore_pure]
      refine laws.map (laws.next cursor) fun found _ hfound => ?_
      cases found with
      | some item => exact hfound item rfl
      | none => exact laws.closed.absent
    | rest | last | length | strip | trunc | reverse => exact helements
  | absent | scalar _ | list _ | mapping _ | template _ => cases operator <;> exact helements

/-- A proper value has proper properties. -/
theorem property (value : Value) (name : String) :
    L.Holds (L.Proper value) (fun _ => Render.property value name) L.Proper := by
  cases value with
  | absent => exact laws.pure fun _ => laws.closed.absent
  | mapping entries => exact laws.pure fun h => laws.closed.lookup h name
  | template id =>
    apply laws.getInstance id
    intro data
    simp only [L.seen_attributes]
    exact laws.readAttribute name And.symm (laws.pure fun _ => laws.closed.absent)
  | scalar _ | list _ | iterator _ => exact laws.ownProperty _ name

/-- The judgement holds of the text of a proper value. -/
theorem textOf (hcaptures : L.Captures below pre scope) (value : Value) :
    L.Holds (pre ∧ L.Proper value) (fun i => (below i).textOf scope value) fun _ => True := by
  unfold Evaluator.textOf
  split
  · exact laws.pure fun _ => trivial
  · exact hcaptures.value value

/-! ### Definitions -/

/-- An inline template refers to the definition that it is. -/
theorem inlineDefinition (template : Inline Expr Chunk) :
    L.Holds True (fun _ => Render.inlineDefinition scope template)
      (Callee.Refers L.Stored (.inline template)) := by
  apply laws.getInstance scope.innermost
  intro data
  simp only [L.seen_definition]
  exact laws.map (laws.given (laws.inlineOwner _ _)) fun owner _ _ => ⟨owner, rfl⟩

/-- A name refers to a definition that is stored under it. -/
theorem definitionFrom (start : GroupId) (name : String) :
    L.Holds (L.Start start) (fun _ => Render.definitionFrom start name) (L.Stored name) := by
  apply laws.bind (laws.lookup start name)
  intro found
  cases found with
  | some definition => exact laws.pure fun h => h.2 definition rfl
  | none => exact laws.given (laws.fail _ nofun)

/-- A super-group is one from which the search may start. -/
theorem superGroup (hinside : pre → L.Inside scope) (name : String) :
    L.Holds pre (fun _ => Render.superGroup scope name) L.Start := by
  apply laws.getInstance scope.innermost
  intro data
  simp only [L.seen_nativeGroup]
  exact laws.of (laws.above _ name) fun h => h.2.native (hinside h.1).innermost

/-- The definition of a name, looked up from the group of the innermost instance on. -/
theorem definitionOf (hinside : pre → L.Inside scope) (name : String) :
    L.Holds pre (fun _ => Render.getInstance scope.innermost >>= fun data =>
      Render.definitionFrom data.group name) (L.Stored name) := by
  apply laws.getInstance scope.innermost
  intro data
  simp only [L.seen_group]
  exact laws.of (laws.definitionFrom _ name) fun h => h.2.group (hinside h.1).innermost

/-- A call refers to a definition of the kind that its callee says. -/
theorem callee {callee : Callee Expr Chunk} (h : L.Supports below pre scope callee.parts reads) :
    L.Holds pre (fun i => (below i).callee scope callee) (callee.Refers L.Stored) := by
  cases callee with
  | inline template => exact laws.given (laws.inlineDefinition template)
  | named name => exact laws.definitionOf h.inside name
  | inherited name =>
    apply laws.bind (laws.superGroup h.inside name)
    intro start
    exact laws.of (laws.definitionFrom start name) And.right
  | computed expr =>
    apply laws.bind (h.eval expr List.mem_cons_self)
    intro value
    apply laws.bind (laws.textOf h.toCaptures value)
    intro name
    exact laws.weaken (fun hpre => hpre.1.1) (fun _ _ hstored => ⟨name, hstored⟩)
      (laws.definitionOf h.inside name)

/-! ### Arguments -/

/-- The judgement holds of binding positional arguments to a fresh instance. -/
theorem bindPositional (id : InstanceId) {pairs : List (Formal Expr × Expr)}
    (h : L.Supports below pre scope (pairs.map Prod.snd) reads) :
    L.Holds (pre ∧ L.Fresh id) (fun i => (below i).bindPositional scope id pairs)
      fun _ => True := by
  induction pairs with
  | nil => exact laws.pure fun _ => trivial
  | cons pair rest ih =>
    obtain ⟨formal, expr⟩ := pair
    apply laws.bind (laws.of (h.eval expr List.mem_cons_self) And.left)
    intro value
    refine laws.bind (laws.of (laws.assign id formal.name value) fun hpre =>
      ⟨hpre.1.2, hpre.2⟩) fun _ => ?_
    have hrest := h.within (List.subset_cons_self _ _)
    exact laws.of (ih hrest) fun hpre => hpre.1.1

/-- It holds of binding named arguments. -/
theorem bindNamed (id : InstanceId) (definition : Definition) {named : List (String × Expr)}
    (h : L.Supports below pre scope (named.map Prod.snd) reads) :
    L.Holds (pre ∧ L.Fresh id) (fun i => (below i).bindNamed scope id definition named)
      fun _ => True := by
  induction named with
  | nil => exact laws.pure fun _ => trivial
  | cons entry rest ih =>
    obtain ⟨name, expr⟩ := entry
    refine laws.bind (laws.failIf _ _ nofun) fun _ => ?_
    refine laws.bind (laws.of (h.eval expr List.mem_cons_self) fun hpre => hpre.1.1)
      fun value => ?_
    refine laws.bind (laws.of (laws.assign id name value) fun hpre => ⟨hpre.1.1.2, hpre.2⟩)
      fun _ => ?_
    have hrest := h.within (List.subset_cons_self _ _)
    exact laws.of (ih hrest) fun hpre => hpre.1.1.1

/-- It holds of binding what a formal argument takes from the scope of the call. -/
theorem bindTaken (id : InstanceId) (formal : Formal Expr) (found : Option Value) :
    L.Holds (L.Fresh id ∧ ∀ value, found = some value → L.Proper value)
      (fun _ => Render.bindTaken id formal found) fun _ => True := by
  unfold Render.bindTaken
  split
  · next value htaken =>
    refine laws.of (laws.assign id formal.name value) (And.imp_right fun hfound => ?_)
    unfold Formal.taken? at htaken
    split at htaken
    · split at htaken
      · cases htaken
      · cases htaken
        exact laws.closed.absent
    · exact hfound value htaken
  · exact laws.pure fun _ => trivial

/-- It holds of passing one argument through if it holds of looking up its name. -/
theorem passOne (id : InstanceId) {formal : Formal Expr}
    (hresolve : L.Holds pre (fun i => (below i).resolve scope formal.name) L.Proper) :
    L.Holds (pre ∧ L.Fresh id) (fun i => (below i).passOne scope id formal) fun _ => True := by
  suffices h : L.Holds ((pre ∧ L.Fresh id) ∧ L.Fresh id)
      (fun i => (below i).passOne scope id formal) fun _ => True from
    laws.of h fun hpre => ⟨hpre, hpre.2⟩
  apply laws.getCreated id
  intro data
  split
  · exact laws.pure fun _ => trivial
  · apply laws.bind (laws.ifDeclared (laws.of hresolve fun hpre => hpre.1.1))
    intro found
    exact laws.of (laws.bindTaken id formal found) fun hpre => ⟨hpre.1.1.2, hpre.2⟩

/-- So it holds of passing all of them through. -/
theorem bindPassed (id : InstanceId) {formals : List (Formal Expr)}
    (hresolve : ∀ formal ∈ formals,
      L.Holds pre (fun i => (below i).resolve scope formal.name) L.Proper) :
    L.Holds (pre ∧ L.Fresh id) (fun i => (below i).bindPassed scope id formals)
      fun _ => True := by
  induction formals with
  | nil => exact laws.pure fun _ => trivial
  | cons formal rest ih =>
    apply laws.bind (laws.passOne id (hresolve formal List.mem_cons_self))
    intro _
    have hrest := ih fun other hother => hresolve other (List.mem_cons_of_mem _ hother)
    exact laws.of hrest And.left

/-- It holds of the check that no argument is missing. -/
theorem requireBound (id : InstanceId) (formals : List (Formal Expr)) (error : RenderError)
    (herror : ∀ trace, error ≠ .infiniteRecursion trace) :
    L.Holds (pre ∧ L.Fresh id) (fun _ => Render.requireBound id formals error) fun _ => True := by
  apply laws.getCreated id
  intro data
  exact laws.weaken (fun hpre => hpre) (fun _ _ _ => trivial) (laws.failIf _ _ herror)

/-- So it holds of binding the arguments of a call to a fresh instance. -/
theorem bindArguments (id : InstanceId) (definition : Definition) {arguments : Arguments Expr}
    (start : Nat) (h : L.Supports below pre scope arguments.parts fun name =>
      arguments.passThrough = true ∧ ∃ formal ∈ definition.parameters, formal.name = name) :
    L.Holds (pre ∧ L.Fresh id)
      (fun i => (below i).bindArguments scope id definition arguments start) fun _ => True := by
  simp only [Evaluator.bindArguments]
  split
  · exact laws.pure fun _ => trivial
  · refine laws.bind (laws.failIf _ _ nofun) fun _ => ?_
    refine laws.bind (laws.failIf _ _ nofun) fun _ => ?_
    have hpositional : L.Supports below pre scope
        (((definition.parameters.drop start).zip arguments.positional).map Prod.snd) _ :=
      h.within fun part hpart => List.mem_append_left _ ?_
    have hnamed : L.Supports below pre scope (arguments.named.map Prod.snd) _ :=
      h.within (List.subset_append_right _ _)
    refine laws.bind (laws.of (laws.bindPositional id hpositional) fun hpre => hpre.1.1)
      fun _ => ?_
    refine laws.bind (laws.of (laws.bindNamed id definition hnamed) fun hpre => hpre.1.1.1)
      fun _ => ?_
    have hresolve (formal) (hformal : formal ∈ if arguments.passThrough = true
        then definition.parameters else []) :
        L.Holds pre (fun i => (below i).resolve scope formal.name) L.Proper := by
      split at hformal
      · next hpass =>
        exact laws.of (h.resolve formal.name) fun hpre => ⟨hpre, hpass, formal, hformal, rfl⟩
      · cases hformal
    refine laws.bind (laws.of (laws.bindPassed id hresolve) fun hpre => hpre.1.1.1.1)
      fun _ => laws.of (laws.requireBound id _ _ nofun) fun hpre => hpre.1.1.1.1.1
    obtain ⟨pair, hpair, rfl⟩ := List.mem_map.mp hpart
    exact (List.of_mem_zip hpair).2

end Calm

end Logic

end Stencil
