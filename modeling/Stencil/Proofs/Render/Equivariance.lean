import Stencil.Proofs.Render.Renumbering

/-!
# Evaluation under other numbers

Evaluation does not look at the numbers of instances but to find them. So a render that has the
instances under other numbers keeps track of the render that it is compared with, function by
function: each one goes through a render in the same way as its parts do.
-/

namespace Stencil

open Render

namespace Shift

variable {S : Shift} {setting : Setting}

/-- An evaluator keeps track of itself in the second render. -/
structure Level (S : Shift) (setting : Setting) (level : Evaluator) : Prop where
  eval : ∀ scope expr,
    S.Tracks setting S.value (level.eval scope expr) (level.eval (S.scope scope) expr)
  exec : ∀ outer target,
    S.Tracks setting id (level.exec outer target) (level.exec (outer.map S.move) (S.move target))
  nodes : ∀ scope line nodes,
    S.Tracks setting id (level.nodes scope line nodes) (level.nodes (S.scope scope) line nodes)
  value : ∀ scope options value, S.Tracks setting id (level.value scope options value)
    (level.value (S.scope scope) options (S.value value))

/-! ### Definitions -/

/-- An inline template is defined alike in both renders, with the owner that the store has for
it. -/
theorem tracks_inlineDefinition (scope : Scope) (template : Inline Expr Chunk) :
    S.Tracks setting id (inlineDefinition scope template)
      (inlineDefinition (S.scope scope) template) := by
  refine (tracks_getInstance scope.innermost).bind fun data => ?_
  have howner : Store.Carries S.move id
      (Store.inlineOwner template.label data.definition.regionOwner)
      (Store.inlineOwner template.label data.definition.regionOwner) :=
    fun _ _ h => h.inlineOwner _ _
  exact (tracks_onStore howner).then fun owner => tracks_pure rfl

/-- The super-group of an instance's group is the same in both renders. -/
theorem tracks_superGroup (scope : Scope) (name : String) :
    S.Tracks setting id (superGroup scope name) (superGroup (S.scope scope) name) :=
  (tracks_getInstance scope.innermost).bind fun data => tracks_above data.nativeGroup name

/-- A name refers to the same template, or to none, in both renders. -/
theorem tracks_definitionFrom (start : GroupId) (name : String) :
    S.Tracks setting id (definitionFrom start name) (definitionFrom start name) := by
  refine (tracks_lookup start name).then fun found => ?_
  cases found with
  | none => exact tracks_fail _
  | some definition => exact tracks_pure rfl

/-- The search for a region starts in the same group in both renders. -/
theorem tracks_regionStart (scope : Scope) (data : Instance) (name : String) (ascending : Bool) :
    S.Tracks setting id (Evaluator.regionStart scope data name ascending)
      (Evaluator.regionStart (S.scope scope) (S.data scope.innermost data) name ascending) := by
  cases ascending with
  | true => exact tracks_superGroup scope name
  | false => exact tracks_pure rfl

/-! ### Names -/

/-- A missing attribute is reported with the same names in both renders. -/
theorem tracks_noSuchAttribute {α β : Type} {answer : α → β} (scope : Scope) (name : String) :
    S.Tracks setting answer (noSuchAttribute scope name) (noSuchAttribute (S.scope scope) name) :=
  (tracks_getInstance scope.innermost).bind fun _ => tracks_fail _

/-- A property of a value, or of the instance that it is, goes together with that of the renamed
value. -/
theorem tracks_property (value : Value) (name : String) :
    S.Tracks setting S.value (property value name) (property (S.value value) name) := by
  cases value with
  | absent => exact tracks_pure rfl
  | scalar scalar => exact tracks_ownProperty (.scalar scalar) name
  | iterator cursor => exact tracks_ownProperty (.iterator cursor) name
  | list items =>
    have hown : S.Tracks setting S.value (ownProperty (.list items) name)
        (ownProperty (S.value (.list items)) name) := tracks_ownProperty (.list items) name
    rw [Shift.value, Value.rename_list] at *
    exact hown
  | mapping entries =>
    rw [Shift.value, Value.rename_mapping]
    exact tracks_pure (Mapping.lookup_map S.move entries name)
  | template target =>
    refine (tracks_getInstance target).bind fun data => ?_
    simp only [data_attributes, Table.get?_map]
    cases data.attributes.get? name with
    | none => exact tracks_pure rfl
    | some found => exact (tracks_noteRead target name).then fun _ => tracks_pure rfl

/-- A formal argument takes a value from the scope of the call alike in both renders. -/
theorem tracks_bindTaken (target : InstanceId) (formal : Formal Expr) (found : Option Value) :
    S.Tracks setting id (bindTaken target formal found)
      (bindTaken (S.move target) formal (found.map S.value)) := by
  have htaken : formal.taken? (found.map S.value) = (formal.taken? found).map S.value := by
    rcases found with _ | value
    · rfl
    · cases value with
      | absent =>
        change (if formal.default.isSome then none else some Value.absent) =
          (if formal.default.isSome then none else some Value.absent).map S.value
        split <;> rfl
      | scalar _ | list _ | template _ | iterator _ => rfl
      | mapping entries =>
        rw [Option.map_some, Shift.value, Value.rename_mapping]
        simp [Formal.taken?]
  rw [bindTaken, bindTaken, htaken]
  cases formal.taken? found with
  | none => exact tracks_pure rfl
  | some value => exact tracks_bind target formal.name value

/-- A formal argument that is missing is missing in both renders. -/
theorem tracks_requireBound (target : InstanceId) (formals : List (Formal Expr))
    (error : RenderError) :
    S.Tracks setting id (requireBound target formals error)
      (requireBound (S.move target) formals error) := by
  refine (tracks_getInstance target).bind fun data => ?_
  simp only [data_attributes, Table.contains_map]
  exact tracks_failIf _ error

namespace Level

variable {below : Evaluator} (h : S.Level setting below)
include h

/-! ### Writing values -/

/-- The text of a value is that of the renamed value. -/
theorem textOf (scope : Scope) (value : Value) :
    S.Tracks setting id (below.textOf scope value)
      (below.textOf (S.scope scope) (S.value value)) := by
  have habsent : (S.value value).isAbsent = value.isAbsent := Value.isAbsent_rename S.move value
  rw [Evaluator.textOf, Evaluator.textOf, habsent]
  split
  · exact tracks_pure rfl
  · exact (h.value scope {} value).capture

/-- So an option has the same text in both renders. -/
theorem optionText (scope : Scope) (option : Option Expr) :
    S.Tracks setting id (below.optionText scope option)
      (below.optionText (S.scope scope) option) := by
  cases option with
  | none => exact tracks_pure rfl
  | some expr =>
    exact (h.eval scope expr).bind fun value => (h.textOf scope value).then fun _ => tracks_pure rfl

/-- All the options of an expression come to the same in both renders. -/
theorem evalOptions (scope : Scope) (options : Options Expr) :
    S.Tracks setting id (below.evalOptions scope options)
      (below.evalOptions (S.scope scope) options) :=
  (h.optionText scope options.separator).then fun _ =>
    (h.optionText scope options.wrap).then fun _ =>
      (h.optionText scope options.null).then fun _ =>
        (h.optionText scope options.format).then fun _ => tracks_pure rfl

omit h in
/-- A separator is written alike in both renders. -/
theorem writeSeparator (options : WriteOptions) :
    S.Tracks setting id (writeSeparator options) (writeSeparator options) := by
  rw [Render.writeSeparator]
  cases options.separator with
  | none => exact tracks_pure rfl
  | some separator => exact tracks_writing _

omit h in
/-- So is the text of a wrap. -/
theorem writeWrap (options : WriteOptions) :
    S.Tracks setting id (writeWrap options) (writeWrap options) := by
  rw [Render.writeWrap]
  cases options.wrap with
  | none => exact tracks_pure rfl
  | some wrap => exact tracks_writing _

/-- The elements behind the first one are written alike. -/
theorem writeFurther (scope : Scope) (options : WriteOptions) (items : List Value) :
    S.Tracks setting id (below.writeFurther scope options items)
      (below.writeFurther (S.scope scope) options (items.map S.value)) := by
  induction items with
  | nil => exact tracks_pure rfl
  | cons item rest ih =>
    exact (writeSeparator options).then fun _ => (h.value scope options item).then fun _ =>
      ih.then fun _ => tracks_pure rfl

omit h in
/-- The elements that are written are those in the places of the elements that were. -/
theorem map_survivors (null : Option String) (items : List Value) :
    survivors null (items.map S.value) = (survivors null items).map S.value := by
  rw [survivors, survivors, List.filterMap_map, List.map_filterMap]
  refine congrArg (List.filterMap · items) (funext fun item => ?_)
  cases item with
  | absent => cases null <;> rfl
  | scalar _ | list _ | template _ | iterator _ => rfl
  | mapping entries =>
    rw [Function.comp_apply, Shift.value, Value.rename_mapping]
    simp

/-- The elements of a list are written alike. -/
theorem writeElements (scope : Scope) (options : WriteOptions) (items : List Value) :
    S.Tracks setting id (below.writeElements scope options items)
      (below.writeElements (S.scope scope) options (items.map S.value)) := by
  rw [Evaluator.writeElements, Evaluator.writeElements, map_survivors]
  cases survivors options.null items with
  | nil => exact tracks_pure rfl
  | cons item rest =>
    exact (h.value scope options item).then fun _ =>
      (h.writeFurther scope options rest).then fun _ => tracks_pure rfl

/-- A value is written as the renamed value is. -/
theorem writeValue (scope : Scope) (options : WriteOptions) (value : Value) :
    S.Tracks setting id (below.writeValue scope options value)
      (below.writeValue (S.scope scope) options (S.value value)) := by
  cases value with
  | absent =>
    change S.Tracks setting id (below.writeValue scope options .absent)
      (below.writeValue (S.scope scope) options .absent)
    rw [Evaluator.writeValue, Evaluator.writeValue]
    cases options.null with
    | none => exact tracks_pure rfl
    | some null => exact tracks_writing _
  | scalar scalar =>
    exact (tracks_scalarText scope scalar options.format).then fun text => tracks_writing _
  | template target =>
    refine (writeWrap options).then fun _ => ?_
    rw [frames_scope]
    exact (h.exec scope.frames target).then fun _ => tracks_pure rfl
  | list items =>
    rw [Shift.value, Value.rename_list]
    exact h.writeElements scope options items
  | iterator cursor =>
    exact (tracks_onStore (Store.carries_drain cursor)).bind fun items =>
      h.writeElements scope options items
  | mapping entries =>
    have hkeys := h.writeElements scope options entries.keyValues
    rw [Shift.value, Mapping.rename_keyValues] at hkeys
    rw [Shift.value, Value.rename_mapping, Evaluator.writeValue, Evaluator.writeValue,
      Mapping.keyValues_map]
    exact hkeys

/-- An expression is written alike, with its options. -/
theorem writeExpression (scope : Scope) (expr : Expr) (options : Options Expr) :
    S.Tracks setting id (below.writeExpression scope expr options)
      (below.writeExpression (S.scope scope) expr options) :=
  ((h.eval scope expr).leniently _).bind fun value => (h.evalOptions scope options).then
    fun evaluated => (h.value scope evaluated value).anchored options.anchor

/-! ### Looking up names -/

/-- The entries of a literal come to renamed values. -/
theorem evalEntries (scope : Scope) (entries : List (String × Expr)) :
    S.Tracks setting (List.map fun (name, value) => (name, S.value value))
      (below.evalEntries scope entries) (below.evalEntries (S.scope scope) entries) := by
  induction entries with
  | nil => exact tracks_pure rfl
  | cons entry rest ih =>
    exact (h.eval scope entry.2).bind fun value => ih.bind fun _ => tracks_pure rfl

/-- Its fallback comes to a renamed one. -/
theorem evalFallback (scope : Scope) (fallback : Option (Fallback Expr)) :
    S.Tracks setting (Option.map (Fallback.map S.value)) (below.evalFallback scope fallback)
      (below.evalFallback (S.scope scope) fallback) := by
  rcases fallback with _ | _ | expr
  · exact tracks_pure rfl
  · exact tracks_pure rfl
  · exact (h.eval scope expr).bind fun _ => tracks_pure rfl

/-- So a literal comes to a renamed mapping. -/
theorem evalMapping (scope : Scope) (literal : MapLiteral Expr) :
    S.Tracks setting (Mapping.map S.value) (below.evalMapping scope literal)
      (below.evalMapping (S.scope scope) literal) := by
  refine (h.evalEntries scope literal.entries).bind fun entries =>
    (h.evalFallback scope literal.fallback).bind fun fallback => tracks_pure ?_
  rw [Mapping.map, Table.map_insertAll]
  rfl

/-- A default comes to the renamed value, a text if it is one. -/
theorem defaultValue (scope : Scope) (default : Expr) :
    S.Tracks setting S.value (below.defaultValue scope default)
      (below.defaultValue (S.scope scope) default) := by
  have heval := h.eval scope default
  cases default with
  | inline template =>
    rw [Evaluator.defaultValue, Evaluator.defaultValue]
    split
    · refine (tracks_inlineDefinition scope template).then fun definition =>
        (tracks_create scope definition).bind fun target => ?_
      rw [frames_scope]
      exact (h.exec scope.frames target).capture.then fun text => tracks_pure rfl
    · exact heval
  | _ => exact heval

/-- It does so, too, where it may be known already. -/
theorem evalDefault (scope : Scope) (name : String) (default : Expr) :
    S.Tracks setting S.value (below.evalDefault scope name default)
      (below.evalDefault (S.scope scope) name default) := by
  refine (tracks_knownDefault? scope.innermost name).bind fun known => ?_
  cases known with
  | some value => exact tracks_pure rfl
  | none =>
    exact (tracks_noteDefault scope.innermost name .absent).then fun _ =>
      (h.defaultValue scope default).bind fun value =>
        (tracks_noteDefault scope.innermost name value).then fun _ => tracks_pure rfl

/-- A dictionary comes to the renamed mapping. -/
theorem evalDictionary (scope : Scope) (name : String) :
    S.Tracks setting S.value (below.evalDictionary scope name)
      (below.evalDictionary (S.scope scope) name) := by
  refine (tracks_getInstance scope.innermost).bind fun data =>
    (tracks_dictionary? data.nativeGroup name).then fun found => ?_
  cases found with
  | none => exact tracks_noSuchAttribute scope name
  | some literal =>
    exact (h.evalMapping scope literal).bind fun entries =>
      tracks_pure (Value.rename_mapping S.move entries).symm

/-- A name comes to the renamed value, whichever instance decides. -/
theorem resolveIn (scope : Scope) (name : String) (frames : List InstanceId) :
    S.Tracks setting S.value (below.resolveIn scope name frames)
      (below.resolveIn (S.scope scope) name (frames.map S.move)) := by
  induction frames with
  | nil => exact h.evalDictionary scope name
  | cons target outer ih =>
    refine (tracks_getInstance target).bind fun data => ?_
    simp only [lookup_iteration, data_attributes, Table.get?_map, data_definition,
      formal?_definition]
    rcases data.iteration.lookup name with _ | _ | value
    · simp only [Option.map_none]
      cases data.attributes.get? name with
      | some value => exact (tracks_noteRead target name).then fun _ => tracks_pure rfl
      | none =>
        cases data.definition.formal? name with
        | none => exact ih
        | some formal =>
          dsimp only [Option.map_none]
          cases formal.default with
          | none => exact tracks_pure rfl
          | some default => exact h.evalDefault ⟨target, outer⟩ name default
    · exact tracks_noSuchAttribute scope name
    · exact tracks_pure rfl

/-- So a name does in any scope. -/
theorem resolve (scope : Scope) (name : String) :
    S.Tracks setting S.value (below.resolve scope name) (below.resolve (S.scope scope) name) :=
  h.resolveIn scope name scope.frames

/-! ### Binding arguments -/

/-- Positional arguments are bound in both renders, to values that go together. -/
theorem bindPositional (scope : Scope) (target : InstanceId)
    (pairs : List (Formal Expr × Expr)) :
    S.Tracks setting id (below.bindPositional scope target pairs)
      (below.bindPositional (S.scope scope) (S.move target) pairs) := by
  induction pairs with
  | nil => exact tracks_pure rfl
  | cons pair rest ih =>
    exact (h.eval scope pair.2).bind fun value =>
      (tracks_bind target pair.1.name value).then fun _ => ih

/-- So are named arguments. -/
theorem bindNamed (scope : Scope) (target : InstanceId) (definition : Definition)
    (pairs : List (String × Expr)) :
    S.Tracks setting id (below.bindNamed scope target definition pairs)
      (below.bindNamed (S.scope scope) (S.move target) definition pairs) := by
  induction pairs with
  | nil => exact tracks_pure rfl
  | cons pair rest ih =>
    exact (tracks_failIf _ _).then fun _ => (h.eval scope pair.2).bind fun value =>
      (tracks_bind target pair.1 value).then fun _ => ih

/-- So is an argument that is passed through from the scope of the call. -/
theorem passOne (scope : Scope) (target : InstanceId) (formal : Formal Expr) :
    S.Tracks setting id (below.passOne scope target formal)
      (below.passOne (S.scope scope) (S.move target) formal) := by
  refine (tracks_getInstance target).bind fun data => ?_
  simp only [data_attributes, Table.contains_map]
  split
  · exact tracks_pure rfl
  · exact (h.resolve scope formal.name).ifDeclared.bind fun found =>
      tracks_bindTaken target formal found

/-- So are all arguments that are passed through. -/
theorem bindPassed (scope : Scope) (target : InstanceId) (formals : List (Formal Expr)) :
    S.Tracks setting id (below.bindPassed scope target formals)
      (below.bindPassed (S.scope scope) (S.move target) formals) := by
  induction formals with
  | nil => exact tracks_pure rfl
  | cons formal rest ih => exact (h.passOne scope target formal).then fun _ => ih

/-- So are the arguments of a call, with the same checks. -/
theorem bindArguments (scope : Scope) (target : InstanceId) (definition : Definition)
    (arguments : Arguments Expr) (start : Nat) :
    S.Tracks setting id (below.bindArguments scope target definition arguments start)
      (below.bindArguments (S.scope scope) (S.move target) definition arguments start) := by
  rw [Evaluator.bindArguments, Evaluator.bindArguments]
  split
  · exact tracks_pure rfl
  · exact (tracks_failIf _ _).then fun _ => (tracks_failIf _ _).then fun _ =>
      (h.bindPositional scope target _).then fun _ =>
        (h.bindNamed scope target definition _).then fun _ =>
          (h.bindPassed scope target _).then fun _ => tracks_requireBound target _ _

/-! ### Calls and applications -/

/-- A call refers to the same definition in both renders. -/
theorem callee (scope : Scope) (callee : Callee Expr Chunk) :
    S.Tracks setting id (below.callee scope callee) (below.callee (S.scope scope) callee) := by
  cases callee with
  | inline template => exact tracks_inlineDefinition scope template
  | named name =>
    exact (tracks_getInstance scope.innermost).bind fun data =>
      tracks_definitionFrom data.group name
  | inherited name =>
    exact (tracks_superGroup scope name).then fun start => tracks_definitionFrom start name
  | computed expr =>
    exact (h.eval scope expr).bind fun value => (h.textOf scope value).then fun name =>
      (tracks_getInstance scope.innermost).bind fun data => tracks_definitionFrom data.group name

/-- A call creates an instance in both renders, under numbers that go together. -/
theorem call (scope : Scope) (call : Call Expr Chunk) :
    S.Tracks setting S.move (below.call scope call) (below.call (S.scope scope) call) :=
  (h.callee scope call.callee).then fun definition =>
    (tracks_create scope definition).bind fun target =>
      (h.bindArguments scope target definition call.arguments 0).then fun _ => tracks_pure rfl

omit h in
/-- The element of an application is bound in both renders. -/
theorem bindFirst (target : InstanceId) (formals : List (Formal Expr))
    (named : List (String × Expr)) (item : Value) :
    S.Tracks setting id (Evaluator.bindFirst target formals named item)
      (Evaluator.bindFirst (S.move target) formals named (S.value item)) := by
  cases formals with
  | nil => exact tracks_pure rfl
  | cons first rest =>
    rw [Evaluator.bindFirst, Evaluator.bindFirst]
    split
    · exact tracks_pure rfl
    · exact tracks_bind target first.name item

/-- An application creates an instance for an element in both renders. -/
theorem applyOne (scope : Scope) (call : Call Expr Chunk) (item : Value) (index : Nat) :
    S.Tracks setting S.move (below.applyOne scope call item index)
      (below.applyOne (S.scope scope) call (S.value item) index) :=
  (h.callee scope call.callee).then fun definition =>
    (tracks_create scope definition).bind fun target => (tracks_failIf _ _).then fun _ =>
      (tracks_bindVariables target (("it", some item) :: Evaluator.numbering index)).then fun _ =>
        (bindFirst target _ _ item).then fun _ =>
          (h.bindArguments scope target definition call.arguments 1).then fun _ =>
            tracks_pure rfl

/-- It does so for all elements of a collection, and the calls take turns alike. -/
theorem applyItems (scope : Scope) (first : Call Expr Chunk) (more : List (Call Expr Chunk))
    (index : Nat) (items : List Value) :
    S.Tracks setting (List.map S.value) (below.applyItems scope first more index items)
      (below.applyItems (S.scope scope) first more index (items.map S.value)) := by
  induction items generalizing index with
  | nil => exact tracks_pure rfl
  | cons item rest ih =>
    have hcons : S.Tracks setting (List.map S.value)
        (do
          let target ← below.applyOne scope (Evaluator.turn first more index) item index
          return .template target :: (← below.applyItems scope first more (index + 1) rest))
        (do
          let target ← below.applyOne (S.scope scope) (Evaluator.turn first more index)
            (S.value item) index
          return .template target ::
            (← below.applyItems (S.scope scope) first more (index + 1) (rest.map S.value))) :=
      (h.applyOne scope _ item index).bind fun target => (ih (index + 1)).bind fun _ =>
        tracks_pure rfl
    cases item with
    | absent => exact (ih index).bind fun _ => tracks_pure rfl
    | scalar _ | template _ | iterator _ => exact hcons
    | list items =>
      rw [List.map_cons, Shift.value, Value.rename_list] at *
      exact hcons
    | mapping entries =>
      rw [List.map_cons, Shift.value, Value.rename_mapping] at *
      exact hcons

/-- An application to one driver comes to the renamed value. -/
theorem apply (scope : Scope) (driver : Value) (calls : List (Call Expr Chunk)) :
    S.Tracks setting S.value (below.apply scope driver calls)
      (below.apply (S.scope scope) (S.value driver) calls) := by
  cases calls with
  | nil => exact tracks_pure rfl
  | cons first more =>
    have habsent : (S.value driver).isAbsent = driver.isAbsent :=
      Value.isAbsent_rename S.move driver
    rw [Evaluator.apply, Evaluator.apply, habsent]
    split
    · exact tracks_pure rfl
    · refine (tracks_onStore (Value.carries_elements? S.move driver)).bind fun found => ?_
      cases found with
      | none => exact (h.applyOne scope first driver 0).bind fun _ => tracks_pure rfl
      | some items =>
        exact (h.applyItems scope first more 0 items).bind fun values =>
          tracks_pure (Value.rename_list S.move values).symm

omit h in
/-- A renamed driver has the renamed elements. -/
theorem carries_column (driver : Value) :
    Store.Carries S.move (List.map S.value) (Evaluator.column driver)
      (Evaluator.column (S.value driver)) := by
  refine (Value.carries_elements? S.move driver).bind fun found => ?_
  cases found with
  | some items => exact Store.carries_pure rfl
  | none =>
    refine Store.carries_pure ?_
    have habsent : (S.value driver).isAbsent = driver.isAbsent :=
      Value.isAbsent_rename S.move driver
    rw [habsent]
    split <;> rfl

omit h in
/-- So have several renamed drivers, one after the other. -/
theorem carries_columns (drivers : List Value) :
    Store.Carries S.move (List.map (List.map S.value)) (Evaluator.columns drivers)
      (Evaluator.columns (drivers.map S.value)) := by
  induction drivers with
  | nil => exact Store.carries_pure rfl
  | cons driver rest ih =>
    exact (carries_column driver).bind fun _ => ih.bind fun _ => Store.carries_pure rfl

omit h in
/-- The elements of a row are bound in both renders. -/
theorem bindRow (target : InstanceId) (index : Nat) (cells : List (String × List Value)) :
    S.Tracks setting id (Evaluator.bindRow target index cells)
      (Evaluator.bindRow (S.move target) index
        (cells.map fun (name, items) => (name, items.map S.value))) := by
  induction cells with
  | nil => exact tracks_pure rfl
  | cons cell rest ih =>
    obtain ⟨name, items⟩ := cell
    simp only [List.map_cons, Evaluator.bindRow, List.getElem?_map]
    cases items[index]? with
    | none => exact ih.then fun _ => tracks_pure rfl
    | some value => exact (tracks_bind target name value).then fun _ => ih

/-- An application creates an instance for a row in both renders. -/
theorem applyRow (scope : Scope) (definition : Definition) (arguments : Arguments Expr)
    (cells : List (String × List Value)) (index : Nat) :
    S.Tracks setting S.move (below.applyRow scope definition arguments cells index)
      (below.applyRow (S.scope scope) definition arguments
        (cells.map fun (name, items) => (name, items.map S.value)) index) := by
  refine (tracks_create scope definition).bind fun target =>
    (bindRow target index cells).then fun exhausted => tracks_isLenient.then fun lenient => ?_
  have hvariables : S.Tracks setting id
      (bindVariables target
        (Evaluator.numbering index ++ if lenient then [] else exhausted.map (·, none)))
      (bindVariables (S.move target)
        (Evaluator.numbering index ++ if lenient then [] else exhausted.map (·, none))) := by
    have hmapped : S.Tracks setting id _ _ := tracks_bindVariables target
      (Evaluator.numbering index ++ if lenient then [] else exhausted.map (·, none))
    rw [List.map_append] at hmapped
    cases lenient with
    | true => exact hmapped
    | false =>
      simp only [Bool.false_eq_true, if_false, List.map_map] at hmapped ⊢
      exact hmapped
  have hlength : (cells.map fun (name, items) => (name, items.map S.value)).length =
      cells.length := List.length_map _
  rw [hlength]
  exact hvariables.then fun _ =>
    (h.bindArguments scope target definition arguments cells.length).then fun _ => tracks_pure rfl

/-- It does so for all rows. -/
theorem applyRows (scope : Scope) (definition : Definition) (arguments : Arguments Expr)
    (cells : List (String × List Value)) (index count : Nat) :
    S.Tracks setting (List.map S.value)
      (below.applyRows scope definition arguments cells index count)
      (below.applyRows (S.scope scope) definition arguments
        (cells.map fun (name, items) => (name, items.map S.value)) index count) := by
  induction count generalizing index with
  | zero => exact tracks_pure rfl
  | succ count ih =>
    exact (h.applyRow scope definition arguments cells index).bind fun _ =>
      (ih (index + 1)).bind fun _ => tracks_pure rfl

/-- An application to several drivers comes to the renamed value. -/
theorem applyParallel (scope : Scope) (drivers : List Value) (calls : List (Call Expr Chunk)) :
    S.Tracks setting S.value (below.applyParallel scope drivers calls)
      (below.applyParallel (S.scope scope) (drivers.map S.value) calls) := by
  match calls with
  | [] | _ :: _ :: _ => exact tracks_fail _
  | [call] =>
    rw [Evaluator.applyParallel, Evaluator.applyParallel]
    refine (h.callee scope call.callee).then fun definition => ?_
    rw [List.length_map]
    refine (tracks_failIf _ _).then fun _ =>
      (tracks_onStore (carries_columns drivers)).bind fun columns => ?_
    have hrows : (columns.map (List.map S.value)).map List.length = columns.map List.length := by
      simp [Function.comp_def]
    have hcells : definition.parameterNames.zip (columns.map (List.map S.value)) =
        (definition.parameterNames.zip columns).map
          fun (name, items) => (name, items.map S.value) := by
      rw [List.zip_map_right]
      rfl
    rw [hrows, hcells]
    exact (h.applyRows scope definition call.arguments _ 0 _).bind fun values =>
      tracks_pure (Value.rename_list S.move values).symm

/-! ### Expressions -/

/-- Several expressions come to renamed values. -/
theorem evalAll (scope : Scope) (exprs : List Expr) :
    S.Tracks setting (List.map S.value) (below.evalAll scope exprs)
      (below.evalAll (S.scope scope) exprs) := by
  induction exprs with
  | nil => exact tracks_pure rfl
  | cons expr rest ih => exact (h.eval scope expr).bind fun _ => ih.bind fun _ => tracks_pure rfl

/-- Several renamed values have the same texts. -/
theorem textOfAll (scope : Scope) (values : List Value) :
    S.Tracks setting id (below.textOfAll scope values)
      (below.textOfAll (S.scope scope) (values.map S.value)) := by
  induction values with
  | nil => exact tracks_pure rfl
  | cons value rest ih =>
    exact (h.textOf scope value).then fun _ => ih.then fun _ => tracks_pure rfl

/-- Put together, renamed values come to the renamed value. -/
theorem concat (scope : Scope) (values : List Value) :
    S.Tracks setting S.value (below.concat scope values)
      (below.concat (S.scope scope) (values.map S.value)) := by
  have hsequence : (values.map S.value).any Value.isSequence = values.any Value.isSequence := by
    rw [List.any_map]
    exact congrArg values.any (funext fun value => Value.isSequence_rename S.move value)
  rw [Evaluator.concat, Evaluator.concat, hsequence]
  split
  · exact (tracks_onStore (Value.carries_spliced S.move values)).bind fun items =>
      tracks_pure (Value.rename_list S.move items).symm
  · exact (h.textOfAll scope values).then fun _ => tracks_pure rfl

/-- A test holds in both renders or in neither. -/
theorem holds (scope : Scope) (expr : Expr) :
    S.Tracks setting id (below.holds scope expr) (below.holds (S.scope scope) expr) :=
  (h.eval scope expr).bind fun value => tracks_truthy value

/-- An expression comes to the renamed value. -/
theorem evalExpr (scope : Scope) (expr : Expr) :
    S.Tracks setting S.value (below.evalExpr scope expr)
      (below.evalExpr (S.scope scope) expr) := by
  match expr with
  | .attribute name => exact h.resolve scope name
  | .string _ | .bool _ => exact tracks_pure rfl
  | .property target name =>
    exact (h.eval scope target).bind fun value => tracks_property value name
  | .computedProperty target name =>
    exact (h.eval scope target).bind fun value => (h.eval scope name).bind fun key =>
      (h.textOf scope key).then fun name => tracks_property value name
  | .call call => exact (h.call scope call).bind fun _ => tracks_pure rfl
  | .apply drivers calls =>
    match drivers with
    | [driver] => exact (h.eval scope driver).bind fun value => h.apply scope value calls
    | [] | _ :: _ :: _ =>
      exact (h.evalAll scope _).bind fun values => h.applyParallel scope values calls
  | .inline template =>
    exact (tracks_inlineDefinition scope template).then fun definition =>
      (tracks_create scope definition).bind fun _ => tracks_pure rfl
  | .mapping literal =>
    exact (h.evalMapping scope literal).bind fun entries =>
      tracks_pure (Value.rename_mapping S.move entries).symm
  | .concat items =>
    exact (h.evalAll scope items).bind fun values => h.concat scope values
  | .operator operator operand =>
    exact (h.eval scope operand).bind fun value =>
      tracks_onStore (Value.carries_apply S.move operator value)
  | .rendered inner =>
    exact (h.eval scope inner).bind fun value => (h.textOf scope value).then fun _ =>
      tracks_pure rfl
  | .not inner => exact (h.holds scope inner).then fun _ => tracks_pure rfl
  | .and left right =>
    refine (h.holds scope left).then fun truth => ?_
    cases truth with
    | true => exact (h.holds scope right).then fun _ => tracks_pure rfl
    | false => exact tracks_pure rfl
  | .or left right =>
    refine (h.holds scope left).then fun truth => ?_
    cases truth with
    | true => exact tracks_pure rfl
    | false => exact (h.holds scope right).then fun _ => tracks_pure rfl

/-! ### Bodies -/

/-- The same branch is taken in both renders. -/
theorem choose (scope : Scope) (otherwise : List Node) (branches : List (Branch Expr Node)) :
    S.Tracks setting id (below.choose scope otherwise branches)
      (below.choose (S.scope scope) otherwise branches) := by
  induction branches with
  | nil => exact tracks_pure rfl
  | cons branch rest ih =>
    refine (h.holds scope branch.test).then fun truth => ?_
    cases truth with
    | true => exact tracks_pure rfl
    | false => exact ih

/-- A region is written alike in both renders. -/
theorem writeRegion (scope : Scope) (region : String) (ascending : Bool) :
    S.Tracks setting id (below.writeRegion scope region ascending)
      (below.writeRegion (S.scope scope) region ascending) := by
  refine (tracks_getInstance scope.innermost).bind fun data =>
    (tracks_regionStart scope data _ ascending).then fun start =>
      (tracks_lookup start _).then fun found => ?_
  cases found with
  | some definition =>
    refine (tracks_create scope definition).bind fun target => ?_
    rw [frames_scope]
    exact h.exec scope.frames target
  | none =>
    cases ascending with
    | true => exact tracks_fail _
    | false => exact tracks_pure rfl

omit h in
/-- A line break is written in both renders or in neither. -/
theorem writeBreak (line : Line) :
    S.Tracks setting id (Evaluator.writeBreak line) (Evaluator.writeBreak line) := by
  rw [Evaluator.writeBreak]
  split
  · exact tracks_writing _
  · exact tracks_pure rfl

/-- A node is written alike. -/
theorem writeNode (scope : Scope) (line : Line) (node : Node) :
    S.Tracks setting id (below.writeNode scope line node)
      (below.writeNode (S.scope scope) line node) := by
  cases node with
  | text text => exact (tracks_writing _).then fun _ => tracks_pure rfl
  | newline => exact (writeBreak line).then fun _ => tracks_pure rfl
  | expression expr options indent =>
    exact ((h.writeExpression scope expr options).indented indent).then fun _ => tracks_pure rfl
  | conditional branches otherwise indent =>
    exact (h.choose scope otherwise branches).then fun body =>
      (h.nodes scope { line with fresh := false } body).indented indent
  | region name ascending indent =>
    exact ((h.writeRegion scope name ascending).indented indent).then fun _ => tracks_pure rfl

/-- So are nodes one after the other. -/
theorem writeNodes (scope : Scope) (line : Line) (nodes : List Node) :
    S.Tracks setting id (below.writeNodes scope line nodes)
      (below.writeNodes (S.scope scope) line nodes) := by
  induction nodes generalizing line with
  | nil => exact tracks_pure rfl
  | cons node rest ih =>
    exact (h.writeNode scope line node).then fun outcome => (ih outcome.2).then fun _ =>
      tracks_pure rfl

/-- An instance is written as the instance that goes together with it. -/
theorem writeInstance (outer : List InstanceId) (target : InstanceId) :
    S.Tracks setting id (below.writeInstance outer target)
      (below.writeInstance (outer.map S.move) (S.move target)) := by
  refine (tracks_getInstance target).bind fun data => Tracks.guarded fun hbody =>
    (tracks_noteWritten target).then fun _ => ?_
  rw [data_definition, definition_of_isNone _ _ hbody]
  exact (h.nodes ⟨target, outer⟩ {} data.definition.nodes).then fun _ => tracks_pure rfl

/-- One more level keeps track of itself if the level below does. -/
theorem next : S.Level setting below.next where
  eval := h.evalExpr
  exec := h.writeInstance
  nodes := h.writeNodes
  value := h.writeValue

end Level

/-- Every evaluator keeps track of itself. -/
theorem level_upTo (S : Shift) (setting : Setting) (fuel : Nat) :
    S.Level setting (Evaluator.upTo fuel) := by
  induction fuel with
  | zero =>
    exact ⟨fun _ _ => tracks_throw _, fun _ _ => tracks_throw _, fun _ _ _ => tracks_throw _,
      fun _ _ _ => tracks_throw _⟩
  | succ fuel ih => exact ⟨ih.next.eval, ih.next.exec, ih.next.nodes, ih.next.value⟩

end Shift

end Stencil
