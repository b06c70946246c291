import Stencil.Proofs.Render.Rounds

/-!
# Which arguments can be bound

The arguments of a call are checked before they are bound to a fresh instance, while they are bound,
and afterwards. There may not be more positional arguments than formal ones are open to them; a lone
one is only for a template with one formal argument; what is named has to be accepted; and if
anything is given by position, no formal argument without a default may be missing in the end. The
first check that fails decides the error. Otherwise each formal argument holds what the rounds have
for it.
-/

namespace Stencil

open Render

/-- There are no more positional arguments than formal arguments that are open to them. -/
def Arguments.Fits (arguments : Arguments Expr) (definition : Definition) (start : Nat) : Prop :=
  arguments.positional.length ≤ (definition.parameters.drop start).length

/-- A call with nothing but one positional argument is one of a template with one formal
argument. -/
def Arguments.Aims (arguments : Arguments Expr) (definition : Definition) (start : Nat) : Prop :=
  start = 0 → arguments.positional.length = 1 → arguments.named = [] →
    definition.parameters.length = 1

/-- A call misses its aim if all it has is one positional argument where there is not one formal
argument. -/
theorem Arguments.aims_iff {arguments : Arguments Expr} {definition : Definition} {start : Nat} :
    arguments.Aims definition start ↔ ¬ (start = 0 ∧ arguments.positional.length = 1 ∧
      arguments.named.isEmpty ∧ definition.parameters.length ≠ 1) := by
  rw [List.isEmpty_iff]
  constructor
  · rintro h ⟨hstart, hlone, hnamed, hseveral⟩
    exact hseveral (h hstart hlone hnamed)
  · intro h hstart hlone hnamed
    by_contra hseveral
    exact h ⟨hstart, hlone, hnamed, hseveral⟩

/-- Every argument that is given by name is accepted. -/
def Arguments.Accepted (arguments : Arguments Expr) (definition : Definition) : Prop :=
  ∀ entry ∈ arguments.named, definition.accepts entry.1

/-- Where not every named argument is accepted, there is a first one that is not. -/
theorem Arguments.exists_not_accepted {arguments : Arguments Expr} {definition : Definition}
    (h : ¬ arguments.Accepted definition) :
    ∃ earlier name expr later, arguments.named = earlier ++ (name, expr) :: later ∧
      (∀ entry ∈ earlier, definition.accepts entry.1) ∧ definition.accepts name = false := by
  have hsome : (arguments.named.find? fun entry => !definition.accepts entry.1).isSome := by
    simpa [Arguments.Accepted] using h
  obtain ⟨⟨name, expr⟩, hfound⟩ := Option.isSome_iff_exists.mp hsome
  obtain ⟨hname, earlier, later, hsplit, hearlier⟩ := List.find?_eq_some_iff_append.mp hfound
  refine ⟨earlier, name, expr, later, hsplit, fun entry hentry => ?_, by simpa using hname⟩
  simpa using hearlier entry hentry

/-- The error of a call that gives too many arguments or too few. -/
def Arguments.mismatch (arguments : Arguments Expr) (definition : Definition) (start : Nat) :
    RenderError :=
  .argumentMismatch definition.name definition.parameters.length
    (arguments.positional.length + start)

namespace Evaluator

variable (below : Evaluator) (setting : Setting) (scope : Scope) (id : InstanceId)

/-- The arguments of a call can be evaluated: what they come to, round by round. -/
structure Supply (definition : Definition) (arguments : Arguments Expr) (start : Nat)
    (begun : Run) where
  /-- What is given by position, under the names of the formal arguments in their order. -/
  positional : List (String × Value)
  afterPositional : Run
  /-- What is given by name. -/
  named : List (String × Value)
  afterNamed : Run
  /-- What the scope of the call has, if it is passed through. -/
  passed : List (String × Value)
  ended : Run
  supplies_positional : below.Supplies setting scope id
    ((definition.parameterNames.drop start).zip arguments.positional) begun positional
    afterPositional
  supplies_named : below.Supplies setting scope id arguments.named afterPositional named afterNamed
  passes : below.Passes setting scope id
    (if arguments.passThrough then definition.parameters else []) afterNamed passed ended

/-- An instance is there, and none of the formal arguments that are open to positional ones is set.
The names of the formal arguments are distinct. -/
structure Fresh (id : InstanceId) (definition : Definition) (start : Nat) (run : Run) : Prop where
  distinct : definition.parameterNames.Nodup
  stands : ∃ data, run.instances[id.index]? = some data
  unset : ∀ formal ∈ definition.parameters.drop start, run.attribute? id formal.name = none

namespace Supply

variable {below setting scope id} {definition : Definition} {arguments : Arguments Expr}
variable {start : Nat} {begun : Run}

/-- What a formal argument holds in the end: its last named argument, else its positional one, else
what it takes from the scope of the call. -/
def held? (supply : below.Supply setting scope id definition arguments start begun)
    (formal : Formal Expr) : Option Value :=
  (supply.named.reverse.lookup formal.name).or
    ((supply.positional.lookup formal.name).or
      (formal.taken? (supply.passed.lookup formal.name)))

/-- If anything is given by position, all formal arguments without a default hold something. -/
def Complete (supply : below.Supply setting scope id definition arguments start begun) : Prop :=
  arguments.positional ≠ [] → ∀ formal ∈ definition.parameters.drop start,
    formal.default = none → (supply.held? formal).isSome

end Supply

section

variable {below : Evaluator} {setting : Setting} {scope : Scope} {id : InstanceId}
variable {run : Run} {data : Instance} {formals : List (Formal Expr)}

/-- An instance is complete if each formal argument without a default holds something. -/
theorem requireBound_apply (hown : run.instances[id.index]? = some data) (error : RenderError) :
    requireBound id formals error setting run = failIf (formals.any fun formal =>
      formal.default.isNone && !(run.attribute? id formal.name).isSome) error setting run := by
  rw [requireBound, bind_apply_ok _ _ (getInstance_apply_some _ _ hown)]
  simp only [Run.attribute?_eq hown]
  rfl

variable {definition : Definition} {arguments : Arguments Expr} {start : Nat}

/-- That nothing is done if there are no arguments at all makes no difference to an instance that
is there. -/
theorem bindArguments_apply (hown : run.instances[id.index]? = some data) :
    below.bindArguments scope id definition arguments start setting run = (do
      let free := definition.parameters.drop start
      let mismatch := arguments.mismatch definition start
      failIf (arguments.positional.length > free.length) mismatch
      failIf (start = 0 ∧ arguments.positional.length = 1 ∧ arguments.named.isEmpty ∧
        definition.parameters.length ≠ 1) mismatch
      below.bindPositional scope id (free.zip arguments.positional)
      below.bindNamed scope id definition arguments.named
      below.bindPassed scope id (if arguments.passThrough then definition.parameters else [])
      requireBound id (if arguments.positional.length = 0 then [] else free) mismatch :
        Render Unit) setting run := by
  rw [bindArguments]
  split
  · next hempty =>
    simp only [Arguments.isEmpty, Bool.and_eq_true, List.isEmpty_iff, Bool.not_eq_true'] at hempty
    obtain ⟨⟨hpositional, hnamed⟩, hpass⟩ := hempty
    simp [hpositional, hnamed, hpass, failIf, bindPositional, bindNamed, bindPassed,
      requireBound_apply hown]
  · rfl

end

/-! ### Which check decides -/

/-- A check that does not fail leaves everything as it is. -/
theorem failIf_of_not {condition : Prop} [Decidable condition] {error : RenderError}
    {setting : Setting} {run : Run} (h : ¬ condition) :
    failIf (decide condition) error setting run = (.ok (), run) := by
  rw [decide_eq_false h]
  rfl

/-- A check that fails does so with its error. -/
theorem failIf_of {condition : Prop} [Decidable condition] {error : RenderError}
    {setting : Setting} {run : Run} (h : condition) :
    failIf (decide condition) error setting run = (.error (.failed error), run) := by
  rw [decide_eq_true h]
  rfl

namespace Supply

variable {fuel : Nat} {setting : Setting} {scope : Scope} {id : InstanceId}
variable {definition : Definition} {arguments : Arguments Expr} {start : Nat} {begun : Run}
variable (supply : (upTo fuel).Supply setting scope id definition arguments start begun)

include supply

/-- The values that are given by position belong to formal arguments with distinct names. -/
theorem nodup_positional (hfresh : Fresh id definition start begun) :
    (supply.positional.map Prod.fst).Nodup := by
  rw [supply.supplies_positional.names]
  refine hfresh.distinct.sublist (.trans ?_ (List.drop_sublist start _))
  rw [List.zip_eq_zip_take_min, List.map_fst_zip (by simp)]
  exact List.take_sublist _ _

/-- After the named arguments the instance is still there. -/
theorem stands_afterNamed (hfresh : Fresh id definition start begun) :
    ∃ data, supply.afterNamed.instances[id.index]? = some data := by
  obtain ⟨_, hown⟩ := hfresh.stands
  obtain ⟨_, hown'⟩ := (supply.supplies_positional.attribute? hown).1.own hown
  obtain ⟨_, hown''⟩ := (supply.supplies_named.attribute? hown').1.own hown'
  exact ⟨_, hown''⟩

/-- In the end the instance is there, and it holds what each round has for it. -/
theorem ended_ok (hfresh : Fresh id definition start begun) :
    (∃ data, supply.ended.instances[id.index]? = some data) ∧
      ∀ formal ∈ definition.parameters.drop start,
        supply.ended.attribute? id formal.name = supply.held? formal := by
  obtain ⟨_, hbegun⟩ := hfresh.stands
  obtain ⟨_, hown⟩ := supply.stands_afterNamed hfresh
  obtain ⟨hfirst, hpositional⟩ := supply.supplies_positional.attribute? hbegun
  obtain ⟨_, hmid⟩ := hfirst.own hbegun
  obtain ⟨-, hnamed⟩ := supply.supplies_named.attribute? hmid
  have hgiven (formal : Formal Expr) (hformal : formal ∈ definition.parameters.drop start) :
      supply.afterNamed.attribute? id formal.name =
        (supply.named.reverse.lookup formal.name).or
          (supply.positional.lookup formal.name) := by
    rw [hnamed, hpositional, hfresh.unset formal hformal, Option.or_none,
      lookup_reverse (supply.nodup_positional hfresh)]
  have hpasses := supply.passes
  by_cases hpass : arguments.passThrough
  · rw [if_pos hpass] at hpasses
    obtain ⟨hthird, -, htaken⟩ := hpasses.receives hown hfresh.distinct
    obtain ⟨_, hown⟩ := hthird.own hown
    refine ⟨⟨_, hown⟩, fun formal hformal => ?_⟩
    rw [htaken formal (List.mem_of_mem_drop hformal), hgiven formal hformal, Option.or_assoc, held?]
  · rw [if_neg hpass] at hpasses
    obtain ⟨hended, hpassed⟩ : supply.afterNamed = supply.ended ∧ supply.passed = [] := by
      generalize supply.ended = ended at hpasses
      generalize supply.passed = passed at hpasses
      cases hpasses
      exact ⟨rfl, rfl⟩
    refine ⟨⟨_, hended ▸ hown⟩, fun formal hformal => ?_⟩
    have hnothing : formal.taken? none = none := rfl
    rw [← hended, hgiven formal hformal, held?, hpassed, List.lookup_nil, hnothing, Option.or_none]

/-- Where the checks before the first round hold, the second round follows. -/
theorem bindArguments_given (hfresh : Fresh id definition start begun)
    (hfits : arguments.Fits definition start) (haims : arguments.Aims definition start) :
    (upTo fuel).bindArguments scope id definition arguments start setting begun = (do
      (upTo fuel).bindNamed scope id definition arguments.named
      (upTo fuel).bindPassed scope id (if arguments.passThrough then definition.parameters else [])
      requireBound id
        (if arguments.positional.length = 0 then [] else definition.parameters.drop start)
        (arguments.mismatch definition start) : Render Unit) setting supply.afterPositional := by
  obtain ⟨_, hown⟩ := hfresh.stands
  have hpositional := supply.supplies_positional
  rw [Definition.parameterNames, ← List.map_drop, List.zip_map_left] at hpositional
  rw [bindArguments_apply hown, bind_apply_ok _ _ (failIf_of_not (Nat.not_lt.mpr hfits)),
    bind_apply_ok _ _ (failIf_of_not (Arguments.aims_iff.mp haims)),
    bind_apply_ok _ _ hpositional.bindPositional]

/-- Where the checks before the last round hold, the last one decides. -/
theorem bindArguments_accepted (hfresh : Fresh id definition start begun)
    (hfits : arguments.Fits definition start) (haims : arguments.Aims definition start)
    (haccepted : arguments.Accepted definition) :
    (upTo fuel).bindArguments scope id definition arguments start setting begun =
      requireBound id
        (if arguments.positional.length = 0 then [] else definition.parameters.drop start)
        (arguments.mismatch definition start) setting supply.ended := by
  obtain ⟨_, hown⟩ := supply.stands_afterNamed hfresh
  rw [supply.bindArguments_given hfresh hfits haims,
    bind_apply_ok _ _ (supply.supplies_named.bindNamed haccepted),
    bind_apply_ok _ _ (supply.passes.bindPassed hown)]

/-- The last check finds out whether a formal argument holds nothing that has to. -/
theorem complete_iff (hfresh : Fresh id definition start begun) :
    ((if arguments.positional.length = 0 then [] else definition.parameters.drop start).any
      fun formal => formal.default.isNone &&
        !(supply.ended.attribute? id formal.name).isSome) = false ↔ supply.Complete := by
  obtain ⟨-, hheld⟩ := supply.ended_ok hfresh
  by_cases hnone : arguments.positional = []
  · simp [hnone, Complete]
  · have hlength : arguments.positional.length ≠ 0 := mt List.length_eq_zero_iff.mp hnone
    rw [if_neg hlength, List.any_eq_false]
    constructor
    · intro h _ formal hformal hdefault
      simpa [hdefault, hheld formal hformal, Option.isSome_iff_ne_none] using h formal hformal
    · intro h formal hformal
      rw [hheld formal hformal]
      cases hdefault : formal.default with
      | none => simp [h hnone formal hformal hdefault]
      | some default => simp

/-- Where no check fails the arguments are bound. -/
theorem bindArguments_of_complete (hfresh : Fresh id definition start begun)
    (hfits : arguments.Fits definition start) (haims : arguments.Aims definition start)
    (haccepted : arguments.Accepted definition) (hcomplete : supply.Complete) :
    (upTo fuel).bindArguments scope id definition arguments start setting begun =
      (.ok (), supply.ended) := by
  obtain ⟨⟨_, hended⟩, -⟩ := supply.ended_ok hfresh
  rw [supply.bindArguments_accepted hfresh hfits haims haccepted, requireBound_apply hended,
    (supply.complete_iff hfresh).mpr hcomplete]
  rfl

/-- Where a formal argument is left without a value the call fails in the end. -/
theorem bindArguments_of_not_complete (hfresh : Fresh id definition start begun)
    (hfits : arguments.Fits definition start) (haims : arguments.Aims definition start)
    (haccepted : arguments.Accepted definition) (hcomplete : ¬ supply.Complete) :
    (upTo fuel).bindArguments scope id definition arguments start setting begun =
      (.error (.failed (arguments.mismatch definition start)), supply.ended) := by
  obtain ⟨⟨_, hended⟩, -⟩ := supply.ended_ok hfresh
  have hmissing := Bool.of_not_eq_false (mt (supply.complete_iff hfresh).mp hcomplete)
  rw [supply.bindArguments_accepted hfresh hfits haims haccepted, requireBound_apply hended,
    hmissing]
  rfl

/-- Where an argument that is given by name is not accepted, the first such one decides. -/
theorem bindArguments_of_not_accepted (hfresh : Fresh id definition start begun)
    (hfits : arguments.Fits definition start) (haims : arguments.Aims definition start)
    {earlier later : List (String × Expr)} {name : String} {expr : Expr}
    (hsplit : arguments.named = earlier ++ (name, expr) :: later)
    (hearlier : ∀ entry ∈ earlier, definition.accepts entry.1)
    (hname : definition.accepts name = false) :
    ((upTo fuel).bindArguments scope id definition arguments start setting begun).1 =
      .error (.failed (.noSuchAttribute name definition.name)) := by
  have hnamed := supply.supplies_named
  rw [hsplit] at hnamed
  obtain ⟨after, herror⟩ := hnamed.bindNamed_error hearlier hname
  rw [supply.bindArguments_given hfresh hfits haims, hsplit, bind_apply_error _ _ herror]

end Supply

section

variable {below : Evaluator} {setting : Setting} {scope : Scope} {id : InstanceId}
variable {definition : Definition} {arguments : Arguments Expr} {start : Nat} {begun : Run}

/-- Where there are too many positional arguments the call fails before anything is evaluated. -/
theorem bindArguments_of_not_fits (hfresh : Fresh id definition start begun)
    (hfits : ¬ arguments.Fits definition start) :
    below.bindArguments scope id definition arguments start setting begun =
      (.error (.failed (arguments.mismatch definition start)), begun) := by
  obtain ⟨_, hown⟩ := hfresh.stands
  rw [bindArguments_apply hown,
    bind_apply_error _ _ (failIf_of (Nat.lt_of_not_le hfits))]

/-- So it does where its one positional argument has no aim. -/
theorem bindArguments_of_not_aims (hfresh : Fresh id definition start begun)
    (hfits : arguments.Fits definition start) (haims : ¬ arguments.Aims definition start) :
    below.bindArguments scope id definition arguments start setting begun =
      (.error (.failed (arguments.mismatch definition start)), begun) := by
  obtain ⟨_, hown⟩ := hfresh.stands
  have hastray := not_not.mp (mt Arguments.aims_iff.mpr haims)
  rw [bindArguments_apply hown, bind_apply_ok _ _ (failIf_of_not (Nat.not_lt.mpr hfits)),
    bind_apply_error _ _ (failIf_of hastray)]

/-- The arguments are bound if and only if no check fails. -/
theorem Supply.bindArguments_ok_iff {fuel : Nat}
    (supply : (upTo fuel).Supply setting scope id definition arguments start begun)
    (hfresh : Fresh id definition start begun) :
    ((upTo fuel).bindArguments scope id definition arguments start setting begun).1 = .ok () ↔
      arguments.Fits definition start ∧ arguments.Aims definition start ∧
        arguments.Accepted definition ∧ supply.Complete := by
  constructor
  · intro hok
    by_cases hfits : arguments.Fits definition start
    · by_cases haims : arguments.Aims definition start
      · by_cases haccepted : arguments.Accepted definition
        · refine ⟨hfits, haims, haccepted, ?_⟩
          by_contra hcomplete
          rw [supply.bindArguments_of_not_complete hfresh hfits haims haccepted hcomplete] at hok
          cases hok
        · obtain ⟨earlier, name, expr, later, hsplit, hearlier, hname⟩ :=
            Arguments.exists_not_accepted haccepted
          rw [supply.bindArguments_of_not_accepted hfresh hfits haims hsplit hearlier hname] at hok
          cases hok
      · rw [bindArguments_of_not_aims hfresh hfits haims] at hok
        cases hok
    · rw [bindArguments_of_not_fits hfresh hfits] at hok
      cases hok
  · rintro ⟨hfits, haims, haccepted, hcomplete⟩
    rw [supply.bindArguments_of_complete hfresh hfits haims haccepted hcomplete]

end

/-! ### Calls that can be evaluated -/

/-- Whenever the arguments of a call are bound, their expressions come to values, and the names that
are passed through come to values or are declared by nothing. -/
structure Willing (below : Evaluator) (setting : Setting) (scope : Scope) (id : InstanceId)
    (definition : Definition) (arguments : Arguments Expr) (begun : Run) : Prop where
  positional : ∀ expr ∈ arguments.positional, ∀ run, begun.Fills id run →
    ∃ value after, below.eval scope expr setting run = (.ok value, after)
  named : ∀ entry ∈ arguments.named, ∀ run, begun.Fills id run →
    ∃ value after, below.eval scope entry.2 setting run = (.ok value, after)
  passed : arguments.passThrough → ∀ formal ∈ definition.parameters, ∀ run, begun.Fills id run →
    (∃ value after, below.resolve scope formal.name setting run = (.ok value, after)) ∨
      ∃ name template after, below.resolve scope formal.name setting run =
        (.error (.failed (.noSuchAttribute name template)), after)

/-- The arguments of a willing call can be evaluated. -/
theorem nonempty_supply {fuel : Nat} {setting : Setting} {scope : Scope} {id : InstanceId}
    {begun : Run} {data : Instance} {definition : Definition} {arguments : Arguments Expr}
    {start : Nat}
    (h : (upTo fuel).Willing setting scope id definition arguments begun)
    (hown : begun.instances[id.index]? = some data) :
    Nonempty ((upTo fuel).Supply setting scope id definition arguments start begun) := by
  have hpositional : ∀ entry ∈ (definition.parameterNames.drop start).zip arguments.positional,
      ∀ run, begun.Fills id run →
        ∃ value after, (upTo fuel).eval scope entry.2 setting run = (.ok value, after) :=
    fun _ hentry => h.positional _ (List.of_mem_zip hentry).2
  have hpassed : ∀ formal ∈ if arguments.passThrough then definition.parameters else [],
      ∀ run, begun.Fills id run →
        (∃ value after, (upTo fuel).resolve scope formal.name setting run = (.ok value, after)) ∨
          ∃ name template after, (upTo fuel).resolve scope formal.name setting run =
            (.error (.failed (.noSuchAttribute name template)), after) := by
    intro formal hformal
    by_cases hpass : arguments.passThrough
    · rw [if_pos hpass] at hformal
      exact h.passed hpass formal hformal
    · rw [if_neg hpass] at hformal
      cases hformal
  obtain ⟨positional, afterPositional, hfirst⟩ := exists_supplies hpositional hown (.refl id begun)
  have hfills := (hfirst.attribute? hown).1
  obtain ⟨_, hown'⟩ := hfills.own hown
  obtain ⟨named, afterNamed, hsecond⟩ := exists_supplies h.named hown' hfills
  have hfills' := (hsecond.attribute? hown').1
  obtain ⟨_, hown''⟩ := hfills'.own hown'
  obtain ⟨passed, ended, hthird⟩ := exists_passes hpassed hown'' (hfills.trans hfills')
  exact ⟨⟨positional, afterPositional, named, afterNamed, passed, ended, hfirst, hsecond, hthird⟩⟩

/-! ### The rule -/

/-- How the arguments of a call are bound to a fresh instance, where they can be evaluated. -/
structure BindsArguments (below : Evaluator) (setting : Setting) : Prop where
  /-- The arguments of a willing call can be evaluated. -/
  evaluated : ∀ scope id definition arguments start begun, Fresh id definition start begun →
    below.Willing setting scope id definition arguments begun →
      Nonempty (below.Supply setting scope id definition arguments start begun)
  /-- Too many positional arguments are refused at once. -/
  overfull : ∀ scope id definition arguments start begun,
    Fresh id definition start begun → ¬ arguments.Fits definition start →
      (below.bindArguments scope id definition arguments start setting begun).1 =
        .error (.failed (arguments.mismatch definition start))
  /-- So is a lone positional argument of a template with no or several formal arguments. -/
  astray : ∀ scope id definition arguments start begun,
    Fresh id definition start begun → arguments.Fits definition start →
      ¬ arguments.Aims definition start →
        (below.bindArguments scope id definition arguments start setting begun).1 =
          .error (.failed (arguments.mismatch definition start))
  /-- Then the first named argument decides that is not accepted. -/
  unaccepted : ∀ scope id definition arguments start begun,
    below.Supply setting scope id definition arguments start begun →
      Fresh id definition start begun → arguments.Fits definition start →
        arguments.Aims definition start →
          ∀ earlier name expr later, arguments.named = earlier ++ (name, expr) :: later →
            (∀ entry ∈ earlier, definition.accepts entry.1) → definition.accepts name = false →
              (below.bindArguments scope id definition arguments start setting begun).1 =
                .error (.failed (.noSuchAttribute name definition.name))
  /-- Last comes a formal argument that holds nothing in the end but has to. -/
  incomplete : ∀ scope id definition arguments start begun
    (supply : below.Supply setting scope id definition arguments start begun),
      Fresh id definition start begun → arguments.Fits definition start →
        arguments.Aims definition start → arguments.Accepted definition → ¬ supply.Complete →
          (below.bindArguments scope id definition arguments start setting begun).1 =
            .error (.failed (arguments.mismatch definition start))
  /-- The arguments are bound if and only if no check fails. -/
  succeeds : ∀ scope id definition arguments start begun
    (supply : below.Supply setting scope id definition arguments start begun),
      Fresh id definition start begun →
        ((below.bindArguments scope id definition arguments start setting begun).1 = .ok () ↔
          arguments.Fits definition start ∧ arguments.Aims definition start ∧
            arguments.Accepted definition ∧ supply.Complete)
  /-- If they are bound, each formal argument that was open holds what the rounds have for it. -/
  holds : ∀ scope id definition arguments start begun ended
    (supply : below.Supply setting scope id definition arguments start begun),
      Fresh id definition start begun →
        below.bindArguments scope id definition arguments start setting begun =
            (.ok (), ended) →
          ∀ formal ∈ definition.parameters.drop start,
            ended.attribute? id formal.name = supply.held? formal

/-- Arguments are bound by this rule. -/
theorem bindsArguments (fuel : Nat) (setting : Setting) :
    (upTo fuel).BindsArguments setting where
  evaluated scope id definition arguments start begun hfresh hwilling := by
    obtain ⟨_, hown⟩ := hfresh.stands
    exact nonempty_supply hwilling hown
  overfull scope id definition arguments start begun hfresh hfits := by
    rw [bindArguments_of_not_fits hfresh hfits]
  astray scope id definition arguments start begun hfresh hfits haims := by
    rw [bindArguments_of_not_aims hfresh hfits haims]
  unaccepted scope id definition arguments start begun supply hfresh hfits haims earlier name expr
      later hsplit hearlier hname :=
    supply.bindArguments_of_not_accepted hfresh hfits haims hsplit hearlier hname
  incomplete scope id definition arguments start begun supply hfresh hfits haims haccepted
      hcomplete := by
    rw [supply.bindArguments_of_not_complete hfresh hfits haims haccepted hcomplete]
  succeeds scope id definition arguments start begun supply hfresh :=
    supply.bindArguments_ok_iff hfresh
  holds scope id definition arguments start begun ended supply hfresh hok := by
    obtain ⟨hfits, haims, haccepted, hcomplete⟩ :=
      (supply.bindArguments_ok_iff hfresh).mp (congrArg Prod.fst hok)
    rw [supply.bindArguments_of_complete hfresh hfits haims haccepted hcomplete] at hok
    cases hok
    exact (supply.ended_ok hfresh).2

/-- A formal argument is given by position, one by name, and one is passed through from the scope of
the call. With one more positional argument than there are formal ones the call is refused. -/
theorem bindsArguments_rounds :
    let entry : Definition := .template "entry"
      (some [{ name := "title" }, { name := "note" }, { name := "author" }]) []
    let setting : Setting := .ofGroup [entry]
    let run : Run :=
      .ofInstances [(.template "page" none [], [("author", .string "me")]), (entry, [])]
    let few : Arguments Expr :=
      { positional := [.string "a"], named := [("note", .string "-")], passThrough := true }
    let many : Arguments Expr := { positional := List.replicate 4 (.string "a") }
    (∃ ended, (upTo 1).bindArguments ⟨⟨0⟩, []⟩ ⟨1⟩ entry few 0 setting run = (.ok (), ended) ∧
      ended.attribute? ⟨1⟩ "title" = some (.string "a") ∧
      ended.attribute? ⟨1⟩ "note" = some (.string "-") ∧
      ended.attribute? ⟨1⟩ "author" = some (.string "me")) ∧
    ((upTo 1).bindArguments ⟨⟨0⟩, []⟩ ⟨1⟩ entry many 0 setting run).1 =
      .error (.failed (.argumentMismatch "entry" 3 4)) := by
  intro entry setting run few many
  have hbinds := bindsArguments 1 setting
  have hfresh : Fresh ⟨1⟩ entry 0 run :=
    { distinct := by decide
      stands := ⟨_, rfl⟩
      unset := by
        intro formal hformal
        rfl }
  let titled : Run := run.binding ⟨1⟩ "title" (.string "a")
  let noted : Run := titled.binding ⟨1⟩ "note" (.string "-")
  let supply : (upTo 1).Supply setting ⟨⟨0⟩, []⟩ ⟨1⟩ entry few 0 run :=
    { positional := [("title", .string "a")]
      afterPositional := titled
      named := [("note", .string "-")]
      afterNamed := noted
      passed := [("author", .string "me")]
      ended := noted.taking ⟨1⟩ { name := "author" } (some (.string "me"))
      supplies_positional := .cons rfl (.nil _)
      supplies_named := .cons rfl (.nil _)
      passes := .set rfl (.set rfl (.resolved rfl rfl (.nil _))) }
  have hformals : entry.parameters.drop 0 =
      [{ name := "title" }, { name := "note" }, { name := "author" }] := rfl
  have hcomplete : supply.Complete := by
    intro _ formal hformal _
    rw [hformals] at hformal
    rcases List.mem_cons.mp hformal with rfl | hformal
    · rfl
    · rcases List.mem_pair.mp hformal with rfl | rfl <;> rfl
  have hok := (hbinds.succeeds _ _ _ _ _ _ supply hfresh).mpr
    ⟨(by decide : 1 ≤ 3), nofun, List.forall_mem_singleton.mpr rfl, hcomplete⟩
  obtain ⟨⟨⟩, ended, hended⟩ := exists_of_isOk (congrArg Except.isOk hok)
  have hholds := hbinds.holds _ _ _ _ _ _ ended supply hfresh hended
  rw [hformals] at hholds
  refine ⟨⟨ended, hended, ?_, ?_, ?_⟩, ?_⟩
  · exact hholds { name := "title" } List.mem_cons_self
  · exact hholds { name := "note" } (by simp)
  · exact hholds { name := "author" } (by simp)
  · exact hbinds.overfull _ _ _ many _ _ hfresh (by decide : ¬ 4 ≤ 3)

end Evaluator

end Stencil
