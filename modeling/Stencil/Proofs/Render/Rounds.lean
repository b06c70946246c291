import Stencil.Proofs.Render.Names

/-!
# The rounds of binding

The arguments of a call are bound in three rounds: those that are given by position, those that are
given by name, and those that the scope of the call has. In the first two rounds each value is bound
before the next expression is evaluated, and a value takes the place of one that is bound already.
In the last round a formal argument that is set is passed over. What the instance holds after a
round is told by the values that the round came to.
-/

namespace Stencil

open Render

/-- Nothing is found under a name that no entry has. -/
theorem lookup_eq_none_of_notMem {α : Type} {entries : List (String × α)} {name : String}
    (h : name ∉ entries.map Prod.fst) : entries.lookup name = none := by
  refine List.lookup_eq_none_iff.mpr fun entry hentry => bne_iff_ne.mpr ?_
  rintro rfl
  exact h (List.mem_map_of_mem hentry)

/-- Where the names of an association list are distinct it does not matter from which end one
looks. -/
theorem lookup_reverse {α : Type} {entries : List (String × α)}
    (h : (entries.map Prod.fst).Nodup) (name : String) :
    entries.reverse.lookup name = entries.lookup name := by
  induction entries with
  | nil => rfl
  | cons entry rest ih =>
    obtain ⟨other, value⟩ := entry
    obtain ⟨hother, hrest⟩ := List.nodup_cons.mp h
    rw [List.reverse_cons, List.lookup_append, ih hrest]
    by_cases hname : name = other
    · subst hname
      rw [lookup_eq_none_of_notMem hother, List.lookup_cons_self, List.lookup_cons_self,
        Option.none_or]
    · have hne : (name == other) = false := beq_false_of_ne hname
      simp only [List.lookup_cons, hne, List.lookup_nil, Option.or_none]

/-- The state after a formal argument has taken what was found under its name, if it takes it. -/
def Run.taking (run : Run) (id : InstanceId) (formal : Formal Expr) (found : Option Value) : Run :=
  match formal.taken? found with
  | some value => run.binding id formal.name value
  | none => run

/-- A formal argument takes a value in the state. -/
theorem Render.bindTaken_apply (setting : Setting) (run : Run) (id : InstanceId)
    (formal : Formal Expr) (found : Option Value) :
    bindTaken id formal found setting run = (.ok (), run.taking id formal found) := by
  unfold bindTaken Run.taking
  cases formal.taken? found <;> rfl

/-- Whatever it takes, the instance is filled. -/
theorem Run.fills_taking (run : Run) (id : InstanceId) (formal : Formal Expr)
    (found : Option Value) : run.Fills id (run.taking id formal found) := by
  unfold taking
  cases formal.taken? found with
  | some value => exact run.fills_binding id formal.name value
  | none => exact .refl id run

namespace Evaluator

variable (below : Evaluator) (setting : Setting) (scope : Scope) (id : InstanceId)

/-- Expressions come to values one after the other, where each value is bound to a name of an
instance before the next expression is evaluated. -/
inductive Supplies : List (String × Expr) → Run → List (String × Value) → Run → Prop
  | nil (run : Run) : Supplies [] run [] run
  | cons {name expr rest run value mid values ended} :
    below.eval scope expr setting run = (.ok value, mid) →
      Supplies rest (mid.binding id name value) values ended →
        Supplies ((name, expr) :: rest) run ((name, value) :: values) ended

/-- The names of formal arguments come to values in a scope, as far as they are not set and the
scope declares them, where a formal argument takes its value before the next name is looked up. -/
inductive Passes : List (Formal Expr) → Run → List (String × Value) → Run → Prop
  | nil (run : Run) : Passes [] run [] run
  | set {formal rest run values ended} :
    (run.attribute? id formal.name).isSome → Passes rest run values ended →
      Passes (formal :: rest) run values ended
  | resolved {formal rest run found mid values ended} :
    run.attribute? id formal.name = none →
      below.resolve scope formal.name setting run = (.ok found, mid) →
        Passes rest (mid.taking id formal (some found)) values ended →
          Passes (formal :: rest) run ((formal.name, found) :: values) ended
  | undeclared {formal rest run name template mid values ended} :
    run.attribute? id formal.name = none →
      below.resolve scope formal.name setting run =
          (.error (.failed (.noSuchAttribute name template)), mid) →
        Passes rest mid values ended → Passes (formal :: rest) run values ended

section

variable {below : Evaluator} {setting : Setting} {scope : Scope} {id : InstanceId}
variable {begun run ended : Run} {values : List (String × Value)}

/-! ### The rounds -/

/-- Positional arguments that come to values are bound to these. -/
theorem Supplies.bindPositional {pairs : List (Formal Expr × Expr)}
    (h : below.Supplies setting scope id (pairs.map fun pair => (pair.1.name, pair.2)) run values
      ended) :
    below.bindPositional scope id pairs setting run = (.ok (), ended) := by
  induction pairs generalizing run values with
  | nil =>
    cases h
    rfl
  | cons pair rest ih =>
    cases h with
    | cons heval hrest =>
      rw [Evaluator.bindPositional, bind_apply_ok _ _ heval]
      exact ih hrest

/-- If an argument that is given by name is not accepted, the first such one decides. -/
theorem Supplies.bindNamed_error {definition : Definition} {earlier later : List (String × Expr)}
    {name : String} {expr : Expr}
    (h : below.Supplies setting scope id (earlier ++ (name, expr) :: later) run values ended)
    (hearlier : ∀ entry ∈ earlier, definition.accepts entry.1)
    (hname : definition.accepts name = false) :
    ∃ after, below.bindNamed scope id definition (earlier ++ (name, expr) :: later) setting run =
      (.error (.failed (.noSuchAttribute name definition.name)), after) := by
  induction earlier generalizing run values with
  | nil =>
    refine ⟨run, ?_⟩
    rw [List.nil_append, bindNamed, hname]
    rfl
  | cons entry rest ih =>
    obtain ⟨hentry, hrest⟩ := List.forall_mem_cons.mp hearlier
    cases h with
    | cons heval hlater =>
      rw [List.cons_append, bindNamed, hentry]
      rw [bind_apply_ok _ _ rfl, bind_apply_ok _ _ heval]
      exact ih hlater hrest

/-- So are named arguments, if all of them are accepted. -/
theorem Supplies.bindNamed {definition : Definition} {named : List (String × Expr)}
    (h : below.Supplies setting scope id named run values ended)
    (haccepted : ∀ entry ∈ named, definition.accepts entry.1) :
    below.bindNamed scope id definition named setting run = (.ok (), ended) := by
  induction h with
  | nil run => rfl
  | cons heval _ ih =>
    obtain ⟨hentry, hrest⟩ := List.forall_mem_cons.mp haccepted
    rw [Evaluator.bindNamed, hentry, bind_apply_ok _ _ rfl, bind_apply_ok _ _ heval]
    exact ih hrest

variable {data : Instance}

/-- A formal argument that is set is not passed through. -/
theorem passOne_of_isSome {formal : Formal Expr} (hown : run.instances[id.index]? = some data)
    (hset : (run.attribute? id formal.name).isSome) :
    below.passOne scope id formal setting run = (.ok (), run) := by
  rw [Run.attribute?_eq hown] at hset
  have hcontains : data.attributes.contains formal.name = true := hset
  rw [passOne, bind_apply_ok _ _ (getInstance_apply_some _ _ hown), if_pos hcontains, pure_apply]

/-- One that is not set takes what the scope of the call has for it, if it declares the name. -/
theorem passOne_of_none {formal : Formal Expr} {found : Option Value} {mid : Run}
    (hown : run.instances[id.index]? = some data)
    (hunset : run.attribute? id formal.name = none)
    (hfound : ifDeclared (below.resolve scope formal.name) setting run = (.ok found, mid)) :
    below.passOne scope id formal setting run = (.ok (), mid.taking id formal found) := by
  rw [Run.attribute?_eq hown] at hunset
  have hcontains : ¬ data.attributes.contains formal.name = true := by
    rw [Table.contains, hunset]
    exact Bool.false_ne_true
  rw [passOne, bind_apply_ok _ _ (getInstance_apply_some _ _ hown), if_neg hcontains,
    bind_apply_ok _ _ hfound, bindTaken_apply]

variable {fuel : Nat} {formals : List (Formal Expr)}

/-- A name that is looked up for a formal argument leaves the instance where it is. -/
theorem continues_of_resolve {name : String} {result : Except Halt Value} {mid : Run}
    (h : (upTo fuel).resolve scope name setting run = (result, mid)) : run.Continues mid := by
  simpa only [h] using continues_resolve fuel setting scope run name

/-- What the scope of the call has is bound to the instance. -/
theorem Passes.bindPassed (h : (upTo fuel).Passes setting scope id formals run values ended)
    (hown : run.instances[id.index]? = some data) :
    (upTo fuel).bindPassed scope id formals setting run = (.ok (), ended) := by
  induction h generalizing data with
  | nil run => rfl
  | set hset _ ih =>
    rw [Evaluator.bindPassed, bind_apply_ok _ _ (passOne_of_isSome hown hset)]
    exact ih hown
  | @resolved formal rest run found mid values ended hunset hresolve _ ih =>
    have hfound : ifDeclared ((upTo fuel).resolve scope formal.name) setting run =
        (.ok (some found), mid) := by
      rw [ifDeclared_apply, hresolve, declared]
    obtain ⟨_, hown'⟩ := (((continues_of_resolve hresolve).fills id).trans
      (mid.fills_taking id formal (some found))).own hown
    rw [Evaluator.bindPassed, bind_apply_ok _ _ (passOne_of_none hown hunset hfound)]
    exact ih hown'
  | @undeclared formal rest run name template mid values ended hunset hresolve _ ih =>
    have hfound : ifDeclared ((upTo fuel).resolve scope formal.name) setting run =
        (.ok none, mid) := by
      rw [ifDeclared_apply, hresolve, declared]
    have hown' := (continues_of_resolve hresolve).getElem? hown
    rw [Evaluator.bindPassed, bind_apply_ok _ _ (passOne_of_none hown hunset hfound)]
    exact ih hown'

/-! ### What is held in the end -/

/-- After the first two rounds a name has the last value that was bound to it. -/
theorem Supplies.attribute? {exprs : List (String × Expr)}
    (h : (upTo fuel).Supplies setting scope id exprs run values ended)
    (hown : run.instances[id.index]? = some data) :
    run.Fills id ended ∧ ∀ name, ended.attribute? id name =
      (values.reverse.lookup name).or (run.attribute? id name) := by
  induction h generalizing data with
  | nil run => exact ⟨.refl _ _, fun name => rfl⟩
  | @cons name expr rest run value mid values ended heval _ ih =>
    obtain ⟨hone, hself, hothers⟩ := bindOne_ok name hown heval
    obtain ⟨_, hown'⟩ := hone.own hown
    obtain ⟨hrest, hvalues⟩ := ih hown'
    refine ⟨hone.trans hrest, fun other => ?_⟩
    rw [hvalues, List.reverse_cons, List.lookup_append, Option.or_assoc]
    congr 1
    by_cases hname : other = name
    · subst hname
      rw [hself, List.lookup_cons_self, Option.some_or]
    · have hne : (other == name) = false := beq_false_of_ne hname
      rw [hothers other hname, List.lookup_cons, hne, List.lookup_nil, Option.none_or]

/-- A formal argument that takes a value or leaves it. -/
theorem taking_ok {formal : Formal Expr} (found : Option Value)
    (hown : run.instances[id.index]? = some data)
    (hunset : run.attribute? id formal.name = none) :
    (run.taking id formal found).attribute? id formal.name = formal.taken? found ∧
      ∀ other, other ≠ formal.name →
        (run.taking id formal found).attribute? id other = run.attribute? id other := by
  unfold Run.taking
  cases formal.taken? found with
  | some value =>
    exact ⟨Run.attribute?_binding_self hown _ _,
      fun other hother => Run.attribute?_binding_of_ne hown hother value⟩
  | none => exact ⟨hunset, fun _ _ => rfl⟩

/-- What some formal arguments hold after the last round, from what was found under their names. -/
structure Receives (id : InstanceId) (formals : List (Formal Expr)) (values : List (String × Value))
    (run ended : Run) : Prop where
  fills : run.Fills id ended
  others : ∀ name, name ∉ formals.map Formal.name →
    ended.attribute? id name = run.attribute? id name
  /-- What is set stays, and what is not has what it takes. -/
  taken : ∀ formal ∈ formals, ended.attribute? id formal.name =
    (run.attribute? id formal.name).or (formal.taken? (values.lookup formal.name))

/-- Names are looked up for formal arguments only. -/
theorem Passes.names (h : below.Passes setting scope id formals run values ended) :
    values.map Prod.fst ⊆ formals.map Formal.name := by
  induction h with
  | nil run => exact List.Subset.refl _
  | set _ _ ih => exact List.subset_cons_of_subset _ ih
  | resolved _ _ _ ih => exact List.cons_subset_cons _ ih
  | undeclared _ _ _ ih => exact List.subset_cons_of_subset _ ih

/-- What formal arguments receive, where the first one takes something and the others receive the
rest. -/
theorem Receives.cons {formal : Formal Expr} (found : Option Value) {mid : Run}
    {all : List (String × Value)} (hnotmem : formal.name ∉ formals.map Formal.name)
    (hown : run.instances[id.index]? = some data)
    (hunset : run.attribute? id formal.name = none) (hmid : run.Continues mid)
    (h : Receives id formals values (mid.taking id formal found) ended)
    (hself : all.lookup formal.name = found)
    (hothers : ∀ name, name ≠ formal.name → all.lookup name = values.lookup name) :
    Receives id (formal :: formals) all run ended := by
  obtain ⟨htaken, hkept⟩ := taking_ok found (hmid.getElem? hown)
    ((hmid.attribute? hown formal.name).trans hunset)
  refine ⟨((hmid.fills id).trans (mid.fills_taking id formal found)).trans h.fills, ?_, ?_⟩
  · intro name hname
    obtain ⟨hne, hmem⟩ := not_or.mp (mt List.mem_cons.mpr hname)
    rw [h.others name hmem, hkept name hne, hmid.attribute? hown]
  · refine List.forall_mem_cons.mpr ⟨?_, fun other hother => ?_⟩
    · rw [h.others _ hnotmem, htaken, hunset, hself, Option.none_or]
    · have hne : other.name ≠ formal.name := by
        intro heq
        exact hnotmem (heq ▸ List.mem_map_of_mem hother)
      rw [h.taken other hother, hkept _ hne, hmid.attribute? hown, hothers _ hne]

/-- Arguments that are passed through are received by the formal arguments that are not set. -/
theorem Passes.receives (h : (upTo fuel).Passes setting scope id formals run values ended)
    (hown : run.instances[id.index]? = some data) (hnodup : (formals.map Formal.name).Nodup) :
    Receives id formals values run ended := by
  induction h generalizing data with
  | nil run => exact ⟨.refl _ _, fun _ _ => rfl, nofun⟩
  | set hset _ ih =>
    obtain ⟨hnotmem, hrest⟩ := List.nodup_cons.mp hnodup
    obtain ⟨hfills, hothers, htaken⟩ := ih hown hrest
    refine ⟨hfills, fun name hname => hothers name (mt (List.mem_cons_of_mem _) hname), ?_⟩
    refine List.forall_mem_cons.mpr ⟨?_, htaken⟩
    rw [hothers _ hnotmem, Option.or_of_isSome hset]
  | @resolved formal rest run found mid values ended hunset hresolve _ ih =>
    obtain ⟨hnotmem, hrest⟩ := List.nodup_cons.mp hnodup
    have hmid := continues_of_resolve hresolve
    obtain ⟨_, hown'⟩ := (mid.fills_taking id formal (some found)).own (hmid.getElem? hown)
    refine .cons (some found) hnotmem hown hunset hmid (ih hown' hrest) List.lookup_cons_self
      fun name hname => ?_
    rw [List.lookup_cons, beq_false_of_ne hname]
  | @undeclared formal rest run name template mid values ended hunset hresolve hpasses ih =>
    obtain ⟨hnotmem, hrest⟩ := List.nodup_cons.mp hnodup
    have hmid := continues_of_resolve hresolve
    have hnone : values.lookup formal.name = none :=
      lookup_eq_none_of_notMem fun hmem => hnotmem (hpasses.names hmem)
    exact .cons none hnotmem hown hunset hmid (ih (hmid.getElem? hown) hrest) hnone
      fun _ _ => rfl

/-- The values stand under the names of the expressions. -/
theorem Supplies.names {exprs : List (String × Expr)}
    (h : below.Supplies setting scope id exprs run values ended) :
    values.map Prod.fst = exprs.map Prod.fst := by
  induction h with
  | nil run => rfl
  | cons _ _ ih => rw [List.map_cons, List.map_cons, ih]

/-! ### Rounds that take place -/

/-- Expressions that can be evaluated while an instance is filled come to values one after the
other. -/
theorem exists_supplies {exprs : List (String × Expr)}
    (h : ∀ entry ∈ exprs, ∀ run, begun.Fills id run →
      ∃ value after, (upTo fuel).eval scope entry.2 setting run = (.ok value, after))
    (hown : run.instances[id.index]? = some data) (hfills : begun.Fills id run) :
    ∃ values ended, (upTo fuel).Supplies setting scope id exprs run values ended := by
  induction exprs generalizing run data with
  | nil => exact ⟨[], run, .nil run⟩
  | cons entry rest ih =>
    obtain ⟨hentry, hrest⟩ := List.forall_mem_cons.mp h
    obtain ⟨value, mid, heval⟩ := hentry run hfills
    obtain ⟨hone, -⟩ := bindOne_ok entry.1 hown heval
    obtain ⟨_, hown'⟩ := hone.own hown
    obtain ⟨values, ended, hsupplies⟩ := ih hrest hown' (hfills.trans hone)
    exact ⟨_, ended, .cons heval hsupplies⟩

/-- Names that come to values, or that nothing declares, can be passed through one after the
other. -/
theorem exists_passes {formals : List (Formal Expr)}
    (h : ∀ formal ∈ formals, ∀ run, begun.Fills id run →
      (∃ value after, (upTo fuel).resolve scope formal.name setting run = (.ok value, after)) ∨
        ∃ name template after, (upTo fuel).resolve scope formal.name setting run =
          (.error (.failed (.noSuchAttribute name template)), after))
    (hown : run.instances[id.index]? = some data) (hfills : begun.Fills id run) :
    ∃ values ended, (upTo fuel).Passes setting scope id formals run values ended := by
  induction formals generalizing run data with
  | nil => exact ⟨[], run, .nil run⟩
  | cons formal rest ih =>
    obtain ⟨hformal, hrest⟩ := List.forall_mem_cons.mp h
    cases hset : run.attribute? id formal.name with
    | some value =>
      obtain ⟨values, ended, hpasses⟩ := ih hrest hown hfills
      exact ⟨values, ended, .set (hset ▸ rfl) hpasses⟩
    | none =>
      rcases hformal run hfills with ⟨found, mid, hresolve⟩ | ⟨name, template, mid, hresolve⟩
      · have htaking := ((continues_of_resolve hresolve).fills id).trans
          (mid.fills_taking id formal (some found))
        obtain ⟨_, hown'⟩ := htaking.own hown
        obtain ⟨values, ended, hpasses⟩ := ih hrest hown' (hfills.trans htaking)
        exact ⟨_, ended, .resolved hset hresolve hpasses⟩
      · have hmid := continues_of_resolve hresolve
        obtain ⟨values, ended, hpasses⟩ :=
          ih hrest (hmid.getElem? hown) (hfills.trans (hmid.fills id))
        exact ⟨values, ended, .undeclared hset hresolve hpasses⟩

end

end Evaluator

end Stencil
