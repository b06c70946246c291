import Stencil.Proofs.Render.Stopping

/-!
# Numbers of levels

What evaluation comes to at some number of levels, it comes to at every larger one. So two families
of renders, with one render for each number of levels, can be compared by what they come to in the
end, although one of them may need more levels than the other.
-/

namespace Stencil

open Render

/-- A render that runs out of levels, beside one that goes on. -/
def Stopping.exhaustion (setting : Setting) : Stopping where
  setting
  Stops halt := halt = .outOfFuel
  uncaught _ _ := nofun
  bound := Or.inl rfl

/-- Evaluation runs out of levels, or one level more makes no difference. -/
theorem Stopping.sound_upTo (setting : Setting) (fuel : Nat) :
    (exhaustion setting).logic.Sound fun i =>
      cond i (Evaluator.upTo (fuel + 1)) (Evaluator.upTo fuel) := by
  induction fuel with
  | zero =>
    have hthrow {α : Type} (other : Render α) :
        (exhaustion setting).Holds (throw .outOfFuel : Render α) other := fun run =>
      Or.inl ⟨_, rfl, rfl⟩
    exact ⟨fun _ _ => hthrow _, fun _ _ => hthrow _, fun _ _ _ => hthrow _, fun _ _ _ => hthrow _⟩
  | succ fuel ih =>
    have hnext := ((exhaustion setting).ordinary rfl).sound_next ih
    exact ⟨hnext.eval, hnext.exec, hnext.nodes, hnext.value⟩

namespace Render

variable {α β : Type} {setting : Setting}

/-- What a family of renders comes to with enough levels. -/
def Comes (setting : Setting) (a : Nat → Render α) (run : Run) (outcome : Except Halt α × Run) :
    Prop :=
  outcome.1 ≠ .error .outOfFuel ∧ ∃ levels, ∀ fuel ≥ levels, a fuel setting run = outcome

/-- A render runs out of levels, or a family comes to the same. -/
def Below (setting : Setting) (action : Render α) (a : Nat → Render α) : Prop :=
  ∀ run, (action setting run).1 = .error .outOfFuel ∨ Comes setting a run (action setting run)

/-- Whatever one family comes to, the other one comes to as well. -/
def Leads (setting : Setting) (a b : Nat → Render α) : Prop := ∀ fuel, Below setting (a fuel) b

namespace Below

variable {action : Render α} {a b : Nat → Render α}

/-- A family comes to what it is from some level on. -/
theorem of_eventually (h : ∃ levels, ∀ fuel ≥ levels, a fuel = action) :
    Below setting action a := by
  obtain ⟨levels, hlevels⟩ := h
  intro run
  by_cases hfuel : (action setting run).1 = .error .outOfFuel
  · exact Or.inl hfuel
  · exact Or.inr ⟨hfuel, levels, fun fuel hle => by rw [hlevels fuel hle]⟩

/-- A render follows the family that is always the same as it. -/
theorem const (action : Render α) : Below setting action fun _ => action :=
  of_eventually ⟨0, fun _ _ => rfl⟩

/-- A render that runs out of levels follows every family. -/
theorem exhausted (a : Nat → Render α) : Below setting (throw .outOfFuel) a :=
  fun _ => Or.inl rfl

/-- Renders that follow each other come to what families come to that follow each other. -/
theorem bind {next : α → Render β} {further : Nat → α → Render β} (h : Below setting action a)
    (hnext : ∀ value, Below setting (next value) fun fuel => further fuel value) :
    Below setting (action >>= next) fun fuel => a fuel >>= further fuel := by
  intro run
  rcases h run with hfuel | ⟨hfuel, levels, hlevels⟩
  · rw [bind_apply_error _ _ (Prod.ext hfuel rfl)]
    exact Or.inl rfl
  · rcases houtcome : action setting run with ⟨halt | value, after⟩
    · rw [bind_apply_error _ _ houtcome]
      rw [houtcome] at hfuel hlevels
      refine Or.inr ⟨fun heq => hfuel ?_, levels, fun fuel hle => ?_⟩
      · cases heq
        rfl
      · exact bind_apply_error _ _ (hlevels fuel hle)
    · rw [bind_apply_ok _ _ houtcome]
      rw [houtcome] at hlevels
      refine (hnext value after).imp_right fun ⟨hfuel', levels', hlevels'⟩ =>
        ⟨hfuel', max levels levels', fun fuel hle => ?_⟩
      exact (bind_apply_ok _ _ (hlevels fuel (Nat.le_trans (Nat.le_max_left _ _) hle))).trans
        (hlevels' fuel (Nat.le_trans (Nat.le_max_right _ _) hle))

/-- What a family comes to, one that has it one level higher comes to. -/
theorem step (h : Below setting action a) (hstep : ∀ fuel, b (fuel + 1) = a fuel) :
    Below setting action b := fun run =>
  (h run).imp_right fun ⟨hfuel, levels, hlevels⟩ => ⟨hfuel, levels + 1, fun fuel hle => by
    obtain ⟨fuel, rfl⟩ : ∃ less, fuel = less + 1 := ⟨fuel - 1, by omega⟩
    rw [hstep, hlevels fuel (by omega)]⟩

/-- What follows a family follows those that the family leads to. -/
theorem trans (h : Below setting action a) (hleads : Leads setting a b) :
    Below setting action b := by
  intro run
  rcases h run with hfuel | ⟨hfuel, levels, hlevels⟩
  · exact Or.inl hfuel
  · have hhere := hlevels levels (Nat.le_refl _)
    have hthere := hleads levels run
    rw [hhere] at hthere
    exact hthere

end Below

namespace Leads

variable {a b c : Nat → Render α}

/-- Leading to is transitive. -/
theorem trans (h : Leads setting a b) (h' : Leads setting b c) : Leads setting a c :=
  fun fuel => (h fuel).trans h'

/-- Families one after the other lead to such that their parts lead to. -/
theorem bind {next : Nat → α → Render β} {further : Nat → α → Render β} (h : Leads setting a b)
    (hnext : ∀ value, Leads setting (fun fuel => next fuel value) fun fuel => further fuel value) :
    Leads setting (fun fuel => a fuel >>= next fuel) fun fuel => b fuel >>= further fuel :=
  fun fuel => (h fuel).bind fun value => hnext value fuel

end Leads

/-- Two families lead to each other. -/
def Same (setting : Setting) (a b : Nat → Render α) : Prop := Leads setting a b ∧ Leads setting b a

namespace Same

variable {a b c : Nat → Render α}

/-- Leading to each other has no direction. -/
theorem symm (h : Same setting a b) : Same setting b a := And.symm h

/-- It is transitive as well. -/
theorem trans (h : Same setting a b) (h' : Same setting b c) : Same setting a c :=
  ⟨h.1.trans h'.1, h'.2.trans h.2⟩

/-- Families one after the other lead to each other if their parts do. -/
theorem bind {next further : Nat → α → Render β} (h : Same setting a b)
    (hnext : ∀ value, Same setting (fun fuel => next fuel value) fun fuel => further fuel value) :
    Same setting (fun fuel => a fuel >>= next fuel) fun fuel => b fuel >>= further fuel :=
  ⟨h.1.bind fun value => (hnext value).1, h.2.bind fun value => (hnext value).2⟩

/-- Families that do not depend on the level lead to each other if they are the same. -/
theorem const (action : Render α) : Same setting (fun _ => action) fun _ => action :=
  ⟨fun _ => .const action, fun _ => .const action⟩

/-- A family that has one level more than another one. -/
theorem step (h : Same setting b b) (hzero : a 0 = throw .outOfFuel)
    (hstep : ∀ fuel, a (fuel + 1) = b fuel) : Same setting a b := by
  refine ⟨fun fuel => ?_, fun fuel => (h.1 fuel).step hstep⟩
  cases fuel with
  | zero => exact hzero ▸ .exhausted b
  | succ fuel => exact hstep fuel ▸ h.1 fuel

/-- Families that lead to each other come to the same. -/
theorem comes_iff (h : Same setting a b) {run : Run} {outcome : Except Halt α × Run} :
    Comes setting a run outcome ↔ Comes setting b run outcome := by
  have himp {a b : Nat → Render α} (h : Leads setting a b) (hcomes : Comes setting a run outcome) :
      Comes setting b run outcome := by
    obtain ⟨hfuel, levels, hlevels⟩ := hcomes
    have hthere := h levels run
    rw [hlevels levels (Nat.le_refl _)] at hthere
    exact hthere.resolve_left hfuel
  exact ⟨himp h.1, himp h.2⟩

end Same

end Render

namespace Evaluator

variable (setting : Setting) (scope : Scope) (options : WriteOptions)

/-- Writing a value at some number of levels comes to what it comes to with enough of them. -/
theorem leads_value (value : Value) :
    Leads setting (fun fuel => (upTo fuel).value scope options value)
      fun fuel => (upTo fuel).value scope options value := by
  intro fuel run
  by_cases hfuel : ((upTo fuel).value scope options value setting run).1 = .error .outOfFuel
  · exact Or.inl hfuel
  · refine Or.inr ⟨hfuel, fuel, fun more hle => ?_⟩
    obtain ⟨extra, rfl⟩ := Nat.exists_eq_add_of_le hle
    clear hle
    induction extra with
    | zero => rfl
    | succ extra ih =>
      have hsame := (Stopping.sound_upTo setting (fuel + extra)).value scope options value run
      refine (hsame.resolve_left fun ⟨halt, hstops, hhalt⟩ => hfuel ?_).trans ih
      obtain rfl : halt = .outOfFuel := hstops
      exact (congrArg Prod.fst ih).symm.trans hhalt

end Evaluator

end Stencil
