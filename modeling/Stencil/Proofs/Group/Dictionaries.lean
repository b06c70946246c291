import Mathlib.Data.Fintype.EquivFin
import Mathlib.Data.Set.Finite.List
import Mathlib.Order.WellFounded
import Stencil.Proofs.Body.Parts
import Stencil.Proofs.Group.Chain

/-!
# Dictionaries that refer to each other

The entries of a dictionary are expressions, and a name in them may stand for another dictionary. As
long as no dictionary leads back to itself in this way, the dictionaries of a group can be evaluated
one inside the other, since there are only finitely many of them.
-/

namespace Stencil.Groups

/-- The dictionary that `name` stands for, looked up from a group on, has an entry that may look up
`other`. -/
def Refers (groups : Groups) (start : GroupId) (other name : String) : Prop :=
  ∃ literal, groups.findDictionary start name = some literal ∧
    ∃ part ∈ literal.parts, part.Leads groups.Stored other

/-- No dictionary, looked up from any group on, leads back to itself. -/
def Acyclic (groups : Groups) : Prop :=
  ∀ start name, ¬ Relation.TransGen (groups.Refers start) name name

variable {groups : Groups}

/-- What is looked up from a group on is found in finitely many dictionaries. -/
theorem finite_dictionaries (groups : Groups) (start : GroupId) :
    {name | (groups.findDictionary start name).isSome}.Finite := by
  refine (List.finite_toSet (groups.toList.flatMap fun group => group.dictionaries.keys)).subset ?_
  intro name hname
  obtain ⟨literal, hliteral⟩ := Option.isSome_iff_exists.mp hname
  obtain ⟨id, -, group, hgroup, hget⟩ := findDictionary_eq_some hliteral
  refine List.mem_flatMap.mpr ⟨group, ?_, ?_⟩
  · exact Array.mem_toList_iff.mpr (Array.mem_of_getElem? hgroup)
  · exact List.mem_map_of_mem (Table.mem_of_get? hget)

/-- Dictionaries that do not lead back to themselves can be evaluated one inside the other. -/
theorem Acyclic.wellFounded (h : groups.Acyclic) (start : GroupId) :
    WellFounded (groups.Refers start) := by
  let Found := {name // (groups.findDictionary start name).isSome}
  let below (first second : Found) : Prop :=
    Relation.TransGen (groups.Refers start) first.1 second.1
  have : Finite Found := (finite_dictionaries groups start).to_subtype
  have : IsTrans Found below := ⟨fun _ _ _ => Relation.TransGen.trans⟩
  have : Std.Irrefl below := ⟨fun name => h start name.1⟩
  have hbelow : WellFounded below := Finite.wellFounded_of_trans_of_irrefl below
  -- A name that stands for no dictionary refers to nothing.
  have hother (name : String)
      (hfound : ∀ hname, Acc (groups.Refers start) (⟨name, hname⟩ : Found).1) :
      Acc (groups.Refers start) name := by
    by_cases hname : (groups.findDictionary start name).isSome
    · exact hfound hname
    · refine ⟨_, fun other hrefers => absurd ?_ hname⟩
      obtain ⟨literal, hliteral, -⟩ := hrefers
      rw [hliteral]
      rfl
  have hfound (name : Found) : Acc (groups.Refers start) name.1 := by
    induction name using hbelow.induction with
    | _ name ih =>
      refine ⟨_, fun other hrefers => hother other fun hname => ?_⟩
      exact ih ⟨other, hname⟩ (.single hrefers)
  exact ⟨fun name => hother name fun hname => hfound ⟨name, hname⟩⟩

/-- No dictionary leads back to itself if the dictionaries can be ranked such that each one refers
only to names of lower rank. -/
theorem Acyclic.ofRank (rank : String → Nat)
    (h : ∀ id group, groups.find? id = some group → ∀ entry ∈ group.dictionaries.entries,
      ∀ part ∈ MapLiteral.parts entry.2, ∀ other, part.Leads groups.Stored other →
        rank other < rank entry.1) : groups.Acyclic := by
  have hrefers (start : GroupId) (other name : String) (hlink : groups.Refers start other name) :
      rank other < rank name := by
    obtain ⟨literal, hliteral, part, hpart, hleads⟩ := hlink
    obtain ⟨id, -, group, hgroup, hget⟩ := findDictionary_eq_some hliteral
    exact h id group hgroup _ (Table.mem_of_get? hget) part hpart other hleads
  intro start name hcycle
  have hless (other name : String) (hpath : Relation.TransGen (groups.Refers start) other name) :
      rank other < rank name := by
    induction hpath with
    | single hlink => exact hrefers start _ _ hlink
    | tail _ hlink ih => exact ih.trans (hrefers start _ _ hlink)
  exact Nat.lt_irrefl _ (hless name name hcycle)

end Stencil.Groups
