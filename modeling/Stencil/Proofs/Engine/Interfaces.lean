import Stencil.Engine.Interface
import Stencil.Proofs.Engine.Reachable
import Stencil.Proofs.Group.Nearest

/-!
# Interfaces of groups

A group keeps what an interface asks for if the nearest template of each name that it asks for has
the arguments that it asks for; an optional template may also be missing. A check of the interfaces
finds out whether this is so of all of them, and reports each case in which it is not, once and in
the order in which it was asked for. A check asks an engine and gives none back: it has no way to
change anything.
-/

namespace Stencil

namespace Signature

variable {groups : Groups} {id : GroupId} {group interface : String} {signature : Signature}
  {report : DefinitionError}

/-- What a signature asks for is there: the nearest template of its name has its arguments, in its
order, or there is no template of this name and none is required. -/
def Satisfied (groups : Groups) (id : GroupId) (signature : Signature) : Prop :=
  (∃ definition, groups.Nearest signature.name id definition ∧
    definition.parameterNames = signature.arguments) ∨
  signature.optional = true ∧ ∀ definition, ¬groups.Nearest signature.name id definition

/-- What is to be reported of a signature of an interface: there is no template of its name although
one is required, or the nearest one has other arguments, or the same ones in another order. -/
inductive Violated (groups : Groups) (id : GroupId) (group interface : String)
    (signature : Signature) : DefinitionError → Prop where
  | missing (hrequired : signature.optional = false)
    (h : ∀ definition, ¬groups.Nearest signature.name id definition) :
    Violated groups id group interface signature
      (.missingTemplate group interface signature.name)
  | mismatched {definition : Definition} (h : groups.Nearest signature.name id definition)
    (hne : definition.parameterNames ≠ signature.arguments) :
    Violated groups id group interface signature
      (.mismatchedArguments group interface signature.name signature.arguments
        definition.parameterNames)

/-- A signature without a template is violated unless it is optional. -/
theorem violation?_of_none (h : groups.findTemplate id signature.name = none) :
    signature.violation? groups id group interface =
      if signature.optional then none
      else some (.missingTemplate group interface signature.name) := by
  rw [violation?, h]

/-- A signature with a template is violated unless the arguments are the same. -/
theorem violation?_of_some {definition : Definition} {owner : GroupId}
    (h : groups.findTemplate id signature.name = some (definition, owner)) :
    signature.violation? groups id group interface =
      if definition.parameterNames = signature.arguments then none
      else some (.mismatchedArguments group interface signature.name signature.arguments
        definition.parameterNames) := by
  rw [violation?, h]

/-- Nothing is reported of a signature just if what it asks for is there. -/
theorem violation?_eq_none_iff :
    signature.violation? groups id group interface = none ↔ signature.Satisfied groups id := by
  cases hfind : groups.findTemplate id signature.name with
  | none =>
    have hnone := Groups.findTemplate_eq_none_iff.mp hfind
    rw [violation?_of_none hfind]
    simp [Satisfied, hnone]
  | some found =>
    obtain ⟨definition, owner⟩ := found
    have hnearest := Groups.nearest_of_findTemplate hfind
    have hunique (other : Definition) (h : groups.Nearest signature.name id other) :
        other = definition := h.unique hnearest
    rw [violation?_of_some hfind]
    constructor
    · intro h
      by_cases harguments : definition.parameterNames = signature.arguments
      · exact .inl ⟨definition, hnearest, harguments⟩
      · rw [if_neg harguments] at h
        cases h
    · rintro (⟨other, hother, harguments⟩ | ⟨-, hnone⟩)
      · exact if_pos (hunique other hother ▸ harguments)
      · exact (hnone definition hnearest).elim

/-- What is reported of a signature is what is to be reported. -/
theorem violation?_eq_some_iff :
    signature.violation? groups id group interface = some report ↔
      signature.Violated groups id group interface report := by
  constructor
  · intro h
    cases hfind : groups.findTemplate id signature.name with
    | none =>
      rw [violation?_of_none hfind] at h
      split at h
      · cases h
      · next hrequired =>
        cases h
        exact .missing (eq_false_of_ne_true hrequired) (Groups.findTemplate_eq_none_iff.mp hfind)
    | some found =>
      rw [violation?_of_some hfind] at h
      split at h
      · cases h
      · next hne =>
        cases h
        exact .mismatched (Groups.nearest_of_findTemplate hfind) hne
  · intro h
    cases h with
    | missing hrequired h =>
      rw [violation?_of_none (Groups.findTemplate_eq_none_iff.mpr h), if_neg (by simp [hrequired])]
    | mismatched h hne =>
      obtain ⟨⟨definition, owner⟩, hfind, rfl⟩ :=
        Option.map_eq_some_iff.mp (Groups.nearest_iff.mp h)
      rw [violation?_of_some hfind, if_neg hne]

end Signature

/-! ### All interfaces of a group -/

/-- What the interfaces of a group ask for, in the order in which they were registered. Each
signature comes with the name of its interface. -/
def Group.asked (group : Group) : List (String × Signature) :=
  group.interfaces.flatMap fun interface =>
    interface.signatures.map fun signature => (interface.name, signature)

/-- A group is asked for the signatures of its interfaces. -/
theorem Group.mem_asked {group : Group} {entry : String × Signature} :
    entry ∈ group.asked ↔ ∃ interface ∈ group.interfaces,
      entry.2 ∈ interface.signatures ∧ entry.1 = interface.name := by
  obtain ⟨name, signature⟩ := entry
  simp only [asked, List.mem_flatMap, List.mem_map, Prod.mk.injEq]
  constructor
  · rintro ⟨interface, hinterface, other, hother, rfl, rfl⟩
    exact ⟨interface, hinterface, hother, rfl⟩
  · rintro ⟨interface, hinterface, hsignature, rfl⟩
    exact ⟨interface, hinterface, signature, hsignature, rfl, rfl⟩

namespace Groups

/-- The reports on a list of signatures: one for each signature that is violated, and none for the
others. -/
inductive Reports (groups : Groups) (id : GroupId) (group : String) :
    List (String × Signature) → List DefinitionError → Prop where
  | nil : Reports groups id group [] []
  | satisfied {entry : String × Signature} {rest : List (String × Signature)}
    {reports : List DefinitionError} (hsatisfied : entry.2.Satisfied groups id)
    (h : Reports groups id group rest reports) : Reports groups id group (entry :: rest) reports
  | violated {entry : String × Signature} {rest : List (String × Signature)}
    {report : DefinitionError} {reports : List DefinitionError}
    (hviolated : entry.2.Violated groups id group entry.1 report)
    (h : Reports groups id group rest reports) :
    Reports groups id group (entry :: rest) (report :: reports)

/-- What is wrong with a signature that comes with the name of its interface. -/
def violationOf? (groups : Groups) (id : GroupId) (group : String) (entry : String × Signature) :
    Option DefinitionError :=
  entry.2.violation? groups id group entry.1

variable {groups : Groups} {id : GroupId} {group : Group}

/-- There is exactly one list of reports, made up signature by signature. -/
theorem reports_iff {name : String} {asked : List (String × Signature)}
    {reports : List DefinitionError} :
    groups.Reports id name asked reports ↔
      reports = asked.filterMap (groups.violationOf? id name) := by
  constructor
  · intro h
    induction h with
    | nil => rfl
    | @satisfied entry _ _ hsatisfied _ ih =>
      have hnone : groups.violationOf? id name entry = none :=
        Signature.violation?_eq_none_iff.mpr hsatisfied
      rw [List.filterMap_cons_none hnone, ih]
    | @violated entry _ report _ hviolated _ ih =>
      have hsome : groups.violationOf? id name entry = some report :=
        Signature.violation?_eq_some_iff.mpr hviolated
      rw [List.filterMap_cons_some hsome, ih]
  · rintro rfl
    induction asked with
    | nil => exact .nil
    | cons entry rest ih =>
      cases hviolation : groups.violationOf? id name entry with
      | none =>
        rw [List.filterMap_cons_none hviolation]
        exact .satisfied (Signature.violation?_eq_none_iff.mp hviolation) ih
      | some report =>
        rw [List.filterMap_cons_some hviolation]
        exact .violated (Signature.violation?_eq_some_iff.mp hviolation) ih

/-- The violations are those of the signatures in their order. -/
theorem violations_eq (groups : Groups) (id : GroupId) (group : Group) :
    groups.violations id group = group.asked.filterMap (groups.violationOf? id group.name) := by
  simp only [violations, Group.asked, List.filterMap_flatMap, List.filterMap_map]
  rfl

/-- Nothing is wrong just if all signatures are satisfied. -/
theorem violations_eq_nil_iff :
    groups.violations id group = [] ↔ ∀ interface ∈ group.interfaces,
      ∀ signature ∈ interface.signatures, signature.Satisfied groups id := by
  rw [violations_eq, List.filterMap_eq_nil_iff]
  constructor
  · intro h interface hinterface signature hsignature
    exact Signature.violation?_eq_none_iff.mp
      (h (interface.name, signature) (Group.mem_asked.mpr ⟨interface, hinterface, hsignature, rfl⟩))
  · intro h entry hentry
    obtain ⟨interface, hinterface, hsignature, -⟩ := Group.mem_asked.mp hentry
    exact Signature.violation?_eq_none_iff.mpr (h interface hinterface entry.2 hsignature)

end Groups

namespace Engine

/-- A check of the interfaces of a group answers that all is well just if every signature of every
interface is satisfied. It reports what is to be reported of each violated signature, in the order
of registration, and nothing else. -/
theorem checks_interfaces {engine : Engine} {id : GroupId} {group : Group}
    (hgroup : engine.group? id = some group) :
    ((engine.checkInterfaces id).1 = true ↔ ∀ interface ∈ group.interfaces,
      ∀ signature ∈ interface.signatures, signature.Satisfied engine.groups id) ∧
    ∀ reports, engine.groups.Reports id group.name group.asked reports ↔
      reports = (engine.checkInterfaces id).2 := by
  have hcheck : engine.checkInterfaces id =
      ((engine.groups.violations id group).isEmpty, engine.groups.violations id group) := by
    rw [checkInterfaces, hgroup]
  rw [hcheck]
  refine ⟨List.isEmpty_iff.trans Groups.violations_eq_nil_iff, fun reports => ?_⟩
  rw [Groups.violations_eq]
  exact Groups.reports_iff

/-- Two groups with an interface each. That of the sub-group asks for a template of its super-group,
for one with other arguments than its own has, for one that is missing, and for one that may be. -/
def promising : Engine :=
  ({} : Engine).after
    [.defineGroup "base" .angle, .defineGroup "site" .angle, .setSuperGroup ⟨1⟩ ⟨0⟩,
      .declare ⟨0⟩ (.template "title" (some [⟨"text", none⟩]) []),
      .declare ⟨1⟩ (.template "note" (some [⟨"author", none⟩]) []),
      .registerInterface ⟨0⟩ ⟨"heading", [⟨"title", ["text"], false⟩]⟩,
      .registerInterface ⟨1⟩ ⟨"page", [⟨"title", ["text"], false⟩, ⟨"note", ["text"], false⟩,
        ⟨"body", [], false⟩, ⟨"footer", ["text"], true⟩]⟩]

/-- All is well with the interface of the super-group. Two signatures of the other one are violated,
and they are reported in their order. -/
theorem checks_interfaces_promising :
    (∃ base, promising.group? ⟨0⟩ = some base ∧ ∀ interface ∈ base.interfaces,
      ∀ signature ∈ interface.signatures, signature.Satisfied promising.groups ⟨0⟩) ∧
    ∃ site, promising.group? ⟨1⟩ = some site ∧
      (¬∀ interface ∈ site.interfaces, ∀ signature ∈ interface.signatures,
        signature.Satisfied promising.groups ⟨1⟩) ∧
      promising.groups.Reports ⟨1⟩ site.name site.asked
        [.mismatchedArguments "site" "page" "note" ["text"] ["author"],
          .missingTemplate "site" "page" "body"] := by
  obtain ⟨base, hbase⟩ : ∃ base, promising.group? ⟨0⟩ = some base :=
    Option.isSome_iff_exists.mp (by decide +kernel)
  obtain ⟨site, hsite⟩ : ∃ site, promising.group? ⟨1⟩ = some site :=
    Option.isSome_iff_exists.mp (by decide +kernel)
  have hwell : (promising.checkInterfaces ⟨0⟩).1 = true := by decide +kernel
  have hreports : promising.checkInterfaces ⟨1⟩ =
      (false, [.mismatchedArguments "site" "page" "note" ["text"] ["author"],
        .missingTemplate "site" "page" "body"]) := by decide +kernel
  refine ⟨⟨base, hbase, (checks_interfaces hbase).1.mp hwell⟩, site, hsite, ?_, ?_⟩
  · rw [← (checks_interfaces hsite).1, hreports]
    exact Bool.false_ne_true
  · rw [(checks_interfaces hsite).2, hreports]

end Engine

end Stencil
