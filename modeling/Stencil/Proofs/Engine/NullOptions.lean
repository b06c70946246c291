import Stencil.Proofs.Engine.Reachable
import Stencil.Proofs.Render.Lenience
import Stencil.Proofs.Render.Rows

/-!
# What a null option allows

A loop variable whose sequence has run out may be read if the application is evaluated for a chunk
that has a null option. All that stands in the expression of a chunk is evaluated under the
permission that this chunk gives, and the permission ends with the expression. But what is evaluated
in the meantime, in the course of writing other templates, finds the same permission until it comes
to a chunk of its own: argument defaults, tests and options do not give one. So the permission is
that of the chunk in which an application stands, provided that it stands in the expression of one.
-/

namespace Stencil

open Render

namespace Evaluator

/-- How the permission to read loop variables after their sequence depends on chunks. -/
structure PermitsByChunk (fuel : Nat) (setting : Setting) : Prop where
  /-- The expression of a chunk is evaluated, with all that stands in it, under the permission that
  the chunk gives: it makes no difference what would be done under the other one. The options are
  evaluated, and the value is written, under the permission from before. -/
  chunk : ∀ scope expr (options : Options Expr) level,
    EvaluatesUnder options.null.isSome level → ∀ run,
      (upTo fuel).writeExpression scope expr options setting run = (do
        let value ← leniently options.null.isSome ((level fuel).eval scope expr)
        let evaluated ← (upTo fuel).evalOptions scope options
        anchored options.anchor ((upTo fuel).value scope evaluated value) : Render Nat) setting run
  /-- An expression that is evaluated elsewhere is evaluated under the permission that it finds. -/
  found : ∀ scope expr run level, EvaluatesUnder run.lenient level →
    (level fuel).eval scope expr setting run = (upTo fuel).eval scope expr setting run
  /-- Where the driver of a name has run out, the name cannot be read in the instance of the row
  unless this is permitted when the application is evaluated. If it is, the name comes to the
  attribute that the call sets, or else to the default of the formal argument, or to nothing if
  there is no default. -/
  rows : ∀ scope drivers call begun value ended,
    (upTo fuel).applyParallel scope drivers [call] setting begun = (.ok value, ended) →
      ∃ definition looked values,
        (upTo fuel).callee scope call.callee setting begun = (.ok definition, looked) ∧
        value = .list values ∧ ∀ (index : Nat) value, values[index]? = some value →
          ∃ id data, value = .template id ∧ data.definition = definition ∧
            (upTo fuel).Produces setting scope call.arguments begun ended id data ∧
            ∀ name, name ≠ "i" → name ≠ "i0" → RunsOut definition.parameterNames
              (Value.elementsOf looked.store drivers) name index →
                (begun.lenient = false → data.Lacks name) ∧
                (begun.lenient = true →
                  (∀ value, data.attributes.get? name = some value → data.Reads name value) ∧
                  (data.attributes.get? name = none → ∃ formal,
                    data.definition.formal? name = some formal ∧ data.FallsBack name formal)) ∧
                (definition.parameterNames.Nodup → call.arguments.isEmpty →
                  data.attributes.get? name = none)
  /-- A chunk does not depend on the permission from before, whatever its expression is. -/
  written : setting.groups.OrderlyEntries → ∀ scope expr (options : Options Expr),
    (∀ part ∈ options.parts, ¬ part.Walks) →
      Unswayed setting ((upTo fuel).writeExpression scope expr options)
  /-- Nor do other templates that are written in the course of evaluation. -/
  body : setting.groups.OrderlyEntries → ∀ outer id,
    Unswayed setting ((upTo fuel).exec outer id)
  value : setting.groups.OrderlyEntries → ∀ scope options value,
    Unswayed setting ((upTo fuel).value scope options value)
  /-- Nor do names, whose values may be those of defaults and dictionaries. -/
  name : setting.groups.OrderlyEntries → ∀ scope name,
    Unswayed setting ((upTo fuel).resolve scope name)
  default : setting.groups.OrderlyEntries → ∀ scope (default : Expr), ¬ default.Walks →
    Unswayed setting ((upTo fuel).defaultValue scope default)
  test : setting.groups.OrderlyEntries → ∀ scope otherwise (branches : List (Branch Expr Node)),
    (∀ branch ∈ branches, ¬ branch.test.Walks) →
      Unswayed setting ((upTo fuel).choose scope otherwise branches)
  option : setting.groups.OrderlyEntries → ∀ scope (options : Options Expr),
    (∀ part ∈ options.parts, ¬ part.Walks) →
      Unswayed setting ((upTo fuel).evalOptions scope options)

/-- An expression is evaluated under a permission as it is in the render. -/
theorem leniently_agrees {permission : Bool} {level : Nat → Evaluator}
    (h : EvaluatesUnder permission level) (fuel : Nat) (setting : Setting) (scope : Scope)
    (expr : Expr) (run : Run) :
    leniently permission ((level fuel).eval scope expr) setting run =
      leniently permission ((upTo fuel).eval scope expr) setting run := by
  rw [leniently_apply, leniently_apply]
  have hagrees := (h.agrees fuel).eval scope expr setting { run with lenient := permission } rfl
  rw [hagrees]

/-- The permission is that of the chunk, apart from applications that stand in none. -/
theorem permits_by_chunk (fuel : Nat) (setting : Setting) : PermitsByChunk fuel setting where
  chunk scope expr options level hlevel run := by
    rw [writeExpression, bind_apply, bind_apply, leniently_agrees hlevel]
  found scope expr run level hlevel := (hlevel.agrees fuel).eval scope expr setting run rfl
  rows scope drivers call begun value ended h := by
    obtain ⟨definition, looked, values, hcallee, -, hvalue, -, hrows⟩ := applyParallel_ok h
    refine ⟨definition, looked, values, hcallee, hvalue, fun index value hindex => ?_⟩
    obtain ⟨id, data, rfl, hrow⟩ := hrows index value hindex
    refine ⟨id, data, rfl, hrow.definition_eq, hrow.toProduces, fun name hi hi0 hout =>
      ⟨fun hstrict => hrow.lacks hi hi0 hstrict hout, fun hlenient => ?_,
        fun hnodup => hrow.missing hnodup name hout⟩⟩
    have hvariable := hrow.lookup_eq_none hi hi0 (Or.inl hlenient)
    refine ⟨fun value => Instance.reads_of_attribute hvariable, fun hunset => ?_⟩
    obtain ⟨items, hmem, -⟩ := hout
    have hname : name ∈ data.definition.parameterNames :=
      hrow.definition_eq ▸ (List.of_mem_zip hmem).1
    obtain ⟨formal, -, hformal⟩ := Definition.exists_formal? hname
    exact ⟨formal, hformal, Instance.fallsBack_of_unset hvariable hunset hformal⟩
  written hentries scope expr _ hoptions :=
    unswayed_of_holds ((blindUpTo hentries fuel).writeExpression scope expr hoptions)
  body hentries outer id := unswayed_of_holds ((blindUpTo hentries fuel).exec outer id)
  value hentries scope options value :=
    unswayed_of_holds ((blindUpTo hentries fuel).value scope options value)
  name hentries scope name :=
    unswayed_of_holds ((blindUpTo hentries fuel).resolve hentries scope name)
  default hentries scope default hdefault :=
    unswayed_of_holds ((blindUpTo hentries fuel).defaultValue scope default fun _ => hdefault)
  test hentries scope otherwise _ hbranches :=
    unswayed_of_holds ((blindUpTo hentries fuel).choose scope otherwise hbranches)
  option hentries scope _ hoptions :=
    unswayed_of_holds ((blindUpTo hentries fuel).evalOptions scope hoptions)

/-- A chunk with a null option evaluates its expression under no other permission than its own, and
under that one the second row of two lists, of which the second one is shorter, falls back on the
default. -/
theorem permits_by_chunk_shorter :
    let pair : Definition := .template "pair" (some [{ name := "left" }, { name := "right" }]) []
    let setting : Setting := .ofGroup [pair]
    let run : Run := .ofInstances [(.template "page" none [], [])]
    let permitted : Run := { run with lenient := true }
    let drivers : List Value := [.list [.string "a", .string "b"], .list [.string "x"]]
    let options : Options Expr := { null := some (.string "n/a") }
    (∀ expr, (upTo 2).writeExpression ⟨⟨0⟩, []⟩ expr options setting run = (do
        let value ← leniently true ((insisting true 2).eval ⟨⟨0⟩, []⟩ expr)
        let evaluated ← (upTo 2).evalOptions ⟨⟨0⟩, []⟩ options
        anchored false ((upTo 2).value ⟨⟨0⟩, []⟩ evaluated value) : Render Nat) setting run) ∧
      ∃ values ended,
        (upTo 1).applyParallel ⟨⟨0⟩, []⟩ drivers [{ callee := .named "pair" }] setting permitted =
          (.ok (.list values), ended) ∧
        ∃ (id : InstanceId) (data : Instance), values[1]? = some (.template id) ∧
          ended.instances[id.index]? = some data ∧ data.FallsBack "right" { name := "right" } := by
  intro pair setting run permitted drivers options
  refine ⟨fun expr => (permits_by_chunk 2 setting).chunk _ expr options _
    (evaluatesUnder_insisting true) run, ?_⟩
  have hok : ((upTo 1).applyParallel ⟨⟨0⟩, []⟩ drivers [{ callee := .named "pair" }]
      setting permitted).1.isOk = true := by decide +kernel
  obtain ⟨value, ended, happly⟩ := exists_of_isOk hok
  obtain ⟨definition, looked, values, hcallee, rfl, hrows⟩ :=
    (permits_by_chunk 1 setting).rows _ drivers _ permitted value ended happly
  have hfound : (upTo 1).callee ⟨⟨0⟩, []⟩ (.named "pair") setting permitted =
      (.ok { pair with group := some ⟨0⟩ }, permitted) := rfl
  cases hfound.symm.trans hcallee
  obtain ⟨_, _, _, hcallee', -, heq, hlength, -⟩ := applyParallel_ok happly
  cases hfound.symm.trans hcallee'
  cases heq
  obtain ⟨first, second, rfl⟩ := List.length_eq_two.mp hlength
  obtain ⟨id, data, rfl, hdefinition, hproduces, hread⟩ := hrows 1 second rfl
  have hout : RunsOut ["left", "right"] [[.string "a", .string "b"], [.string "x"]] "right" 1 :=
    ⟨[.string "x"], List.mem_cons_of_mem _ List.mem_cons_self, rfl⟩
  obtain ⟨-, hlenient, hunset⟩ := hread "right" (by decide) (by decide) hout
  obtain ⟨formal, hformal, hfallsBack⟩ := (hlenient rfl).2 (hunset (by decide) rfl)
  rw [hdefinition] at hformal
  cases hformal
  exact ⟨_, ended, happly, id, data, rfl, hproduces.stands, hfallsBack⟩

end Evaluator

/-- An application to two lists, of which the second one is shorter. -/
def Expr.pairs : Expr :=
  .apply [.attribute "lefts", .attribute "rights"] [{ callee := .named "pair" }]

/-- A page with two lists, and with a template that writes a pair of elements of them. -/
def Engine.pairing (further : List (Formal Expr)) (detail body : List Chunk) : Engine :=
  ({} : Engine).after
    [.defineGroup "group" .angle,
      .declare ⟨0⟩ (.template "pair" (some [{ name := "left" }, { name := "right" }])
        [.expression (.attribute "left") {}, .expression (.attribute "right") {}]),
      .declare ⟨0⟩ (.template "detail" none detail),
      .declare ⟨0⟩ (.template "page" (some ([{ name := "lefts" }, { name := "rights" }] ++ further))
        body),
      .instanceOf ⟨0⟩ "page",
      .assign ⟨0⟩ "lefts" (.list [.string "a", .string "b"]),
      .assign ⟨0⟩ "rights" (.list [.string "x"])]

/-- A page that writes the text of a template. -/
def Engine.pairingDetail (options : Options Expr) (detail : Chunk) : Engine :=
  pairing [] [detail] [.expression (.rendered (.call { callee := .named "detail" })) options]

/-- It is the chunk around the application that counts, and not the one that leads to it. -/
example :
    let null : Options Expr := { null := some (.string "") }
    ((Engine.pairingDetail null (.expression .pairs {})).render ⟨0⟩).1 =
        .error (.failed (.noSuchAttribute "right" "pair")) ∧
      ((Engine.pairingDetail {} (.expression .pairs null)).render ⟨0⟩).1 = .ok "axb" := by
  decide +kernel

/-- A page that writes an argument whose default is an application. -/
def Engine.pairingDefault (chunks : List (Options Expr)) : Engine :=
  pairing [{ name := "pairs", default := some .pairs }] []
    (chunks.map (.expression (.attribute "pairs")))

/-- An application that stands in an argument default, in a test or in an option is in no chunk with
a null option. It is refused where the chunk that leads to it has none, and is not where that chunk
has one. For a default it matters which chunk comes first. -/
theorem Engine.not_permitted_pairing :
    let refused : Except Halt String := .error (.failed (.noSuchAttribute "right" "pair"))
    let null : Options Expr := { null := some (.string "") }
    let test : Chunk := .conditional [{ test := .rendered .pairs, body := [.literal "yes"] }] none
    let option : Chunk := .expression (.string "text") { separator := some .pairs }
    (((pairingDefault [{}]).render ⟨0⟩).1 = refused ∧
        ((pairingDefault [null]).render ⟨0⟩).1 = .ok "axb") ∧
      (((pairingDefault [{}, null]).render ⟨0⟩).1 = refused ∧
        ((pairingDefault [null, {}]).render ⟨0⟩).1 = .ok "axbaxb") ∧
      (((pairingDetail {} test).render ⟨0⟩).1 = refused ∧
        ((pairingDetail null test).render ⟨0⟩).1 = .ok "yes") ∧
      ((pairingDetail {} option).render ⟨0⟩).1 = refused ∧
        ((pairingDetail null option).render ⟨0⟩).1 = .ok "text" := by
  decide +kernel

end Stencil
