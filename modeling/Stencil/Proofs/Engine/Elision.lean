import Stencil.Proofs.Engine.Reachable
import Stencil.Proofs.Render.Elision

/-!
# Empty lines

A body is given a further line after one of its line breaks, which holds nothing but one chunk.
Where the line's turn comes it writes nothing and has no side effects. Then the instance that has
the body is written as it is without the line, whatever the run is, and so an engine renders the
same text.
Conversely the break of a line on which anything was written is never lost.
-/

namespace Stencil

open Render Evaluator Shift

/-- An instance with another body. -/
def Instance.withBody (data : Instance) (body : List Chunk) : Instance :=
  { data with definition := { data.definition with body } }

/-- A run in which an instance has another body. -/
def Run.withBody (run : Run) (id : InstanceId) (body : List Chunk) : Run :=
  { run with instances := run.instances.modify id.index (·.withBody body) }

/-- An engine in which an instance has another body. -/
def Engine.withBody (engine : Engine) (id : InstanceId) (body : List Chunk) : Engine :=
  { engine with instances := engine.instances.modify id.index (·.withBody body) }

/-- The run in which the nodes of an instance are written. -/
def Run.entered (setting : Setting) (id : InstanceId) (run : Run) : Run :=
  { run with active := id :: run.active, written := noted setting.callers id run.written }

/-- Two results are the same, but that errors may name other numbers for instances that were not
issued. -/
inductive Render.SameResult {α : Type} : Except Halt α → Except Halt α → Prop where
  | same (result : Except Halt α) : SameResult result result
  | unissued (index other : Nat) : SameResult
    (.error (.failed (.invalidInstance index))) (.error (.failed (.invalidInstance other)))

/-- Lines that hold nothing but one chunk vanish without a trace if the chunk writes nothing and has
no side effects, and lines on which anything was written keep their breaks. -/
structure ElidesLines : Prop where
  /-- Each place after a line break of a body is found among the nodes of the body. -/
  placed : ∀ site : Site, ∃ spot, site.Lowers true "" spot
  /-- In any run an instance is written as it is with a further line that vanishes there. -/
  written : ∀ (site : Site) (spot : Spot) (line : SoleLine) (fuel : Nat) (setting : Setting)
    (run : Run) (outer : List InstanceId) (id : InstanceId) (data : Instance),
    site.Lowers true "" spot → run.instances[id.index]? = some data →
    data.definition.body = site.body →
    spot.Vanishes setting ⟨id, outer⟩ line.node fuel {}
      ((run.withBody id (site.withLine line)).entered setting id) →
    SameResult ((upTo (fuel + 2)).exec outer id setting run).1
        ((upTo (fuel + 2)).exec outer id setting (run.withBody id (site.withLine line))).1 ∧
      ((upTo (fuel + 2)).exec outer id setting (run.withBody id (site.withLine line))).2.out =
        ((upTo (fuel + 2)).exec outer id setting run).2.out
  /-- So the text that an engine renders is the same. -/
  rendered : ∀ (site : Site) (spot : Spot) (line : SoleLine) (fuel : Nat) (engine : Engine)
    (id : InstanceId) (data : Instance) (width : Nat),
    Engine.fuel = fuel + 2 → site.Lowers true "" spot → engine.instance? id = some data →
    data.definition.body = site.body →
    spot.Vanishes engine.setting ⟨id, []⟩ line.node fuel {}
      (((engine.start (engine.config.writer width)).withBody id (site.withLine line)).entered
        engine.setting id) →
    SameResult (engine.renderWithWidth id width).1
      ((engine.withBody id (site.withLine line)).renderWithWidth id width).1
  /-- The nodes of an instance are written event by event, up to what stops them. The break of a
  line is among the events, and is written if characters were written on the line. -/
  kept : ∀ (fuel : Nat) (setting : Setting) (run : Run) (outer : List InstanceId) (id : InstanceId)
    (data : Instance), run.instances[id.index]? = some data →
    Run.refuses run setting.config.maxDepth id = false →
    ∃ events halt last,
      Unfolds setting ⟨id, outer⟩ fuel data.definition.nodes (run.entered setting id) events halt
        last ∧
      ((upTo (fuel + 2)).exec outer id setting run).2 = { last with active := last.active.tail } ∧
      (∀ stop, ((upTo (fuel + 2)).exec outer id setting run).1 = .error stop ↔
        halt = some stop) ∧
      ∀ earlier counts kept later,
        events = earlier ++ List.map .wrote counts ++ .broke kept :: later →
          (∃ count ∈ counts, 0 < count) → kept = true

/-! ### Other bodies -/

variable {setting : Setting} {run : Run} {id : InstanceId} {data : Instance} {body : List Chunk}

/-- The shift under which nothing changes but the body of one instance. -/
def Shift.rebodied (run : Run) (id : InstanceId) (body : List Chunk) : Shift where
  first := run.instances.size
  gap := 0
  bodies other := if other = id then some body else none

/-- No instance but the one has another body. -/
theorem Shift.data_rebodied (other : InstanceId) (data : Instance) :
    (rebodied run id body).data other data = if other = id then data.withBody body else data := by
  rw [data_of_gap rfl, Shift.definition, rebodied]
  dsimp only
  split <;> rfl

/-- In a run an instance may be given another body, and all else stays. -/
theorem getElem?_withBody (index : Nat) : (run.withBody id body).instances[index]? =
    (run.instances[index]?).map fun data =>
      if id.index = index then data.withBody body else data := by
  rw [Run.withBody, Array.getElem?_modify]
  split
  · rfl
  · rw [Option.map_id']

/-- The instances of a run with another body are those of the shift. -/
theorem Shift.instances_rebodied (other : InstanceId) :
    (run.withBody id body).instances[((rebodied run id body).move other).index]? =
      (run.instances[other.index]?).map ((rebodied run id body).data other) := by
  rw [move_of_gap rfl, getElem?_withBody]
  refine congrArg (Option.map · _) (funext fun data => ?_)
  rw [data_rebodied]
  by_cases hother : other = id
  · rw [if_pos hother, if_pos (congrArg InstanceId.index hother.symm)]
  · rw [if_neg hother, if_neg fun heq => hother (congrArg InstanceId.mk heq.symm)]

/-- While an instance is written, a run in which it has another body goes with one in which it does
not. -/
theorem Shift.mirrors_rebodied (hactive : id ∈ run.active)
    (hdata : run.instances[id.index]? = some data) :
    (rebodied run id body).Mirrors run (run.withBody id body) where
  grown := Nat.le_refl _
  size := Array.size_modify
  instances := instances_rebodied
  store :=
    { cursors := by
        have hvalue : Value.rename (rebodied run id body).move = fun value => value :=
          funext (value_of_gap rfl)
        rw [hvalue, List.map_id_fun']
        exact (Array.map_id' _).symm
      objects := rfl
      owners := rfl
      fixed := fun _ _ _ _ held _ => value_of_gap rfl held }
  out := rfl
  active := by
    have hmove : (rebodied run id body).move = fun other => other := funext (move_of_gap rfl)
    rw [hmove, List.map_id']
    rfl
  bodies other hother := by
    have hsame : other = id := by
      by_contra hne
      rw [rebodied] at hother
      simp [hne] at hother
    exact ⟨hsame ▸ hactive, hsame ▸ (Array.getElem?_eq_some_iff.mp hdata).1⟩
  defaults other name := by
    have hvalue : (rebodied run id body).value = fun value => value := funext (value_of_gap rfl)
    rw [move_of_gap rfl, hvalue, Option.map_id']
    rfl
  lenient := rfl

/-! ### Instances -/

/-- The outcome of an instance, from that of its nodes. -/
def leaving (outcome : Except Halt (Nat × Line) × Run) : Except Halt Nat × Run :=
  (outcome.1.map Prod.fst, { outcome.2 with active := outcome.2.active.tail })

/-- An instance that is not refused is written by writing its nodes. -/
theorem exec_eq (hdata : run.instances[id.index]? = some data)
    (hrefuses : Run.refuses run setting.config.maxDepth id = false) (fuel : Nat)
    (outer : List InstanceId) :
    (upTo (fuel + 2)).exec outer id setting run =
      leaving ((upTo fuel).writeNodes ⟨id, outer⟩ {} data.definition.nodes setting
        (run.entered setting id)) := by
  rw [exec_of_enters setting run hdata (by simp [hrefuses]), writeBody_apply]
  change cleaned _ (((upTo fuel).writeNodes ⟨id, outer⟩ {} data.definition.nodes >>= fun outcome =>
    pure outcome.1) setting (run.entered setting id)) = _
  rw [bind_apply]
  rcases (upTo fuel).writeNodes ⟨id, outer⟩ {} data.definition.nodes setting
    (run.entered setting id) with ⟨_ | _, _⟩ <;> rfl

/-- Another body makes no difference to the names of the templates that are being written. -/
theorem activeNames_withBody : activeNames (run.withBody id body) = activeNames run := by
  rw [activeNames, activeNames]
  refine congrArg (List.filterMap · run.active.reverse) (funext fun other => ?_)
  rw [getElem?_withBody, Option.map_map]
  refine congrArg (Option.map · _) (funext fun data => ?_)
  rw [Function.comp_apply]
  split <;> rfl

/-- A render that finds nothing of the difference has the same result and the same output. -/
theorem Shift.Finds.same {S : Shift} {scope : Scope} {active : List InstanceId}
    {outcome other : Except Halt (Nat × Line) × Run} (h : S.Finds scope active outcome other) :
    SameResult (leaving outcome).1 (leaving other).1 ∧
      (leaving other).2.out = (leaving outcome).2.out := by
  obtain ⟨further, -, -, hstates, hresults, -⟩ := h
  refine ⟨?_, hstates.out⟩
  obtain ⟨result, after⟩ := outcome
  obtain ⟨result', after'⟩ := other
  cases hresults with
  | ok value => exact .same (.ok value.1)
  | halt halt => exact .same (.error halt)
  | invalid target => exact .unissued target.index (further.move target).index

/-- An instance is written as it is with a further line that vanishes. -/
theorem written_withLine {site : Site} {spot : Spot} {line : SoleLine} {fuel : Nat}
    {outer : List InstanceId} (hspot : site.Lowers true "" spot)
    (hdata : run.instances[id.index]? = some data) (hbody : data.definition.body = site.body)
    (hvanishes : spot.Vanishes setting ⟨id, outer⟩ line.node fuel {}
      ((run.withBody id (site.withLine line)).entered setting id)) :
    SameResult ((upTo (fuel + 2)).exec outer id setting run).1
        ((upTo (fuel + 2)).exec outer id setting (run.withBody id (site.withLine line))).1 ∧
      ((upTo (fuel + 2)).exec outer id setting (run.withBody id (site.withLine line))).2.out =
        ((upTo (fuel + 2)).exec outer id setting run).2.out := by
  have hother : (run.withBody id (site.withLine line)).instances[id.index]? =
      some (data.withBody (site.withLine line)) := by
    rw [getElem?_withBody, hdata, Option.map_some, if_pos rfl]
  cases hrefuses : Run.refuses run setting.config.maxDepth id with
  | true =>
    rw [exec_of_refuses _ _ hdata hrefuses, exec_of_refuses _ _ hother hrefuses,
      activeNames_withBody]
    exact ⟨.same _, rfl⟩
  | false =>
    have hnodes : data.definition.nodes = spot.fill [] := by
      rw [Definition.nodes, hbody]
      exact hspot.body
    have hnodes' : (data.withBody (site.withLine line)).definition.nodes =
        spot.fill [line.node, .newline] := hspot.withLine line
    have hentered : (rebodied (run.entered setting id) id (site.withLine line)).Mirrors
        (run.entered setting id) ((run.withBody id (site.withLine line)).entered setting id) :=
      mirrors_rebodied List.mem_cons_self hdata
    rw [exec_eq hdata hrefuses, exec_eq hother hrefuses, hnodes, hnodes']
    exact (spot.elided hentered rfl hspot.follows line.node_ne_newline fuel {} hvanishes).same

/-- What an instance does is explained by the events of its nodes. -/
theorem kept_exec (hdata : run.instances[id.index]? = some data)
    (hrefuses : Run.refuses run setting.config.maxDepth id = false) (fuel : Nat)
    (outer : List InstanceId) :
    ∃ events halt last,
      Unfolds setting ⟨id, outer⟩ fuel data.definition.nodes (run.entered setting id) events halt
        last ∧
      ((upTo (fuel + 2)).exec outer id setting run).2 = { last with active := last.active.tail } ∧
      (∀ stop, ((upTo (fuel + 2)).exec outer id setting run).1 = .error stop ↔
        halt = some stop) ∧
      Event.Sound 0 events := by
  have hexplains : Explains setting ⟨id, outer⟩ fuel {} data.definition.nodes
      (run.entered setting id) _ := explains_writeNodes fuel {} _ _
  rw [exec_eq hdata hrefuses]
  generalize (upTo fuel).writeNodes ⟨id, outer⟩ {} data.definition.nodes setting
    (run.entered setting id) = outcome at hexplains
  cases hexplains with
  | ends hevents hsound => exact ⟨_, _, _, hevents, rfl, fun stop => ⟨nofun, nofun⟩, hsound⟩
  | halts hevents hsound =>
    refine ⟨_, _, _, hevents, rfl, fun stop => ?_, hsound⟩
    exact ⟨fun h => congrArg some (Except.error.inj h),
      fun h => congrArg Except.error (Option.some.inj h)⟩

/-! ### Engines -/

/-- Bodies of instances are no part of the setting. -/
theorem Engine.setting_withBody (engine : Engine) (id : InstanceId) (body : List Chunk) :
    (engine.withBody id body).setting = engine.setting := by
  rw [Engine.setting, Engine.withBody, Array.size_modify]
  rfl

/-- The text that is rendered is what the run of an instance wrote. -/
theorem Engine.renderWithWidth_eq {engine : Engine} (hdata : engine.instance? id = some data)
    (width : Nat) : (engine.renderWithWidth id width).1 =
      (engine.runWithin Engine.fuel id (engine.config.writer width)).1.map fun _ =>
        (engine.runWithin Engine.fuel id (engine.config.writer width)).2.out.sink.text := by
  have hthere : ¬ (engine.instance? id).isNone = true := by simp [hdata]
  rw [Engine.renderWithWidth, Engine.write, Engine.writeWithin, if_neg hthere]

/-- The same may be made of results that are the same. -/
theorem Render.SameResult.map {α β : Type} {result other : Except Halt α}
    (h : SameResult result other) (change : α → β) :
    SameResult (result.map change) (other.map change) := by
  cases h with
  | same result => exact .same _
  | unissued index index' => exact .unissued index index'

/-- An engine renders the text that it renders with a further line that vanishes. -/
theorem rendered_withLine {site : Site} {spot : Spot} {line : SoleLine} {fuel : Nat}
    {engine : Engine} (hfuel : Engine.fuel = fuel + 2) (hspot : site.Lowers true "" spot)
    (hdata : engine.instance? id = some data) (hbody : data.definition.body = site.body)
    (width : Nat)
    (hvanishes : spot.Vanishes engine.setting ⟨id, []⟩ line.node fuel {}
      (((engine.start (engine.config.writer width)).withBody id (site.withLine line)).entered
        engine.setting id)) :
    SameResult (engine.renderWithWidth id width).1
      ((engine.withBody id (site.withLine line)).renderWithWidth id width).1 := by
  have hbegun : (engine.start (engine.config.writer width)).instances[id.index]? = some data :=
    hdata
  have hother : ((engine.start (engine.config.writer width)).withBody id
      (site.withLine line)).instances[id.index]? = some (data.withBody (site.withLine line)) := by
    rw [getElem?_withBody, hbegun, Option.map_some, if_pos rfl]
  obtain ⟨hresult, hout⟩ := written_withLine hspot hbegun hbody hvanishes
  have hrun : (engine.withBody id (site.withLine line)).runWithin Engine.fuel id
      (engine.config.writer width) = (upTo (fuel + 2)).exec [] id engine.setting
        ((engine.start (engine.config.writer width)).withBody id (site.withLine line)) := by
    rw [Engine.runWithin, Engine.setting_withBody, hfuel]
    rfl
  have hthere : (engine.withBody id (site.withLine line)).instance? id =
      some (data.withBody (site.withLine line)) := hother
  have hconfig : (engine.withBody id (site.withLine line)).config = engine.config := rfl
  rw [Engine.renderWithWidth_eq hdata, Engine.renderWithWidth_eq hthere, hconfig, hrun, hout,
    Engine.runWithin, hfuel]
  exact hresult.map _

/-- Lines that hold nothing but one chunk leave no trace where they write nothing, and no line on
which anything was written loses its break. -/
theorem elidesLines : ElidesLines where
  placed site := site.exists_lowers true ""
  written _ _ _ _ _ _ _ _ _ hspot hdata hbody hvanishes :=
    written_withLine hspot hdata hbody hvanishes
  rendered _ _ _ _ _ _ _ width hfuel hspot hdata hbody hvanishes :=
    rendered_withLine hfuel hspot hdata hbody width hvanishes
  kept fuel setting run outer id data hdata hrefuses := by
    obtain ⟨events, halt, last, hevents, hafter, hhalt, hsound⟩ :=
      kept_exec hdata hrefuses fuel outer
    exact ⟨events, halt, last, hevents, hafter, hhalt, fun _ _ _ _ heq hcounts =>
      (heq ▸ hsound).kept hcounts⟩

/-- The line of an argument. -/
def SoleLine.ofAttribute (name : String) : SoleLine where
  indent := "  "
  chunk := .expression (.attribute name) {}
  ending := "\n"
  blank c hc := .inl (List.eq_of_mem_replicate (show c ∈ List.replicate 2 ' ' from hc))
  unquoted := nofun
  breaks := .inl rfl

/-- The line of an argument that is not set vanishes with its indentation. -/
theorem elidesLines_unset :
    let engine := ({} : Engine).after
      [.defineGroup "group" .angle,
        .declare ⟨0⟩ (.template "lines" (some [⟨"x", none⟩]) [.literal "a\nb"]),
        .instanceOf ⟨0⟩ "lines"]
    ((engine.withBody ⟨0⟩ ((Site.here [] "a" "b" []).withLine (.ofAttribute "x"))).renderWithWidth
      ⟨0⟩ 0).1 = .ok "a\nb" := by
  intro engine
  have hrender : (engine.renderWithWidth ⟨0⟩ 0).1 = .ok "a\nb" := by decide +kernel
  have hcut (rest : String) (after : List Chunk) :
      Node.ofChunks true "" (.literal ("a\n" ++ rest) :: after) =
        [.text "a", .newline] ++ Node.ofChunks true rest after := by
    rw [Node.ofChunks, String.empty_append]
    refine Node.ofChunks_text (fun rest => ?_) rest after
    rw [Node.ofText, String.toList_append]
    rfl
  have hlast : Node.ofChunks true "b" [] = [.text "b"] := by
    rw [Node.ofChunks]
    rfl
  have hspot : (Site.here [] "a" "b" []).Lowers true "" (.here [.text "a", .newline] [.text "b"]) :=
    { follows := ⟨[.text "a"], rfl⟩
      body := by
        rw [← hlast]
        exact hcut "b" []
      withLine := fun line => by
        rw [← hlast]
        exact (hcut _ _).trans (congrArg (_ ++ ·) (line.ofChunks "b" [])) }
  have hsame := elidesLines.rendered _ _ (.ofAttribute "x") (Engine.fuel - 2) engine ⟨0⟩ _ 0 rfl
    hspot rfl rfl fun level now hreaches => by
      -- nothing stands in front of the place but the text, so its turn comes in one run only
      cases hreaches with
      | here hbefore =>
        obtain rfl := congrArg Prod.snd hbefore
        exact ⟨_, idles_absent rfl _⟩
  rw [hrender] at hsame
  generalize (Engine.renderWithWidth _ _ _).1 = result at hsame ⊢
  cases hsame
  rfl

/-- The line of an argument keeps its break if the argument is set. -/
example :
    let engine := ({} : Engine).after
      [.defineGroup "group" .angle,
        .declare ⟨0⟩ (.template "lines" (some [⟨"x", none⟩])
          [.literal "a\n  ", .expression (.attribute "x") {}, .literal "\nb"]),
        .instanceOf ⟨0⟩ "lines", .assign ⟨0⟩ "x" (.string "X")]
    (engine.renderWithWidth ⟨0⟩ 0).1 = .ok "a\n  X\nb" := by
  decide +kernel

end Stencil
