import Stencil.Proofs.Render.Equivariance

/-!
# Runs that are not touched

An action has no side effects if the render finds everything as it was afterwards: the writer, the
store, the instances, and the values of argument defaults. That instances were created does not
matter, as long as no number occurs that was not issued before. A render that goes on from there
keeps track of one that goes on without the action.
-/

namespace Stencil

/-- No numbers of instances occur in a run, or in a scope, but those that were issued. -/
structure Run.Settled (scope : Scope) (run : Run) : Prop where
  frames : ∀ id ∈ scope.frames, id.index < run.instances.size
  active : ∀ id ∈ run.active, id.index < run.instances.size
  attributes : ∀ data ∈ run.instances, ∀ entry ∈ data.attributes.entries,
    run.store.Genuine run.instances.size entry.2
  iteration : ∀ data ∈ run.instances, ∀ name value, (name, some value) ∈ data.iteration →
    run.store.Genuine run.instances.size value
  enclosing : ∀ data ∈ run.instances, ∀ id, data.enclosing = some id →
    id.index < run.instances.size
  items : ∀ items ∈ run.store.cursors, ∀ item ∈ items,
    run.store.Genuine run.instances.size item
  properties : ∀ id object, run.store.object? id = some object → ∀ name held,
    object.properties.lookup name = some held → run.store.Genuine run.instances.size held
  defaults : ∀ id name value, run.defaults.lookup (id, name) = some value →
    id.index < run.instances.size ∧ run.store.Genuine run.instances.size value

/-- A render finds in a run what it found before. What was noted for lint may differ, and instances
may have been created if no numbers occur but those that were issued before. -/
structure Run.Untouched (scope : Scope) (run after : Run) : Prop where
  store : after.store = run.store
  out : after.out = run.out
  active : after.active = run.active
  lenient : after.lenient = run.lenient
  instances : run.instances.toList <+: after.instances.toList
  settled : after.instances = run.instances ∨ run.Settled scope
  /-- The defaults of the arguments that the created instances have are of no account. -/
  defaults : ∀ id : InstanceId, id.index < run.instances.size ∨ after.instances.size ≤ id.index →
    ∀ name, after.defaults.lookup (id, name) = run.defaults.lookup (id, name)

/-- A run in which nothing is done is not touched. -/
theorem Run.Untouched.refl (scope : Scope) (run : Run) : run.Untouched scope run where
  store := rfl
  out := rfl
  active := rfl
  lenient := rfl
  instances := List.prefix_rfl
  settled := Or.inl rfl
  defaults _ _ _ := rfl

/-- Instances that there were are found unchanged in a run that was not touched. -/
theorem Run.Untouched.getElem? {scope : Scope} {run after : Run} (h : run.Untouched scope after)
    {index : Nat} (hindex : index < run.instances.size) :
    after.instances[index]? = run.instances[index]? := by
  obtain ⟨more, hmore⟩ := h.instances
  rw [← Array.getElem?_toList, ← hmore, List.getElem?_append_left (by simpa using hindex),
    Array.getElem?_toList]

/-- A run that was not touched has at least as many instances as before. -/
theorem Run.Untouched.size_le {scope : Scope} {run after : Run} (h : run.Untouched scope after) :
    run.instances.size ≤ after.instances.size := by
  simpa using h.instances.length_le

/-- No default has a value that belongs to an instance that was not issued. -/
theorem Run.Settled.lookup_defaults {scope : Scope} {run : Run} (h : run.Settled scope)
    {id : InstanceId} (hid : run.instances.size ≤ id.index) (name : String) :
    run.defaults.lookup (id, name) = none := by
  cases hfound : run.defaults.lookup (id, name) with
  | none => rfl
  | some value => exact absurd (h.defaults id name value hfound).1 (Nat.not_lt.mpr hid)

namespace Shift

variable {S : Shift} {scope : Scope} {run other after : Run}

/-- Without a gap no number is moved. -/
theorem move_of_gap (h : S.gap = 0) (id : InstanceId) : S.move id = id := by
  rw [move, h]
  split <;> rfl

/-- A number is never moved down. -/
theorem le_move (id : InstanceId) : id.index ≤ (S.move id).index := by
  rw [move]
  split
  · exact Nat.le_refl _
  · exact Nat.le_add_right _ _

/-- Without a gap no value is renamed. -/
theorem value_of_gap (h : S.gap = 0) (value : Value) : S.value value = value :=
  Value.rename_of_closed .trivial (fun id _ => move_of_gap h id) value .intro

/-- A scope stays the same if none of its instances is moved. -/
theorem scope_of_move (h : ∀ id ∈ scope.frames, S.move id = id) : S.scope scope = scope := by
  obtain ⟨innermost, outer⟩ := scope
  have houter : outer.map S.move = outer :=
    (List.map_congr_left fun id hid => h id (List.mem_cons_of_mem _ hid)).trans (List.map_id _)
  rw [scope_eq, h innermost List.mem_cons_self, houter]

/-- An instance that holds only values which do not change is not changed but for its body. -/
theorem data_of_value {target : InstanceId} {data : Instance}
    (hattributes : ∀ entry ∈ data.attributes.entries, S.value entry.2 = entry.2)
    (hvariables : ∀ name value, (name, some value) ∈ data.iteration → S.value value = value)
    (henclosing : ∀ enclosing, data.enclosing = some enclosing → S.move enclosing = enclosing) :
    S.data target data = { data with definition := S.definition target data.definition } := by
  have hattributes' : data.attributes.map S.value = data.attributes := Table.map_eq_self hattributes
  have hiteration : Table.map (Option.map S.value) ⟨data.iteration⟩ = ⟨data.iteration⟩ := by
    refine Table.map_eq_self fun entry hentry => ?_
    obtain ⟨name, _ | value⟩ := entry
    · rfl
    · exact congrArg some (hvariables name value hentry)
  have hframe : data.enclosing.map S.move = data.enclosing := by
    cases hdata : data.enclosing with
    | none => rfl
    | some frame => exact congrArg some (henclosing frame hdata)
  change ({ data with
    definition := S.definition target data.definition
    attributes := data.attributes.map S.value
    enclosing := data.enclosing.map S.move
    iteration := (Table.map (Option.map S.value) ⟨data.iteration⟩).entries } : Instance) = _
  rw [hattributes', hiteration, hframe]

/-- Without a gap an instance differs in its body at most. -/
theorem data_of_gap (h : S.gap = 0) (id : InstanceId) (data : Instance) :
    S.data id data = { data with definition := S.definition id data.definition } :=
  data_of_value (fun _ _ => value_of_gap h _) (fun _ _ _ => value_of_gap h _)
    fun _ _ => move_of_gap h _

/-- The shift that passes over the instances which were created between two runs. -/
def beyond (S : Shift) (run after : Run) : Shift :=
  { S with first := run.instances.size, gap := after.instances.size - run.instances.size }

namespace Mirrors

variable (h : S.Mirrors run other) (hgap : S.gap = 0)
include h hgap

/-- Without a gap the instances differ in their bodies at most. -/
theorem instances_of_gap (index : Nat) : other.instances[index]? =
    (run.instances[index]?).map fun data =>
      { data with definition := S.definition ⟨index⟩ data.definition } := by
  have hinstance := h.instances ⟨index⟩
  rw [move_of_gap hgap] at hinstance
  rw [hinstance]
  exact congrArg (Option.map · _) (funext fun data => data_of_gap hgap ⟨index⟩ data)

/-- Without a gap iterators have the same items left. -/
theorem cursors_of_gap : other.store.cursors = run.store.cursors := by
  have hvalue : Value.rename S.move = id := funext (value_of_gap hgap)
  rw [h.store.cursors, hvalue, List.map_id_fun, Array.map_id]

/-- Without a gap the stacks are the same. -/
theorem active_of_gap : other.active = run.active := by
  have hmove : S.move = id := funext (move_of_gap hgap)
  rw [h.active, hmove, List.map_id]

/-- Without a gap the same is known of defaults. -/
theorem defaults_of_gap (id : InstanceId) (name : String) :
    other.defaults.lookup (id, name) = run.defaults.lookup (id, name) := by
  have hdefault := h.defaults id name
  rw [move_of_gap hgap] at hdefault
  rw [hdefault]
  cases run.defaults.lookup (id, name) with
  | none => rfl
  | some value => exact congrArg some (value_of_gap hgap value)

/-- Without a gap there are as many instances. -/
theorem size_of_gap : other.instances.size = run.instances.size := by
  rw [h.size, hgap, Nat.add_zero]

/-- Instances that there were before an action keep their numbers beyond it. -/
theorem move_beyond {id : InstanceId} (hid : id.index < other.instances.size) :
    (S.beyond run after).move id = id :=
  move_of_lt (Nat.lt_of_lt_of_eq hid (h.size_of_gap hgap))

/-- Later instances get numbers that the action has not used. -/
theorem le_move_beyond (huntouched : other.Untouched scope after) {id : InstanceId}
    (hid : other.instances.size ≤ id.index) :
    after.instances.size ≤ ((S.beyond run after).move id).index := by
  have hle := huntouched.size_le
  rw [h.size_of_gap hgap] at hid hle
  rw [move_of_ge hid, beyond]
  simp only
  omega

/-- A value without numbers that were not issued does not change. -/
theorem value_beyond {value : Value}
    (hgenuine : other.store.Genuine other.instances.size value) :
    (S.beyond run after).value value = value :=
  Value.rename_of_closed (other.store.genuine_closed _)
    (fun _ hid => h.move_beyond hgap (Store.genuine_template.mp hid)) value hgenuine

/-- An instance that there was before an action has no values that are renamed beyond it. -/
theorem data_beyond (hsettled : other.Settled scope) {id : InstanceId} {data : Instance}
    (hdata : run.instances[id.index]? = some data) : (S.beyond run after).data id data =
      { data with definition := S.definition id data.definition } := by
  have hother := h.instances_of_gap hgap id.index
  rw [hdata] at hother
  have hmem := Array.mem_of_getElem? hother
  exact data_of_value
    (fun entry hentry => h.value_beyond hgap (hsettled.attributes _ hmem entry hentry))
    (fun name value hentry => h.value_beyond hgap (hsettled.iteration _ hmem name value hentry))
    fun frame hframe => h.move_beyond hgap (hsettled.enclosing _ hmem frame hframe)

/-- So the instances are found under their numbers beyond an action that did not touch the run. -/
theorem instances_beyond (huntouched : other.Untouched scope after)
    (hsettled : other.Settled scope) (id : InstanceId) :
    after.instances[((S.beyond run after).move id).index]? =
      (run.instances[id.index]?).map ((S.beyond run after).data id) := by
  obtain hid | hid := Nat.lt_or_ge id.index other.instances.size
  · rw [h.move_beyond hgap hid, huntouched.getElem? hid, h.instances_of_gap hgap]
    cases hfound : run.instances[id.index]? with
    | none => rfl
    | some data => exact congrArg some (h.data_beyond hgap hsettled hfound).symm
  · have hnone : run.instances[id.index]? = none :=
      Array.getElem?_eq_none (h.size_of_gap hgap ▸ hid)
    rw [hnone, Array.getElem?_eq_none (h.le_move_beyond hgap huntouched hid), Option.map_none]

/-- So is what is known of defaults. -/
theorem defaults_beyond (huntouched : other.Untouched scope after)
    (hsettled : other.Settled scope) (id : InstanceId) (name : String) :
    after.defaults.lookup ((S.beyond run after).move id, name) =
      (run.defaults.lookup (id, name)).map (S.beyond run after).value := by
  obtain hid | hid := Nat.lt_or_ge id.index other.instances.size
  · rw [h.move_beyond hgap hid, huntouched.defaults id (Or.inl hid), ← h.defaults_of_gap hgap]
    cases hfound : other.defaults.lookup (id, name) with
    | none => rfl
    | some held =>
      exact congrArg some (h.value_beyond hgap (hsettled.defaults id name held hfound).2).symm
  · rw [huntouched.defaults _ (Or.inr (h.le_move_beyond hgap huntouched hid)),
      hsettled.lookup_defaults (Nat.le_trans hid (le_move _)), ← h.defaults_of_gap hgap,
      hsettled.lookup_defaults hid, Option.map_none]

/-- Iterators have the same items left beyond such an action, since these hold no numbers that it
used. -/
theorem cursors_beyond (huntouched : other.Untouched scope after)
    (hsettled : other.Settled scope) : after.store.cursors =
      run.store.cursors.map (List.map (Value.rename (S.beyond run after).move)) := by
  rw [huntouched.store, ← h.cursors_of_gap hgap]
  refine ((Array.map_congr_left (g := id) fun items hitems => ?_).trans (Array.map_id _)).symm
  exact (List.map_congr_left (g := id) fun item hitem =>
    h.value_beyond hgap (hsettled.items items hitems item hitem)).trans (List.map_id _)

/-- Instances that were created without a trace are passed over from now on. -/
theorem settled (huntouched : other.Untouched scope after) (hsettled : other.Settled scope) :
    (S.beyond run after).Mirrors run after where
  grown := Nat.le_refl _
  size := by
    have hle := huntouched.size_le
    rw [h.size_of_gap hgap] at hle
    rw [beyond]
    simp only
    omega
  instances := h.instances_beyond hgap huntouched hsettled
  store :=
    { cursors := h.cursors_beyond hgap huntouched hsettled
      objects := by rw [huntouched.store, h.store.objects]
      owners := by rw [huntouched.store, h.store.owners]
      fixed := fun id object hobject name held hheld => h.value_beyond hgap
        (hsettled.properties id object ((h.store.object? id).trans hobject) name held hheld) }
  out := huntouched.out.trans h.out
  active := by
    rw [huntouched.active, ← h.active_of_gap hgap]
    exact ((List.map_congr_left (g := id) fun target htarget =>
      h.move_beyond hgap (hsettled.active target htarget)).trans (List.map_id _)).symm
  bodies id hid := by
    obtain ⟨hactive, hindex⟩ := h.bodies id hid
    exact ⟨hactive, Nat.lt_of_lt_of_le hindex h.grown⟩
  defaults := h.defaults_beyond hgap huntouched hsettled
  lenient := huntouched.lenient.trans h.lenient

/-- After an action without side effects a render still keeps track of one that went on without the
action, under other numbers for the instances that are yet to come. -/
theorem untouched (huntouched : other.Untouched scope after) :
    ∃ further : Shift, further.bodies = S.bodies ∧ further.scope scope = scope ∧
      further.Mirrors run after := by
  obtain hsame | hsettled := huntouched.settled
  · refine ⟨S, rfl, scope_of_move fun id _ => move_of_gap hgap id, ?_⟩
    have hdefaults (id : InstanceId) (name : String) :
        after.defaults.lookup (id, name) = other.defaults.lookup (id, name) :=
      huntouched.defaults id (hsame ▸ Nat.lt_or_ge _ _) name
    exact
      { h with
        size := by rw [hsame, h.size]
        instances := fun id => by rw [hsame, h.instances]
        store := by
          rw [huntouched.store]
          exact h.store
        out := huntouched.out.trans h.out
        active := huntouched.active.trans h.active
        defaults := fun id name => (hdefaults _ name).trans (h.defaults id name)
        lenient := huntouched.lenient.trans h.lenient }
  · exact ⟨S.beyond run after, rfl,
      scope_of_move fun id hid => h.move_beyond hgap (hsettled.frames id hid),
      h.settled hgap huntouched hsettled⟩

end Mirrors

end Shift

end Stencil
