import ScriptSandbox.Proofs.Enforce.Generated
import ScriptSandbox.Proofs.Enforce.Verdicts
import ScriptSandbox.Proofs.Tree.Positions
import ScriptSandbox.Proofs.Walk.Placement

/-!
# Guards of dynamic calls

A call is dynamic when its callee is not written as a name.  A ternary guards it when it
first asks the runtime about the same callee and has null for the other case.  What
judging puts in the place of a node holds dynamic calls under their guards alone.
-/

namespace ScriptSandbox

namespace Node

def IsDynamicCall (n : Node) : Prop :=
  n.kind = .expression .funcCall ∧ (n.field "name").name? = none

instance (n : Node) : Decidable n.IsDynamicCall :=
  decidable_of_iff (n.kind = .expression .funcCall ∧ (n.field "name").name?.isNone = true)
    (and_congr_right fun _ => Option.isNone_iff_eq_none)

/-- The check is a call on the runtime that asks about the callee and nothing else. -/
structure AsksFor (handle : String) (check callee : Node) : Prop where
  calls : check.CallsHandle handle
  method : check.field "name" = .str checkMethod
  argument : ∃ argument asked, check.field "args" = .list [.node argument] ∧
    argument.kind = .arg ∧ argument.field "value" = .node asked ∧ asked.dump = callee.dump

def FetchesNull (n : Node) : Prop :=
  n.kind = .expression .constFetch ∧
    ∃ written, (n.field "name").name? = some written ∧ written.nameText = .ok "null"

/-- The ternary makes the call if the runtime agrees to the callee, and is null otherwise. -/
structure Guards (handle : String) (ternary call : Node) : Prop where
  kind : ternary.kind = .expression .ternary
  asks : ∃ check callee, ternary.field "cond" = .node check ∧ call.field "name" = .node callee ∧
    check.AsksFor handle callee
  calls : ternary.field "if" = .node call
  refuses : ∃ constant, ternary.field "else" = .node constant ∧ constant.FetchesNull

variable {handle : String}

/-! ## Copies -/

theorem IsDynamicCall.of_fresh {n : Node} (h : n.fresh.IsDynamicCall) : n.IsDynamicCall := by
  obtain ⟨hkind, hname⟩ := h
  rw [kind_fresh] at hkind
  rw [field_fresh, Value.name?_fresh, Option.map_eq_none_iff] at hname
  exact ⟨hkind, hname⟩

theorem AsksFor.fresh {check callee : Node} (h : check.AsksFor handle callee) :
    check.fresh.AsksFor handle callee.fresh where
  calls := h.calls.fresh
  method := by
    simp [h.method]
  argument := by
    obtain ⟨argument, asked, hargs, hkind, hvalue, hdump⟩ := h.argument
    refine ⟨argument.fresh, asked.fresh, ?_, ?_, ?_, ?_⟩
    · rw [field_fresh, hargs]
      rfl
    · simp [hkind]
    · simp [hvalue]
    · simp [hdump]

theorem FetchesNull.fresh {n : Node} (h : n.FetchesNull) : n.fresh.FetchesNull := by
  obtain ⟨hkind, written, hwritten, htext⟩ := h
  exact ⟨n.kind_fresh.trans hkind, written.fresh, name?_field_fresh hwritten,
    written.nameText_fresh.trans htext⟩

theorem Guards.fresh {ternary call : Node} (h : ternary.Guards handle call) :
    ternary.fresh.Guards handle call.fresh where
  kind := ternary.kind_fresh.trans h.kind
  asks := by
    obtain ⟨check, callee, hcond, hcallee, hasks⟩ := h.asks
    refine ⟨check.fresh, callee.fresh, ?_, ?_, hasks.fresh⟩
    · simp [hcond]
    · simp [hcallee]
  calls := by
    simp [h.calls]
  refuses := by
    obtain ⟨constant, helse, hnull⟩ := h.refuses
    refine ⟨constant.fresh, ?_, hnull.fresh⟩
    simp [helse]

end Node

/-! ## Guarded positions -/

/--
A dynamic call is the first branch of a ternary that guards it, or else the entry of one:
where a ternary was taken for a list, its fields are pairs.
-/
def Position.Guarded (handle : String) (position : Position) : Prop :=
  position.node.IsDynamicCall →
    position.holder = .pair "if" ∨
      ∃ ternary, position.holder = .field ternary "if" ∧ ternary.Guards handle position.node

def Value.GuardsCalls (handle : String) (value : Value) : Prop :=
  ∀ position ∈ value.positions .list, position.Guarded handle

section Values

variable {handle : String}

theorem Position.Guarded.fresh {position : Position} (h : position.Guarded handle) :
    position.fresh.Guarded handle := by
  intro hdynamic
  obtain ⟨holder, n⟩ := position
  obtain hpair | ⟨ternary, hholder, hguards⟩ := h hdynamic.of_fresh
  · subst hpair
    exact .inl rfl
  · subst hholder
    exact .inr ⟨ternary.fresh, rfl, hguards.fresh⟩

private theorem Position.guarded_of_not_dynamic {position : Position}
    (h : ¬ position.node.IsDynamicCall) :
    position.Guarded handle :=
  fun hdynamic => absurd hdynamic h

namespace Value

@[simp] theorem guardsCalls_node_iff {n : Node} : (Value.node n).GuardsCalls handle ↔
    ¬ n.IsDynamicCall ∧ ∀ position ∈ n.positions, position.Guarded handle := by
  constructor
  · refine fun h => ⟨fun hdynamic => ?_, fun position hposition => h position ?_⟩
    · have hself := h ⟨.list, n⟩ (mem_positions_node.mpr (.inr rfl)) hdynamic
      obtain hpair | ⟨ternary, hholder, _⟩ := hself
      · cases hpair
      · cases hholder
    · exact mem_positions_node.mpr (.inl hposition)
  · rintro ⟨hstatic, hinside⟩ position hposition
    rcases mem_positions_node.mp hposition with hposition | rfl
    · exact hinside position hposition
    · exact Position.guarded_of_not_dynamic hstatic

theorem GuardsCalls.positions {value : Value} (h : value.GuardsCalls handle) (holder : Holder) :
    ∀ position ∈ value.positions holder, position.Guarded handle := by
  intro position hposition
  rcases mem_positions_of_holder .list hposition with hposition | ⟨n, rfl, rfl⟩
  · exact h position hposition
  · exact Position.guarded_of_not_dynamic (guardsCalls_node_iff.mp h).1

theorem guardsCalls_of_nodes_eq_nil {value : Value} (h : value.nodes = []) :
    value.GuardsCalls handle := by
  intro position hposition
  rw [positions_eq_nil h] at hposition
  cases hposition

@[simp] theorem guardsCalls_list_iff {items : List Value} :
    (Value.list items).GuardsCalls handle ↔ ∀ item ∈ items, item.GuardsCalls handle := by
  simp only [GuardsCalls, Value.positions, mem_positionsIn]
  constructor
  · intro h item hitem position hposition
    exact h position ⟨item, hitem, hposition⟩
  · rintro h position ⟨item, hitem, hposition⟩
    exact h item hitem position hposition

private theorem guardsCalls_node {n : Node} (hstatic : ¬ n.IsDynamicCall)
    (hfields : ∀ entry ∈ n.fields, entry.2.GuardsCalls handle) :
    (Value.node n).GuardsCalls handle := by
  refine guardsCalls_node_iff.mpr ⟨hstatic, fun position hposition => ?_⟩
  obtain ⟨entry, hentry, hposition⟩ := Node.mem_positions.mp hposition
  exact (hfields entry hentry).positions _ position hposition

theorem GuardsCalls.fresh {value : Value} (h : value.GuardsCalls handle) :
    value.fresh.GuardsCalls handle := by
  intro position hposition
  rw [show Holder.list = Holder.list.fresh from rfl, positions_fresh] at hposition
  obtain ⟨source, hsource, rfl⟩ := List.mem_map.mp hposition
  exact (h source hsource).fresh

private theorem Settled.guardsCalls {value : Value} (h : value.Settled (GuardsCalls handle)) :
    value.GuardsCalls handle := by
  cases value with
  | list items => exact guardsCalls_list_iff.mpr h
  | pair name value => exact guardsCalls_of_nodes_eq_nil h
  | node n => exact h
  | scalar value => exact h
  | obj fields => exact h

private theorem guardsCalls_pair {n : Node} (h : (Value.node n).GuardsCalls handle) {name : String}
    {value : Value} (hentry : (name, value) ∈ n.fields) :
    (Value.pair name value).GuardsCalls handle := by
  have hfield : ∀ position ∈ value.positions (.field n name), position.Guarded handle :=
    fun position hposition => (guardsCalls_node_iff.mp h).2 position
      (Node.mem_positions.mpr ⟨(name, value), hentry, hposition⟩)
  intro position hposition
  rw [Value.positions] at hposition
  rcases mem_positions_of_holder (.field n name) hposition with hposition | ⟨call, rfl, rfl⟩
  · exact hfield position hposition
  · intro hdynamic
    obtain hpair | ⟨ternary, hholder, _⟩ :=
      hfield ⟨.field n name, call⟩ (mem_positions_node.mpr (.inr rfl)) hdynamic
    · cases hpair
    · cases hholder
      exact .inl rfl

private theorem guardsCalls_of_item {value item : Value} {items : List Value} (h : value.nodes = [])
    (hitems : value.itemsOrNone = .ok items) (hitem : item ∈ items) :
    item.GuardsCalls handle := by
  refine guardsCalls_of_nodes_eq_nil (List.eq_nil_iff_forall_not_mem.mpr fun n hn => ?_)
  have hmem := mem_nodes_of_itemsOrNone hitems hitem hn
  rw [h] at hmem
  cases hmem

private theorem Settled.guarded_items {value : Value} {items : List Value}
    (h : value.Settled (GuardsCalls handle)) (hitems : value.itemsOrNone = .ok items) :
    ∀ item ∈ items, item.GuardsCalls handle := by
  intro item hitem
  cases value with
  | node n =>
      cases hitems
      rcases List.mem_cons.mp hitem with rfl | hitem
      · exact guardsCalls_of_nodes_eq_nil rfl
      rcases List.mem_cons.mp hitem with rfl | hitem
      · exact guardsCalls_of_nodes_eq_nil rfl
      obtain ⟨⟨name, value⟩, hentry, rfl⟩ := List.mem_map.mp hitem
      exact guardsCalls_pair h hentry
  | list others =>
      cases others with
      | nil =>
          cases hitems
          cases hitem
      | cons first rest =>
          cases hitems
          exact h item hitem
  | pair name second =>
      have hnone : (Value.pair name second).nodes = [] := h
      exact guardsCalls_of_item hnone hitems hitem
  | scalar value => exact guardsCalls_of_item rfl hitems hitem
  | obj fields => exact guardsCalls_of_item rfl hitems hitem

end Value

end Values

variable {store : Store}

private theorem Node.Settled.guarded_items {n : Node} {name : String} {items : List Value}
    (h : n.Settled (Value.GuardsCalls store.handle)) (hitems : n.fieldItems name = .ok items) :
    ∀ item ∈ items, item.GuardsCalls store.handle :=
  (Node.field_of_fields h (Value.guardsCalls_of_nodes_eq_nil rfl) name).guarded_items hitems

/-! ## Generated nodes -/

namespace Generated

variable {handle : String}

@[simp] theorem closed_guardsCalls : Closed (Value.GuardsCalls handle) where
  free h := Value.guardsCalls_of_nodes_eq_nil h
  node _ _ _ _ hnamed h := by
    refine Value.guardsCalls_node (fun hdynamic => ?_)
      fun entry hentry => (h entry hentry).guardsCalls
    have hname := hnamed hdynamic.1
    rw [hdynamic.2] at hname
    cases hname

end Generated

/-! ## Outcomes -/

private theorem RuntimeArgument.guardsCalls {n : Node} {item : Value} (h : RuntimeArgument n item)
    (hsettled : n.Settled (Value.GuardsCalls store.handle)) :
    item.GuardsCalls store.handle := by
  refine Generated.closed_guardsCalls.argument h
    (fun _ _ hitems => hsettled.guarded_items hitems) fun computed _ hcallee _ => ?_
  have hfield := Node.field_of_fields hsettled (Value.guardsCalls_of_nodes_eq_nil rfl) "name"
  rw [hcallee] at hfield
  exact hfield.guardsCalls.fresh

end ScriptSandbox
