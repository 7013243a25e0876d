import ScriptSandbox.Proofs.Enforce.Guards
import ScriptSandbox.Proofs.Enforce.Standing
import ScriptSandbox.Proofs.Gate.Handle
import ScriptSandbox.Proofs.Gate.Revalidation
import ScriptSandbox.Proofs.Walk.Acceptance

/-!
# Copies of callees, validated again

The callee that a guard checks is a copy, and nothing in a copy counts as generated.  So
validating a guarded tree again judges what the first validation has built in a callee,
and refuses the handle there.  Where no judged node uses the handle, validating again
gives the same tree; where one does, it fails.  That takes scripts without functions of
their own, and classes that are substituted once at most.
-/

namespace ScriptSandbox

open Judge

/-- A variable or a use of a closure names the handle. -/
def Node.UsesHandle (handle : String) (n : Node) : Prop :=
  n.NamesVariable handle ∧ n.kind.bindsFreely = false

instance (handle : String) (n : Node) : Decidable (n.UsesHandle handle) :=
  inferInstanceAs (Decidable (n.NamesVariable handle ∧ n.kind.bindsFreely = false))

def Value.AvoidsHandle (handle : String) (value : Value) : Prop :=
  ∀ n ∈ value.visited, n.generated = false → ¬ n.UsesHandle handle

/-- The value and its copy both stay when they are validated again, if they avoid the handle. -/
structure Value.Repeats (store : Store) (value : Value) : Prop where
  stays : value.AvoidsHandle store.handle → value.Stays store
  copyStays : value.fresh.AvoidsHandle store.handle → value.fresh.Stays store

variable {store : Store}

/-! ## Uses of the handle -/

@[simp] theorem Node.usesHandle_fresh_iff {handle : String} {n : Node} :
    n.fresh.UsesHandle handle ↔ n.UsesHandle handle := by
  simp [UsesHandle, NamesVariable]

namespace Value

variable {handle : String}

theorem AvoidsHandle.field {n : Node} {entry : String × Value}
    (h : (Value.node n).AvoidsHandle handle) (hentry : entry ∈ n.fields) :
    entry.2.AvoidsHandle handle :=
  fun m hm => h m (Node.mem_visited.mpr (.inr ⟨entry, hentry, hm⟩))

theorem AvoidsHandle.item {items : List Value} {n : Node}
    (h : (Value.list items).AvoidsHandle handle) (hitem : .node n ∈ items) :
    (Value.node n).AvoidsHandle handle :=
  fun m hm => h m (mem_visitedIn.mpr ⟨n, hitem, hm⟩)

private theorem not_avoidsHandle_fresh {n m : Node} (hm : m ∈ n.visited)
    (huses : m.UsesHandle handle) :
    ¬ (Value.node n.fresh).AvoidsHandle handle := by
  intro h
  have hcopy : m.fresh ∈ n.fresh.visited := by
    rw [Node.visited_fresh]
    exact List.mem_map_of_mem hm
  exact h m.fresh hcopy m.generated_fresh (Node.usesHandle_fresh_iff.mpr huses)

/-! ## Values that repeat -/

private theorem repeats_of_node?_eq_none {value : Value} (h : value.node? = none) :
    value.Repeats store := by
  cases value with
  | node n => cases h
  | _ => exact ⟨fun _ => trivial, fun _ => trivial⟩

theorem Repeats.fresh {value : Value} (h : value.Repeats store) : value.fresh.Repeats store where
  stays := h.copyStays
  copyStays := by
    rw [fresh_fresh]
    exact h.copyStays

private theorem Settled.repeats_fresh {value : Value} (h : value.Settled (Repeats store)) :
    value.fresh.Settled (Repeats store) := by
  cases value with
  | list items =>
      intro item hitem
      rw [freshItems_eq_map] at hitem
      obtain ⟨source, hsource, rfl⟩ := List.mem_map.mp hitem
      exact (h source hsource).fresh
  | pair name value =>
      have hnone : value.nodes = [] := h
      change value.fresh.nodes = []
      simp [hnone]
  | node n => exact Repeats.fresh h
  | scalar value => exact h
  | obj fields => exact h

theorem Settled.stays {value : Value} (h : value.Settled (Repeats store))
    (havoids : value.AvoidsHandle store.handle) : value.Settled (Stays store) := by
  cases value with
  | list items =>
      intro item hitem
      cases item with
      | node n => exact (h _ hitem).stays (havoids.item hitem)
      | _ => trivial
  | pair name value => exact h
  | node n =>
      have hn : (Value.node n).Repeats store := h
      exact hn.stays havoids
  | scalar value => trivial
  | obj fields => trivial

private theorem Settled.repeating_items {value : Value} {items : List Value}
    (h : value.Settled (Repeats store)) (hitems : value.itemsOrNone = .ok items) :
    ∀ item ∈ items, item.Repeats store := by
  intro item hitem
  cases item with
  | node m => exact h.of_item hitems hitem
  | _ => exact repeats_of_node?_eq_none rfl

end Value

namespace Node

variable {n : Node}

private theorem Settled.repeating_items {name : String} {items : List Value}
    (h : n.Settled (Value.Repeats store)) (hitems : n.fieldItems name = .ok items) :
    ∀ item ∈ items, item.Repeats store :=
  (field_of_fields h (Value.repeats_of_node?_eq_none rfl) name).repeating_items hitems

private theorem Settled.repeats_fresh (h : n.Settled (Value.Repeats store)) :
    n.fresh.Settled (Value.Repeats store) := by
  intro entry hentry
  rw [fields_fresh] at hentry
  obtain ⟨source, hsource, rfl⟩ := List.mem_map.mp hentry
  exact (h source hsource).repeats_fresh

private theorem stays_of_avoidsHandle (h : n.Settled (Value.Repeats store))
    (havoids : (Value.node n).AvoidsHandle store.handle)
    (hleave : Run.Returns (Reaches store) (Enforce.node n) .keep) :
    (Value.node n).Stays store :=
  Walk.steady_of_settled (fun entry hentry => (h entry hentry).stays (havoids.field hentry)) hleave

private theorem repeats_of_stands (h : n.Settled (Value.Repeats store)) (hstands : n.Stands store) :
    (Value.node n).Repeats store where
  stays havoids := stays_of_avoidsHandle h havoids (Enforce.node_returns hstands)
  copyStays havoids :=
    stays_of_avoidsHandle h.repeats_fresh havoids (Enforce.node_returns hstands.fresh)

private theorem repeats_of_uses {m : Node} (hm : m ∈ n.visited) (huses : m.UsesHandle store.handle)
    (hstays : (Value.node n).AvoidsHandle store.handle → (Value.node n).Stays store) :
    (Value.node n).Repeats store :=
  ⟨hstays, fun havoids => absurd havoids (Value.not_avoidsHandle_fresh hm huses)⟩

end Node

/-! ## Generated nodes -/

namespace Generated

@[simp] theorem handle_usesHandle (name : String) : (handle name).UsesHandle name :=
  ⟨⟨"name", rfl, rfl⟩, rfl⟩

@[simp] theorem handleUse_usesHandle (name : String) : (handleUse name).UsesHandle name :=
  ⟨⟨"var", rfl, rfl⟩, rfl⟩

@[simp] theorem handle_visited (name method : String) (args : List Value) (origin : Node) :
    handle name ∈ (runtimeCall name method args origin).visited :=
  Node.mem_visited.mpr (.inr ⟨("var", .node (handle name)), List.mem_cons_self,
    Node.mem_visited.mpr (.inl rfl)⟩)

private theorem handleUse_repeats : (Value.node (handleUse store.handle)).Repeats store :=
  Node.repeats_of_uses (Node.mem_visited.mpr (.inl rfl)) (handleUse_usesHandle store.handle)
    fun _ => closed_stays.handleUse store.handle

private theorem renamed_repeats (text : String) {written : Node}
    (hname : written.kind.isName = true) :
    (Value.node (renamed text written)).Repeats store := by
  have hrule : (renamed text written).kind.rule = .exempt := by
    change written.kind.rule = .exempt
    cases hkind : written.kind with
    | name spelling => rfl
    | _ =>
        rw [hkind] at hname
        cases hname
  have hparts : (Value.list (Node.partsOf text)).Settled (Value.Repeats store) := by
    intro item hitem
    obtain ⟨part, _, rfl⟩ := List.mem_map.mp hitem
    exact Value.repeats_of_node?_eq_none rfl
  exact Node.repeats_of_stands (List.forall_mem_singleton.mpr hparts) (Node.stands_of_exempt hrule)

end Generated

open Generated

theorem RuntimeArgument.stays {n : Node} {item : Value} (h : RuntimeArgument n item)
    (hsettled : n.Settled (Value.Repeats store)) (havoids : item.AvoidsHandle store.handle) :
    item.Stays store := by
  cases h with
  | text value => exact closed_stays.arg (closed_stays.text value)
  | integer value => exact closed_stays.arg (closed_stays.integer value)
  | native function => exact closed_stays.arg (closed_stays.nativeCall function)
  | item hitems hitem => exact (hsettled.repeating_items hitems item hitem).stays havoids
  | @parts name items hitems =>
      have hnode : (Value.node (node (.literal .encapsed) [] [("parts", .list items)])).AvoidsHandle
          store.handle :=
        havoids.field List.mem_cons_self
      have hlist : (Value.list items).Settled (Value.Repeats store) :=
        hsettled.repeating_items hitems
      have hstays : (Value.list items).Settled (Value.Stays store) :=
        hlist.stays (hnode.field List.mem_cons_self)
      exact closed_stays.arg (node_stays [] (List.forall_mem_singleton.mpr hstays))
  | @callee computed _ hcallee =>
      have hfield := Node.field_of_fields hsettled (Value.repeats_of_node?_eq_none rfl) "name"
      rw [hcallee] at hfield
      have hcomputed : (Value.node computed).Repeats store := hfield
      exact closed_stays.arg (hcomputed.copyStays (havoids.field List.mem_cons_self))

namespace Generated

private theorem runtimeCall_repeats {n : Node} {args : List Value} (method : String)
    (hargs : ∀ item ∈ args, RuntimeArgument n item) (hsettled : n.Settled (Value.Repeats store)) :
    (Value.node (runtimeCall store.handle method args n)).Repeats store := by
  refine Node.repeats_of_uses (handle_visited _ _ _ _) (handle_usesHandle _) fun havoids => ?_
  refine node_stays _ (closed_stays.runtimeCall_settled _ method n fun item hitem => ?_)
  cases item with
  | node m =>
      have hlist : (Value.list args).AvoidsHandle store.handle :=
        havoids.field (List.mem_cons_of_mem _ (List.mem_cons_of_mem _ List.mem_cons_self))
      exact (hargs _ hitem).stays hsettled (hlist.item hitem)
  | _ => trivial

private theorem guarded_repeats {call callee : Node} (hrule : call.kind.rule = .funcCall)
    (hcallee : call.field "name" = .node callee) (hname : callee.kind.isName = false)
    (hsettled : call.Settled (Value.Repeats store)) :
    (Value.node (guarded store.handle call callee)).Repeats store := by
  let check := runtimeCall store.handle checkMethod [arg callee.fresh] call
  have hcheck : handle store.handle ∈ (guarded store.handle call callee).visited :=
    Node.mem_visited.mpr (.inr ⟨("cond", .node check), List.mem_cons_self, handle_visited _ _ _ _⟩)
  refine Node.repeats_of_uses hcheck (handle_usesHandle _) fun havoids => ?_
  have hargument : RuntimeArgument call (arg callee.fresh) := .callee hrule hcallee hname
  have hasks : (Value.node check).Repeats store :=
    runtimeCall_repeats checkMethod (List.forall_mem_singleton.mpr hargument) hsettled
  have hmade : (Value.node { call with
      attributes := Node.marked call.attributes, generated := true }).Stays store :=
    Node.stays_of_avoidsHandle hsettled (havoids.field (List.mem_cons_of_mem _ List.mem_cons_self))
      (Run.Returns.pure Verdict.keep)
  have hcond : (Value.node check).Settled (Value.Stays store) :=
    hasks.stays (havoids.field List.mem_cons_self)
  have hnull : (Value.node nullConst).Settled (Value.Stays store) := closed_stays.nullConst
  refine node_stays _ ?_
  rw [List.forall_mem_cons, List.forall_mem_cons, List.forall_mem_singleton]
  exact ⟨hcond, hmade, hnull⟩

end Generated

/-! ## Judging -/

namespace Node

variable {n written : Node}

private theorem repeats_withHandle {uses : List Value} (hrule : n.kind.rule = .closure)
    (hallow : store.allows .closures = true) (huses : n.fieldItems "uses" = .ok uses)
    (hunused : Enforce.usesVariable store.handle uses = .ok false)
    (hsettled : n.Settled (Value.Repeats store)) :
    (Value.node (n.withHandle store.handle uses)).Repeats store := by
  let imported := uses ++ [Value.node (handleUse store.handle)]
  have hlist : (Value.list imported).Settled (Value.Repeats store) :=
    List.forall_mem_append.mpr
      ⟨hsettled.repeating_items huses, List.forall_mem_singleton.mpr handleUse_repeats⟩
  have hfield : (n.withHandle store.handle uses).field "uses" = .list imported :=
    field_setField_self _ _ _
  have hvisited : handleUse store.handle ∈ (n.withHandle store.handle uses).visited := by
    obtain ⟨entry, hentry, hvalue⟩ := exists_of_field hfield (by simp)
    refine mem_visited.mpr (.inr ⟨entry, hentry, ?_⟩)
    rw [hvalue]
    exact mem_visitedIn.mpr ⟨_, List.mem_append_right _ (List.mem_singleton.mpr rfl),
      mem_visited.mpr (.inl rfl)⟩
  refine repeats_of_uses hvisited (handleUse_usesHandle _) fun havoids => ?_
  refine stays_of_avoidsHandle (fields_setField hsettled hlist) havoids ?_
  rw [Enforce.node_of_rule (n := n.withHandle store.handle uses) rfl hrule]
  exact Enforce.closure_returns hallow hunused

private theorem keepsClass_withClass {substitute : String}
    (hnone : store.substitute? substitute = none) :
    (n.withClass substitute written).KeepsClass store := by
  intro _ given name hgiven hname
  rw [withClass, field_setField_self, Value.name?, Option.ite_none_right_eq_some] at hgiven
  obtain ⟨_, hgiven⟩ := hgiven
  cases hgiven
  rw [nameText_of_parts rfl] at hname
  cases hname
  exact hnone

private theorem repeats_withClass {substitute : String}
    (hrule : n.kind.rule = .classAccess ∨ n.kind.rule = .instantiation)
    (hname : written.kind.isName = true) (hnone : store.substitute? substitute = none)
    (hmeets : (n.withClass substitute written).Meets store)
    (hsettled : n.Settled (Value.Repeats store)) :
    (Value.node (n.withClass substitute written)).Repeats store := by
  have hrenamed : (Value.node (renamed substitute written)).Settled (Value.Repeats store) :=
    renamed_repeats substitute hname
  refine repeats_of_stands (fields_setField hsettled hrenamed)
    ⟨hmeets, ⟨fun h => ?_, fun h => ?_⟩, keepsClass_withClass hnone, fun h => ?_⟩
  all_goals
    change n.kind.rule = _ at h
    rw [h] at hrule
    obtain hrule | hrule := hrule <;> cases hrule

end Node

private theorem Outcome.places_repeating {n : Node} {verdict : Verdict}
    (h : Outcome store n verdict)
    (hread : n.ReadFor store verdict) (hstore : store.SubstitutesOnce)
    (hdecl : n.kind.rule ≠ .functionDecl) (hsettled : n.Settled (Value.Repeats store)) :
    verdict.Places (Value.Repeats store) n := by
  cases h with
  | kept hmeets => exact Node.repeats_of_stands hsettled (hread.stands hmeets hdecl)
  | called hcall =>
      obtain ⟨method, args, rfl, hargs⟩ := hcall.arguments
      exact runtimeCall_repeats method hargs hsettled
  | guarded hrule hcallee hname => exact guarded_repeats hrule hcallee hname hsettled
  | @imported uses hrule hallow huses =>
      obtain ⟨others, used, hothers, hused, hkept⟩ := hread.uses hrule
      rw [huses] at hothers
      cases hothers
      cases used with
      | true => cases hkept.mpr rfl
      | false => exact Node.repeats_withHandle hrule hallow huses hused hsettled
  | substituted hrule hwritten _ hsubstitute hmeets =>
      exact Node.repeats_withClass hrule (Value.isName_of_name? hwritten)
        (hstore _ _ hsubstitute) hmeets hsettled
  | flattened _ hitems => exact hsettled.repeating_items hitems
  | dropped _ => trivial

/-! ## Validation -/

namespace Enforce

private theorem visitor_demands : Walk.Demands visitor (Reaches store)
    (fun n => n.generated = false → ¬ n.UsesHandle store.handle) := by
  intro source n houtline mid hmid
  change Reaches store ((node n).exec mid).2 ∧ ∀ verdict, ((node n).exec mid).1 = .ok verdict → _
  cases hgenerated : n.generated with
  | true =>
      rw [node, hgenerated, if_pos rfl]
      refine ⟨hmid, fun _ _ hnew => ?_⟩
      rw [← houtline.generated, hgenerated] at hnew
      cases hnew
  | false =>
      refine ⟨(node_yields hgenerated mid hmid).1, fun verdict hverdict _ huses => ?_⟩
      obtain ⟨⟨field, hfield, hname⟩, hfree⟩ := huses
      rw [← houtline.kind] at hfield hfree
      have hnames : n.NamesVariable mid.handle := by
        refine ⟨field, hfield, ?_⟩
        rw [hmid.samePolicy.handle_eq]
        exact (houtline.scalar field (.str store.handle)).mpr hname
      obtain ⟨hbinds, _⟩ := (node_passes_iff hgenerated hnames).mp ⟨verdict, hverdict⟩
      rw [hfree] at hbinds
      cases hbinds

end Enforce

namespace Gate

variable {nodes : List Node} {guarded : Tree} {after : Store}

private theorem enforce_repeats (hloaded : Loaded nodes)
    (hdecls : ∀ n ∈ nodes.flatMap Node.nodes, n.kind ≠ .statement .functionDecl)
    (hstore : store.SubstitutesOnce) :
    Walk.Settles Enforce.visitor (Reaches store) (Value.Repeats store)
      (· ∈ nodes.flatMap Node.nodes) where
  free value hnodes := by
    cases value with
    | node n => exact absurd hnodes n.nodes_ne_nil
    | _ => exact Value.repeats_of_node?_eq_none rfl
  leave source n hsource hleaves hsettled := by
    have houtline := hleaves.sameOutline
    obtain ⟨strip, data, hdata⟩ := hloaded
    have hnew : n.generated = false :=
      houtline.generated.trans (not_generated_of_loadTree hdata source hsource)
    have hdecl : n.kind.rule ≠ .functionDecl := by
      rw [houtline.kind]
      exact fun hrule => hdecls source hsource (Kind.eq_functionDecl hrule)
    exact ((Enforce.node_yields hnew).and (Enforce.node_reads hnew)).mono fun verdict hverdict =>
      hverdict.1.places_repeating hverdict.2 hstore hdecl hsettled

private theorem validate_repeats (hloaded : Loaded nodes)
    (hdecls : ∀ n ∈ nodes.flatMap Node.nodes, n.kind ≠ .statement .functionDecl)
    (hstore : store.SubstitutesOnce)
    (hrun : (validate (nodes.map .node)).exec store = (.ok guarded, after)) :
    Reaches store after ∧ ∀ item ∈ guarded, item.Repeats store := by
  have hraw : itemsRaw (nodes.map .node) = true := itemsRaw_map_node hloaded.isRaw
  have hsettles : Walk.Settles Enforce.visitor (Reaches store) (Value.Repeats store)
      (· ∈ nodesIn (nodes.map .node)) := by
    rw [nodesIn_map_node]
    exact enforce_repeats hloaded hdecls hstore
  have hwalk : Run.Yields (Reaches store) (validate (nodes.map .node))
      (fun walked => ∀ item ∈ walked, item.Repeats store) :=
    Walk.tree_settled_of_shape hsettles rfl (fun _ => rfl)
      (Walk.passesOver_of_raw fun _ => Value.repeats_of_node?_eq_none) hraw
  exact hwalk.ok .start hrun

/--
Validating a guarded tree again returns only if no node that is judged uses the handle; and
if so, it returns the same tree, provided that the script declares no function and no
substitute of a class has a substitute.
-/
theorem validate_again_iff (hloaded : Loaded nodes)
    (hdecls : ∀ n ∈ nodes.flatMap Node.nodes, n.kind ≠ .statement .functionDecl)
    (hstore : store.SubstitutesOnce)
    (hrun : (validate (nodes.map .node)).exec store = (.ok guarded, after)) :
    ((∃ result again, (validate guarded).exec after = (.ok result, again)) ↔
      ∀ n ∈ visitedIn guarded, n.generated = false → ¬ n.UsesHandle store.handle) ∧
    ((∀ n ∈ visitedIn guarded, n.generated = false → ¬ n.UsesHandle store.handle) →
      ∃ again, (validate guarded).exec after = (.ok guarded, again)) := by
  obtain ⟨hreaches, hrepeats⟩ := validate_repeats hloaded hdecls hstore hrun
  have hagain : (∀ n ∈ visitedIn guarded, n.generated = false → ¬ n.UsesHandle store.handle) →
      ∃ again, (validate guarded).exec after = (.ok guarded, again) := by
    intro hunused
    have hstays : ∀ item ∈ guarded, item.Stays store := by
      intro item hitem
      cases item with
      | node n =>
          exact (hrepeats _ hitem).stays fun m hm =>
            hunused m (mem_visitedIn.mpr ⟨n, hitem, hm⟩)
      | _ => trivial
    have hreturns : Run.Returns (Reaches store) (validate guarded) guarded :=
      Walk.tree_returns hstays rfl rfl
    obtain ⟨again, _, hexec⟩ := hreturns after hreaches
    exact ⟨again, hexec⟩
  refine ⟨⟨?_, fun hunused => ?_⟩, hagain⟩
  · rintro ⟨result, again, hexec⟩
    have hdemands : Run.Yields (Reaches store) (validate guarded)
        (fun _ => ∀ n ∈ visitedIn guarded, n.generated = false → ¬ n.UsesHandle store.handle) :=
      Walk.tree_demands Enforce.visitor_demands rfl
    exact (hdemands.ok hreaches hexec).2
  · obtain ⟨again, hexec⟩ := hagain hunused
    exact ⟨guarded, again, hexec⟩

end Gate

/-! ## Guarded calls -/

private theorem Generated.mem_visited_guarded {handle : String} {call callee n : Node}
    (hnew : n.generated = false) :
    n ∈ (guarded handle call callee).visited ↔
      n ∈ callee.fresh.visited ∨ n ∈ visitedInFields call.fields := by
  have hbuilt : ∀ {kind : Kind} {attributes : Record Json} {fields : Record Value},
      n ∈ (Generated.node kind attributes fields).visited ↔ n ∈ visitedInFields fields :=
    Node.mem_visited_of_generated rfl hnew
  have hmade : n ∈ ({ call with
      attributes := Node.marked call.attributes, generated := true } : Node).visited ↔
        n ∈ visitedInFields call.fields :=
    Node.mem_visited_of_generated rfl hnew
  simp only [guarded, runtimeCall, nullConst, plainName, arg, Generated.handle, hbuilt, hmade,
    visitedInFields, visitedIn, Value.visited, List.mem_append, List.not_mem_nil, or_false,
    false_or]

private theorem Generated.unused_in_guarded_iff {handle : String} {call callee : Node} :
    (∀ n ∈ visitedIn [.node (guarded handle call callee)],
        n.generated = false → ¬ n.UsesHandle handle) ↔
      (∀ n ∈ callee.visited, ¬ n.UsesHandle handle) ∧
        ∀ n ∈ visitedInFields call.fields, n.generated = false → ¬ n.UsesHandle handle := by
  rw [visitedIn, visitedIn, List.append_nil]
  constructor
  · refine fun h => ⟨fun n hn huses => ?_, fun n hn hnew => ?_⟩
    · have hcopy : n.fresh ∈ callee.fresh.visited := by
        rw [Node.visited_fresh]
        exact List.mem_map_of_mem hn
      exact h n.fresh ((mem_visited_guarded n.generated_fresh).mpr (.inl hcopy)) n.generated_fresh
        (Node.usesHandle_fresh_iff.mpr huses)
    · exact h n ((mem_visited_guarded hnew).mpr (.inr hn)) hnew
  · rintro ⟨hcallee, hcall⟩ n hn hnew huses
    rcases (mem_visited_guarded hnew).mp hn with hn | hn
    · rw [Node.visited_fresh] at hn
      obtain ⟨source, hsource, rfl⟩ := List.mem_map.mp hn
      exact hcallee source hsource (Node.usesHandle_fresh_iff.mp huses)
    · exact hcall n hn hnew huses

namespace Gate

variable {guarded : Tree} {after : Store}

/--
Validating a guarded call again returns exactly if the handle is used neither in its callee,
by generated nodes or others, nor by what is judged in the call itself; and whenever it
returns, it returns the same tree.
-/
theorem guarded_call_stays_iff {call left computed : Node} (hloaded : Loaded [call])
    (hdecls : ∀ n ∈ call.nodes, n.kind ≠ .statement .functionDecl)
    (hstore : store.SubstitutesOnce)
    (hrun : (validate [.node call]).exec store = (.ok guarded, after))
    (hguard : guarded = [.node (Generated.guarded store.handle left computed)]) :
    ((∃ again, (validate guarded).exec after = (.ok guarded, again)) ↔
      (∀ n ∈ computed.visited, ¬ n.UsesHandle store.handle) ∧
        ∀ n ∈ visitedInFields left.fields, n.generated = false → ¬ n.UsesHandle store.handle) ∧
      ∀ result again, (validate guarded).exec after = (.ok result, again) → result = guarded := by
  have hnone : ∀ n ∈ [call].flatMap Node.nodes, n.kind ≠ .statement .functionDecl := by
    rwa [List.flatMap_singleton]
  obtain ⟨hiff, hsame⟩ := validate_again_iff hloaded hnone hstore hrun
  rw [hguard, Generated.unused_in_guarded_iff, ← hguard] at hiff hsame
  refine ⟨⟨fun ⟨again, hexec⟩ => hiff.mp ⟨guarded, again, hexec⟩, hsame⟩, ?_⟩
  intro result again hexec
  obtain ⟨other, hother⟩ := hsame (hiff.mp ⟨result, again, hexec⟩)
  rw [hexec] at hother
  cases hother
  rfl

end Gate

namespace Sample

def callOf (callee : Node) (args : List Value) : Node :=
  Node.make (.expression .funcCall) [] [("name", .node callee), ("args", .list args)]

def variableOf (name : String) : Node := Node.variableRef (.str name) []

def plainStore : Store := Store.empty Options.default false

def variableCall : Node :=
  callOf (variableOf "f") [.node (Node.arg (.node (variableOf "x")) .null .null)]

def guardedVariableCall : Node :=
  Generated.guarded plainStore.handle variableCall (variableOf "f")

def superglobalCall : Node := callOf (variableOf "_GET") []

def guardedSuperglobalCall : Node :=
  let built := Generated.runtimeCall plainStore.handle superglobalMethod
    [Generated.arg (Generated.text "_GET")] (variableOf "_GET")
  Generated.guarded plainStore.handle (callOf built []) built

private theorem loaded_variableCall : Loaded [variableCall] :=
  ⟨true, .arr [entry "Expr_FuncCall" [("name", variableEntry "f"), ("args",
    .arr [entry "Arg" [("value", variableEntry "x"), ("byRef", .scalar .null),
      ("unpack", .scalar .null)]])]], rfl⟩

private theorem loaded_superglobalCall : Loaded [superglobalCall] :=
  ⟨true, .arr [entry "Expr_FuncCall" [("name", variableEntry "_GET"), ("args", .arr [])]], rfl⟩

private theorem substitutesOnce_plainStore : plainStore.SubstitutesOnce :=
  Store.substitutesOnce_of_classes (by decide)

end Sample

namespace Gate

theorem guarded_call_stays_of_variable : ∃ again,
    Loaded [Sample.variableCall] ∧
      (validate [.node Sample.variableCall]).exec Sample.plainStore =
        (.ok [.node Sample.guardedVariableCall], Sample.plainStore) ∧
      (validate [.node Sample.guardedVariableCall]).exec Sample.plainStore =
        (.ok [.node Sample.guardedVariableCall], again) := by
  have hrun : (validate [.node Sample.variableCall]).exec Sample.plainStore =
      (.ok [.node Sample.guardedVariableCall], Sample.plainStore) := rfl
  obtain ⟨hiff, _⟩ := guarded_call_stays_iff Sample.loaded_variableCall (by decide)
    Sample.substitutesOnce_plainStore hrun rfl
  obtain ⟨again, hexec⟩ := hiff.mpr ⟨by decide, by decide⟩
  exact ⟨again, Sample.loaded_variableCall, hrun, hexec⟩

/-- A superglobal passes by itself; as the callee of a guarded call, it is refused later. -/
theorem superglobal_callee_is_refused : ∃ violation again,
    Loaded [Sample.superglobalCall] ∧ Sample.superglobalCall.IsDynamicCall ∧
      (∀ n ∈ Sample.superglobalCall.nodes, n.kind ≠ .statement .functionDecl) ∧
      Sample.plainStore.SubstitutesOnce ∧
      ((validate [.node (Sample.variableOf "_GET")]).exec Sample.plainStore).1.isOk = true ∧
      (validate [.node Sample.superglobalCall]).exec Sample.plainStore =
        (.ok [.node Sample.guardedSuperglobalCall], Sample.plainStore) ∧
      (validate [.node Sample.guardedSuperglobalCall]).exec Sample.plainStore =
        (.error (.raised (.violation violation)), again) ∧
      violation.kind = .sandboxAccess :=
  ⟨_, _, Sample.loaded_superglobalCall, by decide, by decide,
    Sample.substitutesOnce_plainStore, by decide, rfl, rfl, rfl⟩

end Gate

end ScriptSandbox
