import ScriptSandbox.Proofs.Enforce.Outcome
import ScriptSandbox.Proofs.Walk.Placement

/-!
# Properties of generated nodes

A property of values is closed when values without nodes have it, and generated nodes have
it whose fields are settled.  No statement and no closure is ever generated.  Method calls
are left out, since what is called matters there, and so are calls of computed callees.  An
argument of a call on the runtime has a closed property if what it takes from the node that
is judged has it.
-/

namespace ScriptSandbox

namespace Generated

structure Closed (G : Value → Prop) : Prop where
  free : ∀ {value : Value}, value.nodes = [] → G value
  node : ∀ {kind : Kind} {fields : Record Value} (attributes : Record Json),
    (∀ which, kind ≠ .statement which) → kind ≠ .expression .closure →
    kind ≠ .expression .methodCall →
    (kind = .expression .funcCall →
      ((Generated.node kind attributes fields).field "name").name?.isSome = true) →
    (∀ entry ∈ fields, entry.2.Settled G) → G (.node (Generated.node kind attributes fields))

namespace Closed

variable {G : Value → Prop} (hG : Closed G)

include hG

theorem settled {value : Value} (h : value.nodes = []) : value.Settled G := by
  cases value with
  | list items =>
      intro item hitem
      refine hG.free (List.eq_nil_iff_forall_not_mem.mpr fun n hn => ?_)
      have hmem : n ∈ nodesIn items := mem_nodesIn.mpr ⟨item, hitem, hn⟩
      have hnone : nodesIn items = [] := h
      rw [hnone] at hmem
      cases hmem
  | pair name value => exact h
  | node n => exact absurd h n.nodes_ne_nil
  | scalar value => exact hG.free h
  | obj fields => exact hG.free h

theorem noCall {kind : Kind} {fields : Record Value} (attributes : Record Json)
    (hplain : ∀ which, kind ≠ .statement which) (hclosure : kind ≠ .expression .closure)
    (hmethod : kind ≠ .expression .methodCall) (hcall : kind ≠ .expression .funcCall)
    (h : ∀ entry ∈ fields, entry.2.Settled G) :
    G (.node (Generated.node kind attributes fields)) :=
  hG.node attributes hplain hclosure hmethod (fun hkind => absurd hkind hcall) h

theorem leaf {kind : Kind} {fields : Record Value} (attributes : Record Json)
    (hplain : ∀ which, kind ≠ .statement which) (hclosure : kind ≠ .expression .closure)
    (hmethod : kind ≠ .expression .methodCall) (hcall : kind ≠ .expression .funcCall)
    (hleaf : nodesInFields fields = []) : G (.node (Generated.node kind attributes fields)) := by
  refine hG.noCall attributes hplain hclosure hmethod hcall fun entry hentry => hG.settled ?_
  refine List.eq_nil_iff_forall_not_mem.mpr fun n hn => ?_
  have hmem : n ∈ nodesInFields fields := mem_nodesInFields.mpr ⟨entry, hentry, hn⟩
  rw [hleaf] at hmem
  cases hmem

theorem arg {n : Node} (h : G (.node n)) : G (Generated.arg n) := by
  have hscalar : (Value.bool false).Settled G := hG.settled rfl
  refine hG.noCall [] nofun (by decide) (by decide) (by decide) ?_
  rw [List.forall_mem_cons, List.forall_mem_cons, List.forall_mem_singleton]
  exact ⟨h, hscalar, hscalar⟩

theorem text (value : String) : G (.node (Generated.text value)) :=
  hG.leaf [] nofun (by decide) (by decide) (by decide) rfl

theorem integer (value : Int) : G (.node (Generated.integer value)) :=
  hG.leaf [] nofun (by decide) (by decide) (by decide) rfl

theorem handle (name : String) : G (.node (Generated.handle name)) :=
  hG.leaf [] nofun (by decide) (by decide) (by decide) rfl

theorem handleUse (name : String) : G (.node (Generated.handleUse name)) :=
  hG.leaf [] nofun (by decide) (by decide) (by decide) rfl

theorem plainName (part : String) : G (.node (Generated.plainName [.str part])) :=
  hG.leaf [] nofun (by decide) (by decide) (by decide) rfl

theorem nativeCall (function : String) : G (.node (Generated.nativeCall function)) := by
  refine hG.node [] nofun (by decide) (by decide) (fun _ => rfl) ?_
  rw [List.forall_mem_cons, List.forall_mem_singleton]
  exact ⟨hG.plainName function, hG.settled rfl⟩

theorem nullConst : G (.node Generated.nullConst) := by
  have hname : (Value.node (Generated.plainName [.str "null"])).Settled G := hG.plainName "null"
  exact hG.noCall [] nofun (by decide) (by decide) (by decide) (List.forall_mem_singleton.mpr hname)

theorem renamed {written : Node} (text : String) (hname : written.kind.isName = true) :
    G (.node (Generated.renamed text written)) := by
  have hparts : (Value.list (Node.partsOf text)).Settled G := by
    intro item hitem
    obtain ⟨part, _, rfl⟩ := List.mem_map.mp hitem
    exact hG.free rfl
  refine hG.noCall _ (fun which hkind => ?_) (fun hkind => ?_) (fun hkind => ?_)
    (fun hkind => ?_) (List.forall_mem_singleton.mpr hparts)
  all_goals
    rw [hkind] at hname
    cases hname

theorem runtimeCall_settled {args : List Value} (name method : String) (origin : Node)
    (h : ∀ item ∈ args, G item) : (Generated.runtimeCall name method args origin).Settled G := by
  change ∀ entry ∈ [_, _, _], _
  rw [List.forall_mem_cons, List.forall_mem_cons, List.forall_mem_singleton]
  exact ⟨hG.handle name, hG.settled rfl, h⟩

theorem argument {n : Node} {item : Value} (h : RuntimeArgument n item)
    (hitems : ∀ name items, n.fieldItems name = .ok items → ∀ item ∈ items, G item)
    (hcallee : ∀ computed, n.kind.rule = .funcCall → n.field "name" = .node computed →
      computed.kind.isName = false → G (.node computed.fresh)) : G item := by
  cases h with
  | text value => exact hG.arg (hG.text value)
  | integer value => exact hG.arg (hG.integer value)
  | native function => exact hG.arg (hG.nativeCall function)
  | @item name items _ hread hitem => exact hitems name items hread item hitem
  | @parts name items hread =>
      have hlist : (Value.list items).Settled G := hitems name items hread
      exact hG.arg (hG.noCall [] nofun (by decide) (by decide) (by decide)
        (List.forall_mem_singleton.mpr hlist))
  | @callee computed hrule hfield hname => exact hG.arg (hcallee computed hrule hfield hname)

end Closed

private theorem closed_each {P : Node → Prop}
    (hP : ∀ n : Node, n.kind ≠ .expression .closure → (∀ which, n.kind ≠ .statement which) → P n) :
    Closed (Value.Each P) where
  free h := Value.each_of_nodes_eq_nil h
  node _ hplain hclosure _ _ h :=
    Value.each_node.mpr ⟨hP _ hclosure hplain, fun entry hentry => (h entry hentry).each⟩

end Generated

section

variable {P : Node → Prop} {store : Store} {n : Node}
  (hP : ∀ n : Node, n.kind ≠ .expression .closure → (∀ which, n.kind ≠ .statement which) → P n)
  (hfresh : ∀ n, P n → P n.fresh) (hsettled : n.Settled (Value.Each P))

include hsettled in
theorem Node.Settled.each_field (name : String) : (n.field name).Each P :=
  Node.field_each (fun entry hentry => (hsettled entry hentry).each) name

include hP hfresh hsettled

theorem RuntimeCall.each {call : Node} (hcall : RuntimeCall store n call) :
    (Value.node call).Each P := by
  obtain ⟨method, args, rfl, hargs⟩ := hcall.arguments
  have hclosed := Generated.closed_each hP
  have hall := hclosed.runtimeCall_settled store.handle method n fun item hitem =>
    hclosed.argument (hargs item hitem)
      (fun name items hitems => (hsettled.each_field name).items hitems)
      fun computed _ hcallee _ => by
        have hfield := hsettled.each_field "name"
        rw [hcallee] at hfield
        exact hfield.fresh hfresh
  exact Value.each_node.mpr ⟨hP _ nofun nofun, fun entry hentry => (hall entry hentry).each⟩

/-- A property of closures and statements holds of all nodes that judging puts in the place of
a node, if it does of those in its fields and of the node itself where a copy of it stays. -/
theorem Outcome.places_each {verdict : Verdict} (h : Outcome store n verdict)
    (hkept : verdict = .keep → P n)
    (himported : ∀ uses, n.kind.rule = .closure → n.fieldItems "uses" = .ok uses →
      verdict = .replace (n.withHandle store.handle uses) → P (n.withHandle store.handle uses)) :
    verdict.Places (Value.Each P) n := by
  have hfields : ∀ entry ∈ n.fields, entry.2.Each P :=
    fun entry hentry => (hsettled entry hentry).each
  have hclosed := Generated.closed_each hP
  have hself : ∀ m : Node, m.kind = n.kind → n.kind.rule = .funcCall ∨
      n.kind.rule = .classAccess ∨ n.kind.rule = .instantiation → P m := by
    intro m hkind hrule
    refine hP m (fun hclosure => ?_) fun which hstatement => ?_
    · rw [← hkind, hclosure] at hrule
      revert hrule
      decide
    · rw [← hkind, hstatement] at hrule
      cases which <;> revert hrule <;> decide
  cases h with
  | kept _ => exact Value.each_node.mpr ⟨hkept rfl, hfields⟩
  | called hcall => exact hcall.each hP hfresh hsettled
  | @guarded computed hrule hcallee hname =>
      have hasks : RuntimeCall store n _ := .callee hrule hcallee hname
      have hcall : (Value.node
          { n with attributes := Node.marked n.attributes, generated := true }).Each P :=
        Value.each_node.mpr ⟨hself _ rfl (.inl hrule), hfields⟩
      refine hclosed.noCall _ nofun (by decide) (by decide) (by decide) ?_
      rw [List.forall_mem_cons, List.forall_mem_cons, List.forall_mem_singleton]
      exact ⟨hasks.each hP hfresh hsettled, hcall, hclosed.nullConst⟩
  | @imported uses hrule _ huses =>
      have hlist : (Value.list (uses ++ [.node (Generated.handleUse store.handle)])).Each P :=
        Value.each_list.mpr (List.forall_mem_append.mpr
          ⟨(hsettled.each_field "uses").items huses,
            List.forall_mem_singleton.mpr (hclosed.handleUse store.handle)⟩)
      exact Value.each_node.mpr
        ⟨himported uses hrule huses rfl, Node.fields_setField hfields hlist⟩
  | substituted hrule hwritten =>
      exact Value.each_node.mpr ⟨hself _ rfl (.inr hrule), Node.fields_setField hfields
        (hclosed.renamed _ (Value.isName_of_name? hwritten))⟩
  | flattened _ hitems => exact (hsettled.each_field "stmts").items hitems
  | dropped _ => trivial

end

end ScriptSandbox
