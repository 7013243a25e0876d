import ScriptSandbox.Proofs.Enforce.Flattening
import ScriptSandbox.Proofs.Enforce.Readable
import ScriptSandbox.Proofs.Walk.Shaped

/-!
# Judging shaped nodes

Whatever the store permits, a node that has the shape of its kind can be read when it is
judged.  What is put in its place keeps the shape of what holds it, and hides no node in a
pair if the node hides none.
-/

namespace ScriptSandbox

variable {store : Store} {n : Node}

namespace Node

theorem SpelledOut.spells (h : n.SpelledOut) : (Value.node n).Spells :=
  h.nameText

theorem NameSpelledOut.readable {field : String} (h : n.NameSpelledOut field) :
    n.NameReadable field :=
  fun written hwritten => (h written hwritten).spells

theorem itemsReadable_of_lists {field : String} {P Q R : Value → Prop}
    (h : (n.field field).Lists P) (hread : ∀ item, P item → Q item) :
    n.ItemsReadable field Q R := by
  obtain ⟨items, hitems, hall⟩ := h.items
  exact ⟨items, hitems, .of_forall fun item hitem => hread item (hall item hitem)⟩

end Node

namespace Value

private theorem spells_of_isSpelledName {value : Value} (h : value.IsNode Node.IsSpelledName) :
    value.Spells := by
  obtain ⟨n, rfl, _, hspelled⟩ := isNode_iff.mp h
  exact hspelled.spells

theorem importReadable_of_fits {value : Value} (h : value.IsNode Node.FitsImport) :
    value.ImportReadable := by
  obtain ⟨n, rfl, _, hname⟩ := isNode_iff.mp h
  exact ⟨n, rfl, fun written _ himport => (hname himport.1 written himport.2.1).spells⟩

end Value

theorem Node.namespaceReadable_of_shapes (h : Rule.namespaceDecl.Shapes n) :
    n.NamespaceReadable store := by
  intro written hwritten
  obtain ⟨text, htext⟩ := (h.1 written hwritten).nameText
  obtain ⟨items, hitems, _⟩ := Value.Lists.items h.2
  exact ⟨text, htext, fun _ => ⟨items, hitems⟩⟩

theorem Rule.Shapes.readable {rule : Rule} (h : rule.Shapes n) : rule.Readable store n := by
  cases rule with
  | closure =>
      intro _
      obtain ⟨uses, huses, hnodes⟩ := Value.Lists.items h
      exact ⟨uses, huses, usesVariable_of_nodes hnodes store.handle⟩
  | classDecl =>
      intro _ _ _
      refine ⟨fun parent hparent _ => (h.1 parent hparent).spells, fun _ _ _ => ?_⟩
      exact Node.itemsReadable_of_lists h.2 fun _ => Value.spells_of_isSpelledName
  | interfaceDecl =>
      intro _ _ _
      exact Node.itemsReadable_of_lists h fun _ => Value.spells_of_isSpelledName
  | traitUse =>
      intro _
      exact Node.itemsReadable_of_lists h fun _ => Value.spells_of_isSpelledName
  | globalDecl =>
      intro _ _
      refine Node.itemsReadable_of_lists h fun item hitem => ?_
      obtain ⟨var, rfl, _⟩ := Value.isNode_iff.mp hitem
      exact variableName?_of_node var
  | namespaceDecl =>
      intro _ _
      exact Node.namespaceReadable_of_shapes h
  | useDecl =>
      intro _ _
      exact Node.itemsReadable_of_lists h fun _ => Value.importReadable_of_fits
  | funcCall =>
      obtain ⟨hcallee, hname, hargs⟩ := h
      constructor
      · intro written hwritten
        obtain ⟨text, htext⟩ := (hname written hwritten).nameText
        obtain ⟨args, hargs, _⟩ := hargs.items
        exact ⟨text, htext, fun _ => ⟨args, hargs⟩⟩
      · intro _
        obtain ⟨callee, hcallee, _⟩ := Value.isNode_iff.mp hcallee
        exact ⟨callee, hcallee⟩
  | constFetch => exact Node.NameSpelledOut.readable h
  | classAccess => exact Node.NameSpelledOut.readable h
  | instantiation => exact fun _ _ => Node.NameSpelledOut.readable h
  | shellExec => exact fun _ => Enforce.command_of_shape h
  | _ => trivial

private theorem RuntimeCall.leavesRoom {call : Node} (h : RuntimeCall store n call) :
    n.LeavesRoom call := by
  obtain ⟨method, args, rfl, _⟩ := h.arguments
  refine .inr ⟨?_, .methodCall, rfl⟩
  cases h <;> simp_all

private theorem Kind.expression_of_rule {kind : Kind}
    (h : kind.rule = .closure ∨ kind.rule = .classAccess ∨ kind.rule = .instantiation) :
    ∃ which, kind = .expression which := by
  cases kind with
  | expression which => exact ⟨which, rfl⟩
  | statement which => cases which <;> simp [Kind.rule, Statement.rule] at h
  | literal which => cases which <;> simp [Kind.rule, Literal.rule] at h
  | _ => simp [Kind.rule] at h

private theorem Outcome.spares {verdict : Verdict} (h : Outcome store n verdict) :
    Spares n verdict := by
  cases h with
  | kept _ => trivial
  | called hcall => exact hcall.leavesRoom
  | guarded hrule => exact .inr ⟨by simp [hrule], .ternary, rfl⟩
  | imported hrule => exact .inr ⟨by simp [hrule], Kind.expression_of_rule (.inl hrule)⟩
  | substituted hrule =>
      refine .inr ⟨?_, Kind.expression_of_rule (.inr hrule)⟩
      rcases hrule with hrule | hrule <;> simp [hrule]
  | flattened hrule hitems =>
      refine ⟨.inl (Kind.eq_namespaceDecl hrule), fun hshaped => ?_⟩
      rw [Node.Shaped, hrule] at hshaped
      exact hshaped.2.of_items hitems
  | dropped hrule => exact .inr (Kind.eq_useDecl hrule)

@[simp]
theorem Generated.closed_hidesNode : Generated.Closed fun value => value.hidesNode = false where
  free h := Value.hidesNode_of_nodes_eq_nil h
  node _ _ _ _ _ h :=
    fieldsHideNode_eq_false_iff.mpr fun entry hentry => (h entry hentry).hidesNode

section

variable (hshaped : n.Shaped) (hhides : n.hidesNode = false)

include hhides

private theorem Value.Lists.field_hideNode {P : Value → Prop} {name : String} {items : List Value}
    (h : (n.field name).Lists P) (hitems : n.fieldItems name = .ok items) :
    ∀ item ∈ items, item.hidesNode = false :=
  h.items_hideNode (Node.field_hidesNode hhides name) hitems

private theorem Node.setField_hidesNode {name : String} {value : Value}
    (hvalue : value.hidesNode = false) :
    (({ n with generated := false } : Node).setField name value).hidesNode = false := by
  have hfields : ∀ entry ∈ ({ n with generated := false } : Node).fields,
      entry.2.hidesNode = false := (hidesNode_eq_false_iff (n := n)).mp hhides
  exact hidesNode_eq_false_iff.mpr
    (fields_setField (Q := fun value => value.hidesNode = false) hfields hvalue)

include hshaped

theorem RuntimeCall.hidesNode {call : Node} (h : RuntimeCall store n call) :
    call.hidesNode = false := by
  have hclosed := Generated.closed_hidesNode
  have hcall : ∀ {method : String} {args : List Value}, (∀ item ∈ args, item.hidesNode = false) →
      (Generated.runtimeCall store.handle method args n).hidesNode = false := fun hargs =>
    Node.hidesNode_eq_false_iff.mpr fun entry hentry =>
      (hclosed.runtimeCall_settled store.handle _ n hargs entry hentry).hidesNode
  cases h with
  | @function written name args hrule _ _ _ _ hargs =>
      rw [Node.Shaped, hrule] at hshaped
      exact hcall (List.forall_mem_cons.mpr
        ⟨hclosed.arg (hclosed.text name), hshaped.2.2.field_hideNode hhides hargs⟩)
  | @shell line hrule _ hline =>
      rw [Node.Shaped, hrule] at hshaped
      have harg : (Generated.arg line).hidesNode = false := by
        obtain ⟨value, rfl⟩ | ⟨items, hitems, rfl⟩ := text_or_parts_of_command hline
        · exact hclosed.arg (hclosed.text value)
        · have hparts : (Value.list items).Settled fun value => value.hidesNode = false :=
            Value.Lists.field_hideNode hhides hshaped hitems
          exact hclosed.arg (hclosed.noCall [] nofun (by decide) (by decide) (by decide)
            (List.forall_mem_singleton.mpr hparts))
      exact hcall (List.forall_mem_cons.mpr
        ⟨hclosed.arg (hclosed.text _), List.forall_mem_singleton.mpr harg⟩)
  | @callee computed hrule hcallee hname =>
      have hwritten := Node.field_hidesNode hhides "name"
      rw [hcallee] at hwritten
      exact hcall (List.forall_mem_singleton.mpr (hclosed.arg (Node.hidesNode_fresh hwritten)))
  | definedFunction =>
      exact hcall (List.forall_mem_singleton.mpr (hclosed.arg (hclosed.nativeCall _)))
  | @argumentFunction written name args hrule _ _ _ _ hargs =>
      rw [Node.Shaped, hrule] at hshaped
      refine hcall (List.forall_mem_cons.mpr ⟨hclosed.arg (hclosed.nativeCall _), ?_⟩)
      intro item hitem
      obtain hitem | rfl := mem_placeArgument hitem
      · exact hshaped.2.2.field_hideNode hhides hargs item hitem
      · exact hclosed.arg (hclosed.integer 0)
  | superglobal => exact hcall (List.forall_mem_singleton.mpr (hclosed.arg (hclosed.text _)))
  | magicConst => exact hcall (List.forall_mem_singleton.mpr (hclosed.arg (hclosed.text _)))

private theorem Outcome.places_disclosed {verdict : Verdict} (h : Outcome store n verdict) :
    verdict.Places (fun placed => placed.hidesNode = false) n := by
  have hclosed := Generated.closed_hidesNode
  cases h with
  | kept _ => exact hhides
  | called hcall => exact hcall.hidesNode hshaped hhides
  | @guarded computed hrule hcallee hname =>
      have hasks : RuntimeCall store n _ := .callee hrule hcallee hname
      have hself : (Value.node
          { n with attributes := Node.marked n.attributes, generated := true }).hidesNode = false :=
        Node.hidesNode_eq_false_iff.mpr ((Node.hidesNode_eq_false_iff (n := n)).mp hhides)
      refine hclosed.noCall _ nofun (by decide) (by decide) (by decide) ?_
      rw [List.forall_mem_cons, List.forall_mem_cons, List.forall_mem_singleton]
      exact ⟨hasks.hidesNode hshaped hhides, hself, hclosed.nullConst⟩
  | @imported uses hrule _ huses =>
      rw [Node.Shaped, hrule] at hshaped
      refine Node.setField_hidesNode hhides (itemsHideNode_eq_false_iff.mpr ?_)
      exact List.forall_mem_append.mpr
        ⟨Value.Lists.field_hideNode hhides hshaped huses,
          List.forall_mem_singleton.mpr (hclosed.handleUse store.handle)⟩
  | substituted _ hwritten =>
      exact Node.setField_hidesNode hhides (hclosed.renamed _ (Value.isName_of_name? hwritten))
  | flattened hrule hitems =>
      rw [Node.Shaped, hrule] at hshaped
      exact hshaped.2.field_hideNode hhides hitems
  | dropped _ => trivial

end

theorem Enforce.node_discloses (n : Node) :
    Run.Yields (fun _ => True) (node n) (Discloses n) := by
  intro store _
  refine ⟨trivial, fun verdict hverdict => ?_⟩
  cases hgenerated : n.generated with
  | true =>
      rw [node, hgenerated, if_pos rfl] at hverdict
      cases hverdict
      exact ⟨trivial, fun _ hhides => hhides⟩
  | false =>
      have houtcome := (node_yields hgenerated store .start).2 verdict hverdict
      exact ⟨houtcome.spares, fun hshaped hhides => houtcome.places_disclosed hshaped hhides⟩

end ScriptSandbox
