import ScriptSandbox.Proofs.Tree.Nodes

/-!
# Trees without namespaces and imports

`Node.flattened` drops the imports from every list inside a node and puts the statements of
a namespace, flattened themselves, in the place of the namespace.  `statementsIn` lists what
is left of a list of statements before anything inside them is flattened.  The two agree:
to flatten a list is to flatten each of its statements, in their order.
-/

namespace ScriptSandbox

/-- Namespaces and imports give way to what they hold, to their statements or to nothing. -/
def Kind.GivesWay (kind : Kind) : Prop :=
  kind = .statement .namespaceDecl ∨ kind = .statement .useDecl

instance (kind : Kind) : Decidable kind.GivesWay :=
  inferInstanceAs (Decidable (_ ∨ _))

def Value.isListOrNothing : Value → Bool
  | .list _ => true
  | value => !value.truthy

private theorem Value.isListOrNothing_iff {value : Value} : value.isListOrNothing = true ↔
    (∃ items, value = .list items) ∨ value.truthy = false := by
  cases value <;> simp [isListOrNothing]

def Node.inPlace (n : Node) : List Value :=
  if n.kind = .statement .useDecl then []
  else if n.kind = .statement .namespaceDecl then (n.fieldItems "stmts").toOption.getD []
  else [.node n]

mutual

/-- The node, with all lists inside it flattened. -/
def Node.flattened : Node → Node
  | ⟨kind, attributes, fields, generated⟩ =>
      ⟨kind, attributes, flattenedFields fields, generated⟩
  termination_by structural node => node

def Value.flattened : Value → Value
  | .list items => .list (flattenedItems items)
  | .node n => .node n.flattened
  | .scalar value => .scalar value
  | .obj fields => .obj fields
  | .pair name value => .pair name value
  termination_by structural value => value

/-- As in a walk, lists inside lists stay as they are. -/
def flattenedItems : List Value → List Value
  | [] => []
  | .node n :: rest => n.flattened.inPlace ++ flattenedItems rest
  | item :: rest => item :: flattenedItems rest
  termination_by structural items => items

def flattenedFields : List (String × Value) → List (String × Value)
  | [] => []
  | (name, value) :: rest => (name, value.flattened) :: flattenedFields rest
  termination_by structural fields => fields

end

mutual

def Node.statements : Node → List Value
  | ⟨kind, attributes, fields, generated⟩ =>
      if kind = .statement .useDecl then []
      else if kind = .statement .namespaceDecl then statementsInFields fields
      else [.node ⟨kind, attributes, fields, generated⟩]
  termination_by structural node => node

def Value.statements : Value → List Value
  | .list items => statementsIn items
  | .node _ => []
  | .scalar _ => []
  | .obj _ => []
  | .pair _ _ => []
  termination_by structural value => value

/-- The statements of a list, with those of its namespaces in their places. -/
def statementsIn : List Value → List Value
  | [] => []
  | .node n :: rest => n.statements ++ statementsIn rest
  | item :: rest => item :: statementsIn rest
  termination_by structural items => items

def statementsInFields : List (String × Value) → List Value
  | [] => []
  | (name, value) :: rest => if name = "stmts" then value.statements else statementsInFields rest
  termination_by structural fields => fields

end

namespace Node

@[simp]
theorem inPlace_of_useDecl {n : Node} (h : n.kind = .statement .useDecl) : n.inPlace = [] := by
  rw [inPlace, if_pos h]

@[simp] theorem inPlace_of_namespaceDecl {n : Node} (h : n.kind = .statement .namespaceDecl) :
    n.inPlace = (n.fieldItems "stmts").toOption.getD [] := by
  rw [inPlace, if_neg (by rw [h]; decide), if_pos h]

@[simp]
theorem inPlace_of_not_givesWay {n : Node} (h : ¬ n.kind.GivesWay) : n.inPlace = [.node n] := by
  obtain ⟨hnamespace, huse⟩ := not_or.mp h
  rw [inPlace, if_neg huse, if_neg hnamespace]

@[simp] theorem statements_of_useDecl {n : Node} (h : n.kind = .statement .useDecl) :
    n.statements = [] := by
  cases n
  rw [statements, if_pos h]

@[simp] theorem statements_of_namespaceDecl {n : Node} (h : n.kind = .statement .namespaceDecl) :
    n.statements = (n.field "stmts").statements := by
  have hget : ∀ fields : Record Value,
      statementsInFields fields = ((Record.get? fields "stmts").getD .null).statements := by
    intro fields
    induction fields with
    | nil => rfl
    | cons entry rest ih =>
        by_cases hname : entry.1 = "stmts"
        · simp [statementsInFields, Record.get?, hname]
        · simp [statementsInFields, Record.get?, hname, ih]
  cases n with
  | mk kind attributes fields generated =>
      have hkind : kind = .statement .namespaceDecl := h
      rw [statements, if_neg (by rw [hkind]; decide), if_pos hkind, hget]
      rfl

@[simp] theorem statements_of_not_givesWay {n : Node} (h : ¬ n.kind.GivesWay) :
    n.statements = [.node n] := by
  obtain ⟨hnamespace, huse⟩ := not_or.mp h
  cases n
  rw [statements, if_neg huse, if_neg hnamespace]

@[simp] theorem kind_flattened (n : Node) : n.flattened.kind = n.kind := by
  cases n
  rfl

@[simp] theorem field_flattened (n : Node) (name : String) :
    n.flattened.field name = (n.field name).flattened := by
  have hget : ∀ fields : Record Value,
      (Record.get? (flattenedFields fields) name).getD .null =
        ((Record.get? fields name).getD .null).flattened := by
    intro fields
    induction fields with
    | nil => rfl
    | cons entry rest ih =>
        by_cases hname : entry.1 = name
        · simp [flattenedFields, Record.get?, hname]
        · simp [flattenedFields, Record.get?, hname, ih]
  cases n
  exact hget _

/-- A namespace holds a list of statements or nothing, that is, a value that counts as false. -/
def HoldsStatements (n : Node) : Prop :=
  n.kind = .statement .namespaceDecl → (n.field "stmts").isListOrNothing = true

instance (n : Node) : Decidable n.HoldsStatements :=
  inferInstanceAs (Decidable (_ → _))

end Node

/-- No node that is visited in a place of its own gives way. -/
def StaysWhole (nodes : List Node) : Prop :=
  ∀ n ∈ nodes, ¬ n.kind.GivesWay

@[simp] theorem staysWhole_append {nodes others : List Node} :
    StaysWhole (nodes ++ others) ↔ StaysWhole nodes ∧ StaysWhole others :=
  List.forall_mem_append

mutual

@[simp] theorem Node.flattened_of_staysWhole :
    ∀ n : Node, StaysWhole (nodesInFields n.fields) → n.flattened = n
  | ⟨_, _, fields, _⟩, h => by
      rw [Node.flattened, flattenedFields_of_staysWhole fields h]

@[simp] theorem Value.flattened_of_staysWhole :
    ∀ value : Value, StaysWhole value.nodes → value.flattened = value
  | .list items, h => by
      rw [Value.flattened, flattenedItems_of_staysWhole items h]
  | .node n, h => by
      have hfields : StaysWhole (nodesInFields n.fields) := fun m hm =>
        h m (Node.mem_nodes.mpr (.inr (mem_nodesInFields.mp hm)))
      rw [Value.flattened, n.flattened_of_staysWhole hfields]
  | .scalar _, _ => rfl
  | .obj _, _ => rfl
  | .pair _ _, _ => rfl

@[simp] theorem flattenedItems_of_staysWhole :
    ∀ items : List Value, StaysWhole (nodesIn items) → flattenedItems items = items
  | [], _ => rfl
  | .node n :: rest, h => by
      obtain ⟨hn, hrest⟩ := staysWhole_append.mp h
      have hfields : StaysWhole (nodesInFields n.fields) := fun m hm =>
        hn m (Node.mem_nodes.mpr (.inr (mem_nodesInFields.mp hm)))
      rw [flattenedItems, flattenedItems_of_staysWhole rest hrest,
        n.flattened_of_staysWhole hfields, Node.inPlace_of_not_givesWay (hn n n.self_mem_nodes)]
      rfl
  | .list _ :: rest, h | .scalar _ :: rest, h | .obj _ :: rest, h | .pair _ _ :: rest, h => by
      simp only [flattenedItems]
      rw [flattenedItems_of_staysWhole rest (staysWhole_append.mp h).2]

@[simp] theorem flattenedFields_of_staysWhole :
    ∀ fields : List (String × Value), StaysWhole (nodesInFields fields) →
      flattenedFields fields = fields
  | [], _ => rfl
  | (_, value) :: rest, h => by
      obtain ⟨hvalue, hrest⟩ := staysWhole_append.mp h
      rw [flattenedFields, value.flattened_of_staysWhole hvalue,
        flattenedFields_of_staysWhole rest hrest]

end

@[simp] theorem Value.flattened_of_nodes_eq_nil {value : Value} (h : value.nodes = []) :
    value.flattened = value :=
  value.flattened_of_staysWhole (by rw [h]; exact fun _ hn => absurd hn List.not_mem_nil)

@[simp] theorem Value.itemsOrNone_list (items : List Value) :
    (Value.list items).itemsOrNone = .ok items := by
  cases items <;> rfl

private theorem Value.flattened_of_not_truthy {value : Value} (h : value.truthy = false) :
    value.flattened = value ∧ value.statements = [] := by
  cases value with
  | list items =>
      rw [Value.truthy, Bool.not_eq_false', List.isEmpty_iff] at h
      subst h
      exact ⟨rfl, rfl⟩
  | node n => cases h
  | pair name value => cases h
  | scalar value => exact ⟨rfl, rfl⟩
  | obj fields => exact ⟨rfl, rfl⟩

mutual

private theorem Node.inPlace_flattened : ∀ n : Node, n.isOpen = true →
    (∀ m ∈ n.nodes, m.HoldsStatements) → n.flattened.inPlace = n.statements.map Value.flattened
  | ⟨kind, attributes, fields, generated⟩, hopen, hholds => by
      have hlists := flattenedItems_of_field fields hopen fun m hm =>
        hholds m (Node.mem_nodes.mpr (.inr (mem_nodesInFields.mp hm)))
      generalize hn : (⟨kind, attributes, fields, generated⟩ : Node) = n at hholds
      have hfields : fields = n.fields := by rw [← hn]
      by_cases huse : n.kind = .statement .useDecl
      · have hkind : n.flattened.kind = .statement .useDecl := n.kind_flattened.trans huse
        rw [Node.inPlace_of_useDecl hkind, Node.statements_of_useDecl huse]
        rfl
      by_cases hnamespace : n.kind = .statement .namespaceDecl
      · have hkind : n.flattened.kind = .statement .namespaceDecl :=
          n.kind_flattened.trans hnamespace
        rw [Node.inPlace_of_namespaceDecl hkind, Node.statements_of_namespaceDecl hnamespace,
          Node.fieldItems, n.field_flattened]
        have hstmts := Value.isListOrNothing_iff.mp (hholds n n.self_mem_nodes hnamespace)
        rcases hstmts with ⟨items, hitems⟩ | hnothing
        · obtain ⟨entry, hentry, hlist⟩ := Node.exists_of_field hitems nofun
          rw [hitems, Value.flattened, Value.itemsOrNone_list, Value.statements,
            ← hlists entry (hfields ▸ hentry) items hlist]
          rfl
        · obtain ⟨hsame, hnone⟩ := Value.flattened_of_not_truthy hnothing
          rw [hsame, hnone, Value.itemsOrNone, hnothing]
          rfl
      · have hstays : ¬ n.kind.GivesWay := not_or.mpr ⟨hnamespace, huse⟩
        have hkind : ¬ n.flattened.kind.GivesWay := by rwa [n.kind_flattened]
        rw [Node.inPlace_of_not_givesWay hkind, Node.statements_of_not_givesWay hstays]
        rfl

theorem flattenedItems_eq_map : ∀ items : List Value, itemsOpen items = true →
    (∀ m ∈ nodesIn items, m.HoldsStatements) →
      flattenedItems items = (statementsIn items).map Value.flattened
  | [], _, _ => rfl
  | .node n :: rest, hopen, hholds => by
      rw [itemsOpen, Bool.and_eq_true] at hopen
      obtain ⟨hn, hrest⟩ := List.forall_mem_append.mp hholds
      rw [flattenedItems, statementsIn, List.map_append, n.inPlace_flattened hopen.1 hn,
        flattenedItems_eq_map rest hopen.2 hrest]
  | .list items :: rest, hopen, hholds => by
      simp only [itemsOpen, Bool.and_eq_true, Bool.not_eq_true', Value.hasNode_eq_false_iff] at hopen
      rw [flattenedItems, statementsIn, List.map_cons, Value.flattened_of_nodes_eq_nil hopen.1,
        flattenedItems_eq_map rest hopen.2 (List.forall_mem_append.mp hholds).2]
      all_goals simp
  | .scalar _ :: rest, hopen, hholds | .obj _ :: rest, hopen, hholds
  | .pair _ _ :: rest, hopen, hholds => by
      simp only [itemsOpen, Bool.and_eq_true, Bool.not_eq_true', Value.hasNode_eq_false_iff] at hopen
      simp only [flattenedItems, statementsIn, List.map_cons, Value.flattened]
      rw [flattenedItems_eq_map rest hopen.2 (List.forall_mem_append.mp hholds).2]

private theorem flattenedItems_of_field : ∀ fields : List (String × Value), fieldsOpen fields =
    true →
    (∀ m ∈ nodesInFields fields, m.HoldsStatements) → ∀ entry ∈ fields, ∀ items : List Value,
      entry.2 = .list items → flattenedItems items = (statementsIn items).map Value.flattened
  | [], _, _, _, hentry, _, _ => absurd hentry List.not_mem_nil
  | (_, value) :: rest, hopen, hholds, entry, hentry, items, hitems => by
      rw [fieldsOpen, Bool.and_eq_true] at hopen
      obtain ⟨hvalue, hrest⟩ := List.forall_mem_append.mp hholds
      rcases List.mem_cons.mp hentry with rfl | hentry
      · cases value with
        | list others =>
            cases hitems
            exact flattenedItems_eq_map items hopen.1 hvalue
        | _ => cases hitems
      · exact flattenedItems_of_field rest hopen.2 hrest entry hentry items hitems

end

end ScriptSandbox
