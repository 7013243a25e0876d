import Mathlib.Data.List.Forall2
import ScriptSandbox.Proofs.Tree.Flattened
import ScriptSandbox.Proofs.Walk.Results

/-!
# Walks that flatten

Let a visitor splice the statements of each namespace into the list that holds it, remove
each import, and give every other node one result.  A walk that returns then keeps the order
of the statements at every depth: each list comes out as the results of its statements, one
for each and in their order.  It does not return where a field holds a namespace or an import
by itself.
-/

namespace ScriptSandbox

variable {Stays : Node → Node → Prop}

def Flattens (Stays : Node → Node → Prop) (n : Node) : Verdict → Prop
  | .keep => ¬ n.kind.GivesWay ∧ Stays n n
  | .replace placed => ¬ n.kind.GivesWay ∧ Stays n placed
  | .remove => n.kind = .statement .useDecl
  | .splice items => n.kind = .statement .namespaceDecl ∧ n.fieldItems "stmts" = .ok items
  | .other _ => False

theorem Flattens.of_held? {n placed : Node} {verdict : Verdict} (h : Flattens Stays n verdict)
    (hplaced : verdict.held? n = some placed) : ¬ n.kind.GivesWay ∧ Stays n placed := by
  cases verdict with
  | keep =>
      cases hplaced
      exact h
  | replace other =>
      cases hplaced
      exact h
  | _ => cases hplaced

theorem Flattens.of_listed? {n : Node} {placed : List Value} {verdict : Verdict}
    (h : Flattens Stays n verdict) (hplaced : verdict.listed? n = some placed) :
    (¬ n.kind.GivesWay ∧ ∃ result, placed = [.node result] ∧ Stays n result) ∨
      (n.kind = .statement .useDecl ∧ placed = []) ∨
      (n.kind = .statement .namespaceDecl ∧ n.fieldItems "stmts" = .ok placed) := by
  cases verdict with
  | keep =>
      cases hplaced
      exact .inl ⟨h.1, n, rfl, h.2⟩
  | replace result =>
      cases hplaced
      exact .inl ⟨h.1, result, rfl, h.2⟩
  | remove =>
      cases hplaced
      exact .inr (.inl ⟨h, rfl⟩)
  | splice items =>
      cases hplaced
      exact .inr (.inr h)
  | other value => cases hplaced

/-! ## Where a node cannot give way -/

/-- A field holds a namespace or an import by itself. -/
def Node.Traps (n : Node) : Prop :=
  ∃ entry ∈ n.fields, ∃ held, entry.2 = .node held ∧ held.kind.GivesWay

/-- The value is a namespace or an import. -/
def Value.GivesWay (value : Value) : Prop :=
  ∃ n, value = .node n ∧ n.kind.GivesWay

mutual

theorem Node.Walked.not_traps : ∀ {n m : Node}, n.Walked (Flattens Stays) m →
    ∀ k ∈ n.visited, ¬ k.Traps
  | _, _, .mk hfields => by
      obtain ⟨hinside, hheld⟩ := hfields.not_traps
      rw [Node.visited]
      refine List.forall_mem_append.mpr ⟨hinside, List.forall_mem_singleton.mpr ?_⟩
      rintro ⟨entry, hentry, held, hvalue, hkind⟩
      exact hheld entry hentry ⟨held, hvalue, hkind⟩

theorem FieldsWalked.not_traps : ∀ {fields walked : Record Value},
    FieldsWalked (Flattens Stays) fields walked →
      (∀ k ∈ visitedInFields fields, ¬ k.Traps) ∧ ∀ entry ∈ fields, ¬ entry.2.GivesWay
  | _, _, .nil => ⟨by simp [visitedInFields], by simp⟩
  | _, _, .cons hvalue hrest => by
      obtain ⟨hinside, hheld⟩ := hvalue.not_traps
      obtain ⟨hothers, hfields⟩ := hrest.not_traps
      rw [visitedInFields]
      exact ⟨List.forall_mem_append.mpr ⟨hinside, hothers⟩,
        List.forall_mem_cons.mpr ⟨hheld, hfields⟩⟩

theorem Value.Walked.not_traps : ∀ {value walked : Value},
    value.Walked (Flattens Stays) walked →
      (∀ k ∈ value.visited, ¬ k.Traps) ∧ ¬ value.GivesWay
  | _, _, .list hitems => ⟨hitems.not_traps, nofun⟩
  | _, _, .node hinside hverdict hplaced => by
      refine ⟨hinside.not_traps, ?_⟩
      rintro ⟨n, hn, hkind⟩
      cases hn
      rw [← hinside.same.1] at hkind
      exact (hverdict.of_held? hplaced).1 hkind
  | _, _, .scalar _ => ⟨by simp [Value.visited], nofun⟩
  | _, _, .obj _ => ⟨by simp [Value.visited], nofun⟩
  | _, _, .pair _ _ => ⟨by simp [Value.visited], nofun⟩

theorem ItemsWalked.not_traps : ∀ {items walked : List Value},
    ItemsWalked (Flattens Stays) items walked → ∀ k ∈ visitedIn items, ¬ k.Traps
  | _, _, .nil => by simp [visitedIn]
  | _, _, .node hinside _ _ hrest => by
      rw [visitedIn]
      exact List.forall_mem_append.mpr ⟨hinside.not_traps, hrest.not_traps⟩
  | item :: _, _, .passed hitem hrest => by
      cases item with
      | node n => cases hitem
      | _ => exact hrest.not_traps

end

/-! ## Visitors that change nothing else -/

mutual

theorem Node.Walked.eq_flattened : ∀ {n m : Node},
    n.Walked (Flattens fun n result => result = n) m → m = n.flattened
  | _, _, .mk hfields => by rw [Node.flattened, hfields.eq_flattened]

theorem FieldsWalked.eq_flattened : ∀ {fields walked : Record Value},
    FieldsWalked (Flattens fun n result => result = n) fields walked →
      walked = flattenedFields fields
  | _, _, .nil => rfl
  | _, _, .cons hvalue hrest => by
      rw [flattenedFields, hvalue.eq_flattened, hrest.eq_flattened]

theorem Value.Walked.eq_flattened : ∀ {value walked : Value},
    value.Walked (Flattens fun n result => result = n) walked → walked = value.flattened
  | _, _, .list hitems => by rw [Value.flattened, hitems.eq_flattened]
  | _, _, .node hinside hverdict hplaced => by
      rw [Value.flattened, (hverdict.of_held? hplaced).2, hinside.eq_flattened]
  | _, _, .scalar _ => rfl
  | _, _, .obj _ => rfl
  | _, _, .pair _ _ => rfl

theorem ItemsWalked.eq_flattened : ∀ {items walked : List Value},
    ItemsWalked (Flattens fun n result => result = n) items walked →
      walked = flattenedItems items
  | _, _, .nil => rfl
  | _, _, .node hinside hverdict hplaced hrest => by
      rw [flattenedItems, ← hinside.eq_flattened, ← hrest.eq_flattened]
      refine congrArg (· ++ _) ?_
      rcases hverdict.of_listed? hplaced with
        ⟨hstays, result, rfl, rfl⟩ | ⟨huse, rfl⟩ | ⟨hnamespace, hitems⟩
      · rw [Node.inPlace_of_not_givesWay hstays]
      · rw [Node.inPlace_of_useDecl huse]
      · rw [Node.inPlace_of_namespaceDecl hnamespace, hitems]
        rfl
  | item :: _, _, .passed hitem hrest => by
      cases item with
      | node n => cases hitem
      | _ => simp only [flattenedItems, hrest.eq_flattened]

end

/-! ## One result for each statement -/

mutual

inductive Node.Becomes (Stays : Node → Node → Prop) : Node → Node → Prop where
  | mk {kind : Kind} {attributes : Record Json} {fields walked : Record Value} {generated : Bool}
      {result : Node} (hfields : FieldsBecome Stays fields walked)
      (hstays : Stays ⟨kind, attributes, walked, generated⟩ result) :
      Node.Becomes Stays ⟨kind, attributes, fields, generated⟩ result

inductive FieldsBecome (Stays : Node → Node → Prop) : Record Value → Record Value → Prop where
  | nil : FieldsBecome Stays [] []
  | cons {name : String} {value other : Value} {rest others : Record Value}
      (hvalue : Value.Becomes Stays value other) (hrest : FieldsBecome Stays rest others) :
      FieldsBecome Stays ((name, value) :: rest) ((name, other) :: others)

inductive Value.Becomes (Stays : Node → Node → Prop) : Value → Value → Prop where
  | list {items results : List Value} (h : StatementsBecome Stays (statementsIn items) results) :
      Value.Becomes Stays (.list items) (.list results)
  | node {n result : Node} (h : Node.Becomes Stays n result) :
      Value.Becomes Stays (.node n) (.node result)
  | scalar (value : Scalar) : Value.Becomes Stays (.scalar value) (.scalar value)
  | obj (fields : Record Json) : Value.Becomes Stays (.obj fields) (.obj fields)
  | pair (name : String) (value : Value) :
      Value.Becomes Stays (.pair name value) (.pair name value)

/-- One result for each statement, in the order of the statements. -/
inductive StatementsBecome (Stays : Node → Node → Prop) : List Value → List Value → Prop where
  | nil : StatementsBecome Stays [] []
  | cons {statement result : Value} {rest results : List Value}
      (hstatement : Value.Becomes Stays statement result)
      (hrest : StatementsBecome Stays rest results) :
      StatementsBecome Stays (statement :: rest) (result :: results)

end

private theorem statementsBecome_iff_forall₂ {statements results : List Value} :
    StatementsBecome Stays statements results ↔
      List.Forall₂ (Value.Becomes Stays) statements results := by
  constructor
  · intro h
    induction statements generalizing results with
    | nil =>
        cases h
        exact .nil
    | cons statement rest ih =>
        cases h with
        | cons hstatement hrest => exact .cons hstatement (ih hrest)
  · intro h
    induction h with
    | nil => exact .nil
    | cons hstatement _ ih => exact .cons hstatement ih

theorem StatementsBecome.append {statements results others more : List Value}
    (h : StatementsBecome Stays statements results) (h' : StatementsBecome Stays others more) :
    StatementsBecome Stays (statements ++ others) (results ++ more) := by
  rw [statementsBecome_iff_forall₂] at *
  exact List.rel_append h h'

theorem FieldsBecome.field {fields walked : Record Value} (h : FieldsBecome Stays fields walked)
    (name : String) :
    ((Record.get? fields name).getD .null).Becomes Stays
      ((Record.get? walked name).getD .null) := by
  induction fields generalizing walked with
  | nil =>
      cases h
      exact .scalar _
  | cons entry rest ih =>
      cases h with
      | cons hvalue hrest =>
          simp only [Record.get?]
          split
          · exact hvalue
          · exact ih hrest

theorem Value.Becomes.statements {value walked : Value} {items : List Value}
    (h : value.Becomes Stays walked)
    (hholds : value.isListOrNothing = true)
    (hitems : walked.itemsOrNone = .ok items) :
    StatementsBecome Stays value.statements items := by
  cases h with
  | list hstatements =>
      rw [Value.itemsOrNone_list] at hitems
      cases hitems
      exact hstatements
  | node => cases hholds
  | pair => cases hholds
  | scalar value =>
      have hnothing : (Value.scalar value).truthy = false := by simpa [Value.isListOrNothing] using hholds
      rw [Value.itemsOrNone, hnothing] at hitems
      cases hitems
      exact .nil
  | obj fields =>
      have hnothing : (Value.obj fields).truthy = false := by simpa [Value.isListOrNothing] using hholds
      rw [Value.itemsOrNone, hnothing] at hitems
      cases hitems
      exact .nil

-- A value without nodes has no statements that could give way.
mutual

private theorem Value.becomes_of_nodes_eq_nil : ∀ value : Value, value.nodes = [] →
    value.Becomes Stays value
  | .list items, h => .list (statementsBecome_of_nodes_eq_nil items h)
  | .node n, h => absurd h n.nodes_ne_nil
  | .scalar value, _ => .scalar value
  | .obj fields, _ => .obj fields
  | .pair name value, _ => .pair name value

private theorem statementsBecome_of_nodes_eq_nil : ∀ items : List Value, nodesIn items = [] →
    StatementsBecome Stays (statementsIn items) items
  | [], _ => .nil
  | .node n :: _, h => absurd (List.append_eq_nil_iff.mp h).1 n.nodes_ne_nil
  | .list items :: rest, h => by
      obtain ⟨hitem, hrest⟩ := List.append_eq_nil_iff.mp h
      exact .cons (Value.becomes_of_nodes_eq_nil (.list items) hitem)
        (statementsBecome_of_nodes_eq_nil rest hrest)
  | .scalar value :: rest, h => .cons (.scalar value) (statementsBecome_of_nodes_eq_nil rest h)
  | .obj fields :: rest, h => .cons (.obj fields) (statementsBecome_of_nodes_eq_nil rest h)
  | .pair name value :: rest, h =>
      .cons (.pair name value)
        (statementsBecome_of_nodes_eq_nil rest (List.append_eq_nil_iff.mp h).2)

end

mutual

theorem Node.Walked.becomes : ∀ {n inner : Node}, n.Walked (Flattens Stays) inner →
    n.isOpen = true → (∀ m ∈ nodesInFields n.fields, m.HoldsStatements) →
      FieldsBecome Stays n.fields inner.fields
  | _, _, .mk hfields, hopen, hholds => hfields.becomes hopen hholds

theorem FieldsWalked.becomes : ∀ {fields walked : Record Value},
    FieldsWalked (Flattens Stays) fields walked → fieldsOpen fields = true →
      (∀ m ∈ nodesInFields fields, m.HoldsStatements) → FieldsBecome Stays fields walked
  | _, _, .nil, _, _ => .nil
  | _, _, .cons hvalue hrest, hopen, hholds => by
      rw [fieldsOpen, Bool.and_eq_true] at hopen
      obtain ⟨hfirst, hothers⟩ := List.forall_mem_append.mp hholds
      exact .cons (hvalue.becomes hopen.1 hfirst) (hrest.becomes hopen.2 hothers)

theorem Value.Walked.becomes : ∀ {value walked : Value},
    value.Walked (Flattens Stays) walked → value.isOpen = true →
      (∀ m ∈ value.nodes, m.HoldsStatements) → value.Becomes Stays walked
  | _, _, .list hitems, hopen, hholds => .list (hitems.becomes hopen hholds)
  | _, _, .node hinside hverdict hplaced, hopen, hholds => by
      obtain ⟨_, hstays⟩ := hverdict.of_held? hplaced
      have hfields := hinside.becomes hopen fun m hm =>
        hholds m (Node.mem_nodes.mpr (.inr (mem_nodesInFields.mp hm)))
      cases hinside
      exact .node (.mk hfields hstays)
  | _, _, .scalar value, _, _ => .scalar value
  | _, _, .obj fields, _, _ => .obj fields
  | _, _, .pair name value, _, _ => .pair name value

theorem ItemsWalked.becomes : ∀ {items walked : List Value},
    ItemsWalked (Flattens Stays) items walked → itemsOpen items = true →
      (∀ m ∈ nodesIn items, m.HoldsStatements) →
        StatementsBecome Stays (statementsIn items) walked
  | _, _, .nil, _, _ => .nil
  | .node n :: _, _, .node hinside hverdict hplaced hrest, hopen, hholds => by
      rw [itemsOpen, Bool.and_eq_true] at hopen
      obtain ⟨hfirst, hothers⟩ := List.forall_mem_append.mp hholds
      have hfields := hinside.becomes hopen.1 fun m hm =>
        hfirst m (Node.mem_nodes.mpr (.inr (mem_nodesInFields.mp hm)))
      refine StatementsBecome.append ?_ (hrest.becomes hopen.2 hothers)
      have hkind := hinside.same.1
      rcases hverdict.of_listed? hplaced with
        ⟨hstays, result, rfl, hresult⟩ | ⟨huse, rfl⟩ | ⟨hnamespace, hitems⟩
      · rw [hkind] at hstays
        rw [Node.statements_of_not_givesWay hstays]
        cases hinside
        exact .cons (.node (.mk hfields hresult)) .nil
      · rw [hkind] at huse
        rw [Node.statements_of_useDecl huse]
        exact .nil
      · rw [hkind] at hnamespace
        rw [Node.statements_of_namespaceDecl hnamespace]
        exact (hfields.field "stmts").statements (hfirst n n.self_mem_nodes hnamespace) hitems
  | item :: _, _, .passed hitem hrest, hopen, hholds => by
      cases item with
      | node n => cases hitem
      | _ =>
          simp only [itemsOpen, Bool.and_eq_true, Bool.not_eq_true',
            Value.hasNode_eq_false_iff] at hopen
          exact .cons (Value.becomes_of_nodes_eq_nil _ hopen.1)
            (hrest.becomes hopen.2 (List.forall_mem_append.mp hholds).2)

end

end ScriptSandbox
