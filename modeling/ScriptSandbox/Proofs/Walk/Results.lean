import ScriptSandbox.Proofs.Walk.Coverage
import ScriptSandbox.Proofs.Walk.Placement

/-!
# What a walk makes of a tree

A walk that returns has got a verdict for every node it was offered, and what it returns is
put together from these verdicts.  `ItemsWalked J` relates a list to what a walk can make of
it if all verdicts are as `J` says, and `Node.Walked J`, `FieldsWalked J` and `Value.Walked J`
do the same for what is inside a node, for its fields and for what they hold.
-/

namespace ScriptSandbox

variable {σ ε : Type}

namespace Verdict

def held? (n : Node) : Verdict → Option Node
  | .keep => some n
  | .replace placed => some placed
  | _ => none

def listed? (n : Node) : Verdict → Option (List Value)
  | .keep => some [.node n]
  | .replace placed => some [.node placed]
  | .remove => some []
  | .splice items => some items
  | .other _ => none

variable {G : Value → Prop} {n : Node} {verdict : Verdict}

theorem Places.held? (h : verdict.Places G n) {placed : Node}
    (hplaced : verdict.held? n = some placed) : G (.node placed) := by
  cases verdict with
  | keep =>
      cases hplaced
      exact h
  | replace result =>
      cases hplaced
      exact h
  | _ => cases hplaced

theorem Places.listed? (h : verdict.Places G n) {placed : List Value}
    (hplaced : verdict.listed? n = some placed) : ∀ item ∈ placed, G item := by
  cases verdict with
  | keep =>
      cases hplaced
      exact List.forall_mem_singleton.mpr h
  | replace result =>
      cases hplaced
      exact List.forall_mem_singleton.mpr h
  | remove =>
      cases hplaced
      exact List.forall_mem_nil _
  | splice items =>
      cases hplaced
      exact h
  | other value => cases hplaced

end Verdict

mutual

/-- What a walk makes of a node before the node itself is offered. -/
inductive Node.Walked (J : Node → Verdict → Prop) : Node → Node → Prop where
  | mk {kind : Kind} {attributes : Record Json} {fields walked : Record Value} {generated : Bool}
      (hfields : FieldsWalked J fields walked) :
      Node.Walked J ⟨kind, attributes, fields, generated⟩ ⟨kind, attributes, walked, generated⟩

inductive FieldsWalked (J : Node → Verdict → Prop) : Record Value → Record Value → Prop where
  | nil : FieldsWalked J [] []
  | cons {name : String} {value other : Value} {rest others : Record Value}
      (hvalue : Value.Walked J value other) (hrest : FieldsWalked J rest others) :
      FieldsWalked J ((name, value) :: rest) ((name, other) :: others)

/-- What a walk makes of a value that a field holds. -/
inductive Value.Walked (J : Node → Verdict → Prop) : Value → Value → Prop where
  | list {items walked : List Value} (hitems : ItemsWalked J items walked) :
      Value.Walked J (.list items) (.list walked)
  | node {n inner placed : Node} {verdict : Verdict} (hinside : Node.Walked J n inner)
      (hverdict : J inner verdict) (hplaced : verdict.held? inner = some placed) :
      Value.Walked J (.node n) (.node placed)
  | scalar (value : Scalar) : Value.Walked J (.scalar value) (.scalar value)
  | obj (fields : Record Json) : Value.Walked J (.obj fields) (.obj fields)
  | pair (name : String) (value : Value) : Value.Walked J (.pair name value) (.pair name value)

inductive ItemsWalked (J : Node → Verdict → Prop) : List Value → List Value → Prop where
  | nil : ItemsWalked J [] []
  | node {n inner : Node} {verdict : Verdict} {placed rest others : List Value}
      (hinside : Node.Walked J n inner) (hverdict : J inner verdict)
      (hplaced : verdict.listed? inner = some placed) (hrest : ItemsWalked J rest others) :
      ItemsWalked J (.node n :: rest) (placed ++ others)
  | passed {item : Value} {rest others : List Value} (hitem : item.node? = none)
      (hrest : ItemsWalked J rest others) : ItemsWalked J (item :: rest) (item :: others)

end

theorem Node.Walked.same {J : Node → Verdict → Prop} {n m : Node} (h : n.Walked J m) :
    m.kind = n.kind ∧ m.generated = n.generated := by
  cases h
  exact ⟨rfl, rfl⟩

/-! ## What is the same after the walk -/

section

variable {J : Node → Verdict → Prop}

theorem FieldsWalked.field {fields walked : Record Value} (h : FieldsWalked J fields walked)
    (name : String) : Value.Walked J ((Record.get? fields name).getD .null)
      ((Record.get? walked name).getD .null) := by
  induction fields generalizing walked with
  | nil =>
      cases h
      exact .scalar .null
  | cons entry rest ih =>
      cases h with
      | cons hvalue hrest =>
          simp only [Record.get?]
          split
          · exact hvalue
          · exact ih hrest

theorem Node.Walked.field {n m : Node} (h : n.Walked J m) (name : String) :
    (n.field name).Walked J (m.field name) := by
  cases h with
  | mk hfields => exact hfields.field name

theorem Value.Walked.eq_scalar_iff {value walked : Value} (h : value.Walked J walked)
    {scalar : Scalar} : walked = .scalar scalar ↔ value = .scalar scalar := by
  cases h <;> simp

theorem Node.Walked.sameOutline {n m : Node} (h : n.Walked J m) : Walk.SameOutline n m where
  kind := h.same.1
  attributes := by
    cases h
    rfl
  generated := h.same.2
  scalar name _ := (h.field name).eq_scalar_iff

mutual

theorem Value.Walked.eq_of_nodes_eq_nil : ∀ {value walked : Value}, value.Walked J walked →
    value.nodes = [] → walked = value
  | _, _, .list hitems, h => by rw [hitems.eq_of_nodes_eq_nil h]
  | .node n, _, .node _ _ _, h => absurd h n.nodes_ne_nil
  | _, _, .scalar _, _ => rfl
  | _, _, .obj _, _ => rfl
  | _, _, .pair _ _, _ => rfl

theorem ItemsWalked.eq_of_nodes_eq_nil : ∀ {items walked : List Value},
    ItemsWalked J items walked → nodesIn items = [] → walked = items
  | _, _, .nil, _ => rfl
  | .node n :: _, _, .node _ _ _ _, h => absurd (List.append_eq_nil_iff.mp h).1 n.nodes_ne_nil
  | _ :: _, _, .passed _ hrest, h => by
      rw [hrest.eq_of_nodes_eq_nil (List.append_eq_nil_iff.mp h).2]

end

theorem FieldsWalked.eq_of_nodes_eq_nil : ∀ {fields walked : Record Value},
    FieldsWalked J fields walked → nodesInFields fields = [] → walked = fields
  | _, _, .nil, _ => rfl
  | _, _, .cons hvalue hrest, h => by
      rw [nodesInFields, List.append_eq_nil_iff] at h
      rw [hvalue.eq_of_nodes_eq_nil h.1, hrest.eq_of_nodes_eq_nil h.2]

end

section

variable {J K : Node → Verdict → Prop}

mutual

theorem Node.Walked.mono (hJK : ∀ n verdict, J n verdict → K n verdict) :
    ∀ {n m : Node}, n.Walked J m → n.Walked K m
  | _, _, .mk hfields => .mk (hfields.mono hJK)

theorem FieldsWalked.mono (hJK : ∀ n verdict, J n verdict → K n verdict) :
    ∀ {fields walked : Record Value}, FieldsWalked J fields walked → FieldsWalked K fields walked
  | _, _, .nil => .nil
  | _, _, .cons hvalue hrest => .cons (hvalue.mono hJK) (hrest.mono hJK)

theorem Value.Walked.mono (hJK : ∀ n verdict, J n verdict → K n verdict) :
    ∀ {value walked : Value}, value.Walked J walked → value.Walked K walked
  | _, _, .list hitems => .list (hitems.mono hJK)
  | _, _, .node hinside hverdict hplaced =>
      .node (hinside.mono hJK) (hJK _ _ hverdict) hplaced
  | _, _, .scalar value => .scalar value
  | _, _, .obj fields => .obj fields
  | _, _, .pair name value => .pair name value

theorem ItemsWalked.mono (hJK : ∀ n verdict, J n verdict → K n verdict) :
    ∀ {items walked : List Value}, ItemsWalked J items walked → ItemsWalked K items walked
  | _, _, .nil => .nil
  | _, _, .node hinside hverdict hplaced hrest =>
      .node (hinside.mono hJK) (hJK _ _ hverdict) hplaced (hrest.mono hJK)
  | _, _, .passed hitem hrest => .passed hitem (hrest.mono hJK)

end

end

/-! ## What has a verdict -/

def Node.Decided (J : Node → Verdict → Prop) (n : Node) : Prop :=
  ∃ inner verdict, n.Walked J inner ∧ J inner verdict

section

variable {J : Node → Verdict → Prop}

mutual

theorem Node.Walked.decided :
    ∀ {n m : Node}, n.Walked J m → ∀ source ∈ visitedInFields n.fields, source.Decided J
  | _, _, .mk hfields => hfields.decided

theorem FieldsWalked.decided : ∀ {fields walked : Record Value},
    FieldsWalked J fields walked → ∀ source ∈ visitedInFields fields, source.Decided J
  | _, _, .nil => by simp [visitedInFields]
  | _, _, .cons hvalue hrest => List.forall_mem_append.mpr ⟨hvalue.decided, hrest.decided⟩

theorem Value.Walked.decided : ∀ {value walked : Value},
    value.Walked J walked → ∀ source ∈ value.visited, source.Decided J
  | _, _, .list hitems => hitems.decided
  | _, _, .node hinside hverdict _ =>
      Node.forall_mem_visited.mpr ⟨⟨_, _, hinside, hverdict⟩, hinside.decided⟩
  | _, _, .scalar _ => by simp [Value.visited]
  | _, _, .obj _ => by simp [Value.visited]
  | _, _, .pair _ _ => by simp [Value.visited]

theorem ItemsWalked.decided : ∀ {items walked : List Value},
    ItemsWalked J items walked → ∀ source ∈ visitedIn items, source.Decided J
  | _, _, .nil => by simp [visitedIn]
  | _, _, .node hinside hverdict _ hrest => by
      refine List.forall_mem_append.mpr ⟨?_, hrest.decided⟩
      exact Node.forall_mem_visited.mpr ⟨⟨_, _, hinside, hverdict⟩, hinside.decided⟩
  | item :: _, _, .passed hitem hrest => by
      cases item with
      | node n => cases hitem
      | _ => exact hrest.decided

end

end

namespace Walk

def Answers (visitor : Visitor σ ε) (I : σ → Prop) (J : Node → Verdict → Prop)
    (Source : Node → Prop) : Prop :=
  ∀ source n, Source source → n.kind = source.kind → n.generated = source.generated →
    Run.Yields I (visitor.leave n) (J n)

variable {visitor : Visitor σ ε} {I : σ → Prop} {J : Node → Verdict → Prop} {Source : Node → Prop}

private theorem offerHeld_walks {n : Node} (h : Run.Yields I (visitor.leave n) (J n))
    (parent : Kind)
    (field : String) :
    Run.Yields I (offerHeld parent field [visitor] n)
      (fun placed => ∃ verdict, J n verdict ∧ verdict.held? n = some placed) := by
  rw [offerHeld]
  refine (h.adapt _).bind fun verdict hverdict => ?_
  cases verdict with
  | keep => exact Run.Yields.pure ⟨_, hverdict, rfl⟩
  | replace placed => exact Run.Yields.pure ⟨_, hverdict, rfl⟩
  | _ => exact Run.Yields.throw _

private theorem offerListed_walks {n : Node} (h : Run.Yields I (visitor.leave n) (J n)) :
    Run.Yields I (offerListed [visitor] n)
      (fun placed => ∃ verdict, J n verdict ∧ verdict.listed? n = some placed) := by
  rw [offerListed]
  refine (h.adapt _).bind fun verdict hverdict => ?_
  cases verdict with
  | other value => exact Run.Yields.throw _
  | _ => exact Run.Yields.pure ⟨_, hverdict, rfl⟩

-- The recursion is that of the walk.
mutual

theorem inside_walks (h : Answers visitor I J Source) :
    ∀ n : Node, (∀ m ∈ visitedInFields n.fields, Source m) →
      Run.Yields I (inside [visitor] n) (n.Walked J)
  | ⟨kind, _, fields, _⟩, hsource => by
      rw [inside]
      refine (walkFields_walks h kind fields hsource).bind fun _ hfields => ?_
      exact Run.Yields.pure (.mk hfields)

private theorem walkFields_walks (h : Answers visitor I J Source) (parent : Kind) :
    ∀ fields : List (String × Value), (∀ m ∈ visitedInFields fields, Source m) →
      Run.Yields I (walkFields [visitor] parent fields) (FieldsWalked J fields)
  | [], _ => Run.Yields.pure .nil
  | (name, value) :: rest, hsource => by
      obtain ⟨hfirst, hothers⟩ := List.forall_mem_append.mp hsource
      rw [walkFields]
      refine (walkField_walks h parent name value hfirst).bind fun _ hvalue => ?_
      refine (walkFields_walks h parent rest hothers).bind fun _ hrest => ?_
      exact Run.Yields.pure (.cons hvalue hrest)

private theorem walkField_walks (h : Answers visitor I J Source) (parent : Kind) (name : String) :
    ∀ value : Value, (∀ m ∈ value.visited, Source m) →
      Run.Yields I (walkField [visitor] parent name value) (value.Walked J)
  | .list items, hsource => by
      rw [walkField]
      exact (walkItems_walks h items hsource).bind fun _ hitems => Run.Yields.pure (.list hitems)
  | .node n, hsource => by
      obtain ⟨hself, hfields⟩ := Node.forall_mem_visited.mp hsource
      rw [walkField]
      refine (inside_walks h n hfields).bind fun inner hinside => ?_
      have hleave := h n inner hself hinside.same.1 hinside.same.2
      refine (offerHeld_walks hleave parent name).bind fun placed hplaced => ?_
      obtain ⟨verdict, hverdict, hplaced⟩ := hplaced
      exact Run.Yields.pure (.node hinside hverdict hplaced)
  | .scalar value, _ => Run.Yields.pure (.scalar value)
  | .obj fields, _ => Run.Yields.pure (.obj fields)
  | .pair name value, _ => Run.Yields.pure (.pair name value)

private theorem walkItems_walks (h : Answers visitor I J Source) :
    ∀ items : List Value, (∀ m ∈ visitedIn items, Source m) →
      Run.Yields I (walkItems [visitor] items) (ItemsWalked J items)
  | [], _ => Run.Yields.pure .nil
  | .node n :: rest, hsource => by
      obtain ⟨hn, hothers⟩ := List.forall_mem_append.mp hsource
      obtain ⟨hself, hfields⟩ := Node.forall_mem_visited.mp hn
      rw [walkItems]
      refine (inside_walks h n hfields).bind fun inner hinside => ?_
      have hleave := h n inner hself hinside.same.1 hinside.same.2
      refine (offerListed_walks hleave).bind fun placed hplaced => ?_
      obtain ⟨verdict, hverdict, hplaced⟩ := hplaced
      refine (walkItems_walks h rest hothers).bind fun others hrest => ?_
      exact Run.Yields.pure (.node hinside hverdict hplaced hrest)
  | .list _ :: rest, hsource | .scalar _ :: rest, hsource | .obj _ :: rest, hsource
  | .pair _ _ :: rest, hsource => by
      simp only [walkItems]
      refine (walkItems_walks h rest hsource).bind fun _ hrest => ?_
      exact Run.Yields.pure (.passed rfl hrest)

end

theorem tree_walks {nodes : Tree} (h : Answers visitor I J (· ∈ visitedIn nodes))
    (hbefore : visitor.before nodes = nodes)
    (hafter : ∀ walked, visitor.after walked = walked) :
    Run.Yields I (tree [visitor] nodes) (ItemsWalked J nodes) := by
  rw [tree]
  simp only [List.foldl_cons, List.foldl_nil, hbefore, hafter]
  exact (walkItems_walks h nodes fun _ hm => hm).bind fun _ hitems => Run.Yields.pure hitems

/-! ## Carrying out a verdict -/

section

variable {n inner : Node} {verdict : Verdict} {state mid after last : σ}

theorem exec_walkField_node {placed : Node} (parent : Kind) (name : String)
    (hinside : (inside [visitor] n).exec state = (.ok inner, mid))
    (hleave : (visitor.leave inner).exec mid = (.ok verdict, after))
    (hplaced : verdict.held? inner = some placed) :
    (walkField [visitor] parent name (.node n)).exec state = (.ok (.node placed), after) := by
  have hheld : (offerHeld parent name [visitor] inner).exec mid = (.ok placed, after) := by
    rw [offerHeld, Walk.verdict, Run.exec_bind, Run.exec_adapt, hleave]
    cases verdict with
    | keep | replace _ =>
        cases hplaced
        rfl
    | _ => cases hplaced
  rw [walkField, Run.exec_bind, hinside]
  change (offerHeld parent name [visitor] inner >>= _ : Run σ (WalkFailure ε) Value).exec mid = _
  rw [Run.exec_bind, hheld]
  rfl

theorem exec_walkItems_node {placed rest others : List Value}
    (hinside : (inside [visitor] n).exec state = (.ok inner, mid))
    (hleave : (visitor.leave inner).exec mid = (.ok verdict, after))
    (hplaced : verdict.listed? inner = some placed)
    (hrest : (walkItems [visitor] rest).exec after = (.ok others, last)) :
    (walkItems [visitor] (.node n :: rest)).exec state = (.ok (placed ++ others), last) := by
  have hlisted : (offerListed [visitor] inner).exec mid = (.ok placed, after) := by
    rw [offerListed, Walk.verdict, Run.exec_bind, Run.exec_adapt, hleave]
    cases verdict with
    | other value => cases hplaced
    | _ =>
        cases hplaced
        rfl
  rw [walkItems, Run.exec_bind, hinside]
  change (offerListed [visitor] inner >>= _ : Run σ (WalkFailure ε) (List Value)).exec mid = _
  rw [Run.exec_bind, hlisted]
  change (walkItems [visitor] rest >>= _ : Run σ (WalkFailure ε) (List Value)).exec after = _
  rw [Run.exec_bind, hrest]
  rfl

end

end Walk

end ScriptSandbox
