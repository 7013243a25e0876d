import Mathlib.Data.List.Forall2
import ScriptSandbox.Proofs.Tree.Nodes
import ScriptSandbox.Tree.Walk

/-!
# What a walk puts into a tree

The rule by which properties of walked trees are proved.  Let `G` be a property of
values that holds of every value without nodes, and let the visitor, offered a node
whose fields are settled, place only values with `G`.  Then a walk of an open tree
gives only values with `G`, and an invariant that the visitor keeps is kept.
-/

namespace ScriptSandbox

variable {σ ε : Type}

def Value.Settled (G : Value → Prop) : Value → Prop
  | .list items => ∀ item ∈ items, G item
  | .pair _ value => value.nodes = []
  | value => G value

def Node.Settled (G : Value → Prop) (n : Node) : Prop :=
  ∀ entry ∈ n.fields, entry.2.Settled G

theorem Value.Settled.of_item {G : Value → Prop} {value : Value} {items : List Value} {m : Node}
    (h : value.Settled G) (hitems : value.itemsOrNone = .ok items) (hitem : .node m ∈ items) :
    G (.node m) := by
  unfold Value.itemsOrNone at hitems
  split at hitems
  case isFalse =>
    cases hitems
    cases hitem
  -- The items of anything but a list are texts and pairs, or have no nodes in them.
  cases value with
  | list others =>
      cases hitems
      exact h (.node m) hitem
  | pair name second =>
      cases hitems
      rcases List.mem_cons.mp hitem with hitem | hitem
      · cases hitem
      rw [List.mem_singleton] at hitem
      subst hitem
      exact absurd h m.nodes_ne_nil
  | node parent =>
      cases hitems
      rcases List.mem_cons.mp hitem with hitem | hitem
      · cases hitem
      rcases List.mem_cons.mp hitem with hitem | hitem
      · cases hitem
      obtain ⟨entry, _, hentry⟩ := List.mem_map.mp hitem
      cases hentry
  | obj fields =>
      cases hitems
      obtain ⟨entry, _, hentry⟩ := List.mem_map.mp hitem
      cases hentry
  | scalar value =>
      cases value with
      | str text =>
          cases hitems
          obtain ⟨c, _, hc⟩ := List.mem_map.mp hitem
          cases hc
      | _ => cases hitems

theorem Value.Settled.each {P : Node → Prop} {value : Value} (h : value.Settled (Each P)) :
    value.Each P := by
  cases value with
  | list items => exact Value.each_list.mpr h
  | pair name value => exact Value.each_of_nodes_eq_nil h
  | _ => exact h

def Verdict.Places (G : Value → Prop) (n : Node) : Verdict → Prop
  | .keep => G (.node n)
  | .replace placed => G (.node placed)
  | .splice items => ∀ item ∈ items, G item
  | .remove => True
  | .other _ => True

namespace Walk

/-- What a walk can leave of a node before the node itself is offered. -/
def Leaves (visitor : Visitor σ ε) (I : σ → Prop) (source n : Node) : Prop :=
  ∃ before after, I before ∧ (inside [visitor] source).exec before = (.ok n, after)

variable {visitor : Visitor σ ε} {I : σ → Prop} {G : Value → Prop} {Source : Node → Prop}

/-! ## What a walk leaves of a node -/

/-- The nodes agree in all but the fields that hold more than scalars. -/
structure SameOutline (source n : Node) : Prop where
  kind : n.kind = source.kind
  attributes : n.attributes = source.attributes
  generated : n.generated = source.generated
  scalar : ∀ name scalar, n.field name = .scalar scalar ↔ source.field name = .scalar scalar

def SameScalar (source value : Value) : Prop :=
  ∀ scalar, value = .scalar scalar ↔ source = .scalar scalar

private theorem walkField_sameScalar (visitors : List (Visitor σ ε)) (parent : Kind) (name : String)
    (value : Value) :
    Run.Yields (fun _ => True) (walkField visitors parent name value) (SameScalar value) := by
  cases value with
  | list items =>
      rw [walkField]
      exact (Run.Yields.any _).bind fun walked _ => Run.Yields.pure fun scalar => by simp
  | node n =>
      rw [walkField]
      refine (Run.Yields.any _).bind fun walked _ => ?_
      exact (Run.Yields.any _).bind fun placed _ => Run.Yields.pure fun scalar => by simp
  | scalar value => exact Run.Yields.pure fun scalar => Iff.rfl
  | obj fields => exact Run.Yields.pure fun scalar => Iff.rfl
  | pair name value => exact Run.Yields.pure fun scalar => Iff.rfl

private theorem walkFields_pointwise {visitors : List (Visitor σ ε)} {parent : Kind}
    {R : Value → Value → Prop}
    (h : ∀ name value, Run.Yields I (walkField visitors parent name value) (R value))
    (fields : List (String × Value)) :
    Run.Yields I (walkFields visitors parent fields)
      (List.Forall₂ (fun entry walked => walked.1 = entry.1 ∧ R entry.2 walked.2) fields) := by
  induction fields with
  | nil => exact Run.Yields.pure .nil
  | cons entry rest ih =>
      obtain ⟨name, value⟩ := entry
      rw [walkFields]
      refine (h name value).bind fun walked hwalked => ?_
      exact ih.bind fun others hothers => Run.Yields.pure (.cons ⟨rfl, hwalked⟩ hothers)

private theorem getD_pointwise {R : Value → Value → Prop} (hnull : R .null .null)
    {fields walked : Record Value}
    (h : List.Forall₂ (fun entry walked => walked.1 = entry.1 ∧ R entry.2 walked.2)
      fields walked) (name : String) :
    R ((Record.get? fields name).getD .null) ((Record.get? walked name).getD .null) := by
  induction h with
  | nil => exact hnull
  | @cons entry other rest others hentry _ ih =>
      obtain ⟨key, value⟩ := entry
      obtain ⟨key', value'⟩ := other
      obtain ⟨rfl, hvalue⟩ := hentry
      simp only [Record.get?]
      split
      · exact hvalue
      · exact ih

theorem inside_sameOutline (visitors : List (Visitor σ ε)) (source : Node) :
    Run.Yields (fun _ => True) (inside visitors source) (SameOutline source) := by
  obtain ⟨kind, attributes, fields, generated⟩ := source
  rw [inside]
  refine (walkFields_pointwise (walkField_sameScalar visitors kind) fields).bind
    fun walked hwalked => ?_
  exact Run.Yields.pure ⟨rfl, rfl, rfl, getD_pointwise (fun _ => Iff.rfl) hwalked⟩

theorem Leaves.sameOutline {source n : Node} (h : Leaves visitor I source n) :
    SameOutline source n := by
  obtain ⟨before, after, _, hexec⟩ := h
  exact ((inside_sameOutline [visitor] source).ok trivial hexec).2

def KeepsName (source value : Value) : Prop :=
  source.name?.isSome = true → value.name?.isSome = true

private theorem walkField_keepsName
    (hnames : ∀ n : Node, n.kind.isName = true → visitor.leave n = pure .keep)
    (parent : Kind) (name : String) (value : Value) :
    Run.Yields (fun _ => True) (walkField [visitor] parent name value) (KeepsName value) := by
  cases value with
  | node n =>
      cases hname : n.kind.isName with
      | false =>
          refine (Run.Yields.any _).mono fun walked _ hsome => ?_
          rw [Value.name?, hname] at hsome
          cases hsome
      | true =>
          rw [walkField]
          refine (inside_sameOutline [visitor] n).bind fun other hother => ?_
          have hkind : other.kind.isName = true := by rw [hother.kind, hname]
          rw [offerHeld, verdict, hnames other hkind]
          refine Run.Yields.pure fun _ => ?_
          rw [Value.name?, if_pos hkind]
          rfl
  | _ => exact (Run.Yields.any _).mono fun walked _ hsome => by cases hsome

theorem Leaves.keepsName {source n : Node}
    (hnames : ∀ n : Node, n.kind.isName = true → visitor.leave n = pure .keep)
    (h : Leaves visitor I source n) (name : String) :
    KeepsName (source.field name) (n.field name) := by
  obtain ⟨before, after, _, hexec⟩ := h
  have hinside : Run.Yields (fun _ => True) (inside [visitor] source)
      (fun n => ∀ name, KeepsName (source.field name) (n.field name)) := by
    obtain ⟨kind, attributes, fields, generated⟩ := source
    rw [inside]
    refine (walkFields_pointwise (walkField_keepsName hnames kind) fields).bind
      fun walked hwalked => ?_
    exact Run.Yields.pure (getD_pointwise (fun h => h) hwalked)
  exact (hinside.ok trivial hexec).2 name

/-! ## What a visitor places -/

structure Settles (visitor : Visitor σ ε) (I : σ → Prop) (G : Value → Prop)
    (Source : Node → Prop) : Prop where
  free : ∀ value : Value, value.nodes = [] → G value
  leave : ∀ source n, Source source → Leaves visitor I source n → n.Settled G →
    Run.Yields I (visitor.leave n) (Verdict.Places G n)

private theorem offerHeld_yields {n : Node}
    (h : Run.Yields I (visitor.leave n) (Verdict.Places G n)) (parent : Kind)
    (field : String) :
    Run.Yields I (offerHeld parent field [visitor] n) (fun other => G (.node other)) := by
  rw [offerHeld]
  refine (h.adapt _).bind fun verdict hverdict => ?_
  cases verdict with
  | keep => exact Run.Yields.pure hverdict
  | replace other => exact Run.Yields.pure hverdict
  | remove => exact Run.Yields.throw _
  | splice items => exact Run.Yields.throw _
  | other value => exact Run.Yields.throw _

private theorem offerListed_yields {n : Node}
    (h : Run.Yields I (visitor.leave n) (Verdict.Places G n)) :
    Run.Yields I (offerListed [visitor] n) (fun items => ∀ item ∈ items, G item) := by
  rw [offerListed]
  refine (h.adapt _).bind fun verdict hverdict => ?_
  cases verdict with
  | keep => exact Run.Yields.pure (List.forall_mem_singleton.mpr hverdict)
  | replace other => exact Run.Yields.pure (List.forall_mem_singleton.mpr hverdict)
  | remove => exact Run.Yields.pure (by simp)
  | splice items => exact Run.Yields.pure hverdict
  | other value => exact Run.Yields.throw _

private theorem inside_yields_leaves {n : Node}
    (h : Run.Yields I (inside [visitor] n) (Node.Settled G)) :
    Run.Yields I (inside [visitor] n)
      (fun other => Leaves visitor I n other ∧ other.Settled G) := by
  intro state hstate
  obtain ⟨hkeep, hvalue⟩ := h state hstate
  refine ⟨hkeep, fun other hother => ⟨?_, hvalue other hother⟩⟩
  exact ⟨state, ((inside [visitor] n).exec state).2, hstate, Prod.ext hother rfl⟩

/--
A shape of trees, given by what fields and lists of items may be, in which every item that
is passed over has the property.
-/
structure PassesOver (G : Value → Prop) (Field : Value → Prop) (Items : List Value → Prop) :
    Prop where
  list : ∀ {items}, Field (.list items) → Items items
  node : ∀ {n : Node}, Field (.node n) → ∀ entry ∈ n.fields, Field entry.2
  pair : ∀ {name value}, Field (.pair name value) → value.nodes = []
  offered : ∀ {n rest}, Items (.node n :: rest) → Field (.node n)
  passed : ∀ {item rest}, Items (item :: rest) → item.node? = none → G item
  tail : ∀ {item rest}, Items (item :: rest) → Items rest

variable {Field : Value → Prop} {Items : List Value → Prop}

-- The recursion is that of the walk.  A node is settled inside before it is offered, so
-- the visitor only has to place what it is offered with settled fields.
mutual

private theorem inside_settled (h : Settles visitor I G Source)
    (hshape : PassesOver G Field Items) :
    ∀ {n : Node}, (∀ entry ∈ n.fields, Field entry.2) → (∀ m ∈ n.nodes, Source m) →
    Run.Yields I (inside [visitor] n) (Node.Settled G)
  | ⟨kind, _, fields, _⟩, hfit, hsource => by
      rw [inside]
      have hfields : ∀ m ∈ nodesInFields fields, Source m := fun m hm =>
        hsource m (by rw [Node.nodes]; exact List.mem_append_left _ hm)
      exact (walkFields_settled h hshape hfit hfields kind).bind
        fun walked hwalked => Run.Yields.pure hwalked

private theorem walkFields_settled (h : Settles visitor I G Source)
    (hshape : PassesOver G Field Items) :
    ∀ {fields : List (String × Value)}, (∀ entry ∈ fields, Field entry.2) →
    (∀ m ∈ nodesInFields fields, Source m) → ∀ parent : Kind,
      Run.Yields I (walkFields [visitor] parent fields)
        (fun walked => ∀ entry ∈ walked, entry.2.Settled G)
  | [], _, _, _ => Run.Yields.pure (by simp)
  | (name, value) :: rest, hfit, hsource, parent => by
      rw [List.forall_mem_cons] at hfit
      simp only [nodesInFields, List.mem_append] at hsource
      rw [walkFields]
      refine (walkField_settled h hshape hfit.1 (fun m hm => hsource m (.inl hm)) parent name).bind
        fun walked hwalked => ?_
      refine (walkFields_settled h hshape hfit.2 (fun m hm => hsource m (.inr hm)) parent).bind
        fun others hothers => ?_
      exact Run.Yields.pure (List.forall_mem_cons.mpr ⟨hwalked, hothers⟩)

private theorem walkField_settled (h : Settles visitor I G Source)
    (hshape : PassesOver G Field Items) :
    ∀ {value : Value}, Field value →
    (∀ m ∈ value.nodes, Source m) → ∀ (parent : Kind) (name : String),
      Run.Yields I (walkField [visitor] parent name value) (Value.Settled G)
  | .list items, hfit, hsource, _, _ => by
      rw [walkField]
      exact (walkItems_settled h hshape (hshape.list hfit) hsource).bind
        fun walked hwalked => Run.Yields.pure hwalked
  | .node n, hfit, hsource, parent, name => by
      rw [walkField]
      have hinside := inside_settled h hshape (n := n) (hshape.node hfit) hsource
      refine (inside_yields_leaves hinside).bind fun other hother => ?_
      have hleave := h.leave n other (hsource n n.self_mem_nodes) hother.1 hother.2
      exact (offerHeld_yields hleave parent name).bind
        fun placed hplaced => Run.Yields.pure hplaced
  | .scalar _, _, _, _, _ => Run.Yields.pure (h.free _ rfl)
  | .obj _, _, _, _, _ => Run.Yields.pure (h.free _ rfl)
  | .pair _ _, hfit, _, _, _ => Run.Yields.pure (hshape.pair hfit)

private theorem walkItems_settled (h : Settles visitor I G Source)
    (hshape : PassesOver G Field Items) :
    ∀ {items : List Value}, Items items → (∀ m ∈ nodesIn items, Source m) →
      Run.Yields I (walkItems [visitor] items) (fun walked => ∀ item ∈ walked, G item)
  | [], _, _ => Run.Yields.pure (by simp)
  | .node n :: rest, hfit, hsource => by
      simp only [nodesIn, List.mem_append] at hsource
      rw [walkItems]
      have hn : ∀ m ∈ n.nodes, Source m := fun m hm => hsource m (.inl hm)
      have hinside := inside_settled h hshape (n := n) (hshape.node (hshape.offered hfit)) hn
      refine (inside_yields_leaves hinside).bind fun other hother => ?_
      have hleave := h.leave n other (hn n n.self_mem_nodes) hother.1 hother.2
      refine (offerListed_yields hleave).bind fun placed hplaced => ?_
      refine (walkItems_settled h hshape (hshape.tail hfit) fun m hm => hsource m (.inr hm)).bind
        fun others hothers => ?_
      exact Run.Yields.pure (List.forall_mem_append.mpr ⟨hplaced, hothers⟩)
  | .list _ :: rest, hfit, hsource | .scalar _ :: rest, hfit, hsource
  | .obj _ :: rest, hfit, hsource | .pair _ _ :: rest, hfit, hsource => by
      simp only [nodesIn, List.mem_append] at hsource
      simp only [walkItems]
      refine (walkItems_settled h hshape (hshape.tail hfit) fun m hm => hsource m (.inr hm)).bind
        fun others hothers => ?_
      exact Run.Yields.pure (List.forall_mem_cons.mpr ⟨hshape.passed hfit rfl, hothers⟩)

end

theorem tree_settled_of_shape {nodes : Tree} (h : Settles visitor I G (· ∈ nodesIn nodes))
    (hbefore : visitor.before nodes = nodes)
    (hafter : ∀ walked, visitor.after walked = walked) (hshape : PassesOver G Field Items)
    (hnodes : Items nodes) :
    Run.Yields I (tree [visitor] nodes) (fun walked => ∀ item ∈ walked, G item) := by
  rw [tree]
  simp only [List.foldl_cons, List.foldl_nil, hbefore, hafter]
  exact (walkItems_settled h hshape hnodes fun m hm => hm).bind
    fun walked hwalked => Run.Yields.pure hwalked

/-! ## Open trees -/

private theorem passesOver_of_open (hfree : ∀ value : Value, value.nodes = [] → G value) :
    PassesOver G (fun value => value.isOpen = true) (fun items => itemsOpen items = true) where
  list h := h
  node {n} h := by
    cases n
    exact fieldsOpen_iff.mp h
  pair h := by
    rwa [Value.isOpen, Bool.not_eq_true', Value.hasNode_eq_false_iff] at h
  offered h := by
    rw [itemsOpen, Bool.and_eq_true] at h
    exact h.1
  passed {item rest} h hitem := by
    cases item with
    | node n => cases hitem
    | _ =>
        simp only [itemsOpen, Bool.and_eq_true, Bool.not_eq_true',
          Value.hasNode_eq_false_iff] at h
        exact hfree _ h.1
  tail {item rest} h := by
    cases item <;> simp only [itemsOpen, Bool.and_eq_true] at h <;> exact h.2

theorem tree_settled {nodes : Tree} (h : Settles visitor I G (· ∈ nodesIn nodes))
    (hbefore : visitor.before nodes = nodes)
    (hafter : ∀ walked, visitor.after walked = walked) (hopen : itemsOpen nodes = true) :
    Run.Yields I (tree [visitor] nodes) (fun walked => ∀ item ∈ walked, G item) :=
  tree_settled_of_shape h hbefore hafter (passesOver_of_open h.free) hopen

end Walk

end ScriptSandbox
