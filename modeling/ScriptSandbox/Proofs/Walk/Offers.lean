import ScriptSandbox.Proofs.Walk.Coverage
import ScriptSandbox.Proofs.Walk.Placement

/-!
# The offers of a walk

A walk offers its visitor one node after the other.  `Visitor.offers` is the list of
these offers, each with the state in which it is judged.  It is the list that
`Visitor.noting` collects, a visitor that judges as the given one does and notes what it
is offered.  The offers are the visited nodes of the tree in their order, each is judged
in the state that the one before has left, and only the last one can fail.
-/

namespace ScriptSandbox

variable {σ ε τ α β : Type}

/-- A node in the form in which it is offered, and the state in which it is judged. -/
structure Offer (σ : Type) where
  node : Node
  state : σ

def Run.beside (run : Run σ ε α) : Run (σ × τ) ε α := fun both =>
  ((run.exec both.1).1, ((run.exec both.1).2, both.2))

private theorem last_or_before {items first second : List α} {last item : α}
    (h : items ++ [last] = first ++ item :: second) :
    (first = items ∧ item = last) ∨ ∃ others, items = first ++ item :: others := by
  rcases List.eq_nil_or_concat second with rfl | ⟨others, other, rfl⟩
  · obtain ⟨hfirst, hlast⟩ := List.append_inj' h rfl
    exact .inl ⟨hfirst.symm, (List.singleton_inj.mp hlast).symm⟩
  · rw [List.concat_eq_append, ← List.cons_append, ← List.append_assoc] at h
    exact .inr ⟨others, (List.append_inj' h rfl).1⟩

theorem filterMap_snoc (f : α → Option β) (items : List α) (last : α) :
    (items ++ [last]).filterMap f = items.filterMap f ++ (f last).toList := by
  rw [List.filterMap_append]
  cases hlast : f last <;> simp [hlast]

namespace Visitor

def noting (visitor : Visitor σ ε) : Visitor (σ × List (Offer σ)) ε where
  label := visitor.label
  leave n := do
    modify fun both => (both.1, both.2 ++ [⟨n, both.1⟩])
    (visitor.leave n).beside
  before := visitor.before
  after := visitor.after

/-- What the visitor is offered in a walk that starts in the state. -/
def offers (visitor : Visitor σ ε) (nodes : Tree) (state : σ) : List (Offer σ) :=
  ((Walk.tree [visitor.noting] nodes).exec (state, [])).2.2

/-! ## Judging offer after offer -/

inductive Judges (visitor : Visitor σ ε) (state : σ) : List (Offer σ) → σ → Prop where
  | nil : Judges visitor state [] state
  | snoc {offers : List (Offer σ)} {n : Node} {mid after : σ} {verdict : Verdict}
      (h : Judges visitor state offers mid)
      (hleave : (visitor.leave n).exec mid = (.ok verdict, after)) :
      Judges visitor state (offers ++ [⟨n, mid⟩]) after

/-- How the offers lead to the end of a walk: what is raised is raised at the last offer. -/
inductive Ends (visitor : Visitor σ ε) (state : σ) :
    List (Offer σ) → Except (WalkFailure ε) α × σ → Prop where
  | ok {offers : List (Offer σ)} {value : α} {after : σ}
      (h : visitor.Judges state offers after) : Ends visitor state offers (.ok value, after)
  | misplaced {offers : List (Offer σ)} {cause : Misplaced} {after : σ}
      (h : visitor.Judges state offers after) :
      Ends visitor state offers (.error (.misplaced cause), after)
  | raised {offers : List (Offer σ)} {n : Node} {mid after : σ} {cause : ε}
      (h : visitor.Judges state offers mid)
      (hleave : (visitor.leave n).exec mid = (.error cause, after)) :
      Ends visitor state (offers ++ [⟨n, mid⟩]) (.error (.raised cause), after)

def KeepsOrFails (visitor : Visitor σ ε) : Prop :=
  ∀ n, Run.Yields (fun _ => True) (visitor.leave n) (fun verdict => verdict = .keep)

variable {visitor : Visitor σ ε} {state mid after : σ} {first second : List (Offer σ)}

theorem Judges.trans (h : visitor.Judges state first mid) (h' : visitor.Judges mid second after) :
    visitor.Judges state (first ++ second) after := by
  induction h' with
  | nil => rwa [List.append_nil]
  | snoc _ hleave ih =>
      rw [← List.append_assoc]
      exact ih.snoc hleave

theorem Judges.ends {result : Except (WalkFailure ε) α × σ} (h : visitor.Judges state first mid)
    (h' : visitor.Ends mid second result) : visitor.Ends state (first ++ second) result := by
  cases h' with
  | ok hjudges => exact .ok (h.trans hjudges)
  | misplaced hjudges => exact .misplaced (h.trans hjudges)
  | raised hjudges hleave =>
      rw [← List.append_assoc]
      exact .raised (h.trans hjudges) hleave

theorem Judges.of_append {offers : List (Offer σ)} {offer : Offer σ}
    (h : visitor.Judges state offers after) (hoffers : offers = first ++ offer :: second) :
    visitor.Judges state first offer.state := by
  induction h generalizing second with
  | nil => simp at hoffers
  | snoc hjudges _ ih =>
      rcases last_or_before hoffers with ⟨rfl, rfl⟩ | ⟨others, hothers⟩
      · exact hjudges
      · exact ih hothers

theorem Ends.of_append {offers : List (Offer σ)} {offer : Offer σ}
    {result : Except (WalkFailure ε) α × σ} (h : visitor.Ends state offers result)
    (hoffers : offers = first ++ offer :: second) : visitor.Judges state first offer.state := by
  cases h with
  | ok hjudges => exact hjudges.of_append hoffers
  | misplaced hjudges => exact hjudges.of_append hoffers
  | raised hjudges _ =>
      rcases last_or_before hoffers with ⟨rfl, rfl⟩ | ⟨others, hothers⟩
      · exact hjudges
      · exact hjudges.of_append hothers

theorem Ends.of_ok {value : α} (h : visitor.Ends state first (.ok value, after)) :
    visitor.Judges state first after := by
  cases h
  assumption

theorem Ends.error {cause : WalkFailure ε}
    (h : visitor.Ends state first ((.error cause : Except (WalkFailure ε) α), after)) :
    visitor.Ends state first ((.error cause : Except (WalkFailure ε) β), after) := by
  cases h with
  | misplaced hjudges => exact .misplaced hjudges
  | raised hjudges hleave => exact .raised hjudges hleave

end Visitor

/-! ## Which nodes are offered -/

def OfferedAs (Form : Node → Node → Prop) : List Node → List (Offer σ) → Prop :=
  List.Forall₂ fun n offer => Form n offer.node

/-- All nodes are offered by a run that returns, and the first ones by a run that fails. -/
def OfferedUntil (Form : Node → Node → Prop) (nodes : List Node) (offers : List (Offer σ)) :
    Except (WalkFailure ε) α → Prop
  | .ok _ => OfferedAs Form nodes offers
  | .error _ => ∃ reached, reached <+: nodes ∧ OfferedAs Form reached offers

theorem OfferedAs.append {Form : Node → Node → Prop} {nodes others : List Node}
    {offers more : List (Offer σ)} {result : Except (WalkFailure ε) α}
    (h : OfferedAs Form nodes offers) (h' : OfferedUntil Form others more result) :
    OfferedUntil Form (nodes ++ others) (offers ++ more) result := by
  cases result with
  | ok value => exact List.rel_append h h'
  | error cause =>
      obtain ⟨reached, hreached, hoffered⟩ := h'
      have hprefix : nodes ++ reached <+: nodes ++ others :=
        (List.prefix_append_right_inj nodes).mpr hreached
      exact ⟨nodes ++ reached, hprefix, List.rel_append h hoffered⟩

theorem OfferedAs.source {Form : Node → Node → Prop} {nodes : List Node} {offers : List (Offer σ)}
    (h : OfferedAs Form nodes offers) {offer : Offer σ} (hoffer : offer ∈ offers) :
    ∃ n ∈ nodes, Form n offer.node := by
  induction h with
  | nil => cases hoffer
  | cons hform _ ih =>
      rcases List.mem_cons.mp hoffer with rfl | hoffer
      · exact ⟨_, List.mem_cons_self, hform⟩
      · obtain ⟨n, hn, hform⟩ := ih hoffer
        exact ⟨n, List.mem_cons_of_mem _ hn, hform⟩

theorem nodes_of_offeredAs {nodes : List Node} {offers : List (Offer σ)}
    (h : OfferedAs (· = ·) nodes offers) : offers.map Offer.node = nodes := by
  induction h with
  | nil => rfl
  | cons hnode _ ih => rw [List.map_cons, ih, hnode]

theorem nodes_of_offeredAs_form {form : Node → Node} {nodes : List Node} {offers : List (Offer σ)}
    (h : OfferedAs (fun n offered => offered = form n) nodes offers) :
    offers.map Offer.node = nodes.map form := by
  induction h with
  | nil => rfl
  | cons hnode _ ih => rw [List.map_cons, List.map_cons, ih, hnode]

theorem OfferedUntil.source {Form : Node → Node → Prop} {nodes : List Node}
    {offers : List (Offer σ)} {result : Except (WalkFailure ε) α}
    (h : OfferedUntil Form nodes offers result) {offer : Offer σ} (hoffer : offer ∈ offers) :
    ∃ n ∈ nodes, Form n offer.node := by
  cases result with
  | ok value => exact OfferedAs.source h hoffer
  | error cause =>
      obtain ⟨reached, hreached, hoffered⟩ := h
      obtain ⟨n, hn, hform⟩ := hoffered.source hoffer
      exact ⟨n, hreached.subset hn, hform⟩

namespace Walk

variable {visitor : Visitor σ ε} {Form : Node → Node → Prop}

def Notes (visitor : Visitor σ ε) (Form : Node → Node → Prop) (run : Run σ (WalkFailure ε) α)
    (noting : Run (σ × List (Offer σ)) (WalkFailure ε) α) (nodes : List Node) : Prop :=
  ∀ state noted, ∃ offers,
    noting.exec (state, noted) =
        ((run.exec state).1, ((run.exec state).2, noted ++ offers)) ∧
      visitor.Ends state offers (run.exec state) ∧
      OfferedUntil Form nodes offers (run.exec state).1

namespace Notes

protected theorem pure (value : α) : Notes visitor Form (pure value) (pure value) [] := by
  intro state noted
  refine ⟨[], ?_, .ok .nil, .nil⟩
  rw [List.append_nil]
  rfl

theorem misplaced (cause : Misplaced) :
    Notes visitor Form (throw (.misplaced cause) : Run σ (WalkFailure ε) α)
      (throw (.misplaced cause)) [] := by
  intro state noted
  refine ⟨[], ?_, .misplaced .nil, [], List.prefix_refl [], .nil⟩
  rw [List.append_nil]
  rfl

protected theorem bind {run : Run σ (WalkFailure ε) α}
    {noting : Run (σ × List (Offer σ)) (WalkFailure ε) α} {nodes others : List Node}
    {next : α → Run σ (WalkFailure ε) β}
    {noting' : α → Run (σ × List (Offer σ)) (WalkFailure ε) β} {P : α → Prop}
    (hyields : Run.Yields (fun _ => True) run P) (hrun : Notes visitor Form run noting nodes)
    (hnext : ∀ value, P value → Notes visitor Form (next value) (noting' value) others) :
    Notes visitor Form (run >>= next) (noting >>= noting') (nodes ++ others) := by
  intro state noted
  obtain ⟨offers, hexec, hends, hoffered⟩ := hrun state noted
  have hvalue := (hyields state trivial).2
  rw [Run.exec_bind, Run.exec_bind, hexec]
  cases hresult : run.exec state with
  | mk result mid =>
      rw [hresult] at hends hoffered hvalue
      cases result with
      | error cause =>
          obtain ⟨reached, hreached, hoffered⟩ := hoffered
          have hprefix := hreached.trans (List.prefix_append nodes others)
          exact ⟨offers, rfl, hends.error, reached, hprefix, hoffered⟩
      | ok value =>
          obtain ⟨more, hexec', hends', hoffered'⟩ :=
            hnext value (hvalue value rfl) mid (noted ++ offers)
          refine ⟨offers ++ more, ?_, hends.of_ok.ends hends', ?_⟩
          · rw [← List.append_assoc]
            exact hexec'
          · exact hoffered.append hoffered'

theorem bind_pure {run : Run σ (WalkFailure ε) α}
    {noting : Run (σ × List (Offer σ)) (WalkFailure ε) α} {nodes : List Node}
    (h : Notes visitor Form run noting nodes) (make : α → β) :
    Notes visitor Form (run >>= fun value => pure (make value))
      (noting >>= fun value => pure (make value)) nodes := by
  have hbind := Notes.bind (Run.Yields.any run) h fun value _ => Notes.pure (make value)
  rwa [List.append_nil] at hbind

end Notes

/-! ## The walk -/

private theorem verdict_notes {source n : Node} (h : Form source n) :
    Notes visitor Form (verdict visitor n) (verdict visitor.noting n) [source] := by
  intro state noted
  have hoffered : OfferedAs Form [source] [(⟨n, state⟩ : Offer σ)] := .cons h .nil
  refine ⟨[⟨n, state⟩], rfl, ?_⟩
  rw [verdict, Run.exec_adapt]
  cases hresult : (visitor.leave n).exec state with
  | mk result after =>
      cases result with
      | ok verdict => exact ⟨.ok (Visitor.Judges.nil.snoc hresult), hoffered⟩
      | error cause =>
          exact ⟨.raised .nil hresult, [source], List.prefix_refl _, hoffered⟩

private theorem offerHeld_notes {source n : Node} (h : Form source n) (parent : Kind)
    (field : String) :
    Notes visitor Form (offerHeld parent field [visitor] n)
      (offerHeld parent field [visitor.noting] n) [source] := by
  rw [offerHeld, offerHeld, ← List.append_nil [source]]
  refine Notes.bind (Run.Yields.any _) (verdict_notes h) fun verdict _ => ?_
  cases verdict with
  | keep => exact Notes.pure n
  | replace other => exact Notes.pure other
  | remove => exact Notes.misplaced _
  | splice items => exact Notes.misplaced _
  | other value => exact Notes.misplaced _

private theorem offerListed_notes {source n : Node} (h : Form source n) :
    Notes visitor Form (offerListed [visitor] n) (offerListed [visitor.noting] n) [source] := by
  rw [offerListed, offerListed, ← List.append_nil [source]]
  refine Notes.bind (Run.Yields.any _) (verdict_notes h) fun verdict _ => ?_
  cases verdict with
  | keep => exact Notes.pure _
  | replace other => exact Notes.pure _
  | remove => exact Notes.pure _
  | splice items => exact Notes.pure _
  | other value => exact Notes.misplaced _

-- The recursion is that of the walk.
mutual

private theorem inside_notes
    (hform : ∀ n, Run.Yields (fun _ => True) (inside [visitor] n) (Form n)) :
    ∀ n : Node, Notes visitor Form (inside [visitor] n) (inside [visitor.noting] n)
      (visitedInFields n.fields)
  | ⟨kind, attributes, fields, generated⟩ => by
      rw [inside, inside]
      exact (walkFields_notes hform kind fields).bind_pure fun walked =>
        Node.mk kind attributes walked generated

private theorem walkFields_notes
    (hform : ∀ n, Run.Yields (fun _ => True) (inside [visitor] n) (Form n))
    (parent : Kind) : ∀ fields : List (String × Value),
      Notes visitor Form (walkFields [visitor] parent fields)
        (walkFields [visitor.noting] parent fields) (visitedInFields fields)
  | [] => Notes.pure []
  | (name, value) :: rest => by
      rw [walkFields, walkFields, visitedInFields]
      refine Notes.bind (Run.Yields.any _) (walkField_notes hform parent name value)
        fun walked _ => ?_
      exact (walkFields_notes hform parent rest).bind_pure fun others => (name, walked) :: others

private theorem walkField_notes
    (hform : ∀ n, Run.Yields (fun _ => True) (inside [visitor] n) (Form n))
    (parent : Kind) (name : String) : ∀ value : Value,
      Notes visitor Form (walkField [visitor] parent name value)
        (walkField [visitor.noting] parent name value) value.visited
  | .list items => by
      rw [walkField, walkField]
      exact (walkItems_notes hform items).bind_pure Value.list
  | .node n => by
      have hvisited : (Value.node n).visited = visitedInFields n.fields ++ [n] := by
        cases n
        rfl
      rw [walkField, walkField, hvisited]
      refine Notes.bind (hform n) (inside_notes hform n) fun walked hwalked => ?_
      exact (offerHeld_notes hwalked parent name).bind_pure Value.node
  | .scalar _ => Notes.pure _
  | .obj _ => Notes.pure _
  | .pair _ _ => Notes.pure _

private theorem walkItems_notes
    (hform : ∀ n, Run.Yields (fun _ => True) (inside [visitor] n) (Form n)) :
    ∀ items : List Value,
      Notes visitor Form (walkItems [visitor] items) (walkItems [visitor.noting] items)
        (visitedIn items)
  | [] => Notes.pure []
  | .node n :: rest => by
      have hvisited : visitedIn (.node n :: rest) =
          visitedInFields n.fields ++ ([n] ++ visitedIn rest) := by
        cases n
        rw [visitedIn, Node.visited, List.append_assoc]
      rw [walkItems, walkItems, hvisited]
      refine Notes.bind (hform n) (inside_notes hform n) fun walked hwalked => ?_
      refine Notes.bind (Run.Yields.any _) (offerListed_notes hwalked) fun placed _ => ?_
      exact (walkItems_notes hform rest).bind_pure fun others => placed ++ others
  | .list items :: rest => by
      simp only [walkItems]
      exact (walkItems_notes hform rest).bind_pure fun others => .list items :: others
  | .scalar value :: rest => by
      simp only [walkItems]
      exact (walkItems_notes hform rest).bind_pure fun others => .scalar value :: others
  | .obj fields :: rest => by
      simp only [walkItems]
      exact (walkItems_notes hform rest).bind_pure fun others => .obj fields :: others
  | .pair name value :: rest => by
      simp only [walkItems]
      exact (walkItems_notes hform rest).bind_pure fun others => .pair name value :: others

end

private theorem tree_notes (hform : ∀ n, Run.Yields (fun _ => True) (inside [visitor] n) (Form n))
    (nodes : Tree) :
    Notes visitor Form (tree [visitor] nodes) (tree [visitor.noting] nodes)
      (visitedIn (visitor.before nodes)) := by
  rw [tree, tree]
  exact (walkItems_notes hform (visitor.before nodes)).bind_pure _

/-! ## What is known of the offers -/

variable (visitor) (nodes : Tree) (state : σ)

theorem exec_tree_noting :
    (tree [visitor.noting] nodes).exec (state, []) =
      (((tree [visitor] nodes).exec state).1,
        (((tree [visitor] nodes).exec state).2, visitor.offers nodes state)) := by
  obtain ⟨offers, hexec, _⟩ := tree_notes (inside_sameOutline [visitor]) nodes state []
  rw [Visitor.offers, hexec]

theorem offers_end :
    visitor.Ends state (visitor.offers nodes state) ((tree [visitor] nodes).exec state) := by
  obtain ⟨offers, hexec, hends, _⟩ := tree_notes (inside_sameOutline [visitor]) nodes state []
  rw [Visitor.offers, hexec]
  exact hends

theorem offers_judged {visitor : Visitor σ ε} {nodes walked : Tree} {state after : σ}
    (hrun : (tree [visitor] nodes).exec state = (.ok walked, after)) :
    visitor.Judges state (visitor.offers nodes state) after := by
  have hends := offers_end visitor nodes state
  rw [hrun] at hends
  exact hends.of_ok

theorem offers_offered {visitor : Visitor σ ε}
    (hform : ∀ n, Run.Yields (fun _ => True) (inside [visitor] n) (Form n)) :
    OfferedUntil Form (visitedIn (visitor.before nodes)) (visitor.offers nodes state)
      ((tree [visitor] nodes).exec state).1 := by
  obtain ⟨offers, hexec, _, hoffered⟩ := tree_notes hform nodes state []
  rw [Visitor.offers, hexec]
  exact hoffered

/-! ## Visitors that keep what they do not reject -/

private theorem offerHeld_keeps {visitor : Visitor σ ε} (h : visitor.KeepsOrFails) (parent : Kind)
    (field : String) (n : Node) :
    Run.Yields (fun _ => True) (offerHeld parent field [visitor] n) (n = ·) := by
  rw [offerHeld]
  refine ((h n).adapt _).bind fun verdict hverdict => ?_
  rw [hverdict]
  exact Run.Yields.pure rfl

private theorem offerListed_keeps {visitor : Visitor σ ε} (h : visitor.KeepsOrFails) (n : Node) :
    Run.Yields (fun _ => True) (offerListed [visitor] n) ([.node n] = ·) := by
  rw [offerListed]
  refine ((h n).adapt _).bind fun verdict hverdict => ?_
  rw [hverdict]
  exact Run.Yields.pure rfl

mutual

theorem inside_keeps {visitor : Visitor σ ε} (h : visitor.KeepsOrFails) :
    ∀ n : Node, Run.Yields (fun _ => True) (inside [visitor] n) (n = ·)
  | ⟨kind, _, fields, _⟩ => by
      rw [inside]
      refine (walkFields_keeps h kind fields).bind fun walked hwalked => ?_
      rw [hwalked]
      exact Run.Yields.pure rfl

private theorem walkFields_keeps {visitor : Visitor σ ε} (h : visitor.KeepsOrFails)
    (parent : Kind) :
    ∀ fields : List (String × Value),
      Run.Yields (fun _ => True) (walkFields [visitor] parent fields) (fields = ·)
  | [] => Run.Yields.pure rfl
  | (name, value) :: rest => by
      rw [walkFields]
      refine (walkField_keeps h parent name value).bind fun walked hwalked => ?_
      refine (walkFields_keeps h parent rest).bind fun others hothers => ?_
      rw [hwalked, hothers]
      exact Run.Yields.pure rfl

private theorem walkField_keeps {visitor : Visitor σ ε} (h : visitor.KeepsOrFails) (parent : Kind)
    (name : String) : ∀ value : Value,
      Run.Yields (fun _ => True) (walkField [visitor] parent name value) (value = ·)
  | .list items => by
      rw [walkField]
      refine (walkItems_keeps h items).bind fun walked hwalked => ?_
      rw [hwalked]
      exact Run.Yields.pure rfl
  | .node n => by
      rw [walkField]
      refine (inside_keeps h n).bind fun walked hwalked => ?_
      refine (offerHeld_keeps h parent name walked).bind fun placed hplaced => ?_
      rw [hwalked, hplaced]
      exact Run.Yields.pure rfl
  | .scalar _ => Run.Yields.pure rfl
  | .obj _ => Run.Yields.pure rfl
  | .pair _ _ => Run.Yields.pure rfl

theorem walkItems_keeps {visitor : Visitor σ ε} (h : visitor.KeepsOrFails) :
    ∀ items : List Value, Run.Yields (fun _ => True) (walkItems [visitor] items) (items = ·)
  | [] => Run.Yields.pure rfl
  | .node n :: rest => by
      rw [walkItems]
      refine (inside_keeps h n).bind fun walked hwalked => ?_
      refine (offerListed_keeps h walked).bind fun placed hplaced => ?_
      refine (walkItems_keeps h rest).bind fun others hothers => ?_
      rw [hwalked, ← hplaced, hothers]
      exact Run.Yields.pure rfl
  | .list _ :: rest | .scalar _ :: rest | .obj _ :: rest | .pair _ _ :: rest => by
      simp only [walkItems]
      refine (walkItems_keeps h rest).bind fun others hothers => ?_
      rw [hothers]
      exact Run.Yields.pure rfl

end

end Walk

end ScriptSandbox
