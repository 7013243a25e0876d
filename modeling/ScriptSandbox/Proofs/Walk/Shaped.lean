import ScriptSandbox.Proofs.Tree.Hidden
import ScriptSandbox.Proofs.Walk.Results

/-!
# Walks that keep shapes

Let a visitor remove and splice nothing but namespaces and imports, and put nothing but
expressions in the place of nodes, and never in that of a name, an argument or another node
that only carries its children.  Then what a walk leaves of a node has the shape of the node.
-/

namespace ScriptSandbox

/-- A result is the node itself, or an expression in the place of a node that has a rule. -/
def Node.LeavesRoom (n result : Node) : Prop :=
  result = n ∨ (n.kind.rule ≠ .exempt ∧ ∃ which, result.kind = .expression which)

def Spares (n : Node) : Verdict → Prop
  | .keep => True
  | .replace result => n.LeavesRoom result
  | .remove => n.kind.GivesWay
  | .splice items => n.kind.GivesWay ∧ (n.Shaped → ∀ item ∈ items, item.IsNode fun _ => True)
  | .other _ => False

theorem Spares.of_held? {n placed : Node} {verdict : Verdict} (h : Spares n verdict)
    (hplaced : verdict.held? n = some placed) : n.LeavesRoom placed := by
  cases verdict with
  | keep =>
      cases hplaced
      exact .inl rfl
  | replace result =>
      cases hplaced
      exact h
  | _ => cases hplaced

theorem Spares.of_listed? {n : Node} {placed : List Value} {verdict : Verdict}
    (h : Spares n verdict) (hstays : n.Stays) (hplaced : verdict.listed? n = some placed) :
    ∃ result, placed = [.node result] ∧ n.LeavesRoom result := by
  cases verdict with
  | keep =>
      cases hplaced
      exact ⟨n, rfl, .inl rfl⟩
  | replace result =>
      cases hplaced
      exact ⟨result, rfl, h⟩
  | remove => exact absurd h hstays
  | splice items => exact absurd h.1 hstays
  | other value => cases h

private theorem Spares.listed?_nodes {n : Node} {placed : List Value} {verdict : Verdict}
    (h : Spares n verdict) (hshaped : n.Shaped) (hplaced : verdict.listed? n = some placed) :
    ∀ item ∈ placed, item.IsNode fun _ => True := by
  cases verdict with
  | splice items =>
      cases hplaced
      exact h.2 hshaped
  | other value => cases hplaced
  | remove =>
      cases hplaced
      simp
  | _ =>
      cases hplaced
      exact List.forall_mem_singleton.mpr trivial

/-! ## Properties that last -/

structure Value.Lasting (P : Value → Prop) : Prop where
  stays : ∀ {n}, P (.node n) → n.Stays
  walked : ∀ {n inner}, P (.node n) → n.Walked Spares inner → P (.node inner)
  replaced : ∀ {n result} {which : Expression}, P (.node n) → n.kind.rule ≠ .exempt →
    result.kind = .expression which → P (.node result)

variable {P : Value → Prop}

private theorem ItemsWalked.lasting (hP : Value.Lasting P) : ∀ {items walked : List Value},
    ItemsWalked Spares items walked → (∀ item ∈ items, P item) → ∀ item ∈ walked, P item
  | _, _, .nil, _ => by simp
  | _, _, .node hinside hverdict hplaced hrest, h => by
      obtain ⟨hn, hothers⟩ := List.forall_mem_cons.mp h
      have hinner := hP.walked hn hinside
      obtain ⟨result, rfl, hresult⟩ := hverdict.of_listed? (hP.stays hinner) hplaced
      refine List.forall_mem_append.mpr ⟨List.forall_mem_singleton.mpr ?_, hrest.lasting hP hothers⟩
      rcases hresult with rfl | ⟨hrule, which, hkind⟩
      · exact hinner
      · exact hP.replaced hinner hrule hkind
  | _, _, .passed _ hrest, h => by
      obtain ⟨hfirst, hothers⟩ := List.forall_mem_cons.mp h
      exact List.forall_mem_cons.mpr ⟨hfirst, hrest.lasting hP hothers⟩

theorem Value.Lists.walked {value walked : Value} (hP : Lasting P) (h : value.Lists P)
    (hwalked : value.Walked Spares walked) : walked.Lists P := by
  cases hwalked with
  | list hitems => exact hitems.lasting hP h
  | node => cases h
  | scalar _ => exact h
  | obj _ => exact h
  | pair _ _ => exact h

private theorem Value.IsNode.walked_any {J : Node → Verdict → Prop} {value walked : Value}
    (h : value.IsNode fun _ => True) (hwalked : value.Walked J walked) :
    walked.IsNode fun _ => True := by
  cases hwalked with
  | node => trivial
  | _ => exact h.elim

/-! ## Names -/

private theorem Value.lasting_isText : Value.Lasting IsText where
  stays h := by cases h
  walked h _ := by cases h
  replaced h _ _ := by cases h

theorem Value.Walked.name? {value walked : Value} {written : Node}
    (h : value.Walked Spares walked) (hwritten : walked.name? = some written) :
    ∃ source, value.name? = some source ∧ source.Walked Spares written := by
  cases h with
  | @node source inner placed verdict hinside hverdict hplaced =>
      have hname := Value.isName_of_name? hwritten
      rw [Value.name?, Option.ite_none_right_eq_some] at hwritten
      obtain ⟨_, hwritten⟩ := hwritten
      cases hwritten
      rcases hverdict.of_held? hplaced with rfl | ⟨_, which, hkind⟩
      · refine ⟨source, ?_, hinside⟩
        rw [Value.name?, ← hinside.same.1, if_pos hname]
      · rw [hkind] at hname
        cases hname
  | _ => cases hwritten

namespace Node

variable {n m : Node}

theorem SpelledOut.walked (h : n.SpelledOut) (hwalked : n.Walked Spares m) : m.SpelledOut :=
  Value.Lists.walked Value.lasting_isText h (hwalked.field "parts")

theorem NameSpelledOut.walked {field : String} (h : n.NameSpelledOut field)
    (hwalked : n.Walked Spares m) : m.NameSpelledOut field := by
  intro written hwritten
  obtain ⟨source, hsource, hinside⟩ := (hwalked.field field).name? hwritten
  exact (h source hsource).walked hinside

theorem Stays.walked (h : n.Stays) (hwalked : n.Walked Spares m) : m.Stays := by
  rwa [Stays, hwalked.same.1]

private theorem stays_of_expression {which : Expression} (h : n.kind = .expression which) :
    n.Stays := by
  rw [Stays, h]
  rintro (hkind | hkind) <;> cases hkind

@[simp] theorem rule_of_isName (h : n.kind.isName = true) : n.kind.rule = .exempt := by
  cases hkind : n.kind with
  | name form => rfl
  | _ =>
      rw [hkind] at h
      cases h

end Node

/-! ## Shapes -/

namespace Value

private theorem lasting_stays : Lasting (IsNode Node.Stays) where
  stays h := h
  walked h hwalked := Node.Stays.walked h hwalked
  replaced _ _ hkind := Node.stays_of_expression hkind

private theorem lasting_isSpelledName : Lasting (IsNode Node.IsSpelledName) where
  stays {n} h := by
    intro hgives
    have hname : n.kind.isName = true := h.1
    rcases hgives with hkind | hkind <;> rw [hkind] at hname <;> cases hname
  walked h hwalked := ⟨by rw [hwalked.same.1]; exact h.1, h.2.walked hwalked⟩
  replaced h hrule _ := absurd (Node.rule_of_isName h.1) hrule

private theorem lasting_fitsImport : Lasting (IsNode Node.FitsImport) where
  stays h := h.1
  walked h hwalked := by
    refine ⟨h.1.walked hwalked, fun hkind => ?_⟩
    rw [hwalked.same.1] at hkind
    exact (h.2 hkind).walked hwalked
  replaced _ _ hkind := by
    refine ⟨Node.stays_of_expression hkind, fun himport => ?_⟩
    rw [hkind] at himport
    cases himport

private theorem lasting_fitsCommand : Lasting FitsCommand where
  stays h := (h.resolve_left nofun).1
  walked h hwalked := by
    obtain ⟨hstays, hvalue⟩ := h.resolve_left nofun
    refine .inr ⟨hstays.walked hwalked, fun hkind => ?_⟩
    rw [hwalked.same.1] at hkind
    obtain ⟨text, htext⟩ := isText_iff.mp (hvalue hkind)
    exact isText_iff.mpr ⟨text, (hwalked.field "value").eq_scalar_iff.mpr htext⟩
  replaced _ _ hkind := by
    refine .inr ⟨Node.stays_of_expression hkind, fun hpart => ?_⟩
    rw [hkind] at hpart
    cases hpart

end Value

/-- What a walk leaves of a node has the shape that the node has.  Statements are left to the
recursion over the tree, since those of namespaces inside take the place of these. -/
theorem Rule.Shapes.walked {n m : Node} {rule : Rule} (h : rule.Shapes n)
    (hwalked : n.Walked Spares m)
    (hstatements : (n.field "stmts").Lists (Value.IsNode fun _ => True) →
      (m.field "stmts").Lists (Value.IsNode fun _ => True)) : rule.Shapes m := by
  cases rule with
  | closure => exact Value.Lists.walked Value.lasting_stays h (hwalked.field "uses")
  | classDecl =>
      exact ⟨h.1.walked hwalked, h.2.walked Value.lasting_isSpelledName (hwalked.field _)⟩
  | interfaceDecl => exact Value.Lists.walked Value.lasting_isSpelledName h (hwalked.field _)
  | traitUse => exact Value.Lists.walked Value.lasting_isSpelledName h (hwalked.field _)
  | globalDecl => exact Value.Lists.walked Value.lasting_stays h (hwalked.field _)
  | namespaceDecl => exact ⟨h.1.walked hwalked, hstatements h.2⟩
  | useDecl => exact Value.Lists.walked Value.lasting_fitsImport h (hwalked.field _)
  | funcCall =>
      obtain ⟨hcallee, hname, hargs⟩ := h
      exact ⟨hcallee.walked_any (hwalked.field _), hname.walked hwalked,
        hargs.walked Value.lasting_stays (hwalked.field _)⟩
  | constFetch => exact Node.NameSpelledOut.walked h hwalked
  | classAccess => exact Node.NameSpelledOut.walked h hwalked
  | instantiation => exact Node.NameSpelledOut.walked h hwalked
  | shellExec => exact Value.Lists.walked Value.lasting_fitsCommand h (hwalked.field _)
  | _ => trivial

-- The recursion is that of the walk.  What takes the place of a namespace in a list are the
-- statements that are left of it, so a list of nodes stays one if this is so further inside.
mutual

theorem Node.Walked.shaped : ∀ {n m : Node}, n.Walked Spares m → (∀ v ∈ n.visited, v.Shaped) →
    m.Shaped
  | _, _, .mk hfields, h => by
      obtain ⟨hself, hinside⟩ := Node.forall_mem_visited.mp h
      exact Rule.Shapes.walked hself (.mk hfields) (hfields.listsNodes hinside "stmts")

private theorem FieldsWalked.listsNodes : ∀ {fields walked : Record Value},
    FieldsWalked Spares fields walked → (∀ v ∈ visitedInFields fields, v.Shaped) → ∀ name,
      ((Record.get? fields name).getD .null).Lists (Value.IsNode fun _ => True) →
        ((Record.get? walked name).getD .null).Lists (Value.IsNode fun _ => True)
  | _, _, .nil, _, _ => id
  | _, _, .cons hvalue hrest, h, name => by
      obtain ⟨hfirst, hothers⟩ := List.forall_mem_append.mp h
      simp only [Record.get?]
      split
      · exact hvalue.listsNodes hfirst
      · exact hrest.listsNodes hothers name

private theorem Value.Walked.listsNodes : ∀ {value walked : Value}, value.Walked Spares walked →
    (∀ v ∈ value.visited, v.Shaped) → value.Lists (Value.IsNode fun _ => True) →
      walked.Lists (Value.IsNode fun _ => True)
  | _, _, .list hitems, h => hitems.allNodes h
  | _, _, .node _ _ _, _ => nofun
  | _, _, .scalar _, _ => id
  | _, _, .obj _, _ => id
  | _, _, .pair _ _, _ => id

private theorem ItemsWalked.allNodes : ∀
    {items walked : List Value}, ItemsWalked Spares items walked →
    (∀ v ∈ visitedIn items, v.Shaped) → (∀ item ∈ items, item.IsNode fun _ => True) →
      ∀ item ∈ walked, item.IsNode fun _ => True
  | _, _, .nil, _, h => h
  | _, _, .node hinside hverdict hplaced hrest, h, hnodes => by
      obtain ⟨hn, hothers⟩ := List.forall_mem_append.mp h
      obtain ⟨_, hnodes⟩ := List.forall_mem_cons.mp hnodes
      refine List.forall_mem_append.mpr ⟨?_, hrest.allNodes hothers hnodes⟩
      exact hverdict.listed?_nodes (hinside.shaped hn) hplaced
  | _, _, .passed hitem _, _, hnodes => by
      obtain ⟨_, rfl, _⟩ := Value.isNode_iff.mp (hnodes _ List.mem_cons_self)
      cases hitem

end

/-! ## Hidden nodes -/

def Discloses (n : Node) (verdict : Verdict) : Prop :=
  Spares n verdict ∧
    (n.Shaped → n.hidesNode = false → verdict.Places (fun placed => placed.hidesNode = false) n)

private theorem Node.Walked.shaped_of_discloses {n m : Node} (h : n.Walked Discloses m)
    (hshaped : ∀ v ∈ n.visited, v.Shaped) : m.Shaped :=
  (h.mono fun _ _ hverdict => hverdict.1).shaped hshaped

mutual

theorem Node.Walked.hidesNode : ∀ {n m : Node}, n.Walked Discloses m →
    (∀ v ∈ n.visited, v.Shaped) → n.hidesNode = false → m.hidesNode = false
  | _, _, .mk hfields, h, hhides =>
      hfields.hideNode (Node.forall_mem_visited.mp h).2 hhides

private theorem FieldsWalked.hideNode : ∀ {fields walked : Record Value},
    FieldsWalked Discloses fields walked → (∀ v ∈ visitedInFields fields, v.Shaped) →
      fieldsHideNode fields = false → fieldsHideNode walked = false
  | _, _, .nil, _, hhides => hhides
  | _, _, .cons hvalue hrest, h, hhides => by
      obtain ⟨hfirst, hothers⟩ := List.forall_mem_append.mp h
      rw [fieldsHideNode, Bool.or_eq_false_iff] at hhides
      rw [fieldsHideNode, hvalue.hidesNode hfirst hhides.1, hrest.hideNode hothers hhides.2,
        Bool.or_self]

theorem Value.Walked.hidesNode : ∀ {value walked : Value}, value.Walked Discloses walked →
    (∀ v ∈ value.visited, v.Shaped) → value.hidesNode = false → walked.hidesNode = false
  | _, _, .list hitems, h, hhides => hitems.hideNode h hhides
  | _, _, .node hinside hverdict hplaced, h, hhides =>
      (hverdict.2 (hinside.shaped_of_discloses h) (hinside.hidesNode h hhides)).held? hplaced
  | _, _, .scalar _, _, hhides => hhides
  | _, _, .obj _, _, hhides => hhides
  | _, _, .pair _ _, _, hhides => hhides

private theorem ItemsWalked.hideNode : ∀
    {items walked : List Value}, ItemsWalked Discloses items walked →
    (∀ v ∈ visitedIn items, v.Shaped) → itemsHideNode items = false → itemsHideNode walked = false
  | _, _, .nil, _, hhides => hhides
  | _, _, .node hinside hverdict hplaced hrest, h, hhides => by
      obtain ⟨hn, hothers⟩ := List.forall_mem_append.mp h
      rw [itemsHideNode, Bool.or_eq_false_iff] at hhides
      have hplaces := hverdict.2 (hinside.shaped_of_discloses hn) (hinside.hidesNode hn hhides.1)
      refine itemsHideNode_eq_false_iff.mpr (List.forall_mem_append.mpr ⟨?_, ?_⟩)
      · exact hplaces.listed? hplaced
      · exact itemsHideNode_eq_false_iff.mp (hrest.hideNode hothers hhides.2)
  | item :: _, _, .passed hitem hrest, h, hhides => by
      rw [itemsHideNode, Bool.or_eq_false_iff] at hhides
      rw [itemsHideNode, hhides.1, Bool.false_or]
      refine hrest.hideNode ?_ hhides.2
      cases item with
      | node n => cases hitem
      | _ => exact h

end

theorem ItemsWalked.dumpable {nodes : List Node} {walked : Tree}
    (h : ItemsWalked Discloses (nodes.map .node) walked)
    (hshaped : ∀ v ∈ visitedIn (nodes.map .node), v.Shaped)
    (hhides : ∀ n ∈ nodes, n.hidesNode = false) :
    ∃ dumped, dumpableNodes walked = .ok dumped := by
  have hnodes := (h.mono fun _ _ hverdict => hverdict.1).allNodes hshaped
    (List.forall_mem_map.mpr fun _ _ => trivial)
  refine dumpableNodes_of_nodes hnodes (h.hideNode hshaped ?_)
  exact itemsHideNode_eq_false_iff.mpr (List.forall_mem_map.mpr hhides)

end ScriptSandbox
