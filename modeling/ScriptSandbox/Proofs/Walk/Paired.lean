import ScriptSandbox.Proofs.Tree.AlikeReaders
import ScriptSandbox.Tree.Walk

/-!
# Walking two trees side by side

If a visitor's verdicts on nodes that are alike are alike, walks of trees that are alike
end alike: with trees that are alike, or with failures of one cause.
-/

namespace ScriptSandbox

variable {σ ε : Type} {L : Likeness} {called : Bool}

inductive Verdict.Alike (L : Likeness) (called : Bool) : Verdict → Verdict → Prop where
  | keep : Verdict.Alike L called .keep .keep
  | replace {n m : Node} (h : n.Alike L called m) : Verdict.Alike L called (.replace n) (.replace m)
  | remove : Verdict.Alike L called .remove .remove
  | splice {items others : List Value} (h : ItemsAlike L items others) :
      Verdict.Alike L called (.splice items) (.splice others)
  | other (value : Json) : Verdict.Alike L called (.other value) (.other value)

theorem Verdict.Alike.eq_of_strict {called : Bool} {verdict other : Verdict}
    (h : verdict.Alike .strict called other) : other = verdict := by
  cases h with
  | keep => rfl
  | replace hn => rw [hn.eq_of_strict]
  | remove => rfl
  | splice hitems => rw [hitems.eq_of_strict]
  | other value => rfl

theorem Verdict.Alike.atPlace {verdict other : Verdict}
    (h : verdict.Alike L false other) : verdict.Alike L called other := by
  cases h with
  | keep => exact .keep
  | replace hn => exact .replace (hn.mono (.refl L) fun hcalled => by cases hcalled)
  | remove => exact .remove
  | splice hitems => exact .splice hitems
  | other value => exact .other value

inductive Misplaced.Alike (L : Likeness) : Misplaced → Misplaced → Prop where
  | notInList (label : String) {parent other : Kind} (field : String)
      (h : L.SameKind true parent other) :
      Misplaced.Alike L (.notInList label parent field) (.notInList label other field)
  | unsupported (label : String) (value : Json) :
      Misplaced.Alike L (.unsupported label value) (.unsupported label value)

inductive WalkFailure.Alike (L : Likeness) (E : ε → ε → Prop) :
    WalkFailure ε → WalkFailure ε → Prop where
  | misplaced {cause other : Misplaced} (h : cause.Alike L other) :
      WalkFailure.Alike L E (.misplaced cause) (.misplaced other)
  | raised {cause other : ε} (h : E cause other) : WalkFailure.Alike L E (.raised cause) (.raised other)

def Visitor.Pairs (visitor : Visitor σ ε) (I : σ → σ → Prop) (E : ε → ε → Prop) (L : Likeness) :
    Prop :=
  ∀ {called : Bool} {n m : Node}, n.Alike L called m →
    Run.Paired I E (visitor.leave n) (visitor.leave m) (Verdict.Alike L called)

namespace Walk

variable {I : σ → σ → Prop} {E : ε → ε → Prop} {visitor : Visitor σ ε}

private theorem walkItems_of_texts (visitors : List (Visitor σ ε)) {items : List Value}
    {texts : List String} (h : items.mapM Value.textOf = .ok texts) :
    walkItems visitors items = pure items := by
  induction items generalizing texts with
  | nil => rfl
  | cons item rest ih =>
      rw [List.mapM_cons] at h
      obtain ⟨first, hfirst, h⟩ := bind_eq_ok.mp h
      obtain ⟨others, hothers, _⟩ := bind_eq_ok.mp h
      cases item with
      | scalar value =>
          simp only [walkItems, ih hothers]
          rfl
      | _ => cases hfirst

private theorem walkField_of_texts (visitors : List (Visitor σ ε)) (parent : Kind) (name : String)
    {value : Value} {texts : List String} (h : value.texts = .ok texts) :
    walkField visitors parent name value = pure value := by
  cases value with
  | list items =>
      cases items with
      | nil => rfl
      | cons item rest =>
          have hitems : (item :: rest).mapM Value.textOf = .ok texts := h
          rw [walkField, walkItems_of_texts visitors hitems]
          rfl
  | node n =>
      -- The first entry of a node is a pair, so it is no text.
      cases h
  | _ => rfl

private theorem verdict_paired {n m : Node} (hvisitor : visitor.Pairs I E L)
    (h : n.Alike L called m) :
    Run.Paired I (WalkFailure.Alike L E) (verdict visitor n) (verdict visitor m)
      (Verdict.Alike L called) :=
  (hvisitor h).adapt fun _ _ hcause => .raised hcause

private theorem offerHeld_paired {n m : Node} (hvisitor : visitor.Pairs I E L)
    (h : n.Alike L called m)
    {parent other : Kind} (hparent : L.SameKind true parent other) (field : String) :
    Run.Paired I (WalkFailure.Alike L E) (offerHeld parent field [visitor] n)
      (offerHeld other field [visitor] m) (Node.Alike L called) := by
  rw [offerHeld, offerHeld]
  apply (verdict_paired hvisitor h).bind
  intro verdict verdict' hverdict
  have hmisplaced : Run.Paired I (WalkFailure.Alike L E)
      (throw (.misplaced (.notInList visitor.label parent field)) : Run σ (WalkFailure ε) Node)
      (throw (.misplaced (.notInList visitor.label other field))) (Node.Alike L called) :=
    Run.Paired.throw (.misplaced (.notInList visitor.label field hparent))
  cases hverdict with
  | keep => exact Run.Paired.pure h
  | replace hplaced => exact Run.Paired.pure hplaced
  | remove => exact hmisplaced
  | splice _ => exact hmisplaced
  | other _ => exact hmisplaced

private theorem offerListed_paired {n m : Node} (hvisitor : visitor.Pairs I E L)
    (h : n.Alike L false m) :
    Run.Paired I (WalkFailure.Alike L E) (offerListed [visitor] n) (offerListed [visitor] m)
      (ItemsAlike L) := by
  rw [offerListed, offerListed]
  apply (verdict_paired hvisitor h).bind
  intro verdict verdict' hverdict
  cases hverdict with
  | keep => exact Run.Paired.pure (.cons (.node h) .nil)
  | replace hplaced => exact Run.Paired.pure (.cons (.node hplaced) .nil)
  | remove => exact Run.Paired.pure .nil
  | splice hitems => exact Run.Paired.pure hitems
  | other value => exact Run.Paired.throw (.misplaced (.unsupported visitor.label value))

-- The recursion is on how the trees are alike, which follows the recursion of the walk.
mutual

private theorem inside_paired (hvisitor : visitor.Pairs I E L) {called : Bool} :
    ∀ {n m : Node}, n.Alike L called m →
      Run.Paired I (WalkFailure.Alike L E) (inside [visitor] n) (inside [visitor] m)
        (Node.Alike L called)
  | _, _, .mk hkind hattributes hfields => by
      rw [inside, inside]
      have hparent := hkind.mono (.refl L) (fun _ => rfl)
      apply (walkFields_paired hvisitor hparent hfields).bind
      intro walked walked' hwalked
      exact Run.Paired.pure (.mk hkind hattributes hwalked)

private theorem walkFields_paired (hvisitor : visitor.Pairs I E L) {called : Bool}
    {kind other : Kind}
    {marked : Bool} (hparent : L.SameKind true kind other) :
    ∀ {fields others : Record Value}, FieldsAlike L called kind marked fields others →
      Run.Paired I (WalkFailure.Alike L E) (walkFields [visitor] kind fields)
        (walkFields [visitor] other others) (FieldsAlike L called kind marked)
  | _, _, .nil => Run.Paired.pure .nil
  | (name, _) :: _, _, .cons hvalue hfields => by
      rw [walkFields, walkFields]
      apply (walkField_paired hvisitor hparent name hvalue).bind
      intro walked walked' hwalked
      apply (walkFields_paired hvisitor hparent hfields).bind
      intro rest rest' hrest
      exact Run.Paired.pure (.cons hwalked hrest)
  | (name, value) :: _, (_, value') :: _, .respelled hvalue hfields => by
      have hkept : walkField [visitor] kind name value = pure value ∧
          walkField [visitor] other name value' = pure value' := by
        cases hvalue with
        | parts _ _ htexts htexts' =>
            exact ⟨walkField_of_texts _ _ _ htexts, walkField_of_texts _ _ _ htexts'⟩
        | text => exact ⟨rfl, rfl⟩
      rw [walkFields, walkFields, hkept.1, hkept.2]
      apply (walkFields_paired hvisitor hparent hfields).bind
      intro rest rest' hrest
      exact Run.Paired.pure (.respelled hvalue hrest)

private theorem walkField_paired (hvisitor : visitor.Pairs I E L) {kind other : Kind}
    (hparent : L.SameKind true kind other) (name : String) :
    ∀ {place : Place} {value value' : Value}, value.Alike L place value' →
      Run.Paired I (WalkFailure.Alike L E) (walkField [visitor] kind name value)
        (walkField [visitor] other name value') (Value.Alike L place)
  | place, _, _, .list _ hitems => by
      rw [walkField, walkField]
      apply (walkItems_paired hvisitor hitems).bind
      intro walked walked' hwalked
      exact Run.Paired.pure (.list place hwalked)
  | _, _, _, .node hn => by
      rw [walkField, walkField]
      apply (inside_paired hvisitor hn).bind
      intro n n' hn
      apply (offerHeld_paired hvisitor hn hparent name).bind
      intro placed placed' hplaced
      exact Run.Paired.pure (.node hplaced)
  | place, _, _, .scalar _ value => Run.Paired.pure (.scalar place value)
  | place, _, _, .obj _ fields => Run.Paired.pure (.obj place fields)
  | _, _, _, .pair hplace hvalue => Run.Paired.pure (.pair hplace hvalue)
  | _, _, _, .entry hvalue => Run.Paired.pure (.entry hvalue)
  | _, _, _, .leaf hvalue => Run.Paired.pure (.leaf hvalue)

private theorem walkItems_paired (hvisitor : visitor.Pairs I E L) :
    ∀ {items others : List Value}, ItemsAlike L items others →
      Run.Paired I (WalkFailure.Alike L E) (walkItems [visitor] items)
        (walkItems [visitor] others) (ItemsAlike L)
  | _, _, .nil => Run.Paired.pure .nil
  | _, _, .cons (.node hn) hitems => by
      rw [walkItems, walkItems]
      apply (inside_paired hvisitor hn).bind
      intro n n' hn
      apply (offerListed_paired hvisitor hn).bind
      intro placed placed' hplaced
      apply (walkItems_paired hvisitor hitems).bind
      intro rest rest' hrest
      exact Run.Paired.pure (hplaced.append hrest)
  | _, _, .cons hitem@(.scalar _ _) hitems | _, _, .cons hitem@(.obj _ _) hitems
  | _, _, .cons hitem@(.list _ _) hitems | _, _, .cons hitem@(.entry _) hitems
  | _, _, .cons hitem@(.leaf _) hitems => by
      simp only [walkItems]
      apply (walkItems_paired hvisitor hitems).bind
      intro rest rest' hrest
      exact Run.Paired.pure (.cons hitem hrest)
  | _, _, .cons (.pair hplace _) _ => absurd rfl hplace

end

theorem tree_paired {nodes others : Tree} (hvisitor : visitor.Pairs I E L)
    (hbefore : ∀ walked, visitor.before walked = walked)
    (hafter : ∀ walked, visitor.after walked = walked) (h : ItemsAlike L nodes others) :
    Run.Paired I (WalkFailure.Alike L E) (tree [visitor] nodes) (tree [visitor] others)
      (ItemsAlike L) := by
  rw [tree, tree]
  simp only [List.foldl_cons, List.foldl_nil, hbefore, hafter]
  apply (walkItems_paired hvisitor h).bind
  intro walked walked' hwalked
  exact Run.Paired.pure hwalked

end Walk

end ScriptSandbox
