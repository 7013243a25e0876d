import ScriptSandbox.Proofs.Walk.Offers
import ScriptSandbox.Proofs.Walk.Results

/-!
# The course of a walk

`stationsIn` lists the nodes of a tree that a walk comes to, children before their parent,
with the slots they stand in.  Whatever a visitor answers, a walk offers it the nodes at
these stations in turn, each as the answers for the nodes inside it have left it, and nothing
else.  It stops right after the first offer at which the visitor fails or gives a verdict that
the slot cannot take.  If there is none, what it returns is put together from the
verdicts, and every list that it has walked is what became of its items, one after the other.
-/

namespace ScriptSandbox

variable {σ ε α β : Type}

/-! ## Stations -/

/-- How a node stands in its tree: by itself in a field, or as an item of a list. -/
inductive Slot where
  | field (parent : Kind) (name : String)
  | item

def Slot.refusal? (label : String) : Slot → Verdict → Option Misplaced
  | .field _ _, .keep => none
  | .field _ _, .replace _ => none
  | .field parent name, _ => some (.notInList label parent name)
  | .item, .other value => some (.unsupported label value)
  | .item, _ => none

structure Station where
  node : Node
  slot : Slot

mutual

/-- The stations inside a node, and its own one last. -/
def Node.stations (slot : Slot) : Node → List Station
  | ⟨kind, attributes, fields, generated⟩ =>
      stationsInFields kind fields ++ [⟨⟨kind, attributes, fields, generated⟩, slot⟩]
  termination_by structural node => node

def Value.stations (parent : Kind) (name : String) : Value → List Station
  | .node n => n.stations (.field parent name)
  | .list items => stationsIn items
  | .pair _ _ => []
  | .scalar _ => []
  | .obj _ => []
  termination_by structural value => value

def stationsIn : List Value → List Station
  | [] => []
  | .node n :: rest => n.stations .item ++ stationsIn rest
  | _ :: rest => stationsIn rest
  termination_by structural items => items

def stationsInFields (parent : Kind) : List (String × Value) → List Station
  | [] => []
  | (name, value) :: rest => value.stations parent name ++ stationsInFields parent rest
  termination_by structural fields => fields

end

private theorem Node.stations_eq (slot : Slot) (n : Node) :
    n.stations slot = stationsInFields n.kind n.fields ++ [⟨n, slot⟩] := by
  cases n
  rw [Node.stations]

mutual

@[simp] theorem Node.map_stations (slot : Slot) :
    ∀ n : Node, (n.stations slot).map Station.node = n.visited
  | ⟨kind, _, fields, _⟩ => by
      rw [Node.stations, Node.visited, List.map_append, map_stationsInFields kind fields]
      rfl

@[simp] theorem Value.map_stations (parent : Kind) (name : String) :
    ∀ value : Value, (value.stations parent name).map Station.node = value.visited
  | .node n => n.map_stations _
  | .list items => map_stationsIn items
  | .pair _ _ | .scalar _ | .obj _ => rfl

@[simp]
theorem map_stationsIn : ∀ items : List Value, (stationsIn items).map Station.node = visitedIn items
  | [] => rfl
  | .node n :: rest => by
      rw [stationsIn, visitedIn, List.map_append, n.map_stations, map_stationsIn rest]
  | .list _ :: rest | .scalar _ :: rest | .obj _ :: rest | .pair _ _ :: rest => by
      simp only [stationsIn, visitedIn, map_stationsIn rest]

@[simp] theorem map_stationsInFields (parent : Kind) : ∀ fields : List (String × Value),
    (stationsInFields parent fields).map Station.node = visitedInFields fields
  | [] => rfl
  | (name, value) :: rest => by
      rw [stationsInFields, visitedInFields, List.map_append, value.map_stations,
        map_stationsInFields parent rest]

end

/-! ## What the answers make of a tree -/

/-- A node as it was offered, and the verdict on it. -/
structure Answer where
  node : Node
  verdict : Verdict

mutual

/-- The answers for the nodes inside a node, in turn, and what they make of the node. -/
inductive Node.Told : Node → List Answer → Node → Prop where
  | mk {kind : Kind} {attributes : Record Json} {fields walked : Record Value}
      {generated : Bool} {answers : List Answer} (hfields : FieldsTold fields answers walked) :
      Node.Told ⟨kind, attributes, fields, generated⟩ answers
        ⟨kind, attributes, walked, generated⟩

inductive FieldsTold : Record Value → List Answer → Record Value → Prop where
  | nil : FieldsTold [] [] []
  | cons {name : String} {value walked : Value} {rest others : Record Value}
      {answers more : List Answer} (hvalue : Value.Told value answers walked)
      (hrest : FieldsTold rest more others) :
      FieldsTold ((name, value) :: rest) (answers ++ more) ((name, walked) :: others)

inductive Value.Told : Value → List Answer → Value → Prop where
  | list {items walked : List Value} {answers : List Answer}
      (hitems : ItemsTold items answers walked) : Value.Told (.list items) answers (.list walked)
  | node {n inner placed : Node} {verdict : Verdict} {answers : List Answer}
      (hinside : Node.Told n answers inner) (hplaced : verdict.held? inner = some placed) :
      Value.Told (.node n) (answers ++ [⟨inner, verdict⟩]) (.node placed)
  | scalar (value : Scalar) : Value.Told (.scalar value) [] (.scalar value)
  | obj (fields : Record Json) : Value.Told (.obj fields) [] (.obj fields)
  | pair (name : String) (value : Value) : Value.Told (.pair name value) [] (.pair name value)

inductive ItemsTold : List Value → List Answer → List Value → Prop where
  | nil : ItemsTold [] [] []
  | node {n inner : Node} {verdict : Verdict} {placed rest others : List Value}
      {answers more : List Answer} (hinside : Node.Told n answers inner)
      (hplaced : verdict.listed? inner = some placed) (hrest : ItemsTold rest more others) :
      ItemsTold (.node n :: rest) (answers ++ [⟨inner, verdict⟩] ++ more) (placed ++ others)
  | passed {item : Value} {rest others : List Value} {more : List Answer}
      (hitem : item.node? = none) (hrest : ItemsTold rest more others) :
      ItemsTold (item :: rest) more (item :: others)

end

private theorem Node.Told.attributes_eq {n inner : Node} {answers : List Answer}
    (h : n.Told answers inner) : inner.attributes = n.attributes := by
  cases h
  rfl

def Value.PlacedAs (answers : List Answer) (placed : List Value) : Value → Prop
  | .node n => ∃ inside inner verdict, Node.Told n inside inner ∧
      answers = inside ++ [⟨inner, verdict⟩] ∧ verdict.listed? inner = some placed
  | item => answers = [] ∧ placed = [item]

private theorem Value.placedAs_iff {item : Value} (hitem : item.node? = none)
    {answers : List Answer}
    {placed : List Value} : item.PlacedAs answers placed ↔ answers = [] ∧ placed = [item] := by
  cases item with
  | node n => cases hitem
  | _ => exact Iff.rfl

private theorem itemsTold_iff {items walked : List Value} {answers : List Answer} :
    ItemsTold items answers walked ↔
      ∃ parts : List (List Answer × List Value),
        List.Forall₂ (fun item part => item.PlacedAs part.1 part.2) items parts ∧
          answers = (parts.map Prod.fst).flatten ∧ walked = (parts.map Prod.snd).flatten := by
  constructor
  · intro h
    induction items generalizing answers walked with
    | nil =>
        cases h
        exact ⟨[], .nil, rfl, rfl⟩
    | cons item rest ih =>
        cases h with
        | node hinside hplaced hrest =>
            obtain ⟨parts, hparts, rfl, rfl⟩ := ih hrest
            exact ⟨(_, _) :: parts, .cons ⟨_, _, _, hinside, rfl, hplaced⟩ hparts, rfl, rfl⟩
        | passed hitem hrest =>
            obtain ⟨parts, hparts, rfl, rfl⟩ := ih hrest
            have hself := (Value.placedAs_iff hitem).mpr ⟨rfl, rfl⟩
            exact ⟨([], [item]) :: parts, .cons hself hparts, rfl, rfl⟩
  · rintro ⟨parts, hparts, rfl, rfl⟩
    induction hparts with
    | nil => exact .nil
    | @cons item part rest parts hitem _ ih =>
        rw [List.map_cons, List.map_cons, List.flatten_cons, List.flatten_cons]
        cases item with
        | node n =>
            obtain ⟨inside, inner, verdict, hinside, hanswers, hplaced⟩ := hitem
            rw [hanswers]
            exact .node hinside hplaced ih
        | _ =>
            obtain ⟨hanswers, hplaced⟩ := hitem
            rw [hanswers, hplaced]
            exact .passed rfl ih

/-! ## Courses -/

namespace Visitor

/--
The visitor is offered the nodes at the stations in turn, each in the state that the one before
has left and as the last answers have left it, and gives verdicts that the slots can take.
-/
inductive Answers (visitor : Visitor σ ε) (state : σ) :
    List Station → List Answer → List (Offer σ) → σ → Prop where
  | nil : Answers visitor state [] [] [] state
  | snoc {stations : List Station} {station : Station} {answers inside : List Answer}
      {offers : List (Offer σ)} {n : Node} {mid after : σ} {verdict : Verdict}
      (h : Answers visitor state stations answers offers mid) (hlast : inside <:+ answers)
      (hinside : station.node.Told inside n)
      (hleave : (visitor.leave n).exec mid = (.ok verdict, after))
      (htaken : station.slot.refusal? visitor.label verdict = none) :
      Answers visitor state (stations ++ [station]) (answers ++ [⟨n, verdict⟩])
        (offers ++ [⟨n, mid⟩]) after

/-- How the offers at the stations lead to the end of a run that returns what `T` tells. -/
inductive Course (visitor : Visitor σ ε) (stations : List Station) (T : List Answer → α → Prop)
    (state : σ) : List (Offer σ) → Except (WalkFailure ε) α × σ → Prop where
  | returned {answers : List Answer} {offers : List (Offer σ)} {value : α} {after : σ}
      (h : visitor.Answers state stations answers offers after) (htold : T answers value) :
      Course visitor stations T state offers (.ok value, after)
  | misplaced {before rest : List Station} {station : Station} {answers inside : List Answer}
      {offers : List (Offer σ)} {n : Node} {mid after : σ} {verdict : Verdict}
      {cause : Misplaced} (hstations : stations = before ++ station :: rest)
      (h : visitor.Answers state before answers offers mid) (hlast : inside <:+ answers)
      (hinside : station.node.Told inside n)
      (hleave : (visitor.leave n).exec mid = (.ok verdict, after))
      (hrefused : station.slot.refusal? visitor.label verdict = some cause) :
      Course visitor stations T state (offers ++ [⟨n, mid⟩]) (.error (.misplaced cause), after)
  | raised {before rest : List Station} {station : Station} {answers inside : List Answer}
      {offers : List (Offer σ)} {n : Node} {mid after : σ} {cause : ε}
      (hstations : stations = before ++ station :: rest)
      (h : visitor.Answers state before answers offers mid) (hlast : inside <:+ answers)
      (hinside : station.node.Told inside n)
      (hleave : (visitor.leave n).exec mid = (.error cause, after)) :
      Course visitor stations T state (offers ++ [⟨n, mid⟩]) (.error (.raised cause), after)

variable {visitor : Visitor σ ε} {state mid after : σ} {first second : List Station}
  {answers more : List Answer} {offers others : List (Offer σ)}

theorem Answers.trans (h : visitor.Answers state first answers offers mid)
    (h' : visitor.Answers mid second more others after) :
    visitor.Answers state (first ++ second) (answers ++ more) (offers ++ others) after := by
  induction h' with
  | nil => simpa using h
  | snoc _ hlast hinside hleave htaken ih =>
      simp only [← List.append_assoc]
      exact ih.snoc (hlast.trans (List.suffix_append _ _)) hinside hleave htaken

theorem Answers.course {T : List Answer → α → Prop} {result : Except (WalkFailure ε) α × σ}
    (h : visitor.Answers state first answers offers mid)
    (h' : visitor.Course second (fun more => T (answers ++ more)) mid others result) :
    visitor.Course (first ++ second) T state (offers ++ others) result := by
  cases h' with
  | returned hanswers htold => exact .returned (h.trans hanswers) htold
  | misplaced hstations hanswers hlast hinside hleave hrefused =>
      rw [hstations, ← List.append_assoc, ← List.append_assoc]
      exact .misplaced rfl (h.trans hanswers) (hlast.trans (List.suffix_append _ _)) hinside
        hleave hrefused
  | raised hstations hanswers hlast hinside hleave =>
      rw [hstations, ← List.append_assoc, ← List.append_assoc]
      exact .raised rfl (h.trans hanswers) (hlast.trans (List.suffix_append _ _)) hinside hleave

theorem Course.error {T : List Answer → α → Prop} {T' : List Answer → β → Prop}
    {cause : WalkFailure ε} (more : List Station)
    (h : visitor.Course first T state offers (.error cause, after)) :
    visitor.Course (first ++ more) T' state offers (.error cause, after) := by
  cases h with
  | misplaced hstations hanswers hlast hinside hleave hrefused =>
      rw [hstations, List.append_assoc, List.cons_append]
      exact .misplaced rfl hanswers hlast hinside hleave hrefused
  | raised hstations hanswers hlast hinside hleave =>
      rw [hstations, List.append_assoc, List.cons_append]
      exact .raised rfl hanswers hlast hinside hleave

theorem Course.of_ok {T : List Answer → α → Prop} {value : α}
    (h : visitor.Course first T state offers (.ok value, after)) :
    ∃ answers, visitor.Answers state first answers offers after ∧ T answers value := by
  cases h with
  | returned hanswers htold => exact ⟨_, hanswers, htold⟩

/-- From every state the run goes through the stations, and returns what `T` tells. -/
def Follows (visitor : Visitor σ ε) (stations : List Station) (T : List Answer → α → Prop)
    (run : Run σ (WalkFailure ε) α) : Prop :=
  ∀ state, ∃ offers, visitor.Course stations T state offers (run.exec state)

namespace Follows

protected theorem pure {T : List Answer → α → Prop} {value : α} (h : T [] value) :
    visitor.Follows [] T (pure value) :=
  fun _ => ⟨[], .returned .nil h⟩

protected theorem bind {T : List Answer → α → Prop} {T' : List Answer → β → Prop}
    {run : Run σ (WalkFailure ε) α} {next : α → Run σ (WalkFailure ε) β}
    (hrun : visitor.Follows first T run)
    (hnext : ∀ answers value, T answers value →
      visitor.Follows second (fun more => T' (answers ++ more)) (next value)) :
    visitor.Follows (first ++ second) T' (run >>= next) := by
  intro state
  obtain ⟨offers, hcourse⟩ := hrun state
  rw [Run.exec_bind]
  cases hexec : run.exec state with
  | mk result mid =>
      rw [hexec] at hcourse
      cases result with
      | error cause => exact ⟨offers, hcourse.error second⟩
      | ok value =>
          obtain ⟨answers, hanswers, htold⟩ := hcourse.of_ok
          obtain ⟨others, hrest⟩ := hnext answers value htold mid
          exact ⟨offers ++ others, hanswers.course hrest⟩

theorem bind_pure {T : List Answer → α → Prop} {T' : List Answer → β → Prop}
    {run : Run σ (WalkFailure ε) α} (hrun : visitor.Follows first T run) {make : α → β}
    (hmake : ∀ answers value, T answers value → T' answers (make value)) :
    visitor.Follows first T' (run >>= fun value => pure (make value)) := by
  rw [← List.append_nil first]
  refine hrun.bind fun answers value htold => Follows.pure ?_
  rw [List.append_nil]
  exact hmake answers value htold

/--
After the stations inside a node comes the node itself.  `take` says what its slot makes
of a verdict: it is refused, or something takes the place of the node.
-/
theorem offered {n : Node} {slot : Slot} {T : List Answer → α → Prop}
    {run : Run σ (WalkFailure ε) Node} {take : Node → Verdict → Run σ (WalkFailure ε) α}
    (hrun : visitor.Follows first n.Told run)
    (htake : ∀ inner verdict,
      (∃ cause, slot.refusal? visitor.label verdict = some cause ∧
        take inner verdict = throw (.misplaced cause)) ∨
      (∃ value, slot.refusal? visitor.label verdict = none ∧
        take inner verdict = pure value ∧
          ∀ answers, n.Told answers inner → T (answers ++ [⟨inner, verdict⟩]) value)) :
    visitor.Follows (first ++ [⟨n, slot⟩]) T
      (run >>= fun inner => Walk.verdict visitor inner >>= take inner) := by
  intro state
  obtain ⟨offers, hcourse⟩ := hrun state
  rw [Run.exec_bind]
  cases hexec : run.exec state with
  | mk result mid =>
      rw [hexec] at hcourse
      cases result with
      | error cause => exact ⟨offers, hcourse.error _⟩
      | ok inner =>
          obtain ⟨answers, hanswers, htold⟩ := hcourse.of_ok
          have hlast := List.suffix_refl answers
          simp only [Run.exec_bind, Walk.verdict, Run.exec_adapt]
          refine ⟨offers ++ [⟨inner, mid⟩], ?_⟩
          cases hleave : (visitor.leave inner).exec mid with
          | mk result after =>
              cases result with
              | error cause => exact .raised rfl hanswers hlast htold hleave
              | ok verdict =>
                  rcases htake inner verdict with
                    ⟨cause, hrefused, heq⟩ | ⟨value, htaken, heq, hvalue⟩
                  · simp only [Except.mapError, heq]
                    exact .misplaced rfl hanswers hlast htold hleave hrefused
                  · simp only [Except.mapError, heq]
                    exact .returned (hanswers.snoc hlast htold hleave htaken) (hvalue _ htold)

end Follows

end Visitor

/-! ## The walk -/

namespace Walk

variable {visitor : Visitor σ ε}

private theorem offered_held {n : Node} (parent : Kind) (name : String)
    (hinside : visitor.Follows (stationsInFields n.kind n.fields) n.Told (inside [visitor] n)) :
    visitor.Follows (n.stations (.field parent name))
      (fun answers placed => Value.Told (.node n) answers (.node placed))
      (inside [visitor] n >>= offerHeld parent name [visitor]) := by
  rw [n.stations_eq]
  refine hinside.offered fun inner verdict => ?_
  cases verdict with
  | keep => exact .inr ⟨_, rfl, rfl, fun answers htold => .node htold rfl⟩
  | replace placed => exact .inr ⟨_, rfl, rfl, fun answers htold => .node htold rfl⟩
  | _ => exact .inl ⟨_, rfl, rfl⟩

private theorem offered_listed {n : Node}
    (hinside : visitor.Follows (stationsInFields n.kind n.fields) n.Told (inside [visitor] n)) :
    visitor.Follows (n.stations .item)
      (fun answers placed => (Value.node n).PlacedAs answers placed)
      (inside [visitor] n >>= offerListed [visitor]) := by
  rw [n.stations_eq]
  refine hinside.offered fun inner verdict => ?_
  cases verdict with
  | other value => exact .inl ⟨_, rfl, rfl⟩
  | _ => exact .inr ⟨_, rfl, rfl, fun answers htold => ⟨answers, inner, _, htold, rfl, rfl⟩⟩

-- The recursion is that of the walk.
mutual

private theorem inside_follows : ∀ n : Node,
    visitor.Follows (stationsInFields n.kind n.fields) n.Told (inside [visitor] n)
  | ⟨kind, _, fields, _⟩ => by
      rw [inside]
      exact (walkFields_follows kind fields).bind_pure fun _ _ hfields => .mk hfields

private theorem walkFields_follows (parent : Kind) : ∀ fields : List (String × Value),
    visitor.Follows (stationsInFields parent fields) (FieldsTold fields)
      (walkFields [visitor] parent fields)
  | [] => .pure .nil
  | (name, value) :: rest => by
      rw [walkFields, stationsInFields]
      refine (walkField_follows parent name value).bind fun _ _ hvalue => ?_
      exact (walkFields_follows parent rest).bind_pure fun _ _ hrest => .cons hvalue hrest

private theorem walkField_follows (parent : Kind) (name : String) : ∀ value : Value,
    visitor.Follows (value.stations parent name) value.Told
      (walkField [visitor] parent name value)
  | .list items => by
      rw [walkField]
      exact (walkItems_follows items).bind_pure fun _ _ hitems => .list hitems
  | .node n => by
      rw [walkField, Value.stations, ← bind_assoc]
      exact (offered_held parent name (inside_follows n)).bind_pure fun _ _ htold => htold
  | .scalar value => .pure (.scalar value)
  | .obj fields => .pure (.obj fields)
  | .pair name value => .pure (.pair name value)

private theorem walkItems_follows : ∀ items : List Value,
    visitor.Follows (stationsIn items) (ItemsTold items) (walkItems [visitor] items)
  | [] => .pure .nil
  | .node n :: rest => by
      rw [walkItems, stationsIn, ← bind_assoc]
      refine (offered_listed (inside_follows n)).bind fun _ _ hplacedAs => ?_
      obtain ⟨inside, inner, verdict, hinside, rfl, hplaced⟩ := hplacedAs
      exact (walkItems_follows rest).bind_pure fun _ _ hrest => .node hinside hplaced hrest
  | .list _ :: rest | .scalar _ :: rest | .obj _ :: rest | .pair _ _ :: rest => by
      simp only [walkItems, stationsIn]
      exact (walkItems_follows rest).bind_pure fun _ _ hrest => .passed rfl hrest

end

end Walk

/-! ## Noting the offers -/

def Offer.alone {τ : Type} (offer : Offer (σ × τ)) : Offer σ := ⟨offer.node, offer.state.1⟩

namespace Visitor

variable {visitor : Visitor σ ε} {stations : List Station} {answers : List Answer}
  {offers : List (Offer (σ × List (Offer σ)))} {start both : σ × List (Offer σ)}

private theorem exec_leave_noting (n : Node) :
    (visitor.noting.leave n).exec both =
      (((visitor.leave n).exec both.1).1,
        (((visitor.leave n).exec both.1).2, both.2 ++ [⟨n, both.1⟩])) := rfl

private theorem leave_of_noting {n : Node} {after : σ × List (Offer σ)} {result : Except ε Verdict}
    (hleave : (visitor.noting.leave n).exec both = (result, after)) :
    (visitor.leave n).exec both.1 = (result, after.1) ∧ after.2 = both.2 ++ [⟨n, both.1⟩] := by
  rw [exec_leave_noting, Prod.mk.injEq] at hleave
  obtain ⟨rfl, rfl⟩ := hleave
  exact ⟨rfl, rfl⟩

private theorem Answers.of_noting (h : visitor.noting.Answers start stations answers offers both) :
    visitor.Answers start.1 stations answers (offers.map Offer.alone) both.1 ∧
      both.2 = start.2 ++ offers.map Offer.alone := by
  induction h with
  | nil => exact ⟨.nil, by simp⟩
  | snoc _ hlast hinside hleave htaken ih =>
      obtain ⟨hanswers, hnoted⟩ := ih
      obtain ⟨hleave, hafter⟩ := leave_of_noting hleave
      rw [List.map_append, hafter, hnoted, List.append_assoc]
      exact ⟨hanswers.snoc hlast hinside hleave htaken, rfl⟩

private theorem Course.of_noting {T : List Answer → α → Prop}
    {result : Except (WalkFailure ε) α × (σ × List (Offer σ))}
    (h : visitor.noting.Course stations T start offers result) :
    visitor.Course stations T start.1 (offers.map Offer.alone) (result.1, result.2.1) ∧
      result.2.2 = start.2 ++ offers.map Offer.alone := by
  cases h with
  | returned hanswers htold =>
      obtain ⟨hanswers, hnoted⟩ := hanswers.of_noting
      exact ⟨.returned hanswers htold, hnoted⟩
  | misplaced hstations hanswers hlast hinside hleave hrefused =>
      obtain ⟨hanswers, hnoted⟩ := hanswers.of_noting
      obtain ⟨hleave, hafter⟩ := leave_of_noting hleave
      rw [List.map_append]
      refine ⟨.misplaced hstations hanswers hlast hinside hleave hrefused, ?_⟩
      rw [hafter, hnoted, List.append_assoc]
      rfl
  | raised hstations hanswers hlast hinside hleave =>
      obtain ⟨hanswers, hnoted⟩ := hanswers.of_noting
      obtain ⟨hleave, hafter⟩ := leave_of_noting hleave
      rw [List.map_append]
      refine ⟨.raised hstations hanswers hlast hinside hleave, ?_⟩
      rw [hafter, hnoted, List.append_assoc]
      rfl

/-! ## The order of the offers -/

section

variable {T : List Answer → α → Prop} {state mid after : σ} {offers : List (Offer σ)}

private theorem Answers.attributes_eq (h : visitor.Answers state stations answers offers after) :
    (offers.map fun offer => offer.node.attributes) =
      stations.map fun station => station.node.attributes := by
  induction h with
  | nil => rfl
  | snoc _ _ hinside _ _ ih =>
      rw [List.map_append, List.map_append, ih, List.map_singleton, List.map_singleton,
        hinside.attributes_eq]

private theorem Answers.attributes_prefix (h : visitor.Answers state stations answers offers mid)
    {station : Station} {inside : List Answer} {n : Node} (hinside : station.node.Told inside n)
    (rest : List Station) :
    ((offers ++ [⟨n, mid⟩] : List (Offer σ)).map fun offer => offer.node.attributes) <+:
      (stations ++ station :: rest).map fun station => station.node.attributes := by
  refine ⟨rest.map fun station => station.node.attributes, ?_⟩
  simp [h.attributes_eq, hinside.attributes_eq]

private theorem Course.attributes_prefix {result : Except (WalkFailure ε) α × σ}
    (h : visitor.Course stations T state offers result) :
    (offers.map fun offer => offer.node.attributes) <+:
      stations.map fun station => station.node.attributes := by
  cases h with
  | returned hanswers _ => exact hanswers.attributes_eq ▸ List.prefix_refl _
  | misplaced hstations hanswers _ hinside _ _ =>
      rw [hstations]
      exact hanswers.attributes_prefix hinside _
  | raised hstations hanswers _ hinside _ =>
      rw [hstations]
      exact hanswers.attributes_prefix hinside _

end

end Visitor

namespace Walk

private theorem offers_course (label : String) (leave : Node → Run σ ε Verdict) (nodes : Tree)
    (state : σ) :
    let visitor : Visitor σ ε := { label, leave }
    visitor.Course (stationsIn nodes) (ItemsTold nodes) state (visitor.offers nodes state)
      ((tree [visitor] nodes).exec state) := by
  intro visitor
  have hfollows : visitor.noting.Follows (stationsIn nodes) (ItemsTold nodes)
      (tree [visitor.noting] nodes) :=
    (walkItems_follows nodes).bind_pure fun _ _ htold => htold
  obtain ⟨noted, hnoted⟩ := hfollows (state, [])
  obtain ⟨hcourse, hoffers⟩ := hnoted.of_noting
  rw [exec_tree_noting] at hcourse hoffers
  rw [List.nil_append] at hoffers
  rwa [← hoffers] at hcourse

/--
Whatever a visitor answers, it is offered the nodes of the tree at the stations in turn, each
once and as the answers for the nodes inside it have left it, and nothing that an answer puts
in.  The walk ends right after the first offer at which the visitor fails or its verdict does
not go with the slot of the node.  So the nodes offered, told by their attributes, are the
first ones in order.  If the walk returns, it has offered all, and a list has become what its
items have become, in their order.
-/
theorem tree_in_postorder (label : String) (leave : Node → Run σ ε Verdict) (nodes : Tree)
    (state : σ) :
    let visitor : Visitor σ ε := { label, leave }
    let offers := visitor.offers nodes state
    let result := (tree [visitor] nodes).exec state
    visitor.Course (stationsIn nodes) (ItemsTold nodes) state offers result ∧
      (stationsIn nodes).map Station.node = visitedIn nodes ∧
      (offers.map fun offer => offer.node.attributes) <+:
        (visitedIn nodes).map Node.attributes ∧
      ∀ walked after, result = (.ok walked, after) →
        offers.length = (visitedIn nodes).length ∧
          ∃ parts : List (List Answer × List Value),
            visitor.Answers state (stationsIn nodes) (parts.map Prod.fst).flatten offers after ∧
              List.Forall₂ (fun item part => item.PlacedAs part.1 part.2) nodes parts ∧
                walked = (parts.map Prod.snd).flatten := by
  intro visitor offers result
  have hcourse := offers_course label leave nodes state
  have hnodes := map_stationsIn nodes
  refine ⟨hcourse, hnodes, ?_, fun walked after hresult => ?_⟩
  · rw [← hnodes, List.map_map]
    exact hcourse.attributes_prefix
  · change visitor.Course (stationsIn nodes) (ItemsTold nodes) state offers result at hcourse
    rw [hresult] at hcourse
    obtain ⟨answers, hanswers, htold⟩ := hcourse.of_ok
    obtain ⟨parts, hparts, rfl, rfl⟩ := itemsTold_iff.mp htold
    refine ⟨?_, parts, hanswers, hparts, rfl⟩
    rw [← hnodes, List.length_map]
    simpa using congrArg List.length hanswers.attributes_eq

end Walk

end ScriptSandbox
