import ScriptSandbox.Proofs.Tree.Loaded
import ScriptSandbox.Proofs.Walk.Coverage

/-!
# Marks in loaded trees

Loading takes the mark of generated nodes from the nodes that a walk visits, and from no
others: what is in a list inside a list keeps the marks it has in the file.  Apart from
marks, a tree is the same with and without them.
-/

namespace ScriptSandbox

def Node.isMarked (n : Node) : Bool :=
  Record.has n.attributes syntheticMark

/-! ## Trees without marks -/

mutual

/-- A copy in which no node is marked, wherever it is. -/
def Node.unmarked : Node → Node
  | ⟨kind, attributes, fields, generated⟩ =>
      ⟨kind, Record.erase attributes syntheticMark, unmarkedFields fields, generated⟩
  termination_by structural node => node

def Value.unmarked : Value → Value
  | .scalar value => .scalar value
  | .obj fields => .obj fields
  | .list items => .list (unmarkedItems items)
  | .node n => .node n.unmarked
  | .pair name value => .pair name value.unmarked
  termination_by structural value => value

def unmarkedItems : List Value → List Value
  | [] => []
  | item :: rest => item.unmarked :: unmarkedItems rest
  termination_by structural items => items

def unmarkedFields : List (String × Value) → List (String × Value)
  | [] => []
  | (name, value) :: rest => (name, value.unmarked) :: unmarkedFields rest
  termination_by structural fields => fields

end

@[simp] theorem Record.erase_eq_self {α : Type} {record : Record α} {name : String}
    (h : has record name = false) : erase record name = record := by
  induction record with
  | nil => rfl
  | cons entry rest ih =>
      rw [has, get?] at h
      rw [erase]
      split at h
      case isTrue => cases h
      case isFalse hne => rw [if_neg hne, ih h]

@[simp] theorem Record.has_erase_self {α : Type} (record : Record α) (name : String) :
    has (erase record name) name = false := by
  simp [has]

mutual

@[simp] theorem Node.unmarked_eq_self :
    ∀ {n : Node}, (∀ m ∈ n.nodes, m.isMarked = false) → n.unmarked = n
  | ⟨kind, attributes, fields, generated⟩, h => by
      rw [Node.nodes, List.forall_mem_append, List.forall_mem_singleton] at h
      rw [Node.unmarked, Record.erase_eq_self h.2, unmarkedFields_eq_self h.1]

@[simp] theorem Value.unmarked_eq_self :
    ∀ {value : Value}, (∀ m ∈ value.nodes, m.isMarked = false) → value.unmarked = value
  | .scalar _, _ => rfl
  | .obj _, _ => rfl
  | .list _, h => by rw [Value.unmarked, unmarkedItems_eq_self h]
  | .node _, h => by rw [Value.unmarked, Node.unmarked_eq_self h]
  | .pair name value, h => by
      have hvalue : value.unmarked = value := Value.unmarked_eq_self h
      rw [Value.unmarked, hvalue]

@[simp] theorem unmarkedItems_eq_self :
    ∀ {items : List Value}, (∀ m ∈ nodesIn items, m.isMarked = false) →
      unmarkedItems items = items
  | [], _ => rfl
  | item :: rest, h => by
      rw [nodesIn, List.forall_mem_append] at h
      rw [unmarkedItems, Value.unmarked_eq_self h.1, unmarkedItems_eq_self h.2]

@[simp] theorem unmarkedFields_eq_self :
    ∀ {fields : List (String × Value)}, (∀ m ∈ nodesInFields fields, m.isMarked = false) →
      unmarkedFields fields = fields
  | [], _ => rfl
  | (_, value) :: rest, h => by
      rw [nodesInFields, List.forall_mem_append] at h
      rw [unmarkedFields, Value.unmarked_eq_self h.1, unmarkedFields_eq_self h.2]

end

/-! ## What a walk passes over -/

/-- The nodes of a field that a walk does not visit: those of the items that are no nodes. -/
def Value.passedOver : Value → List Node
  | .list items => items.flatMap fun
      | .node _ => []
      | item => item.nodes
  | .pair _ value => value.nodes
  | _ => []

/-- The nodes in lists inside the lists of a node's own fields. -/
def Node.passedOver (n : Node) : List Node :=
  n.fields.flatMap fun entry => entry.2.passedOver

mutual

private theorem Node.mem_nodes_iff_visited {m : Node} :
    ∀ n : Node, m ∈ n.nodes ↔ m ∈ n.visited ∨ ∃ k ∈ n.visited, m ∈ k.passedOver
  | ⟨kind, attributes, fields, generated⟩ => by
      have hfields := mem_nodesInFields_iff_visited (m := m) fields
      rw [Node.nodes, Node.visited]
      simp only [List.mem_append, List.mem_singleton, or_and_right, exists_or, exists_eq_left,
        hfields, Node.passedOver]
      grind

private theorem Value.mem_nodes_iff_visited {m : Node} :
    ∀ value : Value, m ∈ value.nodes ↔
      m ∈ value.passedOver ∨ m ∈ value.visited ∨ ∃ k ∈ value.visited, m ∈ k.passedOver
  | .node n => by
      have hn := n.mem_nodes_iff_visited (m := m)
      simp only [Value.nodes, Value.visited, Value.passedOver, hn, List.not_mem_nil, false_or]
  | .list items => mem_nodesIn_iff_visited items
  | .pair _ value => by simp [Value.nodes, Value.visited, Value.passedOver]
  | .scalar _ => by simp [Value.nodes, Value.visited, Value.passedOver]
  | .obj _ => by simp [Value.nodes, Value.visited, Value.passedOver]

private theorem mem_nodesIn_iff_visited {m : Node} :
    ∀ items : List Value, m ∈ nodesIn items ↔
      m ∈ (Value.list items).passedOver ∨
        m ∈ visitedIn items ∨ ∃ k ∈ visitedIn items, m ∈ k.passedOver
  | [] => by simp [nodesIn, visitedIn, Value.passedOver]
  | .node n :: rest => by
      have hrest := mem_nodesIn_iff_visited (m := m) rest
      have hn := n.mem_nodes_iff_visited (m := m)
      simp only [nodesIn, Value.nodes, visitedIn, List.mem_append, hn, hrest, Value.passedOver,
        List.flatMap_cons, List.nil_append]
      grind
  | .list inner :: rest => by
      have hrest := mem_nodesIn_iff_visited (m := m) rest
      simp only [nodesIn, visitedIn, List.mem_append, hrest, Value.passedOver,
        List.flatMap_cons]
      grind
  | .pair _ value :: rest => by
      have hrest := mem_nodesIn_iff_visited (m := m) rest
      simp only [nodesIn, visitedIn, List.mem_append, hrest, Value.passedOver,
        List.flatMap_cons]
      grind
  | .scalar _ :: rest | .obj _ :: rest => by
      have hrest := mem_nodesIn_iff_visited (m := m) rest
      simp only [nodesIn, Value.nodes, visitedIn, List.nil_append, hrest, Value.passedOver,
        List.flatMap_cons]

private theorem mem_nodesInFields_iff_visited {m : Node} :
    ∀ fields : List (String × Value), m ∈ nodesInFields fields ↔
      (m ∈ fields.flatMap fun entry => entry.2.passedOver) ∨
        m ∈ visitedInFields fields ∨ ∃ k ∈ visitedInFields fields, m ∈ k.passedOver
  | [] => by simp [nodesInFields, visitedInFields]
  | (_, value) :: rest => by
      have hrest := mem_nodesInFields_iff_visited (m := m) rest
      have hvalue := value.mem_nodes_iff_visited (m := m)
      simp only [nodesInFields, visitedInFields, List.mem_append, hvalue, hrest,
        List.flatMap_cons]
      grind

end

private theorem mem_flatMap_nodes_iff_visited {m : Node} {nodes : List Node} :
    m ∈ nodes.flatMap Node.nodes ↔
      m ∈ nodes.flatMap Node.visited ∨ ∃ n ∈ nodes.flatMap Node.visited, m ∈ n.passedOver := by
  simp only [List.mem_flatMap, Node.mem_nodes_iff_visited]
  grind

/-! ## Dropping marks -/

mutual

@[simp] theorem Node.unmarked_stripMarks : ∀ n : Node, n.stripMarks.unmarked = n.unmarked
  | ⟨_, _, fields, _⟩ => by
      simp [Node.stripMarks, Node.unmarked, unmarkedFields_stripFields fields]

@[simp]
theorem Value.unmarked_stripMarks : ∀ value : Value, value.stripMarks.unmarked = value.unmarked
  | .node n => by rw [Value.stripMarks, Value.unmarked, Value.unmarked, n.unmarked_stripMarks]
  | .list items => by
      rw [Value.stripMarks, Value.unmarked, Value.unmarked, unmarkedItems_stripItems items]
  | .scalar _ | .obj _ | .pair _ _ => rfl

@[simp] theorem unmarkedItems_stripItems :
    ∀ items : List Value, unmarkedItems (stripItems items) = unmarkedItems items
  | [] => rfl
  | .node n :: rest => by
      rw [stripItems, unmarkedItems, unmarkedItems, Value.unmarked, Value.unmarked,
        n.unmarked_stripMarks, unmarkedItems_stripItems rest]
  | .list _ :: rest | .scalar _ :: rest | .obj _ :: rest | .pair _ _ :: rest => by
      simp only [stripItems, unmarkedItems, unmarkedItems_stripItems rest]

@[simp] theorem unmarkedFields_stripFields :
    ∀ fields : List (String × Value),
      unmarkedFields (stripFields fields) = unmarkedFields fields
  | [] => rfl
  | (_, value) :: rest => by
      rw [stripFields, unmarkedFields, unmarkedFields, value.unmarked_stripMarks,
        unmarkedFields_stripFields rest]

end

mutual

@[simp] theorem Node.visited_stripMarks :
    ∀ n : Node, n.stripMarks.visited = n.visited.map Node.stripMarks
  | ⟨_, _, fields, _⟩ => by
      rw [Node.stripMarks, Node.visited, Node.visited, visitedInFields_stripFields fields,
        List.map_append]
      rfl

@[simp] theorem Value.visited_stripMarks :
    ∀ value : Value, value.stripMarks.visited = value.visited.map Node.stripMarks
  | .node n => n.visited_stripMarks
  | .list items => visitedIn_stripItems items
  | .scalar _ | .obj _ | .pair _ _ => rfl

@[simp] theorem visitedIn_stripItems :
    ∀ items : List Value, visitedIn (stripItems items) = (visitedIn items).map Node.stripMarks
  | [] => rfl
  | .node n :: rest => by
      rw [stripItems, visitedIn, visitedIn, n.visited_stripMarks, visitedIn_stripItems rest,
        List.map_append]
  | .list _ :: rest | .scalar _ :: rest | .obj _ :: rest | .pair _ _ :: rest => by
      simp only [stripItems, visitedIn, visitedIn_stripItems rest]

@[simp] theorem visitedInFields_stripFields :
    ∀ fields : List (String × Value),
      visitedInFields (stripFields fields) = (visitedInFields fields).map Node.stripMarks
  | [] => rfl
  | (_, value) :: rest => by
      rw [stripFields, visitedInFields, visitedInFields, value.visited_stripMarks,
        visitedInFields_stripFields rest, List.map_append]

end

@[simp] theorem Node.isMarked_stripMarks : ∀ n : Node, n.stripMarks.isMarked = false
  | ⟨_, attributes, _, _⟩ => by
      rw [Node.stripMarks, Node.isMarked]
      exact Record.has_erase_self attributes syntheticMark

@[simp] theorem Value.passedOver_stripMarks (value : Value) :
    value.stripMarks.passedOver = value.passedOver := by
  cases value with
  | list items =>
      rw [Value.stripMarks]
      induction items with
      | nil => rfl
      | cons item rest ih =>
          cases item <;> simpa [stripItems, Value.passedOver] using ih
  | _ => rfl

@[simp] theorem Node.passedOver_stripMarks : ∀ n : Node, n.stripMarks.passedOver = n.passedOver
  | ⟨_, _, fields, _⟩ => by
      simp only [Node.stripMarks, Node.passedOver]
      induction fields with
      | nil => rfl
      | cons entry rest ih =>
          simp [stripFields, ih]

/-! ## Loading -/

private theorem loadTree_true_eq_ok {data : Json} {nodes : List Node} :
    loadTree true data = .ok nodes ↔
      ∃ kept, loadTree false data = .ok kept ∧ nodes = kept.map Node.stripMarks := by
  unfold loadTree
  cases loadNodes data <;> simp [bind, Except.bind, eq_comm]

variable {data : Json} {nodes : List Node}

/-- No visited node of a loaded tree is marked, and nothing but marks is lost.  No node at
all is marked exactly if none is of those that a walk passes over. -/
theorem loadTree_unmarks_visited (h : loadTree true data = .ok nodes) :
    ∃ kept, loadTree false data = .ok kept ∧
      nodes.map Node.unmarked = kept.map Node.unmarked ∧
      (∀ n ∈ nodes.flatMap Node.visited, n.isMarked = false) ∧
      ((∀ n ∈ nodes.flatMap Node.nodes, n.isMarked = false) ↔
        ∀ n ∈ kept.flatMap Node.visited, ∀ m ∈ n.passedOver, m.isMarked = false) ∧
      ((∀ n ∈ nodes.flatMap Node.nodes, n.isMarked = false) →
        nodes = kept.map Node.unmarked) := by
  obtain ⟨kept, hkept, rfl⟩ := loadTree_true_eq_ok.mp h
  have hvisited : (kept.map Node.stripMarks).flatMap Node.visited =
      (kept.flatMap Node.visited).map Node.stripMarks := by
    rw [List.flatMap_map, List.map_flatMap]
    simp
  have hunmarked : (kept.map Node.stripMarks).map Node.unmarked = kept.map Node.unmarked := by
    simp
  have hall : ∀ n ∈ (kept.map Node.stripMarks).flatMap Node.visited, n.isMarked = false := by
    rw [hvisited]
    intro n hn
    obtain ⟨source, -, rfl⟩ := List.mem_map.mp hn
    exact source.isMarked_stripMarks
  -- A node that is not visited is in a visited one, which strips to one with the same inside.
  have hnodes : ∀ m, m ∈ (kept.map Node.stripMarks).flatMap Node.nodes ↔
      m ∈ (kept.map Node.stripMarks).flatMap Node.visited ∨
        ∃ n ∈ kept.flatMap Node.visited, m ∈ n.passedOver := by
    intro m
    rw [mem_flatMap_nodes_iff_visited, hvisited]
    refine or_congr_right ⟨fun ⟨n, hn, hm⟩ => ?_, fun ⟨source, hsource, hm⟩ => ?_⟩
    · obtain ⟨source, hsource, rfl⟩ := List.mem_map.mp hn
      exact ⟨source, hsource, source.passedOver_stripMarks ▸ hm⟩
    · exact ⟨source.stripMarks, List.mem_map_of_mem hsource, source.passedOver_stripMarks ▸ hm⟩
  refine ⟨kept, hkept, hunmarked, hall, ?_, fun hnone => ?_⟩
  · constructor
    · exact fun hnone n hn m hm => hnone m ((hnodes m).mpr (.inr ⟨n, hn, hm⟩))
    · intro hnone m hm
      rcases (hnodes m).mp hm with hm | ⟨n, hn, hm⟩
      · exact hall m hm
      · exact hnone n hn m hm
  · rw [← hunmarked]
    refine (List.map_id _).symm.trans (List.map_congr_left fun n hn => ?_)
    exact (Node.unmarked_eq_self fun m hm => hnone m (List.mem_flatMap.mpr ⟨n, hn, hm⟩)).symm

namespace Sample

/-- A marked variable in a marked statement, held by its list or by a list in the list. -/
def markedEcho (nested : Bool) : Json :=
  let mark : String × Json := ("attributes", .obj [(syntheticMark, .bool true)])
  let x : Json := .obj [("nodeType", .str "Expr_Variable"), ("name", .str "x"), mark]
  .arr [.obj [("nodeType", .str "Stmt_Echo"),
    ("exprs", .arr [if nested then .arr [x] else x]), mark]]

def echoOf (nested : Bool) : List Node :=
  (loadTree true (markedEcho nested)).toOption.getD []

end Sample

theorem loadTree_unmarks_listed :
    loadTree true (Sample.markedEcho false) = .ok (Sample.echoOf false) ∧
      ∀ n ∈ (Sample.echoOf false).flatMap Node.nodes, n.isMarked = false := by
  have hload : loadTree true (Sample.markedEcho false) = .ok (Sample.echoOf false) := rfl
  obtain ⟨kept, hkept, -, -, hmarks, -⟩ := loadTree_unmarks_visited hload
  refine ⟨hload, hmarks.mpr ?_⟩
  cases hkept
  decide

/-- In a list inside a list the mark is left. -/
theorem loadTree_keeps_nested_mark : ∃ nodes, loadTree true (Sample.markedEcho true) = .ok nodes ∧
    ∃ n ∈ nodes.flatMap Node.nodes, n.kind = .expression .variableRef ∧ n.isMarked = true :=
  ⟨Sample.echoOf true, rfl, by decide⟩

end ScriptSandbox
