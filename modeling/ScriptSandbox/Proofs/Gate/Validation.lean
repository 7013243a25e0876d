import ScriptSandbox.Proofs.Enforce.Sound
import ScriptSandbox.Proofs.Tree.Loaded
import ScriptSandbox.Proofs.Walk.Coverage
import ScriptSandbox.Tree.Script

/-!
# Validation is sound

If validation of a plain tree returns, every node of the guarded tree, at any depth,
meets the policy of its kind or was generated by the sandbox, and the policy itself
is what it was before.  A tree that is not open is another matter: what it holds in
lists inside lists is loaded and shown, but never offered to a visitor.
-/

namespace ScriptSandbox

/-- What a walk that judges a tree can leave of one of its nodes before it is judged. -/
def Offered (store : Store) (nodes : List Node) (n : Node) : Prop :=
  ∃ source ∈ nodes.flatMap Node.nodes,
    Walk.Leaves Enforce.visitor (Judge.Reaches store) source n

/-- Read from a file without its marks, with no list inside a list in any field. -/
structure Plain (nodes : List Node) : Prop where
  loaded : ∃ data, loadTree true data = .ok nodes
  flat : ∀ n ∈ nodes, n.nestsLists = false

theorem not_generated_of_loadTree {strip : Bool} {data : Json} {nodes : List Node}
    (h : loadTree strip data = .ok nodes) :
    ∀ n ∈ nodes.flatMap Node.nodes, n.generated = false := by
  intro n hn
  obtain ⟨parent, hparent, hn⟩ := List.mem_flatMap.mp hn
  exact Node.not_generated_of_isRaw (loadTree_isRaw h parent hparent) n hn

theorem Plain.isOpen {nodes : List Node} (h : Plain nodes) : ∀ n ∈ nodes, n.isOpen = true := by
  obtain ⟨data, hdata⟩ := h.loaded
  exact fun n hn => Node.isOpen_of_isRaw (loadTree_isRaw hdata n hn) (h.flat n hn)

namespace Gate

variable {nodes : List Node} {guarded : Tree} {store after : Store}

private theorem enforce_settles (hnew : ∀ n ∈ nodes.flatMap Node.nodes, n.generated = false) :
    Walk.Settles Enforce.visitor (Judge.Reaches store) (Value.Sound store (Offered store nodes))
      (· ∈ nodes.flatMap Node.nodes) where
  free _ hnodes := Value.sound_of_nodes_eq_nil hnodes
  leave source n hsource hleaves hsettled := by
    have hgenerated : n.generated = false :=
      hleaves.sameOutline.generated.trans (hnew source hsource)
    refine (Enforce.node_yields hgenerated).mono fun verdict houtcome => ?_
    exact houtcome.places ⟨source, hsource, hleaves⟩ hsettled

private theorem validate_sound (hnew : ∀ n ∈ nodes.flatMap Node.nodes, n.generated = false)
    (hopen : ∀ n ∈ nodes, n.isOpen = true)
    (hrun : (validate (nodes.map .node)).exec store = (.ok guarded, after)) :
    Judge.Reaches store after ∧
      ∀ n ∈ nodesIn guarded, n.Sound store (Offered store nodes) := by
  have hwalk : Run.Yields (Judge.Reaches store) (validate (nodes.map .node))
      (fun walked => ∀ item ∈ walked, item.Sound store (Offered store nodes)) := by
    refine Walk.tree_settled ?_ rfl (fun _ => rfl) (itemsOpen_map_node_iff.mpr hopen)
    rw [nodesIn_map_node]
    exact enforce_settles hnew
  obtain ⟨hreaches, hsound⟩ := hwalk.ok .start hrun
  refine ⟨hreaches, fun n hn => ?_⟩
  obtain ⟨item, hitem, hn⟩ := mem_nodesIn.mp hn
  exact (hsound item hitem).1 n hn

theorem validate_sound_of_plain (h : Plain nodes)
    (hrun : (validate (nodes.map .node)).exec store = (.ok guarded, after)) :
    Judge.Reaches store after ∧
      ∀ n ∈ nodesIn guarded, n.Sound store (Offered store nodes) := by
  obtain ⟨data, hdata⟩ := h.loaded
  exact validate_sound (not_generated_of_loadTree hdata) h.isOpen hrun

/-- An unmarked node of a guarded tree meets the policy of its kind, and the policy stays. -/
theorem validate_meets_policy (h : Plain nodes)
    (hrun : (validate (nodes.map .node)).exec store = (.ok guarded, after)) :
    store.SamePolicy after ∧
      ∀ n ∈ nodesIn guarded, n.isSynthetic = false → n.Meets store := by
  obtain ⟨hreaches, hsound⟩ := validate_sound_of_plain h hrun
  exact ⟨hreaches.samePolicy, fun n hn hmark => (hsound n hn).meets hmark⟩

end Gate

namespace Sample

def entry (kind : String) (fields : Record Json) : Json :=
  .obj (("nodeType", .str kind) :: fields)

def nameEntry (name : String) : Json :=
  entry "Name" [("parts", .arr [.str name])]

def variableEntry (name : String) : Json :=
  entry "Expr_Variable" [("name", .str name)]

def callEntry (callee argument : Json) : Json :=
  entry "Expr_FuncCall"
    [("name", callee), ("args", .arr [entry "Arg" [("value", argument)]])]

def nodesOf (file : Json) : List Node :=
  (loadTree true file).toOption.getD []

def treeOf (file : Json) : Tree :=
  (nodesOf file).map .node

theorem plain_nodesOf {file : Json} (hloads : (loadTree true file).isOk = true)
    (hflat : (nodesOf file).all (fun n => !n.nestsLists) = true) : Plain (nodesOf file) := by
  cases hloaded : loadTree true file with
  | error fault => rw [hloaded] at hloads; cases hloads
  | ok nodes =>
      have hnodes : nodesOf file = nodes := by rw [nodesOf, hloaded]; rfl
      rw [hnodes] at hflat ⊢
      refine ⟨⟨file, hloaded⟩, fun n hn => ?_⟩
      simpa using List.all_eq_true.mp hflat n hn

def guardedOf (store : Store) (file : Json) : Tree :=
  ((Gate.validate ((nodesOf file).map .node)).exec store).1.toOption.getD []

theorem exec_validate {store : Store} {file : Json}
    (h : ((Gate.validate ((nodesOf file).map .node)).exec store).1.isOk = true) :
    ∃ after, (Gate.validate ((nodesOf file).map .node)).exec store =
      (.ok (guardedOf store file), after) := by
  obtain ⟨guarded, after, hrun⟩ := exists_of_isOk h
  exact ⟨after, by rw [guardedOf, hrun]; rfl⟩

def script : Json :=
  .arr [entry "Stmt_Function" [("name", .str "f"),
    ("params", .arr [entry "Param" [("name", .str "x")]]),
    ("stmts", .arr [entry "Stmt_Return" [("expr",
      callEntry (entry "Name" [("parts", .arr [.str "strlen"])])
        (callEntry (variableEntry "g") (variableEntry "x")))]])]]

def openStore : Store :=
  Store.empty ((Options.default.setFlag (.allow .namespaces) true).setFlag (.allow .aliases) true)
    false

def store : Store :=
  (Store.empty (Options.default.setFlag (.allow .functions) true) false).override "strlen"

theorem plain_script : Plain (nodesOf script) :=
  plain_nodesOf (by decide) (by decide)

theorem script_passes :
    ((Gate.validate ((nodesOf script).map .node)).exec store).1.isOk = true := by
  decide

end Sample

namespace Gate

theorem validate_meets_policy_of_script : ∃ after n,
    (validate ((Sample.nodesOf Sample.script).map .node)).exec Sample.store =
        (.ok (Sample.guardedOf Sample.store Sample.script), after) ∧
      Sample.store.SamePolicy after ∧
      n ∈ nodesIn (Sample.guardedOf Sample.store Sample.script) ∧
      n.kind = .statement .functionDecl ∧ n.isSynthetic = false ∧ n.Meets Sample.store := by
  obtain ⟨after, hrun⟩ := Sample.exec_validate Sample.script_passes
  have hdecl : (nodesIn (Sample.guardedOf Sample.store Sample.script)).any
      (fun n => n.kind = .statement .functionDecl && !n.isSynthetic) = true := by decide +kernel
  obtain ⟨n, hn, hdecl⟩ := List.any_eq_true.mp hdecl
  rw [Bool.and_eq_true, decide_eq_true_eq, Bool.not_eq_true'] at hdecl
  obtain ⟨hpolicy, hmeets⟩ := validate_meets_policy Sample.plain_script hrun
  exact ⟨after, n, hrun, hpolicy, hn, hdecl.1, hdecl.2, hmeets n hn hdecl.2⟩

variable {nodes : List Node}

/--
A walk offers a visitor that keeps every node the visited nodes, one by one and in
order.  These are all nodes of the tree, each once, exactly when the tree is open; and
then every unmarked node of the guarded tree stems from one that was offered.
-/
theorem loaded_tree_offered_iff_open {strip : Bool} {data : Json} {σ ε : Type}
    {visitor : Visitor σ ε} (hloaded : loadTree strip data = .ok nodes)
    (hkeeps : visitor.AlwaysKeeps)
    (hbefore : visitor.before (nodes.map .node) = nodes.map .node) (state : σ) :
    (Walk.tree [visitor] (nodes.map .node)).exec state =
        (.ok (visitor.after (nodes.map .node)),
          (nodes.flatMap Node.visited).foldl visitor.offered state) ∧
      (nodes.flatMap Node.visited).Sublist (nodes.flatMap Node.nodes) ∧
      ((nodes.flatMap Node.visited).Perm (nodes.flatMap Node.nodes) ↔
        ∀ n ∈ nodes, n.isOpen = true) ∧
      ((∀ n ∈ nodes, n.isOpen = true) → ∀ store guarded after,
        (validate (nodes.map .node)).exec store = (.ok guarded, after) →
          ∀ n ∈ nodesIn guarded, n.isSynthetic = false →
            n.Meets store ∧ ∃ origin, Offered store nodes origin ∧ n.StemsFrom origin) := by
  have hsublist : (nodes.flatMap Node.visited).Sublist (nodes.flatMap Node.nodes) := by
    rw [← visitedIn_map_node, ← nodesIn_map_node]
    exact visitedIn_sublist _
  have hall : nodes.flatMap Node.visited = nodes.flatMap Node.nodes ↔
      ∀ n ∈ nodes, n.isOpen = true := by
    rw [← visitedIn_map_node, ← nodesIn_map_node, visitedIn_eq_nodes_iff,
      itemsOpen_map_node_iff]
  refine ⟨?_, hsublist, ?_, fun hopen store guarded after hrun n hn hmark => ?_⟩
  · simp [Walk.tree_of_alwaysKeeps hkeeps, hbefore]
  · exact ⟨fun h => hall.mp (hsublist.eq_of_length h.length_eq), fun h => by rw [hall.mpr h]⟩
  · have hsound := validate_sound (not_generated_of_loadTree hloaded) hopen hrun
    exact ⟨(hsound.2 n hn).meets hmark, (hsound.2 n hn).stems hmark⟩

end Gate

namespace Sample

/-- The handle in a list inside a list. -/
def nested : Json :=
  .arr [entry "Stmt_Echo" [("exprs", .arr [.arr [variableEntry "__sandbox"]])]]

def recorder : ScriptedVisitor :=
  { record := some "seen", kind := none, name := none, action := .nothing
    before := [], after := [] }

private theorem recorder_alwaysKeeps : recorder.visitor.AlwaysKeeps :=
  fun _ _ => rfl

end Sample

namespace Gate

theorem nested_tree_offered_iff_open :
    loadTree true Sample.nested = .ok (Sample.nodesOf Sample.nested) ∧
      (Walk.tree [Sample.recorder.visitor] ((Sample.nodesOf Sample.nested).map .node)).exec [] =
        (.ok ((Sample.nodesOf Sample.nested).map .node),
          ((Sample.nodesOf Sample.nested).flatMap Node.visited).foldl
            Sample.recorder.visitor.offered []) ∧
      ¬ ((Sample.nodesOf Sample.nested).flatMap Node.visited).Perm
        ((Sample.nodesOf Sample.nested).flatMap Node.nodes) := by
  have hloaded : loadTree true Sample.nested = .ok (Sample.nodesOf Sample.nested) := rfl
  obtain ⟨hwalk, _, hiff, _⟩ :=
    loaded_tree_offered_iff_open hloaded Sample.recorder_alwaysKeeps rfl []
  exact ⟨hloaded, hwalk, fun h => absurd (hiff.mp h) (by decide +kernel)⟩

/-- The handle is loaded, is never offered, and is left where it was. -/
theorem nested_handle_is_not_offered :
    loadTree true Sample.nested = .ok (Sample.nodesOf Sample.nested) ∧
      Sample.recorder.visitor.AlwaysKeeps ∧
      ((Sample.nodesOf Sample.nested).flatMap Node.nodes).map Node.kind =
        [.expression .variableRef, .statement .echo] ∧
      (Walk.tree [Sample.recorder.visitor] ((Sample.nodesOf Sample.nested).map .node)).exec [] =
        (.ok ((Sample.nodesOf Sample.nested).map .node), [⟨"seen", .statement .echo, none⟩]) ∧
      (validate ((Sample.nodesOf Sample.nested).map .node)).exec Sample.store =
        (.ok ((Sample.nodesOf Sample.nested).map .node), Sample.store) :=
  ⟨rfl, Sample.recorder_alwaysKeeps, rfl, rfl, rfl⟩

end Gate

end ScriptSandbox
