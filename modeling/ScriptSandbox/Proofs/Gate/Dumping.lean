import ScriptSandbox.Proofs.Gate.Validation
import ScriptSandbox.Proofs.Tree.Dumped
import ScriptSandbox.Tree.File

/-!
# Dumps of loaded trees

The kind that is judged is the kind that is written, except for a node with a field
`nodeType`: the field takes the place of the kind in the dump, whatever it holds.  A tree
without such a field is loaded again from its dump as it was.  The data of a tree is
well-formed, as all that is read from a text is.
-/

namespace ScriptSandbox

variable {strip : Bool} {nodes : List Node}

namespace Gate

/-- The statements are loaded from data whose objects repeat no name, or read from a text. -/
inductive TreeLoads (strip : Bool) (nodes : List Node) : Prop where
  | data (data : Json) (hdata : data.wellFormed = true) (hload : loadTree strip data = .ok nodes)
  | text (text : String) (hread : readTree strip text = .ok nodes)

theorem TreeLoads.wellFormed (hloads : TreeLoads strip nodes) :
    ∀ n ∈ nodes, n.wellFormed = true := by
  cases hloads with
  | data data hdata hload => exact loadTree_wellFormed hdata hload
  | text text hread =>
      unfold readTree at hread
      split at hread
      next => cases hread
      next data hdata =>
        exact loadTree_wellFormed (Json.wellFormed_of_parse? hdata) (mapError_eq_ok.mp hread)

/--
A loaded tree has a dump, which gives every node its kind unless the node has a field
`nodeType`; what such a field holds is written instead.
-/
theorem kind_written_iff (hloads : TreeLoads strip nodes) :
    dumpTree (nodes.map .node) = .ok (.arr (nodes.map Node.dump)) ∧
      ∀ n ∈ nodes.flatMap Node.nodes,
        (n.writtenKind = some (.str n.kind.spelling) ↔
          ∀ value, Record.get? n.fields "nodeType" = some value → value = .str n.kind.spelling) ∧
        ∀ value, Record.get? n.fields "nodeType" = some value → n.writtenKind = some value.dump := by
  have hnodes := hloads.wellFormed
  refine ⟨dumpTree_of_wellFormed hnodes, fun n hn => ?_⟩
  obtain ⟨parent, hparent, hn⟩ := List.mem_flatMap.mp hn
  rw [Node.writtenKind_eq (Node.wellFormed_of_mem (hnodes parent hparent) n hn)]
  cases Record.get? n.fields "nodeType" with
  | none => simp
  | some value => simp [Value.dump_eq_str_iff]

end Gate

namespace Sample

def retyped : Json :=
  .arr [.obj [("kind", .str "Stmt_Echo"), ("nodeType", .str "Stmt_Echo"), ("exprs", .arr [])]]

def retypedText : String :=
  "[\x7b\"kind\": \"Stmt_Echo\", \"nodeType\": \"Stmt_Echo\", \"exprs\": []\x7d]"

/-- An evaluation, given as the field `nodeType` of an empty statement. -/
def disguised : Json :=
  .arr [.obj [("kind", .str "Stmt_Nop"), ("nodeType", .str "Expr_Eval"),
    ("expr", variableEntry "x")]]

def evalDenyingStore : Store :=
  (Store.empty Options.default false).blacklist .keywords "eval"

end Sample

namespace Gate

theorem kind_written_of_retyped :
    readTree true Sample.retypedText = .ok (Sample.nodesOf Sample.retyped) ∧
      ∀ n ∈ (Sample.nodesOf Sample.retyped).flatMap Node.nodes,
        n.writtenKind = some (.str n.kind.spelling) := by
  have hparse : Json.parse? Sample.retypedText = some Sample.retyped := by rfl
  have hread : readTree true Sample.retypedText = .ok (Sample.nodesOf Sample.retyped) := by
    rw [readTree, hparse]
    rfl
  obtain ⟨_, hkinds⟩ := kind_written_iff (.text _ hread)
  have hfields : ∀ n ∈ (Sample.nodesOf Sample.retyped).flatMap Node.nodes,
      (Record.get? n.fields "nodeType").all
        (fun value => value.text? = some n.kind.spelling) = true := by decide
  refine ⟨hread, fun n hn => (hkinds n hn).1.mpr fun value hvalue => ?_⟩
  have hsame := hfields n hn
  rw [hvalue, Option.all_some, decide_eq_true_eq] at hsame
  exact Value.text?_eq_some_iff.mp hsame

/-- Evaluation is denied, and the tree that passes is written as an evaluation. -/
theorem disguised_kind_is_written : ∃ n after,
    loadTree true Sample.disguised = .ok [n] ∧ n.kind = .statement .nop ∧
      Sample.evalDenyingStore.check .keywords "eval" [] = false ∧
      (validate [.node n]).exec Sample.evalDenyingStore = (.ok [.node n], after) ∧
      n.writtenKind = some (.str (Kind.expression .eval).spelling) :=
  ⟨_, Sample.evalDenyingStore, rfl, rfl, by decide, rfl, rfl⟩

/-- Without a field `nodeType`, a loaded tree is what is loaded from its dump. -/
theorem dump_loads_again (hloads : TreeLoads false nodes)
    (hfree : ∀ n ∈ nodes.flatMap Node.nodes, Record.has n.fields "nodeType" = false) :
    ∃ dumped, dumpTree (nodes.map .node) = .ok dumped ∧ loadTree false dumped = .ok nodes :=
  have hnodes := hloads.wellFormed
  ⟨_, dumpTree_of_wellFormed hnodes, loadTree_dump hnodes hfree⟩

end Gate

namespace Sample

def mixed : Json :=
  .arr [.obj [
    ("exprs", .arr [.arr [variableEntry "x"], .obj [("raw", .arr [variableEntry "y"])]]),
    ("attributes", .obj [("synthetic", .scalar (.bool true))]),
    ("kind", .str "Stmt_Echo")]]

def markedNodesOf (file : Json) : List Node :=
  (loadTree false file).toOption.getD []

end Sample

namespace Gate

theorem dump_loads_again_of_mixed : ∃ dumped,
    loadTree false Sample.mixed = .ok (Sample.markedNodesOf Sample.mixed) ∧
      dumpTree ((Sample.markedNodesOf Sample.mixed).map .node) = .ok dumped ∧
      loadTree false dumped = .ok (Sample.markedNodesOf Sample.mixed) := by
  have hdata : Sample.mixed.wellFormed = true := by decide
  have hload : loadTree false Sample.mixed = .ok (Sample.markedNodesOf Sample.mixed) := rfl
  obtain ⟨dumped, hdump, hagain⟩ := dump_loads_again (.data _ hdata hload) (by decide)
  exact ⟨dumped, hload, hdump, hagain⟩

end Gate

end ScriptSandbox
