import ScriptSandbox.Proofs.Enforce.Closures
import ScriptSandbox.Proofs.Gate.Validation

/-!
# Closures in guarded trees

If validation of a flat loaded tree returns, every closure in the guarded tree, at any depth
and in copies of callees too, imports the runtime once, by its last use, after the uses of a
closure of the script.  The closure of the script itself is not changed: a copy of it takes
its place.
-/

namespace ScriptSandbox

namespace Gate

variable {nodes : List Node} {guarded : Tree} {store after : Store}

/-- All entries of the uses of closures are nodes for uses. -/
def UsesWellFormed (nodes : List Node) : Prop :=
  ∀ n ∈ nodes.flatMap Node.nodes, n.kind = .expression .closure →
    ∀ uses, n.fieldItems "uses" = .ok uses → ∀ item ∈ uses, item.IsUse

theorem closures_import_handle (hloaded : Loaded nodes) (hflat : ∀ n ∈ nodes, n.nestsLists = false)
    (huses : UsesWellFormed nodes)
    (hrun : (validate (nodes.map .node)).exec store = (.ok guarded, after)) :
    (∀ n ∈ nodesIn guarded, n.kind = .expression .closure →
      ∃ source origin own, source ∈ nodes.flatMap Node.nodes ∧
        Walk.Leaves Enforce.visitor (Judge.Reaches store) source origin ∧ n.StemsFrom origin ∧
        source.fieldItems "uses" = .ok own ∧ n.ImportsLast store.handle own) ∧
    ∀ source ∈ nodes.flatMap Node.nodes, source.kind = .expression .closure →
      ∀ origin, Walk.Leaves Enforce.visitor (Judge.Reaches store) source origin →
        Run.Yields (Judge.Reaches store) (Enforce.visitor.leave origin) fun verdict =>
          ∃ uses, origin.fieldItems "uses" = .ok uses ∧
            (∀ use ∈ uses, ¬ use.UsesVariable store.handle) ∧
            verdict = .replace (origin.withHandle store.handle uses) := by
  have hraw : ∀ source ∈ nodes.flatMap Node.nodes, source.isRaw = true := by
    intro source hsource
    obtain ⟨parent, hparent, hsource⟩ := List.mem_flatMap.mp hsource
    exact Node.isRaw_of_mem (hloaded.isRaw parent hparent) source hsource
  have hnew : ∀ source ∈ nodes.flatMap Node.nodes, ∀ m ∈ source.nodes, m.generated = false :=
    fun source hsource => Node.not_generated_of_isRaw (hraw source hsource)
  have hopen : ∀ n ∈ nodes, n.isOpen = true :=
    fun n hn => Node.isOpen_of_isRaw (hloaded.isRaw n hn) (hflat n hn)
  have hwalk : Run.Yields (Judge.Reaches store) (validate (nodes.map .node))
      (fun walked => ∀ item ∈ walked, item.Each
        (Node.ImportsIfClosure store (· ∈ nodes.flatMap Node.nodes))) := by
    refine Walk.tree_settled ?_ rfl (fun _ => rfl) (itemsOpen_map_node_iff.mpr hopen)
    rw [nodesIn_map_node]
    exact Enforce.settles_closures hnew huses
  constructor
  · intro n hn hkind
    obtain ⟨item, hitem, hn⟩ := mem_nodesIn.mp hn
    exact ((hwalk.ok .start hrun).2 item hitem n hn hkind).importsLast hraw
  · intro source hsource hkind origin hleaves
    have hrule : origin.kind.rule = .closure := by
      rw [hleaves.sameOutline.kind, hkind]
      rfl
    have hgenerated : origin.generated = false :=
      hleaves.sameOutline.generated.trans (hnew source hsource source source.self_mem_nodes)
    have hleft :=
      Enforce.leftUses_of_leaves (hnew source hsource) (huses source hsource hkind) hleaves
    refine (Enforce.node_imports hgenerated hrule hleft).mono fun verdict himports => ?_
    obtain ⟨_, uses, _, hread, hkept, hverdict⟩ := himports
    exact ⟨uses, hread, hkept.free, hverdict⟩

end Gate

namespace Sample

def calledClosure : Json :=
  let use (name : String) := entry "Expr_ClosureUse" [("var", .str name), ("byRef", .bool false)]
  let inner := entry "Expr_Closure" [("uses", .arr [use "x", use "y"]), ("stmts", .arr [])]
  let outer := entry "Expr_Closure"
    [("uses", .arr [use "x"]), ("stmts", .arr [entry "Stmt_Return" [("expr", inner)]])]
  .arr [callEntry outer (variableEntry "z")]

def closureStore : Store :=
  Store.empty (Options.default.setFlag (.allow .closures) true) false

end Sample

namespace Gate

theorem closures_import_handle_of_called : ∃ after,
    (validate ((Sample.nodesOf Sample.calledClosure).map .node)).exec Sample.closureStore =
        (.ok (Sample.guardedOf Sample.closureStore Sample.calledClosure), after) ∧
      ((nodesIn (Sample.guardedOf Sample.closureStore Sample.calledClosure)).filter
        fun n => n.kind = .expression .closure).length = 4 ∧
      ∀ n ∈ nodesIn (Sample.guardedOf Sample.closureStore Sample.calledClosure),
        n.kind = .expression .closure → ∃ own, n.ImportsLast Sample.closureStore.handle own := by
  have hloaded : Loaded (Sample.nodesOf Sample.calledClosure) := ⟨true, Sample.calledClosure, rfl⟩
  have hpasses : ((validate ((Sample.nodesOf Sample.calledClosure).map .node)).exec
      Sample.closureStore).1.isOk = true := by decide
  have huses : UsesWellFormed (Sample.nodesOf Sample.calledClosure) := by
    intro n hn hkind uses hread
    have hall : ∀ n ∈ (Sample.nodesOf Sample.calledClosure).flatMap Node.nodes,
        n.kind = .expression .closure →
          ∀ uses ∈ (n.fieldItems "uses").toOption, ∀ item ∈ uses, item.IsUse := by decide
    exact hall n hn hkind uses (by rw [hread]; rfl)
  obtain ⟨after, hrun⟩ := Sample.exec_validate hpasses
  obtain ⟨himports, _⟩ := closures_import_handle hloaded (by decide) huses hrun
  refine ⟨after, hrun, by decide, fun n hn hkind => ?_⟩
  obtain ⟨_, _, own, _, _, _, _, hlast⟩ := himports n hn hkind
  exact ⟨own, hlast⟩

end Gate

end ScriptSandbox
