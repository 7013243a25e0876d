import ScriptSandbox.Proofs.Gate.Validation
import ScriptSandbox.Proofs.Harvest.References

/-!
# What the harvest of trusted code changes

The harvest of trusted code lists what the code refers to and declares the functions that
it declares.  The first store decides what is listed: a name that is listed on the way
starts no list of variables, and nothing else that is asked of a store changes.
-/

namespace ScriptSandbox

namespace Gate

variable {store after : Store} {trusted walked : Tree}

/--
A harvest of trusted code that returns leaves a category with a deny-list as it is.  Any other
category has gained exactly the names to which the visited nodes refer by the first store,
whatever the order of the nodes; each node is read with the lists inside it flattened.  The
functions of the code are declared, and what the store permits by has not changed otherwise.
-/
theorem harvest_lists_references
    (hrun : (Walk.tree [TrustedHarvest.visitor] trusted).exec store = (.ok walked, after)) :
    (∀ category, store.hasBlacklist category = true →
        after.allowedIn category = store.allowedIn category) ∧
      (∀ category, store.hasBlacklist category = false → ∀ key,
        key ∈ after.allowedIn category ↔
          key ∈ store.allowedIn category ∨
            TrustedHarvest.Referenced store ((visitedIn trusted).map Node.flattened) category key) ∧
      after.declared = store.declared ++ (visitedIn trusted).filterMap Node.functionName? ∧
      after.options = store.options ∧ after.denied = store.denied ∧
      after.predicates = store.predicates ∧ after.overrides = store.overrides ∧
      after.classes = store.classes ∧ after.magicConsts = store.magicConsts := by
  have hgains := TrustedHarvest.gains_of_tree hrun
  obtain ⟨hgrows, hallowed, hclosed, hdeclared⟩ := hgains
  refine ⟨hclosed, fun category hopen key => ?_, hdeclared, hgrows.options, hgrows.denied,
    hgrows.predicates, hgrows.overrides, hgrows.classes, hgrows.magicConsts⟩
  rw [Store.allowedIn, Store.mem_namesIn, hallowed, Store.allowedIn, Store.mem_namesIn]
  refine or_congr_right ⟨?_, ?_⟩
  · rintro ⟨_, hne, name, ⟨n, hn, hrefers⟩, hkey⟩
    exact ⟨hne, n, hn, name, hrefers, hkey⟩
  · rintro ⟨hne, n, hn, name, hrefers, hkey⟩
    exact ⟨hopen, hne, name, ⟨n, hn, hrefers⟩, hkey⟩

end Gate

namespace Sample

def trustedCode : Json :=
  .arr [
    entry "Stmt_Namespace" [("name", nameEntry "Lib"), ("stmts", .arr [
      entry "Stmt_Use" [("uses", .arr [])],
      callEntry (nameEntry "Define") (entry "Scalar_String" [("value", .str "LIMIT")]),
      entry "Stmt_Function" [("name", .str "Helper"), ("params", .arr []), ("stmts", .arr [])]])],
    entry "Stmt_Global" [("vars", .arr [variableEntry "db"])],
    entry "Stmt_Class" [("name", .str "Point"), ("stmts", .arr [])],
    entry "Expr_New" [("class", nameEntry "DateTime"), ("args", .arr [])]]

def restrictingStore : Store :=
  ((Store.empty (Options.default.setFlag (.allow .variables) false) true).whitelist
    .variables "a").blacklist .classes "Evil"

end Sample

namespace Gate

theorem harvest_lists_references_of_code : ∃ walked after,
    (Walk.tree [TrustedHarvest.visitor] (Sample.treeOf Sample.trustedCode)).exec
        Sample.restrictingStore = (.ok walked, after) ∧
      after.allowed = [(.variables, "a"), (.functions, "define"), (.constants, "LIMIT"),
        (.functions, "helper"), (.variables, "db"), (.types, "datetime")] ∧
      TrustedHarvest.Referenced Sample.restrictingStore
        ((visitedIn (Sample.treeOf Sample.trustedCode)).map Node.flattened) .constants "LIMIT" ∧
      ¬ TrustedHarvest.Referenced Sample.restrictingStore
        ((visitedIn (Sample.treeOf Sample.trustedCode)).map Node.flattened) .functions "exec" ∧
      after.allowedIn .classes = Sample.restrictingStore.allowedIn .classes ∧
      after.declared = ["helper"] := by
  have hrun : ∃ walked after,
      (Walk.tree [TrustedHarvest.visitor] (Sample.treeOf Sample.trustedCode)).exec
          Sample.restrictingStore = (.ok walked, after) ∧
        after.allowed = [(.variables, "a"), (.functions, "define"), (.constants, "LIMIT"),
          (.functions, "helper"), (.variables, "db"), (.types, "datetime")] :=
    ⟨_, _, rfl, by decide +kernel⟩
  obtain ⟨walked, after, hrun, hallowed⟩ := hrun
  obtain ⟨hclosed, hlisted, hdeclared, _⟩ := harvest_lists_references hrun
  have hlimit : "LIMIT" ∈ after.allowedIn .constants := by
    simp [Store.allowedIn, Store.mem_namesIn, hallowed]
  have hconstant := (hlisted .constants (by decide) "LIMIT").mp hlimit
  refine ⟨walked, after, hrun, hallowed, hconstant.resolve_left (by decide), fun hexec => ?_,
    hclosed .classes (by decide), ?_⟩
  · have hmem := (hlisted .functions (by decide) "exec").mpr (.inr hexec)
    simp [Store.allowedIn, Store.mem_namesIn, hallowed] at hmem
  · rw [hdeclared]
    decide +kernel

end Gate

end ScriptSandbox
