import ScriptSandbox.Proofs.Enforce.Flattening
import ScriptSandbox.Proofs.Gate.Validation
import ScriptSandbox.Proofs.Harvest.Flattening

/-!
# Namespaces are flattened

A namespace is dissolved into the list that holds it, at any depth and in the order of the
statements, and an import is dropped.  Harvesting trusted code does nothing else to it, and
validation gives every other statement one result in its place.  Neither pass returns where
a namespace or an import is held by itself, since nothing could take its place.
-/

namespace ScriptSandbox

open Judge

theorem Flattens.places_whole {n : Node} {verdict : Verdict}
    (h : Flattens (fun n result => result = n) n verdict) (hsettled : n.Settled Value.StaysWhole) :
    verdict.Places Value.StaysWhole n := by
  have hnode : ¬ n.kind.GivesWay → (Value.node n).StaysWhole := fun hkind =>
    Value.staysWhole_node.mpr ⟨hkind, fun entry hentry => (hsettled entry hentry).staysWhole⟩
  cases verdict with
  | keep => exact hnode h.1
  | replace result =>
      obtain ⟨hkind, rfl⟩ := h
      exact hnode hkind
  | splice items => exact hsettled.items_stayWhole h.2
  | remove => trivial
  | other value => trivial

namespace Gate

variable {script : Tree} {store : Store}

private theorem staysWhole_of_items {items : Tree} (h : ∀ item ∈ items, item.StaysWhole) :
    StaysWhole (nodesIn items) := by
  intro n hn
  obtain ⟨item, hitem, hn⟩ := mem_nodesIn.mp hn
  exact h item hitem n hn

private theorem harvestTrusted_staysWhole (hopen : itemsOpen script = true) :
    Run.Yields (fun _ => True) (Walk.tree [TrustedHarvest.visitor] script)
      (fun walked => StaysWhole (nodesIn walked)) := by
  refine (Walk.tree_settled ⟨fun _ => Value.staysWhole_of_nodes_eq_nil, ?_⟩ rfl (fun _ => rfl)
    hopen).mono fun _ => staysWhole_of_items
  intro source n _ _ hsettled
  exact (TrustedHarvest.node_flattens n).mono fun _ hflattens => hflattens.places_whole hsettled

private theorem validate_staysWhole (hopen : itemsOpen script = true)
    (hnew : ∀ n ∈ nodesIn script, n.kind.GivesWay → n.generated = false) :
    Run.Yields (Reaches store) (validate script) (fun walked => StaysWhole (nodesIn walked)) := by
  refine (Walk.tree_settled ⟨fun _ => Value.staysWhole_of_nodes_eq_nil, ?_⟩ rfl (fun _ => rfl)
    hopen).mono fun _ => staysWhole_of_items
  intro source n hsource hleaves hsettled
  have houtline := hleaves.sameOutline
  change Run.Yields _ (Enforce.node n) _
  cases hgenerated : n.generated with
  | true =>
      have hkept : Enforce.node n = pure .keep := by rw [Enforce.node, hgenerated, if_pos rfl]
      rw [hkept]
      refine Run.Yields.pure (Value.staysWhole_node.mpr
        ⟨fun hkind => ?_, fun entry hentry => (hsettled entry hentry).staysWhole⟩)
      rw [houtline.kind] at hkind
      rw [houtline.generated, hnew source hsource hkind] at hgenerated
      cases hgenerated
  | false =>
      exact (Enforce.node_yields hgenerated).mono fun _ houtcome => houtcome.places_whole hsettled

private theorem validate_flattens (hopen : itemsOpen script = true)
    (hnew : ∀ n ∈ nodesIn script, n.kind.GivesWay → n.generated = false) :
    Run.Yields (Reaches store) (validate script)
      (ItemsWalked (Flattens (Enforce.Result store)) script) := by
  refine Walk.tree_walks ?_ rfl fun _ => rfl
  intro source n hsource hkind hgenerated
  rw [(visitedIn_eq_nodes_iff script).mpr hopen] at hsource
  refine Enforce.node_flattens fun hgives => ?_
  rw [hgenerated]
  exact hnew source hsource (hkind ▸ hgives)

/--
In a tree whose namespaces hold lists of statements, harvesting and validation flatten every
list.  A harvest returns the tree with its lists flattened; validation returns the results of
the statements, one for each and in their order, in every list.  No namespace and no import
is left.  Where one is held in a field by itself, neither pass returns.
-/
theorem namespaces_are_flattened (hopen : itemsOpen script = true)
    (hholds : ∀ n ∈ nodesIn script, n.HoldsStatements)
    (hnew : ∀ n ∈ nodesIn script, n.kind.GivesWay → n.generated = false) (store : Store) :
    (∀ walked after, (Walk.tree [TrustedHarvest.visitor] script).exec store = (.ok walked, after) →
        walked = flattenedItems script ∧ walked = (statementsIn script).map Value.flattened ∧
          StaysWhole (nodesIn walked)) ∧
      (∀ guarded after, (validate script).exec store = (.ok guarded, after) →
        StatementsBecome (Enforce.Result store) (statementsIn script) guarded ∧
          StaysWhole (nodesIn guarded)) ∧
      ((∃ n ∈ nodesIn script, n.Traps) →
        ¬ (Walk.tree [TrustedHarvest.visitor] script).Passes store ∧
          ¬ (validate script).Passes store) := by
  have hvisited : visitedIn script = nodesIn script := (visitedIn_eq_nodes_iff script).mpr hopen
  refine ⟨fun walked after hrun => ?_, fun guarded after hrun => ?_, fun htraps => ⟨?_, ?_⟩⟩
  · have hflat := ((TrustedHarvest.tree_flattened script).ok trivial hrun).2
    refine ⟨hflat, hflat.trans (flattenedItems_eq_map script hopen hholds), ?_⟩
    exact ((harvestTrusted_staysWhole hopen).ok trivial hrun).2
  · have hwalked := ((validate_flattens hopen hnew).ok .start hrun).2
    exact ⟨hwalked.becomes hopen hholds, ((validate_staysWhole hopen hnew).ok .start hrun).2⟩
  · intro hpasses
    obtain ⟨n, hn, htrap⟩ := htraps
    obtain ⟨walked, after, hrun⟩ := exists_of_isOk hpasses
    have hwalk := Walk.tree_walks (TrustedHarvest.visitor_answers (· ∈ visitedIn script)) rfl
      fun _ => rfl
    exact (hwalk.ok trivial hrun).2.not_traps n (hvisited ▸ hn) htrap
  · intro hpasses
    obtain ⟨n, hn, htrap⟩ := htraps
    obtain ⟨guarded, after, hrun⟩ := exists_of_isOk hpasses
    exact ((validate_flattens hopen hnew).ok .start hrun).2.not_traps n (hvisited ▸ hn) htrap

end Gate

namespace Sample

def nesting : Json :=
  .arr [
    entry "Stmt_Namespace" [("name", nameEntry "Outer"), ("stmts", .arr [
      entry "Stmt_Use" [("uses", .arr [])],
      entry "Stmt_Echo" [("exprs", .arr [variableEntry "x"])],
      entry "Stmt_Namespace" [("name", nameEntry "Inner"), ("stmts", .arr [
        entry "Stmt_Return" [("expr", variableEntry "y")]])]])],
    entry "Stmt_Break" [("num", .null)]]

def trapping : Json :=
  .arr [entry "Stmt_Return" [("expr",
    entry "Stmt_Namespace" [("name", nameEntry "Outer"), ("stmts", .arr [])])]]

end Sample

namespace Gate

theorem namespaces_are_flattened_of_nested :
    (∃ walked after guarded last,
      (Walk.tree [TrustedHarvest.visitor] (Sample.treeOf Sample.nesting)).exec Sample.openStore =
          (.ok walked, after) ∧
        walked = (statementsIn (Sample.treeOf Sample.nesting)).map Value.flattened ∧
        (validate (Sample.treeOf Sample.nesting)).exec Sample.openStore = (.ok guarded, last) ∧
        StatementsBecome (Enforce.Result Sample.openStore)
          (statementsIn (Sample.treeOf Sample.nesting)) guarded) ∧
      (statementsIn (Sample.treeOf Sample.nesting)).length = 3 ∧
      ¬ (Walk.tree [TrustedHarvest.visitor] (Sample.treeOf Sample.trapping)).Passes
        Sample.openStore ∧
      ¬ (validate (Sample.treeOf Sample.trapping)).Passes Sample.openStore := by
  have hharvest : ∃ walked after,
      (Walk.tree [TrustedHarvest.visitor] (Sample.treeOf Sample.nesting)).exec Sample.openStore =
        (.ok walked, after) := exists_of_isOk (by decide)
  have hvalidate : ∃ guarded last,
      (validate (Sample.treeOf Sample.nesting)).exec Sample.openStore = (.ok guarded, last) :=
    exists_of_isOk (by decide)
  obtain ⟨walked, after, hwalked⟩ := hharvest
  obtain ⟨guarded, last, hguarded⟩ := hvalidate
  have hnesting : itemsOpen (Sample.treeOf Sample.nesting) = true := by decide
  have htrapping : itemsOpen (Sample.treeOf Sample.trapping) = true := by decide
  obtain ⟨hflat, hresults, _⟩ :=
    namespaces_are_flattened hnesting (by decide) (by decide) Sample.openStore
  have htraps : ∃ n ∈ nodesIn (Sample.treeOf Sample.trapping), n.Traps := by
    refine ⟨_, List.mem_of_getLast? rfl, ?_⟩
    exact ⟨_, List.mem_cons_self, _, rfl, .inl rfl⟩
  obtain ⟨_, _, hraises⟩ :=
    namespaces_are_flattened htrapping (by decide) (by decide) Sample.openStore
  refine ⟨⟨walked, after, guarded, last, hwalked, ?_, hguarded, ?_⟩, by decide, hraises htraps⟩
  · exact (hflat walked after hwalked).2.1
  · exact (hresults guarded last hguarded).1

end Gate

end ScriptSandbox
