import ScriptSandbox.Proofs.Gate.Rejected

/-!
# What the harvest of own definitions changes

The harvest of what a script defines itself leaves the script as it is.  Of the store it
changes the allow-lists, which go on with the names that the visited nodes define, and it
logs each name that is new.  Whether a name is harvested depends on the first store alone:
nothing that is listed on the way switches a harvest on or off.
-/

namespace ScriptSandbox

namespace OwnHarvest

variable {store after : Store}

private theorem exists_lists_of_judges {offers : List (Offer Store)}
    (h : visitor.Judges store offers after) : ∃ added, store.Lists added after := by
  induction h with
  | nil => exact ⟨[], .nil store⟩
  | @snoc _ n mid after _ _ hleave ih =>
      obtain ⟨added, hadded⟩ := ih
      cases harvests_of_leave hleave with
      | @listed names _ =>
          obtain ⟨more, hmore⟩ := mid.exists_lists_whitelistEach names
          exact ⟨added ++ more, hadded.trans hmore⟩

theorem Adds.allowedIn_eq {nodes : List Node} {added : List (Category × String)}
    (hadds : Adds store nodes after) (hlists : store.Lists added after) {category : Category}
    (hdenied : store.hasBlacklist category = true) :
    after.allowedIn category = store.allowedIn category := by
  refine hlists.allowedIn_eq ?_
  rintro ⟨other, key⟩ hentry rfl
  have hafter : (other, key) ∈ after.allowed := by
    rw [hlists.allowed_eq]
    exact List.mem_append_right _ hentry
  rcases (hadds.allowed other key).mp hafter with hold | ⟨_, n, _, name, hdefines, _⟩
  · exact hlists.new _ hentry hold
  · exact Bool.false_ne_true ((hasBlacklist_of_defines hdefines).symm.trans hdenied)

end OwnHarvest

namespace Gate

variable {store after : Store} {script walked : Tree}

/--
A harvest of own definitions that returns has left the script as it was, and has put on the
allow-lists exactly the names that the visited nodes define and the first store lets be
harvested, whatever the order of the nodes.  It has changed nothing else, apart from the log
of what is new; so a category with a deny-list has gained nothing.
-/
theorem harvest_lists_own_definitions
    (hrun : (Walk.tree [OwnHarvest.visitor] script).exec store = (.ok walked, after)) :
    walked = script ∧ (∃ added, store.Lists added after) ∧
      (∀ category key, (category, key) ∈ after.allowed ↔
        (category, key) ∈ store.allowed ∨
          OwnHarvest.Harvested store (visitedIn script) category key) ∧
      ∀ category, store.hasBlacklist category = true →
        after.allowedIn category = store.allowedIn category := by
  have hkept : script = walked :=
    ((Walk.walkItems_keeps OwnHarvest.keepsOrFails script).bind fun _ hitems =>
      Run.Yields.pure hitems).ok trivial hrun |>.2
  have hadds : OwnHarvest.Adds store (visitedIn script) after := by
    refine adds_of_harvestOwn ?_
    rw [exec_harvestOwn, hrun]
    rfl
  have hends := Walk.offers_end OwnHarvest.visitor script store
  rw [hrun] at hends
  obtain ⟨added, hlists⟩ := OwnHarvest.exists_lists_of_judges hends.of_ok
  exact ⟨hkept.symm, ⟨added, hlists⟩, hadds.allowed, fun _ => hadds.allowedIn_eq hlists⟩

end Gate

namespace Sample

def definingScript : Tree :=
  (nodesOf (.arr [
    callEntry (entry "Name" [("parts", .arr [.str "Define"])])
      (entry "Scalar_String" [("value", .str "LIMIT")]),
    entry "Stmt_If" [("cond", variableEntry "x"), ("stmts", .arr [
      entry "Stmt_Class" [("name", .str "Point"), ("stmts", .arr [])],
      entry "Stmt_Function" [("name", .str "exec"), ("params", .arr []),
        ("stmts", .arr [])]])]])).map .node

def definingStore : Store :=
  let options := [Feature.classes, .constants, .functions].foldl
    (fun options feature => options.setFlag (.allow feature) true) Options.default
  (Store.empty options true).blacklist .functions "eval"

end Sample

namespace Gate

theorem harvest_lists_own_definitions_of_script : ∃ after,
    (Walk.tree [OwnHarvest.visitor] Sample.definingScript).exec Sample.definingStore =
        (.ok Sample.definingScript, after) ∧
      after.allowed = [(.constants, "LIMIT"), (.classes, "point"), (.types, "point")] ∧
      OwnHarvest.Harvested Sample.definingStore (visitedIn Sample.definingScript) .types "point" ∧
      ¬ OwnHarvest.Harvested Sample.definingStore (visitedIn Sample.definingScript) .functions "exec" ∧
      after.allowedIn .functions = Sample.definingStore.allowedIn .functions := by
  have hrun : ∃ after, (Walk.tree [OwnHarvest.visitor] Sample.definingScript).exec Sample.definingStore =
      (.ok Sample.definingScript, after) ∧
        after.allowed = [(.constants, "LIMIT"), (.classes, "point"), (.types, "point")] :=
    ⟨_, rfl, by decide +kernel⟩
  obtain ⟨after, hrun, hallowed⟩ := hrun
  obtain ⟨_, _, hlisted, hdenied⟩ := harvest_lists_own_definitions hrun
  have hnone : ∀ entry, entry ∉ Sample.definingStore.allowed :=
    fun _ => List.not_mem_nil
  refine ⟨after, hrun, hallowed, ?_, fun hexec => ?_, hdenied .functions (by decide)⟩
  · exact ((hlisted .types "point").mp (by simp [hallowed])).resolve_left (hnone _)
  · have hmem := (hlisted .functions "exec").mpr (.inr hexec)
    simp [hallowed] at hmem

end Gate

end ScriptSandbox
