import ScriptSandbox.Proofs.Enforce.Statics
import ScriptSandbox.Proofs.Gate.Validation

/-!
# Static variables in a script that passes

If validation of a plain tree returns, every static variable has been judged by the name
that its variable has when it is judged itself.  That is the name that was written, except
for superglobals that are intercepted: these are judged by the name of the method that they
give way to.  So a static variable may be one that the policy refuses.
-/

namespace ScriptSandbox

namespace Sample

def staticVariable (name : String) : Json :=
  .arr [entry "Stmt_StaticVar" [("var", variableEntry name)]]

def variableNode (name : String) : Node :=
  ⟨.expression .variableRef, [], [("name", .str name)], false⟩

def staticNode (inner : Node) : Node :=
  ⟨.statement .staticVar, [], [("var", .node inner)], false⟩

private theorem loadTree_staticVariable (name : String) :
    loadTree true (staticVariable name) = .ok [staticNode (variableNode name)] := rfl

private theorem plain_staticVariable (name : String) : Plain [staticNode (variableNode name)] :=
  ⟨⟨_, loadTree_staticVariable name⟩, List.forall_mem_singleton.mpr rfl⟩

private theorem declaresStatic_staticNode (name : String) :
    (staticNode (variableNode name)).DeclaresStatic name :=
  ⟨rfl, rfl, variableNode name, rfl, rfl, rfl⟩

end Sample

open Judge

variable {store : Store} {name : String}

namespace Enforce

private theorem exec_superglobal (hadmits : store.AdmitsVariable name)
    (hintercepts : store.InterceptsVariable name) :
    ∃ call, (visitor.leave (Sample.variableNode name)).exec store =
        (.ok (.replace call), store.noteCheck .superglobals name []) ∧
      call.field "name" = .str superglobalMethod := by
  obtain ⟨hsuper, hflag⟩ := hintercepts
  have hpolicy : store.SamePolicy (store.noteCheck .superglobals name []) :=
    store.samePolicy_noteCheck _ _ _
  refine ⟨Generated.runtimeCall store.handle superglobalMethod
    [Generated.arg (Generated.text name)] (Sample.variableNode name), ?_, rfl⟩
  change (if name = store.handle then _ else _ : Judge Verdict).exec store = _
  rw [if_neg hadmits.free, if_pos (List.contains_iff_mem.mpr hsuper), superglobal, Run.exec_bind,
    Judge.exec_name _ (hadmits.superglobal hsuper)]
  change (if (store.noteCheck .superglobals name []).flag _ = true then _ else _ :
    Judge Verdict).exec _ = _
  rw [if_pos ((hpolicy.flag_eq _).trans hflag)]
  change (Except.ok (Verdict.replace (Generated.runtimeCall
    (store.noteCheck .superglobals name []).handle _ _ _)), _) = _
  rw [hpolicy.handle_eq]
  rfl

end Enforce

namespace Gate

open Walk Sample

private theorem validate_staticNode (hallow : store.allows .staticVariables = true)
    (hmethod : store.Accepts .variableRef superglobalMethod)
    (hintercepts : store.InterceptsVariable name) (hadmits : store.AdmitsVariable name) :
    ∃ guarded after,
      (validate [.node (staticNode (variableNode name))]).exec store = (.ok guarded, after) := by
  obtain ⟨call, hvariable, hname⟩ := Enforce.exec_superglobal hadmits hintercepts
  generalize hmid : store.noteCheck .superglobals name [] = mid at hvariable
  have hpolicy : store.SamePolicy mid := hmid ▸ store.samePolicy_noteCheck _ _ _
  have hstatic : (Enforce.visitor.leave (staticNode call)).exec mid =
      (.ok .keep, mid.noteCheck .variables superglobalMethod []) :=
    Enforce.exec_staticVar rfl rfl ((hpolicy.allows_eq _).trans hallow) hname
      ((hpolicy.check_eq _ _ _).trans hmethod)
  have hfield : (walkField [Enforce.visitor] (.statement .staticVar) "var"
      (.node (variableNode name))).exec store = (.ok (.node call), mid) :=
    exec_walkField_node _ _ rfl hvariable rfl
  have hinside : (inside [Enforce.visitor] (staticNode (variableNode name))).exec store =
      (.ok (staticNode call), mid) := by
    rw [staticNode, inside, walkFields, Run.exec_bind, Run.exec_bind, hfield]
    rfl
  have hitems : (walkItems [Enforce.visitor] [.node (staticNode (variableNode name))]).exec store =
      (.ok [.node (staticNode call)], mid.noteCheck .variables superglobalMethod []) :=
    exec_walkItems_node hinside hstatic rfl rfl
  refine ⟨[.node (staticNode call)], mid.noteCheck .variables superglobalMethod [], ?_⟩
  change (walkItems [Enforce.visitor] [.node (staticNode (variableNode name))] >>= _ :
    Gate Tree).exec store = _
  rw [Run.exec_bind, hitems]
  rfl

section

variable {nodes : List Node} {guarded : Tree} {after : Store} {source : Node}

private theorem visited_of_plain (h : Plain nodes) :
    nodes.flatMap Node.visited = nodes.flatMap Node.nodes := by
  rw [← visitedIn_map_node, ← nodesIn_map_node, visitedIn_eq_nodes_iff, itemsOpen_map_node_iff]
  exact h.isOpen

private theorem loaded_of_plain (h : Plain nodes) : Loaded nodes := by
  obtain ⟨data, hdata⟩ := h.loaded
  exact ⟨true, data, hdata⟩

private theorem static_of_plain (h : Plain nodes)
    (hrun : (validate (nodes.map .node)).exec store = (.ok guarded, after))
    (hsource : source ∈ nodes.flatMap Node.nodes) (hstatic : source.DeclaresStatic name) :
    store.allows .staticVariables = true ∧ store.Accepts .variableRef (store.seenName name) ∧
      store.AdmitsVariable name := by
  have hdecided := (Enforce.validate_judged (loaded_of_plain h).new hrun).decided
  rw [visitedIn_map_node, visited_of_plain h] at hdecided
  exact Enforce.static_of_decided hstatic (hdecided source hsource)

end

/--
A static variable of a plain tree that passes is judged by the name that is seen in its
variable.  This is the name that was written, unless the variable is intercepted; and
exactly if the policy refuses a variable that it intercepts, some static variables that
pass are none that it accepts.
-/
theorem static_names_seen (store : Store) :
    (∀ nodes guarded after, Plain nodes →
      (validate (nodes.map .node)).exec store = (.ok guarded, after) →
        ∀ source ∈ nodes.flatMap Node.nodes, ∀ name, source.DeclaresStatic name →
          store.Accepts .variableRef (store.seenName name) ∧
          ∀ left, Leaves Enforce.visitor (Reaches store) source left →
            ∀ mid, Reaches store mid → (Enforce.visitor.leave left).exec mid =
              (.ok .keep, mid.noteCheck .variables (store.seenName name) [])) ∧
    (∀ name, store.seenName name = name ↔ ¬ store.InterceptsVariable name) ∧
    ((∀ nodes guarded after, Plain nodes →
      (validate (nodes.map .node)).exec store = (.ok guarded, after) →
        ∀ source ∈ nodes.flatMap Node.nodes, ∀ name, source.DeclaresStatic name →
          store.Accepts .variableRef name) ↔
      (store.allows .staticVariables = true → store.Accepts .variableRef superglobalMethod →
        ∀ name, store.InterceptsVariable name → store.AdmitsVariable name →
          store.Accepts .variableRef name)) := by
  refine ⟨?judged, fun name => Store.seenName_eq_iff, ?accepted⟩
  case judged =>
    intro nodes guarded after hplain hrun source hsource name hstatic
    obtain ⟨hallow, haccepts, -⟩ := static_of_plain hplain hrun hsource hstatic
    rw [← visited_of_plain hplain] at hsource
    have hnew := (loaded_of_plain hplain).new_of_visited hsource
    exact ⟨haccepts, fun left hleaves mid hmid =>
      Enforce.exec_static_of_leaves hstatic hnew hallow haccepts hleaves hmid⟩
  case accepted =>
    constructor
    · intro hwritten hallow hmethod name hintercepts hadmits
      obtain ⟨guarded, after, hrun⟩ := validate_staticNode hallow hmethod hintercepts hadmits
      have hsource : staticNode (variableNode name) ∈
          [staticNode (variableNode name)].flatMap Node.nodes :=
        List.mem_flatMap.mpr ⟨_, List.mem_singleton_self _, Node.self_mem_nodes _⟩
      exact hwritten _ guarded after (plain_staticVariable name) hrun _ hsource name
        (declaresStatic_staticNode name)
    · intro haccepted nodes guarded after hplain hrun source hsource name hstatic
      obtain ⟨hallow, haccepts, hadmits⟩ := static_of_plain hplain hrun hsource hstatic
      by_cases hintercepts : store.InterceptsVariable name
      · rw [Store.seenName, if_pos hintercepts] at haccepts
        exact haccepted hallow haccepts name hintercepts hadmits
      · rwa [Store.seenName_eq_iff.mpr hintercepts] at haccepts

end Gate

namespace Sample

def noGetStore : Store :=
  (Store.empty (Options.default.setFlag (.allow .staticVariables) true) false).blacklist
    .variables "_GET"

private theorem noGetStore_intercepts : noGetStore.InterceptsVariable "_GET" :=
  ⟨by decide, by decide⟩

private theorem noGetStore_admits : noGetStore.AdmitsVariable "_GET" :=
  ⟨by decide, fun _ => rfl⟩

end Sample

namespace Gate

open Sample

/-- A static variable that the policy refuses passes, seen as the method. -/
theorem refused_static_passes :
    loadTree true (staticVariable "_GET") = .ok [staticNode (variableNode "_GET")] ∧
      Plain [staticNode (variableNode "_GET")] ∧
      (staticNode (variableNode "_GET")).DeclaresStatic "_GET" ∧
      (∃ guarded after, (validate [.node (staticNode (variableNode "_GET"))]).exec noGetStore =
        (.ok guarded, after)) ∧
      noGetStore.seenName "_GET" = superglobalMethod ∧
      ¬ noGetStore.Accepts .variableRef "_GET" := by
  refine ⟨loadTree_staticVariable _, plain_staticVariable _, declaresStatic_staticNode _, ?_,
    if_pos noGetStore_intercepts, Bool.false_ne_true⟩
  exact validate_staticNode rfl rfl noGetStore_intercepts noGetStore_admits

end Gate

end ScriptSandbox
