import ScriptSandbox.Proofs.Enforce.Functions
import ScriptSandbox.Proofs.Enforce.PairedDeclarations
import ScriptSandbox.Proofs.Enforce.Verdicts
import ScriptSandbox.Proofs.Gate.Growth
import ScriptSandbox.Proofs.Gate.Validation

/-!
# Functions are declared once

Passes over trees that are freshly loaded declare every function that they accept, in the
order in which they meet it, and nothing else.  A function is accepted only under a name
that is new to the store, so the accepted names differ from one another.
-/

namespace ScriptSandbox

open Store (Change Evolves)

namespace Gate

namespace Pass

def declares : Pass → Bool
  | .own _ => false
  | _ => true

/-- What the pass asks of a function besides a name that is not taken. -/
def Admits : Pass → Store → Node → Prop
  | .trusted _, _, n => n.declaredName?.isSome = true
  | .own _, _, _ => False
  | .validation _, store, n => Enforce.AdmitsFunction store n

/-- Names are taken by functions declared before, and for a script by those of the runtime. -/
def Taken : Pass → Store → String → Prop
  | .validation _, store, name => store.isDeclared name = true ∨ store.isOverridden name = true
  | _, store, name => store.isDeclared name = true

def judged (pass : Pass) (offer : Offer Store) : Except Refusal Verdict × Store :=
  (pass.visitor.leave offer.node).exec offer.state

/-- The name, in its normal spelling, of a function that the pass accepts. -/
def acceptedName? (pass : Pass) (offer : Offer Store) : Option String :=
  if pass.declares && offer.node.kind = .statement .functionDecl && (pass.judged offer).1.isOk then
    offer.node.declaredName?.map Category.functions.normalize
  else none

/-- The pass stops at the node since it is a function of a name that is taken. -/
def RaisesDuplicate (pass : Pass) (offer : Offer Store) : Prop :=
  ∃ violation, (pass.judged offer).1 = .error (.violation violation) ∧
    violation.kind = .duplicateFunc

/-- The tree of the pass is loaded, and no list in it holds a list. -/
def Fresh (pass : Pass) : Prop :=
  ∃ nodes, pass.tree = nodes.map .node ∧ Loaded nodes ∧ ∀ n ∈ nodes, n.nestsLists = false

end Pass

/-- The names of the functions that the passes accept, in order. -/
def acceptedNames : List Pass → Store → List String
  | [], _ => []
  | pass :: rest, store =>
      (pass.offers store).filterMap pass.acceptedName? ++ acceptedNames rest (pass.after store)

end Gate

/-! ## A node that is no function -/

namespace Gate

namespace Pass

variable {pass : Pass} {offer : Offer Store}

private theorem judged_refers
    (h : pass.declares = false ∨ offer.node.kind ≠ .statement .functionDecl) :
    Judge.Makes Change.Refers (pass.visitor.leave offer.node) := by
  cases pass with
  | own tree => exact (OwnHarvest.leave_makes offer.node).mono .inr
  | trusted tree =>
      have hkind := h.resolve_left (by simp [declares])
      exact TrustedHarvest.node_makes_of_kind_ne offer.node hkind
  | validation tree =>
      have hkind := h.resolve_left (by simp [declares])
      have hrule : offer.node.kind.rule ≠ .functionDecl := fun hrule =>
        hkind (Kind.eq_functionDecl hrule)
      exact (Enforce.node_makes_of_rule_ne hrule).mono .inl

private theorem declared_of_reading
    (h : pass.declares = false ∨ offer.node.kind ≠ .statement .functionDecl) :
    (pass.judged offer).2.declared = offer.state.declared := by
  have hevolves : Evolves (Change.OrReport Change.Refers) offer.state (pass.judged offer).2 :=
    (judged_refers h).reaches (fun h => h.mono .of)
      (fun h => h.evolves .of fun _ => trivial) offer.state
  exact hevolves.eq fun change mid hchange => Store.declared_apply mid hchange

/-! ## A function -/

private theorem judged_declares (hpass : pass.declares = true)
    (hkind : offer.node.kind = .statement .functionDecl) (hnew : offer.node.generated = false) :
    Declares (pass.Admits offer.state offer.node) (pass.Taken offer.state) offer.node offer.state
      (pass.judged offer) := by
  have hkeeps : ∀ judge : Judge Unit, pass.visitor.leave offer.node = Enforce.keeping judge →
      pass.judged offer = ((judge.exec offer.state).1.map fun _ => .keep,
        (judge.exec offer.state).2) := by
    intro judge hleave
    rw [judged, hleave, Enforce.keeping, Run.exec_bind_pure]
  cases pass with
  | own tree => cases hpass
  | trusted tree =>
      have hleave : TrustedHarvest.node offer.node =
          Enforce.keeping (TrustedHarvest.function offer.node) := by
        rw [TrustedHarvest.node, hkind]
        rfl
      rw [hkeeps _ hleave]
      exact (TrustedHarvest.function_declares offer.node offer.state).map _
  | validation tree =>
      have hleave :
          Enforce.node offer.node = Enforce.keeping (Enforce.functionDecl offer.node) := by
        have hrule : offer.node.kind.rule = .functionDecl := by
          rw [hkind]
          rfl
        rw [Enforce.node_of_rule hnew hrule]
        rfl
      rw [hkeeps _ hleave]
      exact (Enforce.functionDecl_declares offer.node offer.state).map _

private theorem named_of_admits {store : Store} {n : Node} (h : pass.Admits store n) :
    ∃ name, n.declaredName? = some name := by
  cases pass with
  | trusted tree => exact Option.isSome_iff_exists.mp h
  | own tree => exact h.elim
  | validation tree => exact Option.isSome_iff_exists.mp h.named

private theorem declared_judged (hnew : offer.node.generated = false) :
    (pass.judged offer).2.declared =
      offer.state.declared ++ (pass.acceptedName? offer).toList := by
  by_cases hreads : pass.declares = false ∨ offer.node.kind ≠ .statement .functionDecl
  · have hnone : pass.acceptedName? offer = none := by
      rcases hreads with hpass | hkind
      · simp [acceptedName?, hpass]
      · simp [acceptedName?, hkind]
    rw [declared_of_reading hreads, hnone, Option.toList_none, List.append_nil]
  · rw [not_or, Bool.not_eq_false, not_not] at hreads
    have hends := (judged_declares hreads.1 hreads.2 hnew).declared_eq
    simpa [acceptedName?, hreads] using hends

private theorem free_of_not_taken {store : Store} {name : String} (h : ¬ pass.Taken store name) :
    Category.functions.normalize name ∉ store.declared ∧
      ∀ script, pass = .validation script →
        Category.functions.normalize name ∉ store.overrides := by
  have hdeclared : ∀ name, store.isDeclared name ≠ true →
      Category.functions.normalize name ∉ store.declared := by simp [Store.isDeclared]
  cases pass with
  | trusted tree => exact ⟨hdeclared name h, fun script heq => by cases heq⟩
  | own tree => exact ⟨hdeclared name h, fun script heq => by cases heq⟩
  | validation tree =>
      have hboth := not_or.mp h
      refine ⟨hdeclared name hboth.1, fun _ _ hoverridden => hboth.2 ?_⟩
      simpa [Store.isOverridden] using hoverridden

private theorem accepted_not_taken (hnew : offer.node.generated = false) {key : String}
    (h : pass.acceptedName? offer = some key) :
    ∃ name, offer.node.declaredName? = some name ∧ Category.functions.normalize name = key ∧
      ¬ pass.Taken offer.state name := by
  unfold acceptedName? at h
  split at h
  case isFalse => cases h
  case isTrue haccepts =>
    rw [Bool.and_eq_true, Bool.and_eq_true, decide_eq_true_eq] at haccepts
    obtain ⟨⟨hpass, hkind⟩, hok⟩ := haccepts
    obtain ⟨name, hname, hkey⟩ := Option.map_eq_some_iff.mp h
    exact ⟨name, hname, hkey, (judged_declares hpass hkind hnew).not_taken hok hname⟩

private theorem raisesDuplicate_iff (hpass : pass.declares = true)
    (hkind : offer.node.kind = .statement .functionDecl) (hnew : offer.node.generated = false)
    (hadmits : pass.Admits offer.state offer.node) :
    pass.RaisesDuplicate offer ↔
      ∃ name, offer.node.declaredName? = some name ∧ pass.Taken offer.state name := by
  obtain ⟨name, hname⟩ := named_of_admits hadmits
  rw [RaisesDuplicate, (judged_declares hpass hkind hnew).duplicate_iff hadmits hname]
  constructor
  · exact fun htaken => ⟨name, hname, htaken⟩
  · rintro ⟨other, hother, htaken⟩
    cases hname.symm.trans hother
    exact htaken

/-! ## All nodes of a pass -/

section

variable {store after : Store} {offers : List (Offer Store)}

private theorem declared_snoc {n : Node} {mid : Store} {result : Except Refusal Verdict}
    (hleave : (pass.visitor.leave n).exec mid = (result, after)) (hnew : n.generated = false)
    (hmid : mid.declared = store.declared ++ offers.filterMap pass.acceptedName?) :
    after.declared =
      store.declared ++ (offers ++ [(⟨n, mid⟩ : Offer Store)]).filterMap pass.acceptedName? := by
  have hjudged : (pass.judged ⟨n, mid⟩).2.declared =
      mid.declared ++ (pass.acceptedName? ⟨n, mid⟩).toList := declared_judged hnew
  rw [judged, hleave, hmid, List.append_assoc] at hjudged
  rw [List.filterMap_append]
  cases hname : pass.acceptedName? ⟨n, mid⟩ <;> simpa [hname] using hjudged

private theorem judges_declared (h : pass.visitor.Judges store offers after)
    (hnew : ∀ offer ∈ offers, offer.node.generated = false) :
    after.declared = store.declared ++ offers.filterMap pass.acceptedName? := by
  induction h with
  | nil => rw [List.filterMap_nil, List.append_nil]
  | @snoc offers n mid after verdict _ hleave ih =>
      have hmid := ih fun offer hoffer => hnew offer (List.mem_append_left _ hoffer)
      exact declared_snoc hleave (hnew ⟨n, mid⟩ (by simp)) hmid

private theorem ends_declared {α : Type} {result : Except (WalkFailure Refusal) α × Store}
    (h : pass.visitor.Ends store offers result)
    (hnew : ∀ offer ∈ offers, offer.node.generated = false) :
    result.2.declared = store.declared ++ offers.filterMap pass.acceptedName? := by
  cases h with
  | ok hjudges => exact judges_declared hjudges hnew
  | misplaced hjudges => exact judges_declared hjudges hnew
  | @raised offers n mid after cause hjudges hleave =>
      have hmid := judges_declared hjudges fun offer hoffer =>
        hnew offer (List.mem_append_left _ hoffer)
      exact declared_snoc hleave (hnew ⟨n, mid⟩ (by simp)) hmid

end

theorem offers_offered (hfresh : pass.Fresh) (store : Store) :
    OfferedUntil Walk.SameOutline (nodesIn pass.tree) (pass.offers store)
      (pass.run.exec store).1 := by
  obtain ⟨nodes, htree, hloaded, hflat⟩ := hfresh
  have hopen : itemsOpen (pass.tree) = true := by
    rw [htree, itemsOpen_map_node_iff]
    exact fun n hn => Node.isOpen_of_isRaw (hloaded.isRaw n hn) (hflat n hn)
  have hbefore : pass.visitor.before pass.tree = pass.tree := by cases pass <;> rfl
  have hoffered : OfferedUntil Walk.SameOutline (nodesIn pass.tree) (pass.offers store)
      ((Walk.tree [pass.visitor] pass.tree).exec store).1 := by
    rw [← visitedIn_eq_nodes_iff] at hopen
    rw [← hopen]
    have h := Walk.offers_offered pass.tree store (Walk.inside_sameOutline [pass.visitor])
    rwa [hbefore] at h
  rw [exec_run]
  cases hresult : ((Walk.tree [pass.visitor] pass.tree).exec store).1 with
  | ok walked => rw [hresult] at hoffered; exact hoffered
  | error cause => rw [hresult] at hoffered; exact hoffered

theorem offer_new (hfresh : pass.Fresh) {store : Store} (hoffer : offer ∈ pass.offers store) :
    offer.node.generated = false := by
  obtain ⟨n, hn, houtline⟩ := OfferedUntil.source (offers_offered hfresh store) hoffer
  obtain ⟨nodes, htree, hloaded, _⟩ := hfresh
  rw [htree, nodesIn_map_node] at hn
  obtain ⟨parent, hparent, hn⟩ := List.mem_flatMap.mp hn
  rw [houtline.generated]
  exact Node.not_generated_of_isRaw (hloaded.isRaw parent hparent) n hn

private theorem declared_after (hfresh : pass.Fresh) (store : Store) :
    (pass.after store).declared =
      store.declared ++ (pass.offers store).filterMap pass.acceptedName? := by
  have hends := ends_declared (pass.offers_end store) fun offer hoffer => offer_new hfresh hoffer
  rwa [after, exec_run]

private theorem declared_at (hfresh : pass.Fresh) {store : Store}
    {before later : List (Offer Store)}
    (hoffers : pass.offers store = before ++ offer :: later) :
    offer.state.declared = store.declared ++ before.filterMap pass.acceptedName? := by
  refine judges_declared ((pass.offers_end store).of_append hoffers) fun other hother => ?_
  exact offer_new hfresh (by rw [hoffers]; exact List.mem_append_left _ hother)

end Pass

/-! ## All passes -/

private theorem declared_afterPasses {passes : List Pass} (hfresh : ∀ pass ∈ passes, pass.Fresh)
    (store : Store) :
    (afterPasses passes store).declared = store.declared ++ acceptedNames passes store := by
  induction passes generalizing store with
  | nil => exact (List.append_nil _).symm
  | cons pass rest ih =>
      rw [List.forall_mem_cons] at hfresh
      have hrest := ih hfresh.2 (pass.after store)
      rw [Pass.declared_after hfresh.1, List.append_assoc] at hrest
      exact hrest

end Gate

namespace Store

theorem nodup_insertNew {α : Type} [DecidableEq α] {items : List α} (h : items.Nodup) (item : α) :
    (insertNew items item).Nodup := by
  unfold insertNew
  split
  · exact h
  · next hnew =>
    refine List.nodup_append.mpr ⟨h, by simp, fun other hother last hlast heq => ?_⟩
    rw [List.mem_singleton.mp hlast] at heq
    exact hnew (heq ▸ hother)

private theorem Evolves.nodup_declared {store after : Store}
    (h : Evolves (Change.OrReport Change.Passes) store after) (hstore : store.declared.Nodup) :
    after.declared.Nodup := by
  refine h.keeps (P := fun mid => mid.declared.Nodup) (fun change mid hchange hmid => ?_) hstore
  have hrefers : Change.OrReport Change.Refers change → (change.apply mid).declared.Nodup :=
    fun hchange => (declared_apply mid hchange).symm ▸ hmid
  cases change with
  | declare name => exact nodup_insertNew hmid _
  | whitelist category name => exact hrefers (.of (.inr trivial))
  | noteCheck category name extra => exact hrefers (.of (.inl trivial))
  | defineNamespace name => exact hrefers (.of (.inl trivial))
  | defineAlias name shortName => exact hrefers (.of (.inl trivial))
  | report violation => exact hrefers trivial
  | _ => exact (hchange.elim id id).elim

end Store

namespace Gate

/--
Let passes over fresh trees, aborted or not, follow one another on a store in which nothing is
declared yet.  The functions that they accept have different names, and these are declared.
A further pass is offered the nodes of its tree, with the functions declared that were accepted
before each of them.  It accepts no name that is taken, and rejects a function that is right
otherwise as a duplicate exactly if its name is taken.
-/
theorem functions_declared_once (store : Store) (passes : List Pass)
    (hstore : store.declared = []) (hfresh : ∀ pass ∈ passes, pass.Fresh) :
    (acceptedNames passes store).Nodup ∧
      (afterPasses passes store).declared = acceptedNames passes store ∧
      (afterPasses passes store).overrides = store.overrides ∧
      ∀ pass : Pass, pass.Fresh →
        OfferedUntil Walk.SameOutline (nodesIn pass.tree) (pass.offers (afterPasses passes store))
            (pass.run.exec (afterPasses passes store)).1 ∧
          ∀ before offer later,
            pass.offers (afterPasses passes store) = before ++ offer :: later →
              offer.state.declared =
                  acceptedNames passes store ++ before.filterMap pass.acceptedName? ∧
                offer.state.overrides = store.overrides ∧
                (∀ key, pass.acceptedName? offer = some key → key ∉ offer.state.declared ∧
                  ∀ script, pass = .validation script → key ∉ store.overrides) ∧
                (offer.node.kind = .statement .functionDecl →
                  pass.Admits offer.state offer.node →
                    (pass.RaisesDuplicate offer ↔ ∃ name, offer.node.declaredName? = some name ∧
                      pass.Taken offer.state name)) := by
  have hpasses := afterPasses_evolves passes store
  have hdeclared : (afterPasses passes store).declared = acceptedNames passes store := by
    rw [declared_afterPasses hfresh, hstore, List.nil_append]
  have hoverrides := hpasses.grows.overrides
  refine ⟨?_, hdeclared, hoverrides, fun pass hpass => ?_⟩
  · rw [← hdeclared]
    exact hpasses.nodup_declared (by simp [hstore])
  refine ⟨Pass.offers_offered hpass _, fun before offer later hoffers => ?_⟩
  have hoffer : offer ∈ pass.offers (afterPasses passes store) := by simp [hoffers]
  have hnew : offer.node.generated = false := Pass.offer_new hpass hoffer
  have hoffered := (pass.offer_evolves _ hoffer).mono fun h => Change.OrReport.of h.passes
  have hrules : offer.state.overrides = store.overrides :=
    hoffered.grows.overrides.trans hoverrides
  refine ⟨?_, hrules, fun key hkey => ?_, fun hkind hadmits => ?_⟩
  · rw [Pass.declared_at hpass hoffers, hdeclared]
  · obtain ⟨name, _, rfl, hfree⟩ := Pass.accepted_not_taken hnew hkey
    rw [← hrules]
    exact Pass.free_of_not_taken hfree
  · have hjudges : pass.declares = true := by
      cases pass with
      | own tree => exact hadmits.elim
      | _ => rfl
    exact Pass.raisesDuplicate_iff hjudges hkind hnew hadmits

end Gate

namespace Sample

def library : Json :=
  .arr [entry "Stmt_Function" [("name", .str "Helper"), ("params", .arr []), ("stmts", .arr [])]]

def libraryPass : Gate.Pass := .trusted ((nodesOf library).map .node)

def scriptRuns : List Gate.Pass :=
  [.validation ((nodesOf script).map .node), .validation ((nodesOf script).map .node),
    libraryPass]

private theorem fresh_scriptRuns : ∀ pass ∈ scriptRuns, pass.Fresh := by
  have hlibrary : Plain (nodesOf library) := plain_nodesOf (by decide) (by decide)
  have hfresh : ∀ {nodes : List Node}, Plain nodes →
      ∃ others, nodes.map Value.node = others.map .node ∧ Loaded others ∧
        ∀ n ∈ others, n.nestsLists = false :=
    fun h => ⟨_, rfl, ⟨true, h.loaded⟩, h.flat⟩
  intro pass hpass
  simp only [scriptRuns, List.mem_cons, List.not_mem_nil, or_false] at hpass
  rcases hpass with rfl | rfl | rfl
  · exact hfresh plain_script
  · exact hfresh plain_script
  · exact hfresh hlibrary

end Sample

namespace Gate

theorem functions_declared_once_of_runs :
    acceptedNames Sample.scriptRuns Sample.store = ["f", "helper"] ∧
      (acceptedNames Sample.scriptRuns Sample.store).Nodup ∧
      (afterPasses Sample.scriptRuns Sample.store).declared =
        acceptedNames Sample.scriptRuns Sample.store ∧
      ∃ offer ∈ Sample.libraryPass.offers (afterPasses Sample.scriptRuns Sample.store),
        Sample.libraryPass.RaisesDuplicate offer := by
  obtain ⟨hnodup, hdeclared, _, hnext⟩ :=
    functions_declared_once Sample.store Sample.scriptRuns rfl Sample.fresh_scriptRuns
  obtain ⟨_, hoffers⟩ := hnext Sample.libraryPass
    (Sample.fresh_scriptRuns _ (by simp [Sample.scriptRuns]))
  -- The function of the trusted code is offered again, now that its name is declared.
  have hlast : (Sample.libraryPass.offers (afterPasses Sample.scriptRuns Sample.store)).map
      (fun offer => (offer.node.kind, offer.node.declaredName?, offer.state.isDeclared "Helper")) =
        [(.statement .functionDecl, some "Helper", true)] := by decide +kernel
  obtain ⟨offer, hlist, hoffer⟩ := List.map_eq_singleton_iff.mp hlast
  simp only [Prod.mk.injEq] at hoffer
  obtain ⟨hkind, hname, htaken⟩ := hoffer
  obtain ⟨_, _, _, hduplicate⟩ := hoffers [] offer [] hlist
  have hadmits : Sample.libraryPass.Admits offer.state offer.node := by
    simp [Sample.libraryPass, Pass.Admits, hname]
  refine ⟨by decide +kernel, hnodup, hdeclared, offer, by simp [hlist], ?_⟩
  exact (hduplicate hkind hadmits).mpr ⟨"Helper", hname, htaken⟩

end Gate

end ScriptSandbox
