import ScriptSandbox.Proofs.Gate.Validation

/-!
# Backticks and calls of the function they stand for

A call by a written name passes where the lists of functions and their predicate permit
the name.  Backticks are judged apart from calls: an overridden function is replaced
before any list is looked at, and the predicate is never asked.  So backticks agree with
calls exactly at the stores where neither makes a difference.
-/

namespace ScriptSandbox

open Judge Enforce

variable {store : Store} {n : Node}

namespace Store

/-- The lists of functions do not reject the name. -/
def ListsPermit (store : Store) (function : String) : Prop :=
  store.listsAccept .functions (Category.functions.normalize function) = true

/-- The predicate of functions, if there is one, accepts the name. -/
def PredicatePermits (store : Store) (function : String) : Prop :=
  ∀ predicate ∈ store.predicates .functions,
    predicate (Category.functions.normalize function) [] = true

private theorem check_function_iff {function : String} :
    store.check .functions function [] = true ↔
      store.ListsPermit function ∧ store.PredicatePermits function := by
  unfold check ListsPermit PredicatePermits
  cases store.predicates .functions with
  | none => simp
  | some predicate => simp

end Store

namespace Enforce

@[simp] theorem passes_replaceByRuntime (method : String) (args : List Value) :
    (replaceByRuntime method args n).Passes store := rfl

/-- A call of a function by its written name, with arguments that can be read. -/
structure LiteralCall (n : Node) (function : String) : Prop where
  kind : n.kind = .expression .funcCall
  new : n.generated = false
  name : ∃ written, (n.field "name").name? = some written ∧ written.nameText = .ok function
  args : ∃ args, n.fieldItems "args" = .ok args

private theorem LiteralCall.passes_iff {function : String} (hliteral : LiteralCall n function) :
    (node n).Passes store ↔ store.check .functions function [] = true := by
  obtain ⟨hkind, hnew, ⟨written, hwritten, hfunction⟩, args, hargs⟩ := hliteral
  have hcall : node n = funcCall n := node_of_rule hnew (congrArg Kind.rule hkind)
  rw [hcall, funcCall, hwritten]
  constructor
  · intro hpasses
    obtain ⟨text, htext, hpasses⟩ := passes_read_bind.mp hpasses
    obtain rfl : text = function := Except.ok.inj (htext.symm.trans hfunction)
    exact (passes_name_bind.mp hpasses).1
  · intro hcheck
    refine passes_read_bind.mpr ⟨function, hfunction, ?_⟩
    refine passes_name_bind.mpr ⟨hcheck, ?_⟩
    refine passes_read_bind.mpr ⟨args, hargs, ?_⟩
    rw [passes_get_bind]
    apply Run.Passes.ite
    · intro _
      exact passes_replaceByRuntime _ _
    · intro _
      apply Run.Passes.ite
      · intro _
        exact passes_replaceByRuntime _ _
      · intro _
        exact Run.Passes.ite (fun _ => passes_replaceByRuntime _ _) fun _ => rfl

private theorem backticks_pass_iff (hkind : n.kind = .expression .shellExec)
    (hnew : n.generated = false) :
    (node n).Passes store ↔
      if store.isOverridden shellFunction then ∃ line, command n = .ok line
      else store.ListsPermit shellFunction ∧ store.allows .backticks = true := by
  have hshell : node n = shellExec n := node_of_rule hnew (congrArg Kind.rule hkind)
  rw [hshell, shellExec, passes_get_bind]
  cases hoverridden : store.isOverridden shellFunction with
  | true =>
      simp only [if_true]
      constructor
      · intro hpasses
        obtain ⟨line, hline, _⟩ := passes_read_bind.mp hpasses
        exact ⟨line, hline⟩
      · rintro ⟨line, hline⟩
        exact passes_read_bind.mpr ⟨line, hline, passes_replaceByRuntime _ _⟩
  | false =>
      simp only [Bool.false_eq_true, if_false]
      rw [Store.ListsPermit, ← shellOffence?_eq_none_iff]
      cases shellOffence? store with
      | some offence =>
          constructor
          · intro hpasses
            exact absurd hpasses (not_passes_reject _ _ _)
          · rintro ⟨hnone, _⟩
            cases hnone
      | none =>
          constructor
          · intro hpasses
            exact ⟨rfl, (passes_require_bind.mp hpasses).1⟩
          · rintro ⟨_, hallow⟩
            exact passes_require_bind.mpr ⟨hallow, rfl⟩

def emptyBackticks : Node :=
  Node.make (.expression .shellExec) [] [("parts", .list [])]

/--
A literal call of the function passes where the store permits the function.  On a store,
backticks pass only where such calls do exactly if the lists permit the function where it is
overridden, and the predicate permits it where the lists leave it to the predicate and
backticks are replaced or allowed.
-/
theorem backticks_agree_iff (store : Store) :
    (∀ call : Node, LiteralCall call shellFunction →
        ((node call).Passes store ↔ store.check .functions shellFunction [] = true)) ∧
      ((∀ n : Node, n.kind = .expression .shellExec → n.generated = false →
          (node n).Passes store → store.check .functions shellFunction [] = true) ↔
        (store.isOverridden shellFunction = true → store.ListsPermit shellFunction) ∧
        (store.isOverridden shellFunction = true ∨ store.allows .backticks = true →
          store.ListsPermit shellFunction → store.PredicatePermits shellFunction)) := by
  refine ⟨fun _ hliteral => hliteral.passes_iff, ?_⟩
  have hempty : (node emptyBackticks).Passes store ↔ _ := backticks_pass_iff rfl rfl
  constructor
  · intro hagree
    have hpermits : (node emptyBackticks).Passes store →
        store.ListsPermit shellFunction ∧ store.PredicatePermits shellFunction :=
      fun hpasses => Store.check_function_iff.mp (hagree emptyBackticks rfl rfl hpasses)
    rw [hempty] at hpermits
    cases hoverridden : store.isOverridden shellFunction with
    | true =>
        rw [hoverridden, if_pos rfl] at hpermits
        obtain ⟨hlists, hpredicate⟩ := hpermits ⟨_, rfl⟩
        exact ⟨fun _ => hlists, fun _ _ => hpredicate⟩
    | false =>
        rw [hoverridden, if_neg Bool.false_ne_true] at hpermits
        refine ⟨fun h => (by cases h), fun hopen hlists => ?_⟩
        obtain h | hallow := hopen
        · cases h
        · exact (hpermits ⟨hlists, hallow⟩).2
  · rintro ⟨hlists, hpredicate⟩ n hkind hnew hpasses
    rw [backticks_pass_iff hkind hnew] at hpasses
    rw [Store.check_function_iff]
    cases hoverridden : store.isOverridden shellFunction with
    | true => exact ⟨hlists hoverridden, hpredicate (.inl hoverridden) (hlists hoverridden)⟩
    | false =>
        rw [hoverridden, if_neg Bool.false_ne_true] at hpasses
        obtain ⟨hpermit, hallow⟩ := hpasses
        exact ⟨hpermit, hpredicate (.inr hallow) hpermit⟩

end Enforce

namespace Sample

def emptyTicks : Json :=
  .arr [entry "Expr_ShellExec" [("parts", .arr [])]]

def shellCall : Json :=
  .arr [entry "Expr_FuncCall" [("name", entry "Name" [("parts", .arr [.str shellFunction])]),
    ("args", .arr [])]]

/-- The function is on the deny-list, and overridden. -/
def denyingStore : Store :=
  ((Store.empty Options.default false).blacklist .functions shellFunction).override shellFunction

/-- Backticks are allowed, and the predicate accepts no function. -/
def refusingStore : Store :=
  (Store.empty (Options.default.setFlag (.allow .backticks) true) false).setPredicate .functions
    (some fun _ _ => false)

def passes (store : Store) (file : Json) : Prop :=
  (Gate.validate ((nodesOf file).map .node)).Passes store

instance (store : Store) (file : Json) : Decidable (passes store file) :=
  inferInstanceAs (Decidable (Run.Passes _ _))

/-- Backticks pass, and a call of their function does not. -/
structure TicksAlonePass (store : Store) : Prop where
  ticks : passes store emptyTicks
  call : ¬ passes store shellCall
  check : store.check .functions shellFunction [] = false

end Sample

namespace Gate

theorem backticks_pass_where_calls_fail :
    Sample.TicksAlonePass Sample.denyingStore ∧ Sample.TicksAlonePass Sample.refusingStore where
  left := ⟨by decide +kernel, by decide +kernel, by decide +kernel⟩
  right := ⟨by decide +kernel, by decide +kernel, by decide +kernel⟩

end Gate

end ScriptSandbox
