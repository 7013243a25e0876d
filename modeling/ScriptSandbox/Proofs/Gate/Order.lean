import ScriptSandbox.Proofs.Enforce.Independence
import ScriptSandbox.Proofs.Gate.Validation

/-!
# The order of statements

A script is judged statement by statement, against a store that holds what the statements
before have defined.  What becomes of a statement does not depend on that: it passes after
others if it passes alone and declares no function that they declare.  So the order of the
statements decides neither whether a script passes nor what each of them becomes.
-/

namespace ScriptSandbox

open Store (Change Evolves)

namespace Gate

private theorem validate_cons (item : Value) (rest : Tree) :
    validate (item :: rest) = (do
      let block ← validate [item]
      let others ← validate rest
      pure (block ++ others)) := by
  have hwalk : ∀ nodes, validate nodes = Walk.walkItems [Enforce.visitor] nodes := fun nodes =>
    bind_pure (Walk.walkItems [Enforce.visitor] nodes)
  rw [hwalk, hwalk, hwalk]
  cases item with
  | node n => simp [Walk.walkItems]
  | _ => simp [Walk.walkItems]

variable {store mid after last : Store} {script other walked : Tree} {item : Value}

private theorem validate_evolves (hrun : (validate script).exec store = (.ok walked, after)) :
    Evolves Change.Validates store after :=
  ((Walk.offers_judged hrun).evolves Enforce.node_makes).1

def blockOf (store : Store) (item : Value) : Tree :=
  ((validate [item]).exec store).1.toOption.getD []

def leftBy (store : Store) (item : Value) : Store :=
  ((validate [item]).exec store).2

def functionsOf (store : Store) (script : Tree) : List String :=
  Enforce.newFunctions (Enforce.visitor.offers script store)

private theorem exec_alone (h : (validate [item]).Passes store) :
    (validate [item]).exec store = (.ok (blockOf store item), leftBy store item) := by
  obtain ⟨block, after, hrun⟩ := exists_of_isOk h
  rw [blockOf, leftBy, hrun]
  rfl

private theorem declared_of_validate (hrun : (validate script).exec store = (.ok walked, after)) :
    after.declared = store.declared ++ functionsOf store script ∧
      (functionsOf store script).Nodup ∧
      ∀ key ∈ functionsOf store script, key ∉ store.declared :=
  Enforce.declared_of_judges (Walk.offers_judged hrun)

def Extends (store later : Store) : Prop := later.Beside store later

@[simp] theorem Extends.refl (store : Store) : Extends store store where
  policy := .refl store
  holds _ := (or_self _).symm ▸ Iff.rfl

private theorem Extends.holds_of {store later : Store} (h : Extends store later)
    {definition : Definition}
    (hstore : store.Holds definition) : later.Holds definition :=
  (h.holds definition).mpr (.inr hstore)

private theorem validate_of_extends (h : Extends store mid)
    (hrun : (validate script).exec store = (.ok walked, after)) :
    ((∀ key ∈ functionsOf store script, key ∉ mid.declared) →
        ∃ last, (validate script).exec mid = (.ok walked, last) ∧ mid.Beside after last) ∧
      ((validate script).Passes mid → ∀ key ∈ functionsOf store script, key ∉ mid.declared) := by
  have hreturns := Walk.tree_returnsIf (Enforce.returnsIf_beside mid) h hrun
  have hoffers : (∀ offer ∈ Enforce.visitor.offers script store,
      ∀ key, offer.node.newFunction? = some key → key ∉ mid.declared) ↔
        ∀ key ∈ functionsOf store script, key ∉ mid.declared := by
    simp only [functionsOf, Enforce.newFunctions, List.mem_filterMap]
    constructor
    · rintro hall key ⟨offer, hoffer, hkey⟩
      exact hall offer hoffer key hkey
    · intro hall offer hoffer key hkey
      exact hall key ⟨offer, hoffer, hkey⟩
  rwa [hoffers] at hreturns

private theorem passes_of_extends (h : Extends store mid) (hpasses : (validate script).Passes mid) :
    (validate script).Passes store := by
  obtain ⟨walked, last, hrun⟩ := exists_of_isOk hpasses
  obtain ⟨after, hother, _⟩ :=
    Walk.tree_follows (Enforce.follows_beside mid) script mid store h walked last hrun
  change (validate script).exec store = _ at hother
  rw [Run.Passes, hother]
  rfl

structure Separate (store mid : Store) (script : Tree) : Prop where
  alone : ∀ item ∈ script, (validate [item]).Passes store
  nodup : (script.flatMap fun item => functionsOf store [item]).Nodup
  new : ∀ key ∈ script.flatMap fun item => functionsOf store [item], key ∉ mid.declared

def Holding (store mid : Store) (script : Tree) (last : Store) : Prop :=
  ∀ definition, last.Holds definition ↔
    mid.Holds definition ∨ ∃ item ∈ script, (leftBy store item).Holds definition

private theorem Extends.after_alone (h : Extends store mid)
    (halone : (validate [item]).Passes store)
    (hbeside : mid.Beside (leftBy store item) last) : Extends store last where
  policy := by
    have hevolves := (validate_evolves (exec_alone halone)).mono fun hchange =>
      Change.OrReport.of hchange
    exact hevolves.samePolicy.trans hbeside.policy
  holds definition := by
    refine ⟨.inl, ?_⟩
    rintro (hlast | hstore)
    · exact hlast
    · exact (hbeside.holds definition).mpr (.inl (h.holds_of hstore))

private theorem declared_after_alone (h : Extends store mid)
    (halone : (validate [item]).Passes store)
    (hbeside : mid.Beside (leftBy store item) last) (key : String) :
    key ∈ last.declared ↔ key ∈ mid.declared ∨ key ∈ functionsOf store [item] := by
  have hlast : key ∈ last.declared ↔ key ∈ mid.declared ∨ key ∈ (leftBy store item).declared :=
    hbeside.holds (.function key)
  rw [hlast, (declared_of_validate (exec_alone halone)).1, List.mem_append, ← or_assoc]
  refine or_congr_left ⟨?_, .inl⟩
  rintro (hmid | hstore)
  · exact hmid
  · exact (h.holds (.function key)).mpr (.inr hstore)

private theorem exec_of_separate (h : Separate store mid script) (hmid : Extends store mid) :
    ∃ last, (validate script).exec mid = (.ok (script.flatMap (blockOf store)), last) ∧
      Holding store mid script last := by
  induction script generalizing mid with
  | nil => exact ⟨mid, rfl, fun definition => by simp⟩
  | cons item rest ih =>
      obtain ⟨halone, hrest⟩ := List.forall_mem_cons.mp h.alone
      have hnodup := h.nodup
      have hnew := h.new
      rw [List.flatMap_cons, List.nodup_append] at hnodup
      rw [List.flatMap_cons, List.forall_mem_append] at hnew
      obtain ⟨next, hexec, hbeside⟩ :=
        (validate_of_extends hmid (exec_alone halone)).1 hnew.1
      have hseparate : Separate store next rest := by
        refine ⟨hrest, hnodup.2.1, fun key hkey => ?_⟩
        rw [declared_after_alone hmid halone hbeside, not_or]
        exact ⟨hnew.2 key hkey, fun hitem => hnodup.2.2 key hitem key hkey rfl⟩
      obtain ⟨last, hexec', hholding⟩ := ih hseparate (hmid.after_alone halone hbeside)
      refine ⟨last, ?_, fun definition => ?_⟩
      · rw [validate_cons, Run.exec_bind_eq_ok]
        refine ⟨_, _, hexec, ?_⟩
        rw [Run.exec_bind_eq_ok]
        exact ⟨_, _, hexec', rfl⟩
      · rw [hholding, hbeside.holds, or_assoc, List.exists_mem_cons_iff]

private theorem separate_of_passes (hmid : Extends store mid)
    (hpasses : (validate script).Passes mid) :
    Separate store mid script := by
  induction script generalizing mid with
  | nil => exact ⟨by simp, by simp, by simp⟩
  | cons item rest ih =>
      rw [validate_cons] at hpasses
      obtain ⟨block, next, hexec, hpasses⟩ := Run.passes_bind.mp hpasses
      obtain ⟨others, last, hexec', _⟩ := Run.passes_bind.mp hpasses
      have hitem : (validate [item]).Passes mid := by rw [Run.Passes, hexec]; rfl
      have halone := passes_of_extends hmid hitem
      obtain ⟨hreturns, hnew⟩ := validate_of_extends hmid (exec_alone halone)
      obtain ⟨next', hsame, hbeside⟩ := hreturns (hnew hitem)
      cases hexec.symm.trans hsame
      have hrest := ih (hmid.after_alone halone hbeside) (by rw [Run.Passes, hexec']; rfl)
      have hlater : ∀ key ∈ rest.flatMap fun item => functionsOf store [item],
          key ∉ mid.declared ∧ key ∉ functionsOf store [item] := by
        intro key hkey
        have hnext := hrest.new key hkey
        rwa [declared_after_alone hmid halone hbeside, not_or] at hnext
      refine ⟨List.forall_mem_cons.mpr ⟨halone, hrest.alone⟩, ?_, ?_⟩
      · rw [List.flatMap_cons, List.nodup_append]
        refine ⟨(declared_of_validate (exec_alone halone)).2.1, hrest.nodup, ?_⟩
        rintro key hkey _ hother rfl
        exact (hlater key hother).2 hkey
      · rw [List.flatMap_cons]
        exact List.forall_mem_append.mpr ⟨hnew hitem, fun key hkey => (hlater key hkey).1⟩

private theorem passes_iff_separate : (validate script).Passes store ↔
    Separate store store script := by
  refine ⟨separate_of_passes (.refl store), fun h => ?_⟩
  obtain ⟨last, hexec, _⟩ := exec_of_separate h (.refl store)
  rw [Run.Passes, hexec]
  rfl

private theorem holding_of_validate (hrun : (validate script).exec store = (.ok walked, last)) :
    walked = script.flatMap (blockOf store) ∧ Holding store store script last := by
  have hpasses : (validate script).Passes store := by rw [Run.Passes, hrun]; rfl
  obtain ⟨_, hexec, hholding⟩ := exec_of_separate (passes_iff_separate.mp hpasses) (.refl store)
  rw [hrun] at hexec
  cases hexec
  exact ⟨rfl, hholding⟩

private theorem Separate.perm (h : Separate store mid script) (hperm : script.Perm other) :
    Separate store mid other := by
  have hfunctions := hperm.flatMap_right fun item => functionsOf store [item]
  refine ⟨fun item hitem => h.alone item (hperm.mem_iff.mpr hitem), ?_, fun key hkey => ?_⟩
  · exact hfunctions.nodup_iff.mp h.nodup
  · exact h.new key (hfunctions.mem_iff.mpr hkey)

/--
The order of the statements of a script does not decide whether it passes.  When it passes,
every statement becomes the same in both orders, what it becomes by itself, and these blocks
follow one another as the statements do.  Both orders define the same functions, namespaces
and aliases.
-/
theorem order_decides_nothing (hperm : script.Perm other) (store : Store) :
    ((validate script).Passes store ↔ (validate other).Passes store) ∧
      ∀ guarded guarded' after after',
        (validate script).exec store = (.ok guarded, after) →
        (validate other).exec store = (.ok guarded', after') →
          (∀ item ∈ script, (validate [item]).Passes store) ∧
            guarded = script.flatMap (blockOf store) ∧ guarded' = other.flatMap (blockOf store) ∧
            ∀ definition, after.Holds definition ↔ after'.Holds definition := by
  refine ⟨?_, fun guarded guarded' after after' hrun hrun' => ?_⟩
  · rw [passes_iff_separate, passes_iff_separate]
    exact ⟨fun h => h.perm hperm, fun h => h.perm hperm.symm⟩
  · obtain ⟨hblocks, hholding⟩ := holding_of_validate hrun
    obtain ⟨hblocks', hholding'⟩ := holding_of_validate hrun'
    have hpasses : (validate script).Passes store := by rw [Run.Passes, hrun]; rfl
    refine ⟨(passes_iff_separate.mp hpasses).alone, hblocks, hblocks', fun definition => ?_⟩
    rw [hholding, hholding']
    simp only [hperm.mem_iff]

end Gate

namespace Sample

def statements : Tree :=
  treeOf (.arr [
    entry "Stmt_Function" [("name", .str "F"), ("params", .arr []), ("stmts", .arr [])],
    entry "Stmt_Namespace" [("name", nameEntry "Lib"), ("stmts", .arr [
      entry "Stmt_Use" [("uses", .arr [
        entry "Stmt_UseUse" [("name", nameEntry "Tool"), ("alias", .str "T")]])],
      entry "Stmt_Echo" [("exprs", .arr [variableEntry "x"])]])]])

def openerStore : Store :=
  { openStore with options := openStore.options.setFlag (.allow .functions) true }

end Sample

namespace Gate

theorem order_decides_nothing_of_reversed : ∃ guarded guarded' after after',
    (validate Sample.statements).exec Sample.openerStore = (.ok guarded, after) ∧
      (validate Sample.statements.reverse).exec Sample.openerStore = (.ok guarded', after') ∧
      guarded.length = 2 ∧
      guarded' = Sample.statements.reverse.flatMap (blockOf Sample.openerStore) ∧
      after'.Holds (.function "f") ∧ after'.Holds (.namespaceName "lib") ∧
      after'.Holds (.aliasName "tool") := by
  have hrun : ∃ guarded after,
      (validate Sample.statements).exec Sample.openerStore = (.ok guarded, after) ∧
        guarded.length = 2 ∧ after.declared = ["f"] ∧ after.namespaces = ["Lib"] ∧
          Record.names after.aliases = ["tool"] :=
    ⟨_, _, rfl, by decide +kernel⟩
  obtain ⟨guarded, after, hrun, hlength, hdeclared, hnamespaces, haliases⟩ := hrun
  obtain ⟨hpasses, hsame⟩ :=
    order_decides_nothing (List.reverse_perm Sample.statements).symm Sample.openerStore
  obtain ⟨guarded', after', hrun'⟩ := exists_of_isOk (hpasses.mp (by rw [Run.Passes, hrun]; rfl))
  obtain ⟨_, _, hblocks, hholds⟩ := hsame guarded guarded' after after' hrun hrun'
  refine ⟨guarded, guarded', after, after', hrun, hrun', hlength, hblocks, ?_, ?_, ?_⟩
  · exact (hholds (.function "f")).mp (by simp [Store.Holds, hdeclared])
  · exact (hholds (.namespaceName "lib")).mp ⟨"Lib", by simp [hnamespaces], by decide +kernel⟩
  · exact (hholds (.aliasName "tool")).mp (by simp [Store.Holds, haliases])

end Gate

end ScriptSandbox
