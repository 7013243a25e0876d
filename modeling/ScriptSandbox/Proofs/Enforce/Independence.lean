import ScriptSandbox.Proofs.Enforce.Changes
import ScriptSandbox.Proofs.Enforce.Declarations
import ScriptSandbox.Proofs.Enforce.Functions
import ScriptSandbox.Proofs.Enforce.Stability
import ScriptSandbox.Proofs.Policy.Definitions
import ScriptSandbox.Proofs.Walk.Conditional

/-!
# What judging depends on

Of what earlier nodes have defined, judging a node reads the declared functions alone, and
only to see whether the name of a function is new.  So a node that passes against a store
gets the same verdict against any store that permits the same, if the function that it
declares, if any, is new to the other store too.
-/

namespace ScriptSandbox

open Judge
open Store (Change Evolves)

def Node.newFunction? (n : Node) : Option String :=
  if n.generated then none else n.functionName?

namespace Enforce

variable {n : Node} {s t after : Store} {verdict : Verdict}

def Declaring (n : Node) : Prop :=
  n.generated = false ∧ n.kind = .statement .functionDecl

private theorem newFunction?_of_declaring (h : Declaring n) :
    n.newFunction? = n.declaredName?.map Category.functions.normalize := by
  rw [Node.newFunction?, if_neg (by simp [h.1]), Node.functionName?, if_pos h.2]

private theorem newFunction?_of_not_declaring (h : ¬ Declaring n) : n.newFunction? = none := by
  unfold Node.newFunction?
  split
  · rfl
  · next hnew =>
    rw [Bool.not_eq_true] at hnew
    exact n.functionName?_of_kind_ne fun hkind => h ⟨hnew, hkind⟩

private theorem node_of_declaring (h : Declaring n) : node n = keeping (functionDecl n) := by
  have hrule : n.kind.rule = .functionDecl := by rw [h.2]; rfl
  rw [node_of_rule h.1 hrule]
  rfl

private theorem rule_ne_of_not_declaring (h : ¬ Declaring n) (hnew : n.generated = false) :
    n.kind.rule ≠ .functionDecl :=
  fun hrule => h ⟨hnew, Kind.eq_functionDecl hrule⟩

private theorem exec_functionDecl {name : String} (hadmits : AdmitsFunction s n)
    (hname : n.declaredName? = some name)
    (hfree : (s.isOverridden name || s.isDeclared name) = false) :
    (functionDecl n).exec s = (.ok (), (s.noteCheck .keywords "function" []).declare name) := by
  have hpolicy := s.samePolicy_noteCheck .keywords "function" []
  have hdeclared : (s.noteCheck .keywords "function" []).isDeclared name = s.isDeclared name := by
    simp [Store.isDeclared]
  have hjudged : (keyword "function" n).exec s = (.ok (), s.noteCheck .keywords "function" []) :=
    Judge.exec_name (some n) hadmits.keyword
  rw [functionDecl, Run.exec_bind, Judge.exec_require _ _ hadmits.allowed]
  simp only [Run.exec_bind, hjudged]
  unfold declaredName
  rw [hname]
  change (if _ then _ else _ : Judge Unit).exec _ = _
  rw [if_neg (by rw [hpolicy.isOverridden_eq, hdeclared, hfree]; exact Bool.false_ne_true)]
  have hreference : ¬ ((n.field "byRef").truthy &&
      !(s.noteCheck .keywords "function" []).allows .references) = true := by
    rw [hpolicy.allows_eq, Bool.and_eq_true, Bool.not_eq_true', not_and, Bool.not_eq_false]
    exact hadmits.reference
  rw [if_neg hreference]
  rfl

structure DeclaresNew (n : Node) (store after : Store) (name : String) : Prop where
  admits : AdmitsFunction store n
  named : n.declaredName? = some name
  free : (store.isOverridden name || store.isDeclared name) = false
  after_eq : after = (store.noteCheck .keywords "function" []).declare name

private theorem exists_declaresNew (hrun : (functionDecl n).exec s = (.ok (), after)) :
    ∃ name, DeclaresNew n s after name := by
  obtain ⟨hallow, hkeyword, ⟨name, hname, _⟩, hreference⟩ :=
    ((functionDecl_yields n).ok (.start : Reaches s s) hrun).2
  have hadmits : AdmitsFunction s n := ⟨hallow, hkeyword, by simp [hname], hreference⟩
  have hends := functionDecl_declares n s
  rw [hrun] at hends
  have hfree : (s.isOverridden name || s.isDeclared name) = false := by
    have htaken := hends.not_taken rfl hname
    rw [not_or, Bool.not_eq_true, Bool.not_eq_true] at htaken
    rw [htaken.1, htaken.2, Bool.or_self]
  have hexec := exec_functionDecl hadmits hname hfree
  rw [hrun] at hexec
  exact ⟨name, hadmits, hname, hfree, congrArg Prod.snd hexec⟩

private theorem exec_node_of_declaring (h : Declaring n) (store : Store) :
    (node n).exec store = (((functionDecl n).exec store).1.map fun _ => .keep,
      ((functionDecl n).exec store).2) := by
  rw [node_of_declaring h]
  exact Run.exec_bind_pure (functionDecl n) _ store

private theorem declaresNew_of_node (h : Declaring n)
    (hrun : (node n).exec s = (.ok verdict, after)) :
    verdict = .keep ∧ ∃ name, DeclaresNew n s after name := by
  rw [exec_node_of_declaring h] at hrun
  cases hexec : (functionDecl n).exec s with
  | mk result last =>
      rw [hexec] at hrun
      cases result with
      | error cause => cases hrun
      | ok value =>
          cases hrun
          exact ⟨rfl, exists_declaresNew hexec⟩

theorem AdmitsFunction.of_samePolicy (h : AdmitsFunction s n) (hpolicy : s.SamePolicy t) :
    AdmitsFunction t n where
  allowed := (hpolicy.allows_eq _).trans h.allowed
  keyword := (hpolicy.check_eq _ _ _).trans h.keyword
  named := h.named
  reference href := (hpolicy.allows_eq _).trans (h.reference href)

private theorem node_paired_of_not_declaring {I : Store → Store → Prop} (h : Pairing I)
    (hplain : ¬ Declaring n) :
    Judge.Paired I .strict (node n) (node n) (Verdict.Alike .strict false) := by
  cases hnew : n.generated with
  | true =>
      have hkept : node n = pure .keep := by rw [node, hnew, if_pos rfl]
      rw [hkept]
      exact Run.Paired.pure .keep
  | false =>
      exact node_paired h strict_faithful (fun _ _ h => h) (.refl _ _ n)
        fun hrule => absurd hrule (rule_ne_of_not_declaring hplain hnew)

private theorem node_makes_of_not_declaring (hplain : ¬ Declaring n) : Makes Change.Names
    (node n) := by
  cases hnew : n.generated with
  | true =>
      have hkept : node n = pure .keep := by rw [node, hnew, if_pos rfl]
      rw [hkept]
      exact Makes.pure _
  | false => exact node_makes_of_rule_ne (rule_ne_of_not_declaring hplain hnew)

private theorem node_declares (hrun : (node n).exec s = (.ok verdict, after)) :
    after.declared = s.declared ++ n.newFunction?.toList ∧
      ∀ key, n.newFunction? = some key → key ∉ s.declared := by
  by_cases hfunction : Declaring n
  · obtain ⟨_, name, hdeclares⟩ := declaresNew_of_node hfunction hrun
    have hfree := (Bool.or_eq_false_iff.mp hdeclares.free).2
    have hnoted : (s.noteCheck .keywords "function" []).isDeclared name = false := by
      rw [Store.isDeclared, Store.declared_noteCheck]
      exact hfree
    rw [newFunction?_of_declaring hfunction, hdeclares.named, hdeclares.after_eq,
      Store.declared_declare _ hnoted, Store.declared_noteCheck]
    refine ⟨rfl, fun key hkey => ?_⟩
    rw [Option.map_some, Option.some.injEq] at hkey
    rw [← hkey]
    exact of_decide_eq_false hfree
  · have hevolves : Evolves Change.Names s after := (node_makes_of_not_declaring hfunction).ok hrun
    rw [newFunction?_of_not_declaring hfunction]
    refine ⟨?_, fun key hkey => by cases hkey⟩
    rw [Option.toList_none, List.append_nil]
    exact hevolves.eq fun change mid hchange => mid.declared_apply (.of (.inl hchange))

private theorem node_transfers {I : Store → Store → Prop} (h : Pairing I) (hst : I s t)
    (hrun : (node n).exec s = (.ok verdict, after))
    (hnew : ∀ key, n.newFunction? = some key → key ∉ t.declared) :
    ∃ last, (node n).exec t = (.ok verdict, last) ∧ I after last := by
  by_cases hfunction : Declaring n
  · obtain ⟨rfl, name, hadmits, hname, hfree, rfl⟩ := declaresNew_of_node hfunction hrun
    rw [newFunction?_of_declaring hfunction, hname] at hnew
    have hpolicy := h.samePolicy hst
    have hfree' : (t.isOverridden name || t.isDeclared name) = false := by
      rw [hpolicy.isOverridden_eq, (Bool.or_eq_false_iff.mp hfree).1, Bool.false_or]
      exact decide_eq_false (hnew _ rfl)
    refine ⟨_, ?_, h.declare name (h.noteCheck .keywords "function" [] hst)⟩
    rw [exec_node_of_declaring hfunction,
      exec_functionDecl (hadmits.of_samePolicy hpolicy) hname hfree']
    rfl
  · obtain ⟨hafter, hends⟩ := node_paired_of_not_declaring h hfunction s t hst
    rw [hrun] at hafter hends
    cases hexec : (node n).exec t with
    | mk result last =>
        rw [hexec] at hafter hends
        cases hends with
        | ok hverdict => exact ⟨last, by rw [hverdict.eq_of_strict], hafter⟩

def newFunctions (offers : List (Offer Store)) : List String :=
  offers.filterMap fun offer => offer.node.newFunction?

theorem declared_of_judges {offers : List (Offer Store)} (h : visitor.Judges s offers after) :
    after.declared = s.declared ++ newFunctions offers ∧ (newFunctions offers).Nodup ∧
      ∀ key ∈ newFunctions offers, key ∉ s.declared := by
  induction h with
  | nil => exact ⟨(List.append_nil _).symm, List.nodup_nil, by simp [newFunctions]⟩
  | @snoc offers n mid after verdict _ hleave ih =>
      obtain ⟨hmid, hnodup, hfree⟩ := ih
      obtain ⟨hafter, hnew⟩ := node_declares hleave
      have hlast : newFunctions (offers ++ [⟨n, mid⟩]) =
          newFunctions offers ++ n.newFunction?.toList :=
        filterMap_snoc _ offers ⟨n, mid⟩
      rw [hlast, hafter, hmid, List.append_assoc]
      cases hname : n.newFunction? with
      | none =>
          rw [Option.toList_none, List.append_nil]
          exact ⟨rfl, hnodup, hfree⟩
      | some key =>
          have hkey := hnew key hname
          rw [hmid, List.mem_append, not_or] at hkey
          refine ⟨rfl, ?_, ?_⟩
          · rw [Option.toList_some, (List.perm_append_singleton key _).nodup_iff]
            exact List.nodup_cons.mpr ⟨hkey.2, hnodup⟩
          · rw [Option.toList_some]
            exact List.forall_mem_append.mpr ⟨hfree, List.forall_mem_singleton.mpr hkey.1⟩

theorem returnsIf_beside (base : Store) :
    visitor.ReturnsIf base.Beside fun n =>
      ∀ key, n.newFunction? = some key → key ∉ base.declared := by
  intro n s t hst verdict after hrun
  have hdeclared : ∀ key, key ∈ t.declared ↔ key ∈ base.declared ∨ key ∈ s.declared :=
    fun key => hst.holds (.function key)
  refine ⟨fun hadmitted => ?_, fun hpasses key hkey hbase => ?_⟩
  · refine node_transfers (Store.pairing_beside base) hst hrun fun key hkey => ?_
    rw [hdeclared, not_or]
    exact ⟨hadmitted key hkey, (node_declares hrun).2 key hkey⟩
  · obtain ⟨_, _, hother⟩ := exists_of_isOk hpasses
    exact (node_declares hother).2 key hkey ((hdeclared key).mpr (.inl hbase))

theorem follows_beside (base : Store) (n : Node) :
    Run.Follows (fun s t => base.Beside t s) (visitor.leave n) (visitor.leave n) := by
  intro s t hts verdict after hrun
  refine node_transfers (Store.pairing_beside base).flip hts hrun fun key hkey hheld => ?_
  exact (node_declares hrun).2 key hkey ((hts.holds (.function key)).mpr (.inr hheld))

end Enforce

end ScriptSandbox
