import ScriptSandbox.Proofs.Enforce.Declarations

/-!
# References that pass

What becomes of a call, a variable, a constant, a class access or backticks.
-/

namespace ScriptSandbox

open Judge

namespace Enforce

variable {store : Store}

private theorem replaceByRuntime_yields {n : Node} {method : String} {args : List Value}
    (h : RuntimeCall store n (Generated.runtimeCall store.handle method args n)) :
    Run.Yields (Reaches store) (replaceByRuntime method args n) (Outcome store n) := by
  refine get_yields.bind fun mid hmid => ?_
  rw [hmid.handle_eq]
  exact Run.Yields.pure (.called h)

private theorem dynamicCall_yields {n : Node} (hrule : n.kind.rule = .funcCall)
    (hname : (n.field "name").name? = none) :
    Run.Yields (Reaches store) (dynamicCall n) (Outcome store n) := by
  unfold dynamicCall
  split
  next computed hcallee =>
    refine get_yields.bind fun mid hmid => ?_
    rw [hmid.handle_eq]
    refine Run.Yields.pure (.guarded hrule hcallee ?_)
    rw [hcallee, Value.name?, ite_eq_right_iff] at hname
    cases hkind : computed.kind.isName with
    | false => rfl
    | true => cases hname hkind
  next => exact Run.Yields.throw _

private theorem namedCall_yields {n written : Node} (hrule : n.kind.rule = .funcCall)
    (hwritten : (n.field "name").name? = some written) :
    Run.Yields (Reaches store) (namedCall n written) (Outcome store n) := by
  refine (read_yields written.nameText).bind fun text htext => ?_
  refine (name_yields .function text (some n)).bind fun _ haccepts => ?_
  refine (read_yields (n.fieldItems "args")).bind fun args hargs => ?_
  refine get_yields.bind fun mid hmid => ?_
  rw [hmid.isOverridden_eq, hmid.flag_eq, hmid.flag_eq]
  refine Run.Yields.ite (fun hoverridden => ?_) fun hfree => ?_
  · exact replaceByRuntime_yields
      (.function hrule hwritten htext haccepts hoverridden hargs)
  refine Run.Yields.ite (fun hdefined => ?_) fun hdefined => ?_
  · rw [Bool.and_eq_true, List.contains_iff_mem] at hdefined
    exact replaceByRuntime_yields (.definedFunction hrule hwritten htext haccepts hdefined)
  refine Run.Yields.ite (fun harguments => ?_) fun harguments => ?_
  · rw [Bool.and_eq_true, List.contains_iff_mem] at harguments
    exact replaceByRuntime_yields
      (.argumentFunction hrule hwritten htext haccepts harguments hargs)
  rw [Bool.and_eq_true, List.contains_iff_mem] at hdefined harguments
  rw [Bool.not_eq_true] at hfree
  refine Run.Yields.pure (.kept ?_)
  rw [Node.Meets, hrule]
  exact ⟨written, text, hwritten, htext, haccepts, hfree, hdefined, harguments⟩

theorem funcCall_yields {n : Node} (hrule : n.kind.rule = .funcCall) :
    Run.Yields (Reaches store) (funcCall n) (Outcome store n) := by
  unfold funcCall
  cases hwritten : (n.field "name").name? with
  | some written => exact namedCall_yields hrule hwritten
  | none => exact dynamicCall_yields hrule hwritten

private theorem superglobal_yields {n : Node} {name : String} (hrule : n.kind.rule = .variableRef)
    (hname : n.field "name" = .str name) (hfree : name ≠ store.handle)
    (hsuper : name ∈ superglobals) :
    Run.Yields (Reaches store) (superglobal n name) (Outcome store n) := by
  refine (name_yields .superglobal name (some n)).bind fun _ haccepts => ?_
  refine (flag_yields (.overwrite .superglobals)).bind fun value hvalue => ?_
  refine Run.Yields.ite (fun hon => ?_) fun hoff => ?_
  · rw [hvalue] at hon
    exact replaceByRuntime_yields (.superglobal hrule hname hsuper haccepts hon)
  · rw [hvalue, Bool.not_eq_true] at hoff
    refine Run.Yields.pure (.kept ?_)
    rw [Node.Meets, hrule]
    refine ⟨name, hname, hfree, ?_⟩
    rw [if_pos hsuper]
    exact ⟨haccepts, hoff⟩

theorem variableRef_yields {n : Node} (hrule : n.kind.rule = .variableRef) :
    Run.Yields (Reaches store) (variableRef n) (Outcome store n) := by
  unfold variableRef
  split
  next name hname =>
    refine get_yields.bind fun mid hmid => ?_
    rw [hmid.handle_eq]
    refine Run.Yields.ite (fun _ => reject_yields _ _ _) fun hfree => ?_
    refine Run.Yields.ite (fun hsuper => ?_) fun hsuper => ?_
    · exact superglobal_yields hrule hname hfree (List.contains_iff_mem.mp hsuper)
    · refine (name_yields .variableRef name (some n)).bind fun _ haccepts => ?_
      refine Run.Yields.pure (.kept ?_)
      rw [Node.Meets, hrule]
      refine ⟨name, hname, hfree, ?_⟩
      rw [if_neg fun h => hsuper (List.contains_iff_mem.mpr h)]
      exact haccepts
  next => exact reject_yields _ _ _

theorem constFetch_yields (n : Node) :
    Run.Yields (Reaches store) (constFetch n) (fun _ => Rule.constFetch.Meets store n) := by
  unfold constFetch
  cases hwritten : (n.field "name").name? with
  | some written =>
      refine (read_yields written.nameText).bind fun text htext => ?_
      exact (name_yields .constant text (some n)).mono
        fun _ haccepts => ⟨written, hwritten, text, htext, haccepts⟩
  | none => exact reject_yields _ _ _

theorem magicConst_yields {n : Node} {name : String}
    (hrule : n.kind.rule = .magicConst name) :
    Run.Yields (Reaches store) (magicConst n name) (Outcome store n) := by
  refine (name_yields .magicConst name (some n)).bind fun _ haccepts => ?_
  refine get_yields.bind fun mid hmid => ?_
  rw [hmid.isDefinedMagicConst_eq]
  refine Run.Yields.ite (fun hdefined => ?_) fun hdefined => ?_
  · exact replaceByRuntime_yields (.magicConst hrule haccepts hdefined)
  · rw [Bool.not_eq_true] at hdefined
    refine Run.Yields.pure (.kept ?_)
    rw [Node.Meets, hrule]
    exact ⟨haccepts, hdefined⟩

inductive Resolves (store : Store) (n : Node) : Verdict × String → Prop where
  | written {written : Node} {name : String}
      (hwritten : (n.field "class").name? = some written)
      (hname : written.nameText = .ok name) : Resolves store n (.keep, name)
  | substituted {written : Node} {name substitute : String}
      (hwritten : (n.field "class").name? = some written)
      (hname : written.nameText = .ok name)
      (hsubstitute : store.substitute? name = some substitute) :
      Resolves store n (.replace (n.withClass substitute written), substitute)

theorem resolveClass_yields (n : Node) :
    Run.Yields (Reaches store) (resolveClass n) (Resolves store n) := by
  unfold resolveClass
  cases hwritten : (n.field "class").name? with
  | none => exact reject_yields _ _ _
  | some written =>
      refine (read_yields written.nameText).bind fun name hname => ?_
      refine get_yields.bind fun mid hmid => ?_
      rw [hmid.substitute?_eq]
      cases hsubstitute : store.substitute? name with
      | none => exact Run.Yields.pure (.written hwritten hname)
      | some substitute =>
          exact Run.Yields.pure (.substituted hwritten hname hsubstitute)

theorem Resolves.outcome {n : Node} {resolved : Verdict × String} {role : Role}
    (h : Resolves store n resolved) (haccepts : store.Accepts role resolved.2)
    (hrule : n.kind.rule = .classAccess ∨ n.kind.rule = .instantiation)
    (hmeets : ∀ m : Node, m.kind = n.kind → m.ClassAccepted store role → m.Meets store) :
    Outcome store n resolved.1 := by
  cases h with
  | @written written name hwritten hname =>
      exact .kept (hmeets n rfl ⟨written, hwritten, name, hname, haccepts⟩)
  | @substituted written name substitute hwritten hname hsubstitute =>
      refine .substituted hrule hwritten hname hsubstitute (hmeets _ rfl ?_)
      exact Node.classAccepted_withClass (Value.isName_of_name? hwritten) haccepts

theorem classAccess_yields {n : Node} (hrule : n.kind.rule = .classAccess) :
    Run.Yields (Reaches store) (classAccess n) (Outcome store n) := by
  refine (resolveClass_yields n).bind fun resolved hresolved => ?_
  refine (name_yields .classAccess resolved.2 (some n)).bind fun _ haccepts => ?_
  refine Run.Yields.pure (hresolved.outcome haccepts (.inl hrule) fun m hkind hclass => ?_)
  rw [Node.Meets, hkind, hrule]
  exact hclass

theorem instantiation_yields {n : Node} (hrule : n.kind.rule = .instantiation) :
    Run.Yields (Reaches store) (instantiation n) (Outcome store n) := by
  refine (require_yields _ _ n).bind fun _ hallow => ?_
  refine (keyword_yields "new" n).bind fun _ hkeyword => ?_
  refine (resolveClass_yields n).bind fun resolved hresolved => ?_
  refine (name_yields .type resolved.2 (some n)).bind fun _ haccepts => ?_
  refine Run.Yields.pure (hresolved.outcome haccepts (.inr hrule) fun m hkind hclass => ?_)
  rw [Node.Meets, hkind, hrule]
  exact ⟨hallow, hkeyword, hclass⟩

@[simp] theorem shellOffence?_eq_none_iff :
    shellOffence? store = none ↔
      store.listsAccept .functions (Category.functions.normalize shellFunction) = true := by
  simp only [shellOffence?, Store.listsAccept, Store.isBlacklisted, Store.isWhitelisted]
  cases hblack : store.hasBlacklist .functions with
  | true => simp
  | false =>
      cases hwhite : store.hasWhitelist .functions with
      | true => simp
      | false => simp

theorem shellExec_yields {n : Node} (hrule : n.kind.rule = .shellExec) :
    Run.Yields (Reaches store) (shellExec n) (Outcome store n) := by
  refine get_yields.bind fun mid hmid => ?_
  rw [hmid.isOverridden_eq]
  refine Run.Yields.ite (fun hoverridden => ?_) fun hfree => ?_
  · refine (read_yields (command n)).bind fun line hline => ?_
    exact replaceByRuntime_yields (.shell hrule hoverridden hline)
  have hoffence : shellOffence? mid = shellOffence? store := by
    simp only [shellOffence?, hmid.hasBlacklist_eq, hmid.hasWhitelist_eq,
      hmid.isBlacklisted_eq, hmid.isWhitelisted_eq]
  rw [hoffence]
  cases hlists : shellOffence? store with
  | some offence => exact reject_yields _ _ _
  | none =>
      refine (require_yields _ _ n).bind fun _ hallow => ?_
      rw [Bool.not_eq_true] at hfree
      refine Run.Yields.pure (.kept ?_)
      rw [Node.Meets, hrule]
      exact ⟨hallow, hfree, shellOffence?_eq_none_iff.mp hlists⟩

end Enforce

end ScriptSandbox
