import ScriptSandbox.Enforce.Visitor
import ScriptSandbox.Proofs.Enforce.PairedDeclarations

/-!
# References side by side

The rules for calls, variables, constants, classes and backticks judge nodes that are
alike in the same way, and what they put in their place is alike again.
-/

namespace ScriptSandbox

open Judge

@[simp]
theorem isMarked_marked (attributes : Record Json) : isMarked (Node.marked attributes) = true := by
  simp [isMarked, Node.marked, Json.truthy, Scalar.truthy]

namespace Generated

variable {L : Likeness} {n m : Node} {args args' : List Value}

private theorem node_alike {kind : Kind} {attributes attributes' : Record Json}
    {fields fields' : Record Value} (hattributes : L.attributes attributes attributes')
    (h : FieldsAlike L false kind true fields fields') :
    (node kind attributes fields).Alike L false (node kind attributes' fields') := by
  rw [← isMarked_marked attributes] at h
  exact .mk (.inl rfl) (L.attributes_marked hattributes) h

private theorem arg_alike (h : n.Alike L false m) : (arg n).Alike L .item (arg m) := by
  have hvalue : (Value.node n).Alike L .field (.node m) := .node h
  have hflags := FieldsAlike.refl L false .arg true
    [("byRef", .bool false), ("unpack", .bool false)]
  exact .node (node_alike (L.attributes_refl []) (.cons hvalue hflags))

private theorem text_alike {a b : String} (h : b = a ∨ L.text a b) :
    (text a).Alike L false (text b) := by
  obtain rfl | h := h
  · exact .refl L false _
  · exact node_alike (L.attributes_refl []) (.respelled (.text rfl rfl h) .nil)

private theorem runtimeCall_alike (handleName method : String) (hargs : ItemsAlike L args args')
    (h : n.Alike L false m) :
    (runtimeCall handleName method args n).Alike L false
      (runtimeCall handleName method args' m) := by
  have hlist : (Value.list args).Alike L .field (.list args') := .list .field hargs
  have hrest : FieldsAlike L false (.expression .methodCall) true [("args", .list args)]
      [("args", .list args')] := .cons hlist .nil
  exact node_alike h.attributes (.cons (.refl L _ _) (.cons (.refl L _ _) hrest))

private theorem renamed_alike (name : String) (h : n.Alike L false m) :
    (renamed name n).Alike L false (renamed name m) := by
  have hkind := h.kind_eq
  unfold renamed
  rw [hkind]
  exact node_alike h.attributes (FieldsAlike.refl L false _ true _)

private theorem admitted_alike (h : n.Alike L false m) (hkind : n.kind ≠ .literal .string) :
    ({ n with attributes := Node.marked n.attributes, generated := true } : Node).Alike L false
      { m with attributes := Node.marked m.attributes, generated := true } := by
  cases h with
  | mk hsame hattributes hfields =>
      exact .mk hsame (L.attributes_marked hattributes) (hfields.remark hkind _)

private theorem guarded_alike (handleName : String) {callee callee' : Node} (h : n.Alike L false m)
    (hkind : n.kind ≠ .literal .string) (hcallee : callee.Alike L false callee') :
    (guarded handleName n callee).Alike L false (guarded handleName m callee') := by
  have hcheck := runtimeCall_alike handleName checkMethod
    (.cons (arg_alike hcallee.fresh) .nil) h
  have hcond : (Value.node (runtimeCall handleName checkMethod [arg callee.fresh] n)).Alike L .field
      (.node (runtimeCall handleName checkMethod [arg callee'.fresh] m)) := .node hcheck
  have hcall : (Value.node { n with attributes := Node.marked n.attributes, generated := true }).Alike
      L .field (.node { m with attributes := Node.marked m.attributes, generated := true }) :=
    .node (admitted_alike h hkind)
  exact node_alike h.attributes (.cons hcond (.cons hcall (.cons (.refl L _ _) .nil)))

end Generated

namespace Enforce

variable {I : Store → Store → Prop} {L : Likeness} {n m : Node} {value other : Value}

section

variable (h : Pairing I) (hn : n.Alike L false m)

include h hn

private theorem replaceByRuntime_paired (method : String) {args args' : List Value}
    (hargs : ItemsAlike L args args') :
    Judge.Paired I L (replaceByRuntime method args n) (replaceByRuntime method args' m)
      (Verdict.Alike L false) := by
  apply Run.Paired.get.bind
  intro s t hst
  rw [(h.samePolicy hst).handle_eq]
  exact Run.Paired.pure (.replace (Generated.runtimeCall_alike _ method hargs hn))

private theorem dynamicCall_paired (hkind : n.kind = .expression .funcCall)
    (hname : (n.field "name").name? = none) :
    Judge.Paired I L (dynamicCall n) (dynamicCall m) (Verdict.Alike L false) := by
  have hcallee := hn.calleeField hkind
  unfold dynamicCall
  generalize n.field "name" = callee, m.field "name" = callee' at hname hcallee
  cases hcallee with
  | @node _ computed computed' hcomputed =>
      rw [Value.name?, ite_eq_right_iff] at hname
      have hcomputed' : computed.Alike L false computed' := by
        apply hcomputed.toField
        cases hisName : computed.kind.isName with
        | false => rfl
        | true => cases hname hisName
      apply Run.Paired.get.bind
      intro s t hst
      rw [(h.samePolicy hst).handle_eq]
      have hguarded := Generated.guarded_alike s.handle hn (by rw [hkind]; decide) hcomputed'
      exact Run.Paired.pure (.replace hguarded)
  | _ => exact Run.Paired.throw (.malformed .member)

omit h hn in
private theorem placeArgument_alike (function : String) {args args' : List Value}
    (h : ItemsAlike L args args') :
    ItemsAlike L (placeArgument function args) (placeArgument function args') := by
  unfold placeArgument
  split
  · cases h with
    | nil => exact .refl L _
    | cons hfirst _ => exact .cons hfirst .nil
  · exact .nil

omit h hn in
private theorem contains_lower_eq (hL : L.Faithful) (functions : List String)
    (hwatched : ∀ function ∈ functions, function ∈ watchedFunctions) {text text' : String}
    (htext : L.SameText text text') :
    functions.contains (Text.lower text') = functions.contains (Text.lower text) := by
  obtain rfl | htext := htext
  · rfl
  · rw [Bool.eq_iff_iff, List.contains_iff_mem, List.contains_iff_mem]
    constructor
    · intro hmem
      rwa [← hL.lower_eq htext (.inr (hwatched _ hmem))]
    · intro hmem
      rwa [hL.lower_eq htext (.inl (hwatched _ hmem))]

private theorem namedCall_paired (hL : L.Faithful) (htexts : ∀ a b, L.callee a b → L.text a b)
    {written written' : Node} (hwritten : written.Alike L true written') :
    Judge.Paired I L (namedCall n written) (namedCall m written') (Verdict.Alike L false) := by
  apply (read_paired hwritten.calleeText).bind
  intro text text' htext
  have hnormal : Category.functions.normalize text' = Category.functions.normalize text := by
    obtain rfl | htext := htext
    · rfl
    · exact hL.normalize_eq htext
  apply (Judge.spelledName_paired h .function hn hnormal htext).bind
  intro _ _ _
  apply (read_paired (hn.fieldItems "args" (by decide) (by decide))).bind
  intro args args' hargs
  apply Run.Paired.get.bind
  intro s t hst
  have hoverridden : t.isOverridden text' = s.isOverridden text := by
    rw [(h.samePolicy hst).isOverridden_eq, Store.isOverridden, hnormal, Store.isOverridden]
  have hdefined := contains_lower_eq hL definedFuncs (by decide) htext
  have harguments := contains_lower_eq hL argumentFuncs (by decide) htext
  have hlower : Text.lower text ∈ watchedFunctions → Text.lower text' = Text.lower text := by
    intro hwatched
    obtain rfl | htext := htext
    · rfl
    · exact hL.lower_eq htext (.inl hwatched)
  simp only [hoverridden, (h.samePolicy hst).flag_eq, hdefined, harguments]
  apply Run.Paired.ite Iff.rfl
  · intro _
    have hname := Generated.text_alike (htext.imp_right (htexts text text'))
    exact replaceByRuntime_paired h hn _ (.cons (Generated.arg_alike hname) hargs)
  intro _
  apply Run.Paired.ite Iff.rfl
  · intro hintercepts
    rw [Bool.and_eq_true, List.contains_iff_mem] at hintercepts
    rw [hlower (by simp [watchedFunctions, hintercepts.2])]
    exact replaceByRuntime_paired h hn _ (.refl L _)
  intro _
  apply Run.Paired.ite Iff.rfl
  · intro hintercepts
    rw [Bool.and_eq_true, List.contains_iff_mem] at hintercepts
    rw [hlower (by simp [watchedFunctions, hintercepts.2])]
    have hrest := placeArgument_alike (Text.lower text) hargs
    exact replaceByRuntime_paired h hn _ (.cons (.refl L _ _) hrest)
  · intro _
    exact Run.Paired.pure .keep

theorem funcCall_paired (hL : L.Faithful) (htexts : ∀ a b, L.callee a b → L.text a b)
    (hkind : n.kind = .expression .funcCall) :
    Judge.Paired I L (funcCall n) (funcCall m) (Verdict.Alike L false) := by
  have hcallee := (hn.calleeField hkind).name?
  unfold funcCall
  cases hname : (n.field "name").name? with
  | none =>
      rw [hname] at hcallee
      cases hother : (m.field "name").name? with
      | none => exact dynamicCall_paired h hn hkind hname
      | some written' =>
          rw [hother] at hcallee
          cases hcallee
  | some written =>
      rw [hname] at hcallee
      cases hother : (m.field "name").name? with
      | none =>
          rw [hother] at hcallee
          cases hcallee
      | some written' =>
          rw [hother] at hcallee
          cases hcallee with
          | some hwritten => exact namedCall_paired h hn hL htexts hwritten

private theorem superglobal_paired (name : String) :
    Judge.Paired I L (superglobal n name) (superglobal m name) (Verdict.Alike L false) := by
  apply (name_paired h .superglobal name hn).bind
  intro _ _ _
  apply (flag_paired h (.overwrite .superglobals)).bind
  rintro on _ rfl
  apply Run.Paired.ite Iff.rfl
  · intro _
    exact replaceByRuntime_paired h hn _ (.refl L _)
  · intro _
    exact Run.Paired.pure .keep

theorem variableRef_paired (hkind : n.kind ≠ .expression .funcCall) :
    Judge.Paired I L (variableRef n) (variableRef m) (Verdict.Alike L false) := by
  have hname := hn.nameField hkind
  unfold variableRef
  generalize n.field "name" = name, m.field "name" = name' at hname
  cases hname with
  | scalar _ scalar =>
      cases scalar with
      | str name =>
          apply Run.Paired.get.bind
          intro s t hst
          rw [(h.samePolicy hst).handle_eq]
          apply Run.Paired.ite Iff.rfl
          · intro _
            exact reject_paired h _ hn none
          intro _
          apply Run.Paired.ite Iff.rfl
          · intro _
            exact superglobal_paired h hn name
          · intro _
            apply (name_paired h .variableRef name hn).bind
            intro _ _ _
            exact Run.Paired.pure .keep
      | _ => exact reject_paired h _ hn none
  | _ => exact reject_paired h _ hn none

theorem constFetch_paired (hkind : n.kind ≠ .expression .funcCall) :
    Judge.Paired I L (constFetch n) (constFetch m) fun _ _ => True := by
  have hname := (hn.nameField hkind).name?
  unfold constFetch
  generalize (n.field "name").name? = name?, (m.field "name").name? = name'? at hname
  cases hname with
  | none => exact reject_paired h _ hn none
  | some hname =>
      apply (read_same hname.nameText_eq).bind
      rintro text _ rfl
      exact name_paired h .constant text hn

theorem magicConst_paired (name : String) :
    Judge.Paired I L (magicConst n name) (magicConst m name) (Verdict.Alike L false) := by
  apply (name_paired h .magicConst name hn).bind
  intro _ _ _
  apply Run.Paired.get.bind
  intro s t hst
  rw [(h.samePolicy hst).isDefinedMagicConst_eq]
  apply Run.Paired.ite Iff.rfl
  · intro _
    exact replaceByRuntime_paired h hn _ (.refl L _)
  · intro _
    exact Run.Paired.pure .keep

private theorem resolveClass_paired :
    Judge.Paired I L (resolveClass n) (resolveClass m)
      fun a b => a.1.Alike L false b.1 ∧ a.2 = b.2 := by
  have hclass := (hn.field "class" (by decide) (by decide)).name?
  unfold resolveClass
  generalize (n.field "class").name? = class?, (m.field "class").name? = class'? at hclass
  cases hclass with
  | none => exact reject_paired h _ hn none
  | @some written written' hwritten =>
      apply (read_same hwritten.nameText_eq).bind
      rintro name _ rfl
      apply Run.Paired.get.bind
      intro s t hst
      rw [(h.samePolicy hst).substitute?_eq]
      cases s.substitute? name with
      | none => exact Run.Paired.pure ⟨.keep, rfl⟩
      | some substitute =>
          have hrenamed : (Value.node (Generated.renamed substitute written)).Alike L .field
              (.node (Generated.renamed substitute written')) :=
            .node (Generated.renamed_alike substitute hwritten)
          have hcopy := (hn.withGenerated false).setField "class" (by decide) hrenamed
          exact Run.Paired.pure ⟨.replace hcopy, rfl⟩

theorem classAccess_paired :
    Judge.Paired I L (classAccess n) (classAccess m) (Verdict.Alike L false) := by
  apply (resolveClass_paired h hn).bind
  rintro ⟨verdict, name⟩ ⟨verdict', _⟩ ⟨hverdict, rfl⟩
  apply (name_paired h .classAccess name hn).bind
  intro _ _ _
  exact Run.Paired.pure hverdict

theorem instantiation_paired :
    Judge.Paired I L (instantiation n) (instantiation m) (Verdict.Alike L false) := by
  apply (require_paired h _ _ hn).bind
  intro _ _ _
  apply (keyword_paired h hn "new").bind
  intro _ _ _
  apply (resolveClass_paired h hn).bind
  rintro ⟨verdict, name⟩ ⟨verdict', _⟩ ⟨hverdict, rfl⟩
  apply (name_paired h .type name hn).bind
  intro _ _ _
  exact Run.Paired.pure hverdict

omit h hn in
private theorem isTextPart_eq (h : value.Alike L .item other) : isTextPart other =
    isTextPart value := by
  cases h with
  | node hn =>
      have hkind := hn.kind_eq
      simp only [isTextPart, Value.kind, hkind]
  | _ => rfl

omit h hn in
private theorem areTexts_eq {parts parts' : List Value} (h : ItemsAlike L parts parts') :
    areTexts parts' = areTexts parts := by
  induction parts generalizing parts' with
  | nil =>
      cases h
      rfl
  | cons part rest ih =>
      cases h with
      | cons hpart hrest => rw [areTexts, areTexts, isTextPart_eq hpart, ih hrest]

omit h hn in
private theorem areTexts_cons {part : Value} {rest : List Value}
    (h : areTexts (part :: rest) = .ok true) :
    isTextPart part = .ok true ∧ areTexts rest = .ok true := by
  rw [areTexts] at h
  obtain ⟨text, htext, h⟩ := bind_eq_ok.mp h
  cases text with
  | true => exact ⟨htext, h⟩
  | false => cases h

omit h hn in
private theorem partText_eq (h : value.Alike L .item other) (htext : isTextPart value = .ok true) :
    partText other = partText value := by
  cases h with
  | @node _ part part' hpart =>
      have hkind : part.kind = .literal .encapsedPart := by simpa [isTextPart, Value.kind] using htext
      cases hpart with
      | @mk _ kind _ _ _ fields fields' _ _ _ hfields =>
          have hvalue := hfields.get? "value"
          simp only [partText]
          generalize Record.get? fields "value" = value?, Record.get? fields' "value" = other?
            at hvalue
          cases hvalue with
          | none => rfl
          | some hvalue =>
              obtain hvalue | hvalue := hvalue
              · exact hvalue.textOf_eq
              · have hstring : kind = .literal .string := hvalue.kind_of_value
                rw [hstring] at hkind
                cases hkind
  | _ => rfl

omit h hn in
private theorem partTexts_eq {parts parts' : List Value} (h : ItemsAlike L parts parts')
    (htexts : areTexts parts = .ok true) : parts'.mapM partText = parts.mapM partText := by
  induction parts generalizing parts' with
  | nil =>
      cases h
      rfl
  | cons part rest ih =>
      obtain ⟨htext, hrestTexts⟩ := areTexts_cons htexts
      cases h with
      | cons hpart hrest =>
          rw [List.mapM_cons, List.mapM_cons, partText_eq hpart htext, ih hrest hrestTexts]

omit h in
private theorem command_alike :
    EndsAlike (· = ·) (Node.Alike L false) (command n) (command m) := by
  apply (hn.fieldItems "parts" (by decide) (by decide)).bind
  intro parts parts' hparts
  rw [areTexts_eq hparts]
  cases htexts : areTexts parts with
  | error cause => exact .error rfl
  | ok texts =>
      cases texts with
      | true =>
          have hsame := EndsAlike.of_eq (partTexts_eq hparts htexts)
          apply hsame.bind
          rintro line _ rfl
          exact .ok (.refl L false _)
      | false =>
          have hlist : (Value.list parts).Alike L .field (.list parts') := .list .field hparts
          exact .ok (Generated.node_alike (L.attributes_refl []) (.cons hlist .nil))

theorem shellExec_paired :
    Judge.Paired I L (shellExec n) (shellExec m) (Verdict.Alike L false) := by
  apply Run.Paired.get.bind
  intro s t hst
  have hsame := h.samePolicy hst
  have hoffence : shellOffence? t = shellOffence? s := by
    simp only [shellOffence?, hsame.hasBlacklist_eq, hsame.isBlacklisted_eq, hsame.hasWhitelist_eq,
      hsame.isWhitelisted_eq]
  rw [hsame.isOverridden_eq, hoffence]
  apply Run.Paired.ite Iff.rfl
  · intro _
    apply (read_paired (command_alike hn)).bind
    intro line line' hline
    exact replaceByRuntime_paired h hn _
      (.cons (.refl L _ _) (.cons (Generated.arg_alike hline) .nil))
  · intro _
    cases shellOffence? s with
    | some offence => exact reject_paired h _ hn none
    | none =>
        apply (require_paired h _ _ hn).bind
        intro _ _ _
        exact Run.Paired.pure .keep

end

end Enforce

end ScriptSandbox
