import ScriptSandbox.Proofs.Gate.Paired
import ScriptSandbox.Proofs.Gate.Validation
import ScriptSandbox.Proofs.Text.Case

/-!
# The spelling of called functions

The policy knows a function by its normal form.  Interception and the search for
definitions of constants compare small letters only, so there a name with a leading
backslash is another one.  Both harvest and validation are blind to spelling exactly
where names of functions that are looked for all have a leading backslash, or none has.
-/

namespace ScriptSandbox

/-! ## Small letters and leading backslashes -/

namespace Text

@[simp] theorem leads_backslash (text : String) : leads '\\' ("\\" ++ text) = true := by
  simp [leads]

@[simp] theorem dropLeading_backslash (text : String) :
    dropLeading '\\' ("\\" ++ text) = dropLeading '\\' text := by
  simp [dropLeading]

@[simp] theorem leads_lower {text : String} (h : leads '\\' text = true) :
    leads '\\' (lower text) = true := by
  rw [leads, decide_eq_true_eq] at h
  obtain ⟨rest, hchars⟩ := List.head?_eq_some_iff.mp h
  have hsigma : '\\' ≠ capitalSigma := by decide
  have himage : lowerChar '\\' = ['\\'] := by decide
  rw [leads, lower, hchars, String.toList_ofList, lowerFrom]
  simp only [if_neg hsigma, himage]
  rfl

def isSmall (c : Char) : Bool := c.toNat < 0x80 && c.toLower = c

@[simp] theorem lowerChar_of_small {c : Char} (h : isSmall c = true) : lowerChar c = [c] := by
  simp only [isSmall, Bool.and_eq_true, decide_eq_true_eq] at h
  rw [lowerChar, if_pos h.1, h.2]

@[simp] theorem lower_of_small {text : String} (h : text.toList.all isSmall = true) :
    lower text = text := by
  have hsettled : ∀ c ∈ text.toList, lowerChar c = [c] :=
    fun c hc => lowerChar_of_small (List.all_eq_true.mp h c hc)
  rw [lower, lowerFrom_of_settled hsettled, String.ofList_toList]

end Text

private theorem watchedFunctions_small : ∀ function ∈ watchedFunctions,
    Text.leads '\\' function = false ∧ function.toList.all Text.isSmall = true := by
  decide

/-- Two spellings of one function. -/
def SameFunction (name other : String) : Prop :=
  Category.functions.normalize other = Category.functions.normalize name

instance (name other : String) : Decidable (SameFunction name other) :=
  inferInstanceAs (Decidable (Category.functions.normalize other = Category.functions.normalize name))

structure Interchangeable (name other : String) : Prop where
  same : SameFunction name other
  leads : Category.functions.normalize name ∈ watchedFunctions →
    Text.leads '\\' other = Text.leads '\\' name

private theorem normalize_of_not_leads {name : String} (h : Text.leads '\\' name = false) :
    Category.functions.normalize name = Text.lower name := by
  change Text.lower (Text.dropLeading '\\' name) = Text.lower name
  rw [Text.dropLeading_of_not_leads h]

private theorem not_leads_of_lower_mem {name : String} (h : Text.lower name ∈ watchedFunctions) :
    Text.leads '\\' name = false := by
  cases hleads : Text.leads '\\' name with
  | false => rfl
  | true =>
      have hlower := Text.leads_lower hleads
      rw [(watchedFunctions_small _ h).1] at hlower
      cases hlower

private theorem normalize_of_watched {function : String} (h : function ∈ watchedFunctions) :
    Category.functions.normalize function = function := by
  obtain ⟨hfree, hsmall⟩ := watchedFunctions_small function h
  rw [normalize_of_not_leads hfree, Text.lower_of_small hsmall]

@[simp] theorem normalize_backslash (name : String) :
    Category.functions.normalize ("\\" ++ name) = Category.functions.normalize name :=
  congrArg Text.lower (Text.dropLeading_backslash name)

theorem Interchangeable.lower_eq {name other : String} (h : Interchangeable name other)
    (hwatched : Text.lower name ∈ watchedFunctions ∨ Text.lower other ∈ watchedFunctions) :
    Text.lower other = Text.lower name := by
  have hboth : Text.leads '\\' name = false ∧ Text.leads '\\' other = false := by
    obtain hname | hother := hwatched
    · have hfree := not_leads_of_lower_mem hname
      rw [← normalize_of_not_leads hfree] at hname
      exact ⟨hfree, by rw [h.leads hname, hfree]⟩
    · have hfree := not_leads_of_lower_mem hother
      rw [← normalize_of_not_leads hfree, h.same] at hother
      exact ⟨by rw [← h.leads hother, hfree], hfree⟩
  rw [← normalize_of_not_leads hboth.1, ← normalize_of_not_leads hboth.2]
  exact h.same

/-! ## Trees that are alike but for spelling -/

/-- Names of called functions may differ, and texts in generated nodes. -/
def Likeness.respelled (names texts : String → String → Prop) : Likeness :=
  { Likeness.strict with callee := names, forms := True, text := texts }

open Likeness

/-- The harvest leaves the same lists, and validation ends alike. -/
structure SpellsAlike (names : String → String → Prop) (store : Store) (nodes others : Tree) :
    Prop where
  harvest : ((Gate.harvestOwn others).exec store).2.withoutLog =
    ((Gate.harvestOwn nodes).exec store).2.withoutLog
  validate : EndsAlike (WalkFailure.Alike (respelled names names) (Refusal.Alike (respelled names names)))
    (ItemsAlike (respelled names names)) ((Gate.validate nodes).exec store).1
    ((Gate.validate others).exec store).1

variable {names : String → String → Prop} {nodes others : Tree}

private theorem respelled_faithful (texts : String → String → Prop)
    (h : ∀ a b, names a b → Interchangeable a b) : (respelled names texts).Faithful where
  normalize_eq hnames := (h _ _ hnames).same
  lower_eq hnames := (h _ _ hnames).lower_eq

private theorem respelled_within (texts : String → String → Prop) :
    (respelled names fun _ _ => False).Within (respelled names texts) where
  attributes h := h
  callee h := h
  forms h := h
  text h := h.elim

private theorem spellsAlike_of_interchangeable (h : ∀ a b, names a b → Interchangeable a b)
    (halike : ItemsAlike (respelled names fun _ _ => False) nodes others) (store : Store) :
    SpellsAlike names store nodes others where
  harvest := by
    have hharvest := Gate.harvestOwn_paired (respelled_faithful _ h) (fun _ _ h => h) halike
    exact (hharvest store store rfl).1
  validate := by
    have hvalidate := Gate.validate_paired (respelled_faithful names h) (fun _ _ h => h)
      (halike.mono (respelled_within names))
    exact (hvalidate store store rfl).2

/-! ## Trees that tell -/

def calling (name : String) : Node :=
  Node.make (.expression .funcCall) []
    [("name", .node (Node.nameOfParts [] [.str name])),
      ("args", .list [Node.make .arg [] [("value", .node (Node.string (.str "X") []))] |> .node])]

def callingFile (name : String) : Json :=
  .arr [.obj [("nodeType", .str "Expr_FuncCall"),
    ("name", .obj [("nodeType", .str "Name"), ("parts", .arr [.str name])]),
    ("args", .arr [.obj [("nodeType", .str "Arg"),
      ("value", .obj [("nodeType", .str "Scalar_String"), ("value", .str "X")])]])]]

private theorem loaded_calling (name : String) : Loaded [calling name] :=
  ⟨false, callingFile name, rfl⟩

private theorem nameOfParts_alike {parts others : List String} (texts : String → String → Prop)
    (h : names (String.intercalate "\\" parts) (String.intercalate "\\" others)) :
    (Value.node (Node.nameOfParts [] (parts.map .str))).Alike (respelled names texts) .callee
      (.node (Node.nameOfParts [] (others.map .str))) := by
  have hparts : (respelled names texts).Respelled true (.name .unqualified) (isMarked []) "parts"
      (.list (parts.map .str)) (.list (others.map .str)) :=
    .parts rfl rfl (Value.texts_list_str parts) (Value.texts_list_str others) h
  exact .node (.mk (.inl rfl) rfl (.respelled hparts .nil))

private theorem calling_alike {name other : String} (h : names name other)
    (texts : String → String → Prop) :
    ItemsAlike (respelled names texts) [.node (calling name)] [.node (calling other)] := by
  have hname : (Value.node (Node.nameOfParts [] ([name].map .str))).Alike (respelled names texts)
      .callee (.node (Node.nameOfParts [] ([other].map .str))) := nameOfParts_alike texts h
  exact .cons (.node (.mk (.inl rfl) rfl (.cons hname (FieldsAlike.refl _ _ _ _ _)))) .nil

def guardedKinds (store : Store) (nodes : Tree) : List Kind :=
  match ((Gate.validate nodes).exec store).1 with
  | .ok guarded => guarded.filterMap fun item => item.node?.map Node.kind
  | .error _ => []

def harvested (store : Store) (nodes : Tree) : List (Category × String) :=
  ((Gate.harvestOwn nodes).exec store).2.allowed

theorem ItemsAlike.kinds_eq {L : Likeness} (h : ItemsAlike L nodes others) :
    others.filterMap (fun item => item.node?.map Node.kind) =
      nodes.filterMap fun item => item.node?.map Node.kind := by
  rw [itemsAlike_iff_forall₂] at h
  induction h with
  | nil => rfl
  | @cons item other _ _ hitem _ ih =>
      have hkind : other.node?.map Node.kind = item.node?.map Node.kind := by
        cases hitem with
        | node hn =>
            have hsame := hn.kind_eq
            simp only [Value.node?, Option.map_some, hsame]
        | _ => rfl
      simp only [List.filterMap_cons, hkind, ih]

def shown (store : Store) (nodes : Tree) : List Kind × List (Category × String) :=
  (guardedKinds store nodes, harvested store nodes)

private theorem SpellsAlike.shown_eq {store : Store} (h : SpellsAlike names store nodes others) :
    shown store others = shown store nodes := by
  have hkinds : guardedKinds store others = guardedKinds store nodes := by
    have hends := h.validate
    unfold guardedKinds
    generalize ((Gate.validate nodes).exec store).1 = result,
      ((Gate.validate others).exec store).1 = result' at hends
    cases hends with
    | ok hguarded => exact hguarded.kinds_eq
    | error _ => rfl
  have hlists : harvested store others = harvested store nodes := by
    have hallowed := congrArg Store.allowed h.harvest
    exact hallowed
  rw [shown, hkinds, hlists, shown]

def constantStore : Store :=
  Store.empty (Options.default.setFlag (.allow .constants) true) false

private theorem exists_store_tells {function : String} (h : function ∈ watchedFunctions) : ∃ store,
    shown store [.node (calling function)] ≠ shown store [.node (calling ("\\" ++ function))] := by
  obtain rfl | h := List.mem_cons.mp h
  · exact ⟨constantStore, by decide +kernel⟩
  · have htells : ∀ function ∈ definedFuncs ++ argumentFuncs,
        shown (Store.empty Options.default false) [.node (calling function)] ≠
          shown (Store.empty Options.default false) [.node (calling ("\\" ++ function))] := by
      decide +kernel
    exact ⟨Store.empty Options.default false, htells function h⟩

def writtenLike (name function : String) : String :=
  if Text.leads '\\' name then "\\" ++ function else function

private theorem interchangeable_writtenLike {name : String}
    (h : Category.functions.normalize name ∈ watchedFunctions) :
    Interchangeable name (writtenLike name (Category.functions.normalize name)) := by
  have hbare := normalize_of_watched h
  unfold writtenLike
  cases hname : Text.leads '\\' name with
  | true =>
      have hsame : SameFunction name ("\\" ++ Category.functions.normalize name) :=
        (normalize_backslash _).trans hbare
      exact ⟨hsame, fun _ => by rw [if_pos rfl, Text.leads_backslash, hname]⟩
  | false =>
      have hfree := (watchedFunctions_small _ h).1
      exact ⟨hbare, fun _ => by rw [if_neg Bool.false_ne_true, hfree, hname]⟩

private theorem shown_writtenLike {name : String}
    (h : Category.functions.normalize name ∈ watchedFunctions) (store : Store) :
    shown store [.node (calling name)] =
      shown store [.node (calling (writtenLike name (Category.functions.normalize name)))] := by
  have halike := spellsAlike_of_interchangeable (fun _ _ h => h)
    (calling_alike (interchangeable_writtenLike h) _) store
  exact halike.shown_eq.symm

namespace Gate

/--
Harvest and validation are blind to how names of called functions are spelled exactly
where names of functions that are looked for agree on having a leading backslash.
-/
theorem blind_to_spelling_iff (hnames : ∀ a b, names a b → SameFunction a b) :
    (∀ store nodes others, Loaded nodes → Loaded others →
        ItemsAlike (respelled names fun _ _ => False) (nodes.map .node) (others.map .node) →
        SpellsAlike names store (nodes.map .node) (others.map .node)) ↔
      ∀ a b, names a b → Category.functions.normalize a ∈ watchedFunctions →
        Text.leads '\\' b = Text.leads '\\' a := by
  constructor
  · intro hblind a b hab hwatched
    have hsame : Category.functions.normalize b = Category.functions.normalize a := hnames a b hab
    have hwatched' : Category.functions.normalize b ∈ watchedFunctions := by rwa [hsame]
    by_contra hleads
    obtain ⟨store, htells⟩ := exists_store_tells hwatched
    have hshown := (hblind store [calling a] [calling b] (loaded_calling a) (loaded_calling b)
      (calling_alike hab _)).shown_eq
    change shown store [.node (calling b)] = shown store [.node (calling a)] at hshown
    rw [shown_writtenLike hwatched', shown_writtenLike hwatched, hsame] at hshown
    unfold writtenLike at hshown
    cases ha : Text.leads '\\' a with
    | true =>
        cases hb : Text.leads '\\' b with
        | true => exact hleads (by rw [ha, hb])
        | false =>
            rw [ha, hb] at hshown
            exact htells hshown
    | false =>
        cases hb : Text.leads '\\' b with
        | true =>
            rw [ha, hb] at hshown
            exact htells hshown.symm
        | false => exact hleads (by rw [ha, hb])
  · intro hleads store nodes others _ _ halike
    exact spellsAlike_of_interchangeable
      (fun a b hab => ⟨hnames a b hab, hleads a b hab⟩) halike store

end Gate

namespace Sample

/-- A call whose name has the parts. -/
def spelled (parts : List String) : Json :=
  .arr [entry "Expr_FuncCall" [("name", entry "Name" [("parts", .arr (parts.map .str))]),
    ("args", .arr [])]]

def strlenNames (name other : String) : Prop := name = "strlen" ∧ other = "\\StrLen"

private theorem sameFunction_strlen : ∀ a b, strlenNames a b → SameFunction a b := by
  rintro _ _ ⟨rfl, rfl⟩
  decide

end Sample

namespace Gate

theorem blind_to_spelling_of_strlen :
    SpellsAlike Sample.strlenNames Sample.store [.node (calling "strlen")]
        [.node (calling "\\StrLen")] ∧
      guardedKinds Sample.store [.node (calling "\\StrLen")] = [.expression .methodCall] := by
  have hblind := (blind_to_spelling_iff Sample.sameFunction_strlen).mpr (by
    rintro _ _ ⟨rfl, rfl⟩ hwatched
    exact absurd hwatched (by decide))
  have halike := hblind Sample.store _ _ (loaded_calling "strlen") (loaded_calling "\\StrLen")
    (calling_alike ⟨rfl, rfl⟩ _)
  exact ⟨halike, by decide +kernel⟩

/-- A call that is intercepted is kept as it is once its name has a leading backslash. -/
theorem backslash_slips_past_interception :
    SameFunction "get_defined_vars" "\\get_defined_vars" ∧
      ItemsAlike (respelled SameFunction fun _ _ => False)
        ((Sample.nodesOf (Sample.spelled ["get_defined_vars"])).map .node)
        ((Sample.nodesOf (Sample.spelled ["", "get_defined_vars"])).map .node) ∧
      guardedKinds (Store.empty Options.default false)
        ((Sample.nodesOf (Sample.spelled ["get_defined_vars"])).map .node) =
          [.expression .methodCall] ∧
      (validate ((Sample.nodesOf (Sample.spelled ["", "get_defined_vars"])).map .node)).exec
          (Store.empty Options.default false) =
        (.ok ((Sample.nodesOf (Sample.spelled ["", "get_defined_vars"])).map .node),
          Store.empty Options.default false) := by
  have hsame : SameFunction "get_defined_vars" "\\get_defined_vars" := by decide +kernel
  have hname : (Value.node (Node.nameOfParts [] (["get_defined_vars"].map .str))).Alike
      (respelled SameFunction fun _ _ => False) .callee
      (.node (Node.nameOfParts [] (["", "get_defined_vars"].map .str))) :=
    nameOfParts_alike _ hsame
  refine ⟨hsame, ?_, by decide +kernel, rfl⟩
  exact .cons (.node (.mk (.inl rfl) rfl (.cons hname (FieldsAlike.refl _ _ _ _ _)))) .nil

end Gate

end ScriptSandbox
