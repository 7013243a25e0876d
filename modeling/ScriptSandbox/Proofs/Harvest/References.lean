import ScriptSandbox.Proofs.Enforce.Functions
import ScriptSandbox.Proofs.Harvest.Changes
import ScriptSandbox.Proofs.Harvest.Flattening
import ScriptSandbox.Proofs.Policy.Gains

/-!
# What harvesting trusted code adds

`TrustedHarvest.Refers` says which names a node of trusted code refers to and the store
lets be listed.  What it asks of the store is never changed by a harvest, so a harvest that
returns has listed what the nodes refer to by the first store, in whatever order they come.
-/

namespace ScriptSandbox

def Value.Writes (value : Value) (name : String) : Prop :=
  ∃ written, value.name? = some written ∧ written.nameText = .ok name

@[simp]
theorem Node.functionName?_flattened (n : Node) : n.flattened.functionName? = n.functionName? := by
  have hname : n.flattened.declaredName? = n.declaredName? := by
    unfold declaredName?
    rw [n.field_flattened]
    cases n.field "name" <;> rfl
  simp only [functionName?, n.kind_flattened, hname]

namespace TrustedHarvest

open Judge (Gains)

/-- The node refers to the name in the category, and by the store it may be listed there. -/
def Refers (store : Store) (n : Node) (category : Category) (name : String) : Prop :=
  match n.kind with
  | .expression .funcCall =>
      category = .functions ∧ (n.field "name").Writes name ∨
        category = .constants ∧ isDefineCall n = .ok true ∧ store.isOverridden "define" = false ∧
          definedConstant (.node n) = .ok (some name)
  | .statement .functionDecl => category = .functions ∧ n.declaredName? = some name
  | .expression .variableRef | .statement .staticVar =>
      category = .variables ∧ n.declaredName? = some name ∧
        store.hasWhitelist .variables = true ∧ store.allows .variables = false
  | .expression .constFetch => category = .constants ∧ (n.field "name").Writes name
  | .statement .classDecl => category = .classes ∧ n.declaredName? = some name
  | .statement .interfaceDecl => category = .interfaces ∧ n.declaredName? = some name
  | .statement .traitDecl => category = .traits ∧ n.declaredName? = some name
  | .expression .new => category = .types ∧ (n.field "class").Writes name
  | .statement .globalDecl =>
      category = .variables ∧ store.hasWhitelist .variables = true ∧
        ∃ names, globalNames n = .ok names ∧ name ∈ names
  | _ => False

variable {store : Store} {n : Node}

private theorem hasWhitelist_of_refers {name : String} (h : Refers store n .variables name) :
    store.hasWhitelist .variables = true := by
  unfold Refers at h
  split at h
  case h_1 =>
    rcases h with ⟨hcategory, _⟩ | ⟨hcategory, _⟩
    · cases hcategory
    · cases hcategory
  case h_3 | h_4 => exact h.2.2.1
  case h_10 => exact h.2.1
  case h_11 => exact h.elim
  all_goals cases h.1

private theorem refers_congr {later : Store} (hgrows : store.Grows later)
    (hlist : later.hasWhitelist .variables = store.hasWhitelist .variables) (category : Category)
    (name : String) : Refers later n category name ↔ Refers store n category name := by
  simp only [Refers, hgrows.isOverridden_eq, hgrows.allows_eq, hlist]

theorem gains_harvest (category : Category) (name : String) :
    store.Gains (fun other written => other = category ∧ written = name) []
      (harvest category name store) := by
  unfold harvest
  split
  case isTrue hdenied =>
    refine { Store.Gains.refl store with allowed := fun other key => ?_ }
    refine ⟨.inl, ?_⟩
    rintro (hold | ⟨hopen, _, _, ⟨rfl, _⟩, _⟩)
    · exact hold
    · exact (Bool.false_ne_true (hopen.symm.trans hdenied)).elim
  case isFalse hopen =>
    refine ⟨store.grows_whitelist category name, fun other key => ?_, fun other hdenied => ?_, ?_⟩
    · rw [Store.mem_allowed_whitelist]
      refine or_congr_right ?_
      constructor
      · rintro ⟨hne, rfl, hkey⟩
        exact ⟨Bool.eq_false_iff.mpr hopen, hne, name, ⟨rfl, rfl⟩, hkey⟩
      · rintro ⟨_, hne, written, ⟨rfl, rfl⟩, hkey⟩
        exact ⟨hne, rfl, hkey⟩
    · refine Store.allowedIn_whitelist_of_ne name ?_
      rintro rfl
      exact hopen hdenied
    · simp

private theorem gains_harvestEach (category : Category) (names : List String) :
    store.Gains (fun other written => other = category ∧ written ∈ names) []
      (names.foldl (fun store name => harvest category name store) store) := by
  induction names generalizing store with
  | nil => exact (Store.Gains.refl store).congr (by simp)
  | cons name rest ih =>
      refine ((gains_harvest category name).trans ih).congr fun other written => ?_
      rw [List.mem_cons, ← and_or_left]

private theorem reference_gains (category : Category) (value : Value) :
    Gains (reference category value) store
      (fun other name => other = category ∧ value.Writes name) [] := by
  unfold reference
  cases hwritten : value.name? with
  | none => exact (Gains.pure ()).congr (by simp [Value.Writes, hwritten])
  | some written =>
      apply Gains.read_bind
      intro text htext
      refine (Gains.update (gains_harvest category text)).congr fun other name => ?_
      simp [Value.Writes, hwritten, htext, eq_comm]

private theorem declaration_gains (category : Category) (name? : Option String) :
    Gains (declaration category name?) store
      (fun other name => other = category ∧ name? = some name) [] := by
  cases name? with
  | none => exact (Gains.pure ()).congr (by simp)
  | some written =>
      refine (Gains.update (gains_harvest category written)).congr fun other name => ?_
      simp [eq_comm]

def constant (n : Node) : Judge Unit := do
  if ← Judge.read (isDefineCall n) then
    if !(← get).isOverridden "define" then
      match ← Judge.read (definedConstant (.node n)) with
      | some name => Judge.update (harvest .constants name)
      | none => pure ()

theorem call_eq (n : Node) :
    call n = (reference .functions (n.field "name") >>= fun _ => constant n) :=
  rfl

private theorem constant_gains (n : Node) :
    Gains (constant n) store
      (fun category name => category = .constants ∧ isDefineCall n = .ok true ∧
        store.isOverridden "define" = false ∧ definedConstant (.node n) = .ok (some name)) [] := by
  apply Gains.read_bind
  intro isDefine hcall
  cases isDefine with
  | false => exact (Gains.pure ()).congr (by simp [hcall])
  | true =>
      apply Gains.get_bind
      cases hruntime : store.isOverridden "define" with
      | true => exact (Gains.pure ()).congr (by simp)
      | false =>
          apply Gains.read_bind
          intro name? hname
          cases name? with
          | none => exact (Gains.pure ()).congr (by simp [hname])
          | some written =>
              refine (Gains.update (gains_harvest .constants written)).congr fun other name => ?_
              simp [hcall, hname, eq_comm]

private theorem call_gains (n : Node) :
    Gains (call n) store
      (fun category name => category = .functions ∧ (n.field "name").Writes name ∨
        category = .constants ∧ isDefineCall n = .ok true ∧ store.isOverridden "define" = false ∧
          definedConstant (.node n) = .ok (some name)) [] := by
  have hfunction : Gains (reference .functions (n.field "name")) store
      (fun category name => category = .functions ∧ (n.field "name").Writes name) [] :=
    reference_gains .functions (n.field "name")
  rw [call_eq]
  refine hfunction.bind fun _ mid hrun => ?_
  rw [← (hfunction _ _ hrun).grows.isOverridden_eq]
  exact constant_gains n

private theorem function_gains (n : Node) :
    Gains (function n) store
      (fun category name => category = .functions ∧ n.declaredName? = some name)
      (n.declaredName?.map Category.functions.normalize).toList := by
  unfold function
  cases hname : n.declaredName? with
  | none => exact (Gains.pure ()).congr (by simp)
  | some name =>
      apply Gains.get_bind
      cases hdeclared : store.isDeclared name with
      | true =>
          intro _ after hrun
          cases hrun
      | false =>
          have hdeclare : Gains (Judge.update (·.declare name)) store (fun _ _ => False)
              [Category.functions.normalize name] := Gains.update (Store.gains_declare hdeclared)
          have hharvest := hdeclare.bind fun _ mid _ => Gains.update (gains_harvest .functions name)
          exact hharvest.congr fun category written => by simp [eq_comm]

private theorem variableRef_gains (name? : Option String) :
    Gains (variableRef name?) store
      (fun category name => category = .variables ∧ name? = some name ∧
        store.hasWhitelist .variables = true ∧ store.allows .variables = false) [] := by
  apply Gains.get_bind
  split
  case isTrue hlists =>
    simp only [Bool.and_eq_true, Bool.not_eq_true'] at hlists
    refine (declaration_gains .variables name?).congr fun category name => ?_
    simp [hlists]
  case isFalse hfree =>
    refine (Gains.pure ()).congr fun category name => ⟨False.elim, ?_⟩
    rintro ⟨_, rfl, hlist, hallow⟩
    exact hfree (by simp [hlist, hallow])

private theorem globals_gains (n : Node) :
    Gains (globals n) store
      (fun category name => category = .variables ∧ store.hasWhitelist .variables = true ∧
        ∃ names, globalNames n = .ok names ∧ name ∈ names) [] := by
  apply Gains.get_bind
  cases hlist : store.hasWhitelist .variables with
  | false => exact (Gains.pure ()).congr (by simp)
  | true =>
      apply Gains.read_bind
      intro names hnames
      refine (Gains.update (gains_harvestEach .variables names)).congr fun category name => ?_
      simp [hnames]

private theorem node_gains (n : Node) :
    Gains (node n) store (fun category name => Refers store n category name)
      n.functionName?.toList := by
  by_cases hfunction : n.kind = .statement .functionDecl
  · have hnode : node n = (function n >>= fun _ => pure .keep) := by rw [node, hfunction]
    rw [hnode, Node.functionName?, if_pos hfunction]
    simp only [Refers, hfunction]
    exact (function_gains n).bind_pure _
  · rw [n.functionName?_of_kind_ne hfunction]
    unfold node
    split
    case h_2 hkind => exact absurd hkind hfunction
    case h_13 =>
      simp only [Refers]
      exact Gains.pure _
    all_goals
      rename_i hkind
      simp only [Refers, hkind]
    · exact (call_gains n).bind_pure _
    · exact (variableRef_gains _).bind_pure _
    · exact (variableRef_gains _).bind_pure _
    · exact (reference_gains _ _).bind_pure _
    · exact (declaration_gains _ _).bind_pure _
    · exact (declaration_gains _ _).bind_pure _
    · exact (declaration_gains _ _).bind_pure _
    · exact (reference_gains _ _).bind_pure _
    · exact (globals_gains n).bind_pure _
    · exact Gains.of_makes (namespaceDecl_makes n)
    · exact Gains.of_makes (useDecl_makes n)

/-- The nodes refer to the name, in its normal spelling.  An empty name is never listed. -/
def Referenced (store : Store) (nodes : List Node) (category : Category) (key : String) : Prop :=
  key ≠ "" ∧ ∃ n ∈ nodes, ∃ name, Refers store n category name ∧ category.normalize name = key

private theorem hasWhitelist_of_gains {nodes : List Node} {functions : List String} {after : Store}
    (h : store.Gains (fun category name => ∃ n ∈ nodes, Refers store n category name) functions
      after) :
    after.hasWhitelist .variables = store.hasWhitelist .variables := by
  rw [Bool.eq_iff_iff, Store.hasWhitelist_iff]
  constructor
  · rintro ⟨key, hkey⟩
    rcases (h.allowed _ _).mp hkey with hold | ⟨_, _, name, ⟨n, _, hrefers⟩, _⟩
    · exact Store.hasWhitelist_iff.mpr ⟨key, hold⟩
    · exact hasWhitelist_of_refers hrefers
  · intro hlist
    obtain ⟨key, hkey⟩ := Store.hasWhitelist_iff.mp hlist
    exact ⟨key, h.grows.allowed.subset hkey⟩

private theorem gains_of_judges {offers : List (Offer Store)} {after : Store}
    (h : visitor.Judges store offers after) :
    store.Gains
      (fun category name => ∃ n ∈ offers.map Offer.node, Refers store n category name)
      ((offers.map Offer.node).filterMap Node.functionName?) after := by
  induction h with
  | nil => exact (Store.Gains.refl store).congr (by simp)
  | @snoc offers n mid after verdict _ hleave ih =>
      have hnode := (node_gains n verdict after hleave).congr fun category name =>
        refers_congr ih.grows (hasWhitelist_of_gains ih) category name
      rw [List.map_append, List.map_singleton, filterMap_snoc]
      refine (ih.trans hnode).congr fun category name => ?_
      simp only [List.mem_append, List.mem_singleton, or_and_right, exists_or, exists_eq_left]

private theorem offers_of_tree {trusted walked : Tree} {after : Store}
    (hrun : (Walk.tree [visitor] trusted).exec store = (.ok walked, after)) :
    (visitor.offers trusted store).map Offer.node = (visitedIn trusted).map Node.flattened := by
  have hoffered := Walk.offers_offered trusted store inside_flattened
  rw [hrun] at hoffered
  exact nodes_of_offeredAs_form hoffered

theorem gains_of_tree {trusted walked : Tree} {after : Store}
    (hrun : (Walk.tree [visitor] trusted).exec store = (.ok walked, after)) :
    store.Gains
      (fun category name => ∃ n ∈ (visitedIn trusted).map Node.flattened,
        Refers store n category name)
      ((visitedIn trusted).filterMap Node.functionName?) after := by
  have hgains := gains_of_judges (Walk.offers_judged hrun)
  rw [offers_of_tree hrun, List.filterMap_map] at hgains
  have hnames : Node.functionName? ∘ Node.flattened = Node.functionName? :=
    funext Node.functionName?_flattened
  rwa [hnames] at hgains

end TrustedHarvest

end ScriptSandbox
