import ScriptSandbox.Enforce.Visitor
import ScriptSandbox.Proofs.Tree.Fresh

/-!
# What a node of a guarded script may be

`Rule.Meets` says, for the rule of a kind, which features have to be allowed and
which names have to be permitted for a node to stay in a script.  It looks at the
node and at what the store permits, and not at how the node is judged.
-/

namespace ScriptSandbox

namespace Store

/-- The name is permitted in its role. -/
def Accepts (store : Store) (role : Role) (name : String) : Prop :=
  store.check role.category name role.extra = true

/-- A call of the function is answered with what the host defines. -/
def InterceptsDefined (store : Store) (function : String) : Prop :=
  store.flag (.overwrite .definedFuncs) = true ∧ Text.lower function ∈ definedFuncs

/-- A call of the function is answered with the arguments of the caller. -/
def InterceptsArguments (store : Store) (function : String) : Prop :=
  store.flag (.overwrite .funcGetArgs) = true ∧ Text.lower function ∈ argumentFuncs

end Store

namespace Value

def SpellsAccepted (store : Store) (role : Role) (value : Value) : Prop :=
  ∃ text, value.nameText = .ok text ∧ store.Accepts role text

def SpellsNonEmpty (store : Store) (role : Role) (value : Value) : Prop :=
  ∃ text, value.nameText = .ok text ∧ text ≠ "" ∧ store.Accepts role text

/-- The value is a variable that may be a global one. -/
def NamesGlobal (store : Store) (value : Value) : Prop :=
  ∃ name, variableName? value = .ok (some name) ∧ store.Accepts .globalVar name

end Value

namespace Node

def DeclaresAccepted (store : Store) (role : Role) (n : Node) : Prop :=
  ∃ name, n.declaredName? = some name ∧ store.Accepts role name

/-- The items of a field can be read, and all of them have the property. -/
def AllItems (field : String) (Q : Value → Prop) (n : Node) : Prop :=
  ∃ items, n.fieldItems field = .ok items ∧ ∀ item ∈ items, Q item

/-- A parent that is written as a name may be extended. -/
def ParentAccepted (store : Store) (n : Node) : Prop :=
  ∀ parent, (n.field "extends").name? = some parent →
    store.Accepts .keyword "extends" ∧ (Value.node parent).SpellsNonEmpty store .classExtension

def ImplementsAccepted (store : Store) (n : Node) : Prop :=
  (n.field "implements").truthy = true →
    store.Accepts .keyword "implements" ∧
      n.AllItems "implements" (Value.SpellsNonEmpty store .interface)

def ClassAccepted (store : Store) (role : Role) (n : Node) : Prop :=
  ∃ written, (n.field "class").name? = some written ∧
    (Value.node written).SpellsAccepted store role

/-- The call is written with a permitted name, and the runtime leaves it alone. -/
def CallAccepted (store : Store) (n : Node) : Prop :=
  ∃ written text, (n.field "name").name? = some written ∧ written.nameText = .ok text ∧
    store.Accepts .function text ∧ store.isOverridden text = false ∧
    ¬ store.InterceptsDefined text ∧ ¬ store.InterceptsArguments text

/-- The variable is written with a permitted name, and holds nothing that the runtime guards. -/
def VariableAccepted (store : Store) (n : Node) : Prop :=
  ∃ name, n.field "name" = .str name ∧ name ≠ store.handle ∧
    if name ∈ superglobals then
      store.Accepts .superglobal name ∧ store.flag (.overwrite .superglobals) = false
    else store.Accepts .variableRef name

end Node

open Enforce in
/-- What a node needs to stay in a script, by the rule of its kind. -/
def Rule.Meets (store : Store) (n : Node) : Rule → Prop
  | .exempt => True
  | .keyword word => store.Accepts .keyword word
  | .operator sign => store.Accepts .operator sign
  | .primitive type => store.Accepts .primitive type
  | .magicConst name =>
      store.Accepts .magicConst name ∧ store.isDefinedMagicConst name = false
  | .escaping => store.allows .escaping = true
  | .casting type =>
      store.allows .casting = true ∧ ∀ name ∈ type, store.Accepts .primitive name
  | .functionDecl =>
      store.allows .functions = true ∧ store.Accepts .keyword "function" ∧
        (∃ name, n.declaredName? = some name ∧ store.isOverridden name = false) ∧
        ((n.field "byRef").truthy = true → store.allows .references = true)
  | .closure => store.allows .closures = true
  | .closureUse => (n.field "var").text? ≠ some store.handle
  | .classDecl =>
      store.allows .classes = true ∧ store.Accepts .keyword "class" ∧
        n.DeclaresAccepted store .classDecl ∧ n.ParentAccepted store ∧
        n.ImplementsAccepted store
  | .interfaceDecl =>
      store.allows .interfaces = true ∧ store.Accepts .keyword "interface" ∧
        n.DeclaresAccepted store .interface ∧
        n.AllItems "extends" (Value.SpellsAccepted store .interface)
  | .traitDecl =>
      store.allows .traits = true ∧ store.Accepts .keyword "trait" ∧
        n.DeclaresAccepted store .traitName
  | .traitUse =>
      store.Accepts .keyword "use" ∧
        n.AllItems "traits" (Value.SpellsNonEmpty store .traitName)
  | .generator => store.allows .generators = true ∧ store.Accepts .keyword "yield"
  | .globalDecl =>
      store.allows .globals = true ∧ store.Accepts .keyword "global" ∧
        n.AllItems "vars" (Value.NamesGlobal store)
  | .staticVar =>
      store.allows .staticVariables = true ∧
        ∃ name, staticName n = .str name ∧ store.Accepts .variableRef name
  | .errorSuppress => store.allows .errorSuppressing = true
  | .assignRef =>
      store.allows .references = true ∧ store.Accepts .operator referenceSign
  | .halting => store.allows .halting = true ∧ store.Accepts .keyword "halt"
  | .funcCall => n.CallAccepted store
  | .variableRef => n.VariableAccepted store
  | .constFetch =>
      ∃ written, (n.field "name").name? = some written ∧
        (Value.node written).SpellsAccepted store .constant
  | .classAccess => n.ClassAccepted store .classAccess
  | .instantiation =>
      store.allows .objects = true ∧ store.Accepts .keyword "new" ∧ n.ClassAccepted store .type
  | .shellExec =>
      store.allows .backticks = true ∧ store.isOverridden shellFunction = false ∧
        store.listsAccept .functions (Category.functions.normalize shellFunction) = true
  -- Constants are refused, namespaces are flattened, and imports are dropped.
  | .constDecl => False
  | .namespaceDecl => False
  | .useDecl => False

def Node.Meets (store : Store) (n : Node) : Prop :=
  n.kind.rule.Meets store n

section Copies

variable {store : Store} {role : Role}

theorem Value.SpellsAccepted.fresh {value : Value} (h : value.SpellsAccepted store role) :
    value.fresh.SpellsAccepted store role := by
  obtain ⟨text, htext, haccepts⟩ := h
  exact ⟨text, by simp [htext], haccepts⟩

theorem Value.SpellsNonEmpty.fresh {value : Value} (h : value.SpellsNonEmpty store role) :
    value.fresh.SpellsNonEmpty store role := by
  obtain ⟨text, htext, haccepts⟩ := h
  exact ⟨text, by simp [htext], haccepts⟩

@[simp] theorem Value.variableName?_fresh (value : Value) :
    variableName? value.fresh = variableName? value := by
  cases value with
  | node n =>
      simp [variableName?, Value.fresh, Value.kind, Value.member, Except.bind, bind]
  | scalar value => rfl
  | obj fields => rfl
  | list items => rfl
  | pair name value => rfl

@[simp] theorem Enforce.staticName_fresh (n : Node) :
    staticName n.fresh = (staticName n).fresh := by
  unfold staticName
  rw [Node.field_fresh, Node.field_fresh]
  cases n.field "name" with
  | scalar name =>
      cases name with
      | null =>
          cases n.field "var" with
          | node inner => exact Node.field_fresh inner "name"
          | _ => rfl
      | _ => rfl
  | _ => rfl

theorem Value.NamesGlobal.fresh {value : Value} (h : value.NamesGlobal store) :
    value.fresh.NamesGlobal store := by
  obtain ⟨name, hname, haccepts⟩ := h
  exact ⟨name, by simp [hname], haccepts⟩

namespace Node

variable {n : Node}

theorem name?_field_fresh {name : String} {written : Node}
    (h : (n.field name).name? = some written) :
    (n.fresh.field name).name? = some written.fresh := by
  simp [h]

theorem AllItems.fresh {field : String} {Q : Value → Prop} (h : n.AllItems field Q)
    (hQ : ∀ value : Value, Q value → Q value.fresh) : n.fresh.AllItems field Q := by
  obtain ⟨items, hitems, hall⟩ := h
  refine ⟨freshItems items, by rw [fieldItems_fresh, hitems]; rfl, ?_⟩
  rw [freshItems_eq_map]
  exact List.forall_mem_map.mpr fun item hitem => hQ item (hall item hitem)

theorem DeclaresAccepted.fresh (h : n.DeclaresAccepted store role) :
    n.fresh.DeclaresAccepted store role := by
  obtain ⟨name, hname, haccepts⟩ := h
  exact ⟨name, by simp [hname], haccepts⟩

theorem ParentAccepted.fresh (h : n.ParentAccepted store) : n.fresh.ParentAccepted store := by
  intro parent hparent
  rw [field_fresh, Value.name?_fresh, Option.map_eq_some_iff] at hparent
  obtain ⟨written, hwritten, rfl⟩ := hparent
  obtain ⟨hkeyword, hspells⟩ := h written hwritten
  exact ⟨hkeyword, hspells.fresh⟩

theorem ImplementsAccepted.fresh (h : n.ImplementsAccepted store) :
    n.fresh.ImplementsAccepted store := by
  intro htruthy
  rw [field_fresh, Value.truthy_fresh] at htruthy
  obtain ⟨hkeyword, hitems⟩ := h htruthy
  exact ⟨hkeyword, hitems.fresh fun _ hspells => hspells.fresh⟩

theorem ClassAccepted.fresh (h : n.ClassAccepted store role) :
    n.fresh.ClassAccepted store role := by
  obtain ⟨written, hwritten, hspells⟩ := h
  exact ⟨written.fresh, name?_field_fresh hwritten, hspells.fresh⟩

theorem CallAccepted.fresh (h : n.CallAccepted store) : n.fresh.CallAccepted store := by
  obtain ⟨written, text, hwritten, htext, hrest⟩ := h
  exact ⟨written.fresh, text, name?_field_fresh hwritten, by simp [htext], hrest⟩

theorem VariableAccepted.fresh (h : n.VariableAccepted store) :
    n.fresh.VariableAccepted store := by
  obtain ⟨name, hname, hrest⟩ := h
  exact ⟨name, by simp [hname], hrest⟩

theorem Meets.fresh (h : n.Meets store) : n.fresh.Meets store := by
  unfold Meets at h ⊢
  rw [kind_fresh]
  cases hrule : n.kind.rule with
  | functionDecl =>
      rw [hrule] at h
      obtain ⟨hallow, hkeyword, hname, href⟩ := h
      refine ⟨hallow, hkeyword, by rwa [declaredName?_fresh], ?_⟩
      rwa [field_fresh, Value.truthy_fresh]
  | closureUse =>
      rw [hrule] at h
      simpa [Rule.Meets] using h
  | classDecl =>
      rw [hrule] at h
      obtain ⟨hallow, hkeyword, hname, hparent, himplements⟩ := h
      exact ⟨hallow, hkeyword, hname.fresh, hparent.fresh, himplements.fresh⟩
  | interfaceDecl =>
      rw [hrule] at h
      obtain ⟨hallow, hkeyword, hname, hparents⟩ := h
      exact ⟨hallow, hkeyword, hname.fresh, hparents.fresh fun _ hspells => hspells.fresh⟩
  | traitDecl =>
      rw [hrule] at h
      obtain ⟨hallow, hkeyword, hname⟩ := h
      exact ⟨hallow, hkeyword, hname.fresh⟩
  | traitUse =>
      rw [hrule] at h
      obtain ⟨hkeyword, hitems⟩ := h
      exact ⟨hkeyword, hitems.fresh fun _ hspells => hspells.fresh⟩
  | globalDecl =>
      rw [hrule] at h
      obtain ⟨hallow, hkeyword, hitems⟩ := h
      exact ⟨hallow, hkeyword, hitems.fresh fun _ hnames => hnames.fresh⟩
  | staticVar =>
      rw [hrule] at h
      obtain ⟨hallow, name, hname, haccepts⟩ := h
      exact ⟨hallow, name, by simp [hname], haccepts⟩
  | funcCall =>
      rw [hrule] at h
      exact CallAccepted.fresh h
  | variableRef =>
      rw [hrule] at h
      exact VariableAccepted.fresh h
  | constFetch =>
      rw [hrule] at h
      obtain ⟨written, hwritten, hspells⟩ := h
      exact ⟨written.fresh, name?_field_fresh hwritten, hspells.fresh⟩
  | classAccess =>
      rw [hrule] at h
      exact ClassAccepted.fresh h
  | instantiation =>
      rw [hrule] at h
      obtain ⟨hallow, hkeyword, hclass⟩ := h
      exact ⟨hallow, hkeyword, hclass.fresh⟩
  | _ => rwa [hrule] at h

end Node

end Copies

end ScriptSandbox
