import ScriptSandbox.Proofs.Enforce.Policy
import ScriptSandbox.Proofs.Tree.Names

/-!
# What becomes of a node

`RuntimeCall` lists the calls on the runtime that judging a node can build, each with
what the policy has to say for it.  `Outcome` lists what can become of a node that is
judged: it stays, a call or a changed copy takes its place, or it is dissolved.
-/

namespace ScriptSandbox

namespace Node

/-- The node is the variable that holds the runtime. -/
def IsHandle (handle : String) (n : Node) : Prop :=
  n.kind = .expression .variableRef ∧ n.field "name" = .str handle

/-- The node is a method call on the variable that holds the runtime. -/
def CallsHandle (handle : String) (n : Node) : Prop :=
  n.kind = .expression .methodCall ∧ ∃ object, n.field "var" = .node object ∧ object.IsHandle handle

instance (handle : String) (n : Node) : Decidable (n.IsHandle handle) :=
  decidable_of_iff (n.kind = .expression .variableRef ∧ (n.field "name").text? = some handle)
    (and_congr_right fun _ => Value.text?_eq_some_iff)

instance (handle : String) (n : Node) : Decidable (n.CallsHandle handle) :=
  match h : n.field "var" with
  | .node object =>
      decidable_of_iff (n.kind = .expression .methodCall ∧ object.IsHandle handle)
        (and_congr_right fun _ => by simp [h])
  | .scalar _ | .obj _ | .list _ | .pair _ _ => isFalse fun ⟨_, _, hobject, _⟩ => by
      rw [h] at hobject
      cases hobject

theorem IsHandle.of_fresh {handle : String} {n : Node} (h : n.fresh.IsHandle handle) :
    n.IsHandle handle := by
  obtain ⟨hkind, hname⟩ := h
  rw [kind_fresh] at hkind
  rw [field_fresh] at hname
  exact ⟨hkind, Value.fresh_eq_scalar_iff.mp hname⟩

theorem IsHandle.fresh {handle : String} {n : Node} (h : n.IsHandle handle) :
    n.fresh.IsHandle handle := by
  obtain ⟨hkind, hname⟩ := h
  rw [IsHandle, kind_fresh, field_fresh, hname]
  exact ⟨hkind, rfl⟩

theorem CallsHandle.fresh {handle : String} {n : Node} (h : n.CallsHandle handle) :
    n.fresh.CallsHandle handle := by
  obtain ⟨hkind, object, hobject, hhandle⟩ := h
  rw [CallsHandle, kind_fresh, field_fresh, hobject]
  exact ⟨hkind, object.fresh, rfl, hhandle.fresh⟩

theorem CallsHandle.of_fresh {handle : String} {n : Node} (h : n.fresh.CallsHandle handle) :
    n.CallsHandle handle := by
  obtain ⟨hkind, object, hobject, hhandle⟩ := h
  rw [kind_fresh] at hkind
  rw [field_fresh] at hobject
  obtain ⟨written, hwritten, rfl⟩ := Value.fresh_eq_node_iff.mp hobject
  exact ⟨hkind, written, hwritten, hhandle.of_fresh⟩

end Node

open Generated Enforce in
/-- The calls on the runtime that stand for a node, or ask for the callee of one. -/
inductive RuntimeCall (store : Store) (n : Node) : Node → Prop where
  | function {written : Node} {name : String} {args : List Value}
      (hrule : n.kind.rule = .funcCall) (hwritten : (n.field "name").name? = some written)
      (hname : written.nameText = .ok name) (haccepts : store.Accepts .function name)
      (hoverridden : store.isOverridden name = true)
      (hargs : n.fieldItems "args" = .ok args) :
      RuntimeCall store n (runtimeCall store.handle callMethod (arg (text name) :: args) n)
  | shell {line : Node} (hrule : n.kind.rule = .shellExec)
      (hoverridden : store.isOverridden shellFunction = true) (hline : command n = .ok line) :
      RuntimeCall store n
        (runtimeCall store.handle callMethod [arg (text shellFunction), arg line] n)
  /-- The check of a callee that is no name. -/
  | callee {computed : Node} (hrule : n.kind.rule = .funcCall)
      (hcallee : n.field "name" = .node computed) (hname : computed.kind.isName = false) :
      RuntimeCall store n (runtimeCall store.handle checkMethod [arg computed.fresh] n)
  | definedFunction {written : Node} {name : String} (hrule : n.kind.rule = .funcCall)
      (hwritten : (n.field "name").name? = some written)
      (hname : written.nameText = .ok name) (haccepts : store.Accepts .function name)
      (hintercepts : store.InterceptsDefined name) :
      RuntimeCall store n
        (runtimeCall store.handle (interceptMethod (Text.lower name))
          [arg (nativeCall (Text.lower name))] n)
  | argumentFunction {written : Node} {name : String} {args : List Value}
      (hrule : n.kind.rule = .funcCall) (hwritten : (n.field "name").name? = some written)
      (hname : written.nameText = .ok name) (haccepts : store.Accepts .function name)
      (hintercepts : store.InterceptsArguments name)
      (hargs : n.fieldItems "args" = .ok args) :
      RuntimeCall store n
        (runtimeCall store.handle (interceptMethod (Text.lower name))
          (arg (nativeCall "func_get_args") :: placeArgument (Text.lower name) args) n)
  | superglobal {name : String} (hrule : n.kind.rule = .variableRef)
      (hname : n.field "name" = .str name) (hsuper : name ∈ superglobals)
      (haccepts : store.Accepts .superglobal name)
      (hflag : store.flag (.overwrite .superglobals) = true) :
      RuntimeCall store n (runtimeCall store.handle superglobalMethod [arg (text name)] n)
  | magicConst {name : String} (hrule : n.kind.rule = .magicConst name)
      (haccepts : store.Accepts .magicConst name)
      (hdefined : store.isDefinedMagicConst name = true) :
      RuntimeCall store n (runtimeCall store.handle magicConstMethod [arg (text name)] n)

open Generated Enforce in
/-- What the arguments of a call on the runtime that stands for a node are. -/
inductive RuntimeArgument (n : Node) : Value → Prop where
  | text (value : String) : RuntimeArgument n (arg (text value))
  | integer (value : Int) : RuntimeArgument n (arg (integer value))
  | native (function : String) : RuntimeArgument n (arg (nativeCall function))
  | item {name : String} {items : List Value} {item : Value}
      (hitems : n.fieldItems name = .ok items) (hitem : item ∈ items) : RuntimeArgument n item
  | parts {name : String} {items : List Value} (hitems : n.fieldItems name = .ok items) :
      RuntimeArgument n (arg (node (.literal .encapsed) [] [("parts", .list items)]))
  | callee {computed : Node} (hrule : n.kind.rule = .funcCall)
      (hcallee : n.field "name" = .node computed) (hname : computed.kind.isName = false) :
      RuntimeArgument n (arg computed.fresh)

section Arguments

open Generated Enforce

variable {store : Store} {n call : Node}

theorem text_or_parts_of_command {line : Node} (h : Enforce.command n = .ok line) :
    (∃ value, line = text value) ∨ ∃ items, n.fieldItems "parts" = .ok items ∧
      line = node (.literal .encapsed) [] [("parts", .list items)] := by
  obtain ⟨items, hitems, h⟩ := bind_eq_ok.mp h
  obtain ⟨texts, _, h⟩ := bind_eq_ok.mp h
  cases texts with
  | true =>
      obtain ⟨words, _, h⟩ := bind_eq_ok.mp h
      cases h
      exact .inl ⟨_, rfl⟩
  | false =>
      cases h
      exact .inr ⟨items, hitems, rfl⟩

theorem mem_placeArgument {function : String} {args : List Value} {item : Value}
    (h : item ∈ placeArgument function args) : item ∈ args ∨ item = arg (integer 0) := by
  unfold placeArgument at h
  split at h
  · cases args with
    | nil => exact .inr (List.mem_singleton.mp h)
    | cons first rest =>
        rw [List.mem_singleton.mp h]
        exact .inl List.mem_cons_self
  · cases h

theorem RuntimeArgument.command {line : Node} (h : Enforce.command n = .ok line) :
    RuntimeArgument n (arg line) := by
  obtain ⟨value, rfl⟩ | ⟨items, hitems, rfl⟩ := text_or_parts_of_command h
  · exact .text value
  · exact .parts hitems

theorem RuntimeArgument.place (function : String) {args : List Value}
    (hargs : n.fieldItems "args" = .ok args) :
    ∀ item ∈ placeArgument function args, RuntimeArgument n item := by
  intro item hitem
  obtain hitem | rfl := mem_placeArgument hitem
  · exact .item hargs hitem
  · exact .integer 0

theorem RuntimeCall.arguments (h : RuntimeCall store n call) :
    ∃ method args, call = runtimeCall store.handle method args n ∧
      ∀ item ∈ args, RuntimeArgument n item := by
  cases h with
  | @function written name args _ _ _ _ _ hargs =>
      exact ⟨_, _, rfl, List.forall_mem_cons.mpr ⟨.text name, fun item hitem => .item hargs hitem⟩⟩
  | shell _ _ hline =>
      have hcommand := List.forall_mem_singleton.mpr (RuntimeArgument.command hline)
      exact ⟨_, _, rfl, List.forall_mem_cons.mpr ⟨.text shellFunction, hcommand⟩⟩
  | callee hrule hcallee hname =>
      exact ⟨_, _, rfl, List.forall_mem_singleton.mpr (.callee hrule hcallee hname)⟩
  | definedFunction => exact ⟨_, _, rfl, List.forall_mem_singleton.mpr (.native _)⟩
  | argumentFunction _ _ _ _ _ hargs =>
      exact ⟨_, _, rfl, List.forall_mem_cons.mpr ⟨.native _, RuntimeArgument.place _ hargs⟩⟩
  | superglobal => exact ⟨_, _, rfl, List.forall_mem_singleton.mpr (.text _)⟩
  | magicConst => exact ⟨_, _, rfl, List.forall_mem_singleton.mpr (.text _)⟩

end Arguments

/-- A copy of a node with another class, which can be judged again. -/
def Node.withClass (n : Node) (name : String) (written : Node) : Node :=
  ({ n with generated := false } : Node).setField "class"
    (.node (Generated.renamed name written))

theorem Node.classAccepted_withClass {store : Store} {n written : Node} {role : Role} {name : String}
    (hkind : written.kind.isName = true) (haccepts : store.Accepts role name) :
    (n.withClass name written).ClassAccepted store role := by
  refine ⟨Generated.renamed name written, ?_, name, ?_, haccepts⟩
  · rw [Node.withClass, Node.field_setField_self, Value.name?]
    exact if_pos hkind
  · exact Node.nameText_of_parts rfl

/-- A copy of a closure that imports the runtime too. -/
def Node.withHandle (n : Node) (handle : String) (uses : List Value) : Node :=
  ({ n with generated := false } : Node).setField "uses"
    (.list (uses ++ [.node (Generated.handleUse handle)]))

/-- What becomes of a node that is judged and not rejected. -/
inductive Outcome (store : Store) (n : Node) : Verdict → Prop where
  | kept (h : n.Meets store) : Outcome store n .keep
  | called {call : Node} (h : RuntimeCall store n call) : Outcome store n (.replace call)
  | guarded {computed : Node} (hrule : n.kind.rule = .funcCall)
      (hcallee : n.field "name" = .node computed) (hname : computed.kind.isName = false) :
      Outcome store n (.replace (Generated.guarded store.handle n computed))
  | imported {uses : List Value} (hrule : n.kind.rule = .closure)
      (hallow : store.allows .closures = true) (huses : n.fieldItems "uses" = .ok uses) :
      Outcome store n (.replace (n.withHandle store.handle uses))
  | substituted {written : Node} {name substitute : String}
      (hrule : n.kind.rule = .classAccess ∨ n.kind.rule = .instantiation)
      (hwritten : (n.field "class").name? = some written)
      (hname : written.nameText = .ok name)
      (hsubstitute : store.substitute? name = some substitute)
      (h : (n.withClass substitute written).Meets store) :
      Outcome store n (.replace (n.withClass substitute written))
  | flattened {items : List Value} (hrule : n.kind.rule = .namespaceDecl)
      (hitems : n.fieldItems "stmts" = .ok items) : Outcome store n (.splice items)
  | dropped (hrule : n.kind.rule = .useDecl) : Outcome store n .remove

end ScriptSandbox
