import ScriptSandbox.Json.Printer
import ScriptSandbox.Tree.Node

/-!
# Violations

A violation names what was rejected, for which of a closed list of reasons, and
at which node.
-/

namespace ScriptSandbox

inductive ViolationGroup where
  | escape
  | disallowed
  | dynamicName
  | predicate
  | structural
  deriving DecidableEq, Repr

inductive ViolationKind where
  | escape
  | backticks
  | cast
  | closure
  | defineFunc
  | defineClass
  | defineInterface
  | defineTrait
  | defineNamespace
  | defineAlias
  | generator
  | globals
  | staticVar
  | createObject
  | errorSuppress
  | byRef
  | halt
  | dynamicVar
  | dynamicStaticVar
  | dynamicConst
  | dynamicClass
  | validFunc
  | validClass
  | validInterface
  | validTrait
  | validVar
  | validConst
  | validGlobal
  | validSuperglobal
  | validKeyword
  | validOperator
  | validPrimitive
  | validMagicConst
  | validType
  | validNamespace
  | validAlias
  | unnamedFunc
  | unnamedClass
  | unnamedInterface
  | unnamedTrait
  | defineGlobal
  | globalConst
  | sandboxAccess
  | duplicateFunc
  deriving DecidableEq, Repr

def ViolationGroup.name : ViolationGroup → String
  | .escape => "escape"
  | .disallowed => "disallowed"
  | .dynamicName => "dynamic_name"
  | .predicate => "predicate"
  | .structural => "structural"

namespace ViolationKind

def name : ViolationKind → String
  | .escape => "escape"
  | .backticks => "backticks"
  | .cast => "cast"
  | .closure => "closure"
  | .defineFunc => "define_func"
  | .defineClass => "define_class"
  | .defineInterface => "define_interface"
  | .defineTrait => "define_trait"
  | .defineNamespace => "define_namespace"
  | .defineAlias => "define_alias"
  | .generator => "generator"
  | .globals => "globals"
  | .staticVar => "static_var"
  | .createObject => "create_object"
  | .errorSuppress => "error_suppress"
  | .byRef => "byref"
  | .halt => "halt"
  | .dynamicVar => "dynamic_var"
  | .dynamicStaticVar => "dynamic_static_var"
  | .dynamicConst => "dynamic_const"
  | .dynamicClass => "dynamic_class"
  | .validFunc => "valid_func"
  | .validClass => "valid_class"
  | .validInterface => "valid_interface"
  | .validTrait => "valid_trait"
  | .validVar => "valid_var"
  | .validConst => "valid_const"
  | .validGlobal => "valid_global"
  | .validSuperglobal => "valid_superglobal"
  | .validKeyword => "valid_keyword"
  | .validOperator => "valid_operator"
  | .validPrimitive => "valid_primitive"
  | .validMagicConst => "valid_magic_const"
  | .validType => "valid_type"
  | .validNamespace => "valid_namespace"
  | .validAlias => "valid_alias"
  | .unnamedFunc => "unnamed_func"
  | .unnamedClass => "unnamed_class"
  | .unnamedInterface => "unnamed_interface"
  | .unnamedTrait => "unnamed_trait"
  | .defineGlobal => "define_global"
  | .globalConst => "global_const"
  | .sandboxAccess => "sandbox_access"
  | .duplicateFunc => "duplicate_func"

def group : ViolationKind → ViolationGroup
  | .escape | .backticks => .escape
  | .cast | .closure | .defineFunc | .defineClass | .defineInterface | .defineTrait
  | .defineNamespace | .defineAlias | .generator | .globals | .staticVar | .createObject
  | .errorSuppress | .byRef | .halt => .disallowed
  | .dynamicVar | .dynamicStaticVar | .dynamicConst | .dynamicClass => .dynamicName
  | .validFunc | .validClass | .validInterface | .validTrait | .validVar | .validConst
  | .validGlobal | .validSuperglobal | .validKeyword | .validOperator | .validPrimitive
  | .validMagicConst | .validType | .validNamespace | .validAlias => .predicate
  | .unnamedFunc | .unnamedClass | .unnamedInterface | .unnamedTrait | .defineGlobal
  | .globalConst | .sandboxAccess | .duplicateFunc => .structural

def all : List ViolationKind :=
  [.escape, .backticks, .cast, .closure, .defineFunc, .defineClass, .defineInterface,
    .defineTrait, .defineNamespace, .defineAlias, .generator, .globals, .staticVar,
    .createObject, .errorSuppress, .byRef, .halt, .dynamicVar, .dynamicStaticVar,
    .dynamicConst, .dynamicClass, .validFunc, .validClass, .validInterface, .validTrait,
    .validVar, .validConst, .validGlobal, .validSuperglobal, .validKeyword, .validOperator,
    .validPrimitive, .validMagicConst, .validType, .validNamespace, .validAlias, .unnamedFunc,
    .unnamedClass, .unnamedInterface, .unnamedTrait, .defineGlobal, .globalConst,
    .sandboxAccess, .duplicateFunc]

def ofName? (name : String) : Option ViolationKind :=
  all.find? fun kind => kind.name = name

end ViolationKind

structure Violation where
  message : String
  kind : ViolationKind
  node : Option Node
  context : Option String

namespace Violation

/-- The line of the node, null when there is no node or it has no line. -/
def line (violation : Violation) : Json :=
  violation.node.elim .null Node.line

/-- Kind and message, the context unless it is empty, and the line unless it is null. -/
def text (violation : Violation) : String :=
  let context :=
    match violation.context with
    | none => ""
    | some context => if context = "" then "" else " (" ++ context ++ ")"
  let line :=
    match violation.line with
    | .null => ""
    | line => " on line " ++ line.text
  "[" ++ violation.kind.name ++ "] " ++ violation.message ++ context ++ line

end Violation

end ScriptSandbox
