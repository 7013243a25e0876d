import ScriptSandbox.Policy.Category
import ScriptSandbox.Policy.Violation

/-!
# Offences

Everything that a pass can reject.  A name that is judged plays a role, and the
role fixes the category in which it is judged and what is said when it fails.
-/

namespace ScriptSandbox

inductive Role where
  | keyword
  | operator
  | primitive
  | magicConst
  | function
  | variableRef
  | superglobal
  | globalVar
  | constant
  | classDecl
  | classExtension
  | classAccess
  | interface
  | traitName
  | type
  | namespaceName
  | aliasName
  deriving DecidableEq, Repr

namespace Role

def category : Role → Category
  | .keyword => .keywords
  | .operator => .operators
  | .primitive => .primitives
  | .magicConst => .magicConstants
  | .function => .functions
  | .variableRef => .variables
  | .superglobal => .superglobals
  | .globalVar => .globals
  | .constant => .constants
  | .classDecl | .classExtension | .classAccess => .classes
  | .interface => .interfaces
  | .traitName => .traits
  | .type => .types
  | .namespaceName => .namespaces
  | .aliasName => .aliases

/-- Class predicates are also told whether the class is extended. -/
def extra : Role → List Json
  | .classDecl | .classAccess => [.bool false]
  | .classExtension => [.bool true]
  | _ => []

def noun : Role → String
  | .keyword => "Keyword"
  | .operator => "Operator"
  | .primitive => "Primitive"
  | .magicConst => "Magic constant"
  | .function => "Function"
  | .variableRef => "Variable"
  | .superglobal => "Superglobal"
  | .globalVar => "Global"
  | .constant => "Constant"
  | .classDecl => "Class"
  | .classExtension => "Class extension"
  | .classAccess => "Class constant"
  | .interface => "Interface"
  | .traitName => "Trait"
  | .type => "Type"
  | .namespaceName => "Namespace"
  | .aliasName => "Alias"

def violationKind : Role → ViolationKind
  | .keyword => .validKeyword
  | .operator => .validOperator
  | .primitive => .validPrimitive
  | .magicConst => .validMagicConst
  | .function => .validFunc
  | .variableRef => .validVar
  | .superglobal => .validSuperglobal
  | .globalVar => .validGlobal
  | .constant => .validConst
  | .classDecl | .classExtension | .classAccess => .validClass
  | .interface => .validInterface
  | .traitName => .validTrait
  | .type => .validType
  | .namespaceName => .validNamespace
  | .aliasName => .validAlias

end Role

inductive Offence where
  | invalidName (role : Role)
  | escaping
  | backticks
  | deniedShell
  | unlistedShell
  | casting
  | closure
  | functionDecl
  | unnamedFunction
  | redefinedFunction
  | redefinedTrustedFunction
  | returnByReference
  | assignByReference
  | classDecl
  | unnamedClass
  | unnamedParent
  | interfaceDecl
  | unnamedInterface
  | unnamedImplemented
  | traitDecl
  | unnamedTrait
  | unnamedUsedTrait
  | generator
  | globalKeyword
  | globalOfNonVariable
  | staticVar
  | dynamicStaticVar
  | constKeyword
  | errorSuppress
  | halting
  | namespaceDecl
  | invalidNamespace
  | useDecl
  | invalidUse
  | sandboxAccess
  | dynamicVariable
  | dynamicConstant
  | dynamicClass
  | instantiation
  deriving DecidableEq, Repr

namespace Offence

def kind : Offence → ViolationKind
  | .invalidName role => role.violationKind
  | .escaping => .escape
  | .backticks | .deniedShell | .unlistedShell => .backticks
  | .casting => .cast
  | .closure => .closure
  | .functionDecl => .defineFunc
  | .unnamedFunction => .unnamedFunc
  | .redefinedFunction | .redefinedTrustedFunction => .duplicateFunc
  | .returnByReference | .assignByReference => .byRef
  | .classDecl => .defineClass
  | .unnamedClass | .unnamedParent => .unnamedClass
  | .interfaceDecl => .defineInterface
  | .unnamedInterface | .unnamedImplemented => .unnamedInterface
  | .traitDecl => .defineTrait
  | .unnamedTrait | .unnamedUsedTrait => .unnamedTrait
  | .generator => .generator
  | .globalKeyword => .globals
  | .globalOfNonVariable => .defineGlobal
  | .staticVar => .staticVar
  | .dynamicStaticVar => .dynamicStaticVar
  | .constKeyword => .globalConst
  | .errorSuppress => .errorSuppress
  | .halting => .halt
  | .namespaceDecl | .invalidNamespace => .defineNamespace
  | .useDecl | .invalidUse => .defineAlias
  | .sandboxAccess => .sandboxAccess
  | .dynamicVariable => .dynamicVar
  | .dynamicConstant => .dynamicConst
  | .dynamicClass => .dynamicClass
  | .instantiation => .createObject

def message : Offence → String
  | .invalidName role => role.noun ++ " failed custom validation!"
  | .escaping => "Sandboxed code attempted to escape to HTML!"
  | .backticks => "Sandboxed code attempted to use shell execution backticks!"
  | .deniedShell =>
      "Sandboxed code attempted to use shell execution backticks when the shell_exec " ++
        "function is blacklisted!"
  | .unlistedShell =>
      "Sandboxed code attempted to use shell execution backticks when the shell_exec " ++
        "function is not whitelisted!"
  | .casting => "Sandboxed code attempted to cast!"
  | .closure => "Sandboxed code attempted to create a closure!"
  | .functionDecl => "Sandboxed code attempted to define function!"
  | .unnamedFunction => "Sandboxed code attempted to define unnamed function!"
  | .redefinedFunction => "Sandboxed code attempted to redefine function!"
  | .redefinedTrustedFunction => "Trusted code attempted to redefine function!"
  | .returnByReference => "Sandboxed code attempted to define function return by reference!"
  | .assignByReference => "Sandboxed code attempted to assign by reference!"
  | .classDecl => "Sandboxed code attempted to define class!"
  | .unnamedClass => "Sandboxed code attempted to define unnamed class!"
  | .unnamedParent => "Sandboxed code attempted to extend unnamed class!"
  | .interfaceDecl => "Sandboxed code attempted to define interface!"
  | .unnamedInterface => "Sandboxed code attempted to define unnamed interface!"
  | .unnamedImplemented => "Sandboxed code attempted to implement unnamed interface!"
  | .traitDecl => "Sandboxed code attempted to define trait!"
  | .unnamedTrait => "Sandboxed code attempted to define unnamed trait!"
  | .unnamedUsedTrait => "Sandboxed code attempted to use unnamed trait!"
  | .generator => "Sandboxed code attempted to create a generator!"
  | .globalKeyword => "Sandboxed code attempted to use global keyword!"
  | .globalOfNonVariable =>
      "Sandboxed code attempted to pass non-variable to global keyword!"
  | .staticVar => "Sandboxed code attempted to create static variable!"
  | .dynamicStaticVar =>
      "Sandboxed code attempted dynamically-named static variable call!"
  | .constKeyword => "Sandboxed code cannot use const keyword in the global scope!"
  | .errorSuppress => "Sandboxed code attempted to suppress error!"
  | .halting => "Sandboxed code attempted to halt compiler!"
  | .namespaceDecl => "Sandboxed code attempted to define namespace!"
  | .invalidNamespace => "Sandboxed code attempted use invalid namespace!"
  | .useDecl => "Sandboxed code attempted to use namespace and/or alias!"
  | .invalidUse => "Sandboxed code attempted use invalid namespace or alias!"
  | .sandboxAccess => "Sandboxed code attempted to access the sandbox instance!"
  | .dynamicVariable => "Sandboxed code attempted dynamically-named variable call!"
  | .dynamicConstant => "Sandboxed code attempted dynamically-named constant call!"
  | .dynamicClass => "Sandboxed code attempted dynamically-named class call!"
  | .instantiation => "Sandboxed code attempted to create object!"

def violation (offence : Offence) (node : Option Node) (context : Option String) : Violation :=
  ⟨offence.message, offence.kind, node, context⟩

end Offence

end ScriptSandbox
