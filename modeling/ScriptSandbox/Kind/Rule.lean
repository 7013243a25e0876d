import ScriptSandbox.Kind.Basic

/-!
# Rules of kinds

What the sandbox asks of a node of each kind.  Most kinds are judged by one word
of one category: a keyword, an operator sign, a primitive type or a magic
constant.  Kinds that are exempt only carry their children, and the others have
a rule of their own.
-/

namespace ScriptSandbox

inductive Rule where
  | exempt
  | keyword (word : String)
  | operator (sign : String)
  | primitive (type : String)
  | magicConst (name : String)
  | escaping
  | casting (type : Option String)
  | functionDecl
  | closure
  | closureUse
  | classDecl
  | interfaceDecl
  | traitDecl
  | traitUse
  | generator
  | globalDecl
  | staticVar
  | constDecl
  | errorSuppress
  | assignRef
  | halting
  | namespaceDecl
  | useDecl
  | funcCall
  | variableRef
  | constFetch
  | classAccess
  | instantiation
  | shellExec
  deriving DecidableEq, Repr

def Arithmetic.sign : Arithmetic → String
  | .bitwiseAnd => "&"
  | .bitwiseOr => "|"
  | .bitwiseXor => "^"
  | .concat => "."
  | .div => "/"
  | .minus => "-"
  | .mod => "%"
  | .mul => "*"
  | .plus => "+"
  | .pow => "**"
  | .shiftLeft => "<<"
  | .shiftRight => ">>"

def Comparison.sign : Comparison → String
  | .booleanAnd => "&&"
  | .booleanOr => "||"
  | .equal => "=="
  | .greater => ">"
  | .greaterOrEqual => ">="
  | .identical => "==="
  | .logicalAnd => "and"
  | .logicalOr => "or"
  | .logicalXor => "xor"
  | .notEqual => "!="
  | .notIdentical => "!=="
  | .smaller => "<"
  | .smallerOrEqual => "<="

/-- Unary signs carry the place of their operand where a binary sign looks the same. -/
def Unary.sign : Unary → String
  | .bitwiseNot => "~"
  | .booleanNot => "!"
  | .postDec => "n--"
  | .postInc => "n++"
  | .preDec => "--n"
  | .preInc => "++n"
  | .minus => "-n"
  | .plus => "+n"

/-- An unset cast has no primitive type. -/
def Cast.primitive? : Cast → Option String
  | .array => some "array"
  | .bool => some "bool"
  | .double => some "float"
  | .int => some "int"
  | .object => some "object"
  | .string => some "string"
  | .unset => none

def MagicConst.name : MagicConst → String
  | .classOf => "__CLASS__"
  | .dir => "__DIR__"
  | .file => "__FILE__"
  | .functionOf => "__FUNCTION__"
  | .line => "__LINE__"
  | .methodOf => "__METHOD__"
  | .namespaceOf => "__NAMESPACE__"
  | .traitOf => "__TRAIT__"

def referenceSign : String := "=&"

def Statement.rule : Statement → Rule
  | .inlineHtml => .escaping
  | .functionDecl => .functionDecl
  | .classDecl => .classDecl
  | .methodDecl => .exempt
  | .classConstDecl => .exempt
  | .propertyDecl => .exempt
  | .propertyItem => .exempt
  | .interfaceDecl => .interfaceDecl
  | .traitDecl => .traitDecl
  | .traitUse => .traitUse
  | .globalDecl => .globalDecl
  | .staticDecl => .keyword "static"
  | .staticVar => .staticVar
  | .constDecl => .constDecl
  | .haltCompiler => .halting
  | .namespaceDecl => .namespaceDecl
  | .useDecl => .useDecl
  | .useItem => .exempt
  | .echo => .keyword "echo"
  | .expression => .exempt
  | .nop => .exempt
  | .goto => .keyword "goto"
  | .label => .keyword "goto"
  | .ifBranch => .keyword "if"
  | .elseIfBranch => .keyword "if"
  | .elseBranch => .keyword "if"
  | .breakLoop => .keyword "break"
  | .continueLoop => .exempt
  | .switch => .keyword "switch"
  | .switchCase => .keyword "switch"
  | .tryCatch => .keyword "try"
  | .catchClause => .keyword "try"
  | .finallyClause => .keyword "try"
  | .throwError => .keyword "throw"
  | .unset => .keyword "unset"
  | .returnValue => .keyword "return"
  | .whileLoop => .keyword "while"
  | .doLoop => .keyword "while"
  | .forLoop => .keyword "for"
  | .foreachLoop => .keyword "for"
  | .declare => .keyword "declare"
  | .declareItem => .keyword "declare"

def Expression.rule : Expression → Rule
  | .funcCall => .funcCall
  | .methodCall => .exempt
  | .staticCall => .classAccess
  | .new => .instantiation
  | .variableRef => .variableRef
  | .constFetch => .constFetch
  | .classConstFetch => .classAccess
  | .staticPropertyFetch => .classAccess
  | .propertyFetch => .exempt
  | .arrayDimFetch => .exempt
  | .closure => .closure
  | .closureUse => .closureUse
  | .errorSuppress => .errorSuppress
  | .shellExec => .shellExec
  | .yield => .generator
  | .array => .primitive "array"
  | .arrayItem => .exempt
  | .eval => .keyword "eval"
  | .exit => .keyword "exit"
  | .includeFile => .keyword "include"
  | .print => .keyword "echo"
  | .clone => .keyword "clone"
  | .empty => .keyword "empty"
  | .isset => .keyword "isset"
  | .instanceOf => .keyword "instanceof"
  | .list => .keyword "list"
  | .assign => .operator "="
  | .assignRef => .assignRef
  | .ternary => .operator "?"
  | .assignOp operator => .operator (operator.sign ++ "=")
  | .arithmetic operator => .operator operator.sign
  | .comparison operator => .operator operator.sign
  | .unary operator => .operator operator.sign
  | .cast target => .casting target.primitive?

def Literal.rule : Literal → Rule
  | .string => .primitive "string"
  | .encapsed => .primitive "string"
  | .encapsedPart => .exempt
  | .decimal => .primitive "float"
  | .integer => .primitive "int"
  | .magicConst which => .magicConst which.name

def Kind.rule : Kind → Rule
  | .name _ => .exempt
  | .arg => .exempt
  | .param => .exempt
  | .const => .exempt
  | .statement which => which.rule
  | .expression which => which.rule
  | .literal which => which.rule

namespace Rule

def magicConst? : Rule → Option String
  | .magicConst name => some name
  | _ => none

def keyword? : Rule → Option String
  | .keyword word => some word
  | _ => none

def operator? : Rule → Option String
  | .operator sign => some sign
  | .assignRef => some referenceSign
  | _ => none

def primitive? : Rule → Option String
  | .primitive type => some type
  | .casting type => type
  | _ => none

def isCast : Rule → Bool
  | .casting _ => true
  | _ => false

def isExempt : Rule → Bool
  | .exempt => true
  | _ => false

/-- Whether a node is judged by more than one word of one category. -/
def isSpecial : Rule → Bool
  | .exempt | .keyword _ | .operator _ | .primitive _ | .magicConst _ => false
  | _ => true

end Rule

def Kind.isName : Kind → Bool
  | .name _ => true
  | _ => false

end ScriptSandbox
