import ScriptSandbox.Kind.Basic

/-!
# Spelling of kinds

The name of a kind in a tree file is its family and its own word, joined by an
underscore.  No two kinds share a spelling, so `Kind.ofSpelling?` reads it back.
-/

namespace ScriptSandbox

def Statement.spelling : Statement → String
  | .inlineHtml => "Stmt_InlineHTML"
  | .functionDecl => "Stmt_Function"
  | .classDecl => "Stmt_Class"
  | .methodDecl => "Stmt_ClassMethod"
  | .classConstDecl => "Stmt_ClassConst"
  | .propertyDecl => "Stmt_Property"
  | .propertyItem => "Stmt_PropertyProperty"
  | .interfaceDecl => "Stmt_Interface"
  | .traitDecl => "Stmt_Trait"
  | .traitUse => "Stmt_TraitUse"
  | .globalDecl => "Stmt_Global"
  | .staticDecl => "Stmt_Static"
  | .staticVar => "Stmt_StaticVar"
  | .constDecl => "Stmt_Const"
  | .haltCompiler => "Stmt_HaltCompiler"
  | .namespaceDecl => "Stmt_Namespace"
  | .useDecl => "Stmt_Use"
  | .useItem => "Stmt_UseUse"
  | .echo => "Stmt_Echo"
  | .expression => "Stmt_Expression"
  | .nop => "Stmt_Nop"
  | .goto => "Stmt_Goto"
  | .label => "Stmt_Label"
  | .ifBranch => "Stmt_If"
  | .elseIfBranch => "Stmt_ElseIf"
  | .elseBranch => "Stmt_Else"
  | .breakLoop => "Stmt_Break"
  | .continueLoop => "Stmt_Continue"
  | .switch => "Stmt_Switch"
  | .switchCase => "Stmt_Case"
  | .tryCatch => "Stmt_TryCatch"
  | .catchClause => "Stmt_Catch"
  | .finallyClause => "Stmt_Finally"
  | .throwError => "Stmt_Throw"
  | .unset => "Stmt_Unset"
  | .returnValue => "Stmt_Return"
  | .whileLoop => "Stmt_While"
  | .doLoop => "Stmt_Do"
  | .forLoop => "Stmt_For"
  | .foreachLoop => "Stmt_Foreach"
  | .declare => "Stmt_Declare"
  | .declareItem => "Stmt_DeclareDeclare"

def Arithmetic.word : Arithmetic → String
  | .bitwiseAnd => "BitwiseAnd"
  | .bitwiseOr => "BitwiseOr"
  | .bitwiseXor => "BitwiseXor"
  | .concat => "Concat"
  | .div => "Div"
  | .minus => "Minus"
  | .mod => "Mod"
  | .mul => "Mul"
  | .plus => "Plus"
  | .pow => "Pow"
  | .shiftLeft => "ShiftLeft"
  | .shiftRight => "ShiftRight"

def Comparison.word : Comparison → String
  | .booleanAnd => "BooleanAnd"
  | .booleanOr => "BooleanOr"
  | .equal => "Equal"
  | .greater => "Greater"
  | .greaterOrEqual => "GreaterOrEqual"
  | .identical => "Identical"
  | .logicalAnd => "LogicalAnd"
  | .logicalOr => "LogicalOr"
  | .logicalXor => "LogicalXor"
  | .notEqual => "NotEqual"
  | .notIdentical => "NotIdentical"
  | .smaller => "Smaller"
  | .smallerOrEqual => "SmallerOrEqual"

def Unary.word : Unary → String
  | .bitwiseNot => "BitwiseNot"
  | .booleanNot => "BooleanNot"
  | .postDec => "PostDec"
  | .postInc => "PostInc"
  | .preDec => "PreDec"
  | .preInc => "PreInc"
  | .minus => "UnaryMinus"
  | .plus => "UnaryPlus"

def Cast.word : Cast → String
  | .array => "Array"
  | .bool => "Bool"
  | .double => "Double"
  | .int => "Int"
  | .object => "Object"
  | .string => "String"
  | .unset => "Unset"

def Expression.spelling : Expression → String
  | .funcCall => "Expr_FuncCall"
  | .methodCall => "Expr_MethodCall"
  | .staticCall => "Expr_StaticCall"
  | .new => "Expr_New"
  | .variableRef => "Expr_Variable"
  | .constFetch => "Expr_ConstFetch"
  | .classConstFetch => "Expr_ClassConstFetch"
  | .staticPropertyFetch => "Expr_StaticPropertyFetch"
  | .propertyFetch => "Expr_PropertyFetch"
  | .arrayDimFetch => "Expr_ArrayDimFetch"
  | .closure => "Expr_Closure"
  | .closureUse => "Expr_ClosureUse"
  | .errorSuppress => "Expr_ErrorSuppress"
  | .shellExec => "Expr_ShellExec"
  | .yield => "Expr_Yield"
  | .array => "Expr_Array"
  | .arrayItem => "Expr_ArrayItem"
  | .eval => "Expr_Eval"
  | .exit => "Expr_Exit"
  | .includeFile => "Expr_Include"
  | .print => "Expr_Print"
  | .clone => "Expr_Clone"
  | .empty => "Expr_Empty"
  | .isset => "Expr_Isset"
  | .instanceOf => "Expr_Instanceof"
  | .list => "Expr_List"
  | .assign => "Expr_Assign"
  | .assignRef => "Expr_AssignRef"
  | .ternary => "Expr_Ternary"
  | .assignOp operator => "Expr_AssignOp_" ++ operator.word
  | .arithmetic operator => "Expr_BinaryOp_" ++ operator.word
  | .comparison operator => "Expr_BinaryOp_" ++ operator.word
  | .unary operator => "Expr_" ++ operator.word
  | .cast target => "Expr_Cast_" ++ target.word

def MagicConst.word : MagicConst → String
  | .classOf => "Class"
  | .dir => "Dir"
  | .file => "File"
  | .functionOf => "Function"
  | .line => "Line"
  | .methodOf => "Method"
  | .namespaceOf => "Namespace"
  | .traitOf => "Trait"

def Literal.spelling : Literal → String
  | .string => "Scalar_String"
  | .encapsed => "Scalar_Encapsed"
  | .encapsedPart => "Scalar_EncapsedStringPart"
  | .decimal => "Scalar_DNumber"
  | .integer => "Scalar_LNumber"
  | .magicConst which => "Scalar_MagicConst_" ++ which.word

def NameForm.spelling : NameForm → String
  | .unqualified => "Name"
  | .fullyQualified => "Name_FullyQualified"
  | .relative => "Name_Relative"

def Kind.spelling : Kind → String
  | .name form => form.spelling
  | .arg => "Arg"
  | .param => "Param"
  | .const => "Const"
  | .statement which => which.spelling
  | .expression which => which.spelling
  | .literal which => which.spelling

def NameForm.all : List NameForm :=
  [.unqualified, .fullyQualified, .relative]

def Statement.all : List Statement :=
  [.inlineHtml, .functionDecl, .classDecl, .methodDecl, .classConstDecl, .propertyDecl,
    .propertyItem, .interfaceDecl, .traitDecl, .traitUse, .globalDecl, .staticDecl,
    .staticVar, .constDecl, .haltCompiler, .namespaceDecl, .useDecl, .useItem, .echo,
    .expression, .nop, .goto, .label, .ifBranch, .elseIfBranch, .elseBranch, .breakLoop,
    .continueLoop, .switch, .switchCase, .tryCatch, .catchClause, .finallyClause,
    .throwError, .unset, .returnValue, .whileLoop, .doLoop, .forLoop, .foreachLoop,
    .declare, .declareItem]

def Arithmetic.all : List Arithmetic :=
  [.bitwiseAnd, .bitwiseOr, .bitwiseXor, .concat, .div, .minus, .mod, .mul, .plus, .pow,
    .shiftLeft, .shiftRight]

def Comparison.all : List Comparison :=
  [.booleanAnd, .booleanOr, .equal, .greater, .greaterOrEqual, .identical, .logicalAnd,
    .logicalOr, .logicalXor, .notEqual, .notIdentical, .smaller, .smallerOrEqual]

def Unary.all : List Unary :=
  [.bitwiseNot, .booleanNot, .postDec, .postInc, .preDec, .preInc, .minus, .plus]

def Cast.all : List Cast :=
  [.array, .bool, .double, .int, .object, .string, .unset]

def Expression.all : List Expression :=
  ([.funcCall, .methodCall, .staticCall, .new, .variableRef, .constFetch, .classConstFetch,
    .staticPropertyFetch, .propertyFetch, .arrayDimFetch, .closure, .closureUse,
    .errorSuppress, .shellExec, .yield, .array, .arrayItem, .eval, .exit, .includeFile, .print,
    .clone, .empty, .isset, .instanceOf, .list, .assign, .assignRef, .ternary] : List Expression)
    ++ Arithmetic.all.map assignOp ++ Arithmetic.all.map arithmetic
    ++ Comparison.all.map comparison ++ Unary.all.map unary ++ Cast.all.map cast

def MagicConst.all : List MagicConst :=
  [.classOf, .dir, .file, .functionOf, .line, .methodOf, .namespaceOf, .traitOf]

def Literal.all : List Literal :=
  ([.string, .encapsed, .encapsedPart, .decimal, .integer] : List Literal)
    ++ MagicConst.all.map magicConst

def Kind.all : List Kind :=
  NameForm.all.map name ++ ([.arg, .param, .const] : List Kind) ++ Statement.all.map statement
    ++ Expression.all.map expression ++ Literal.all.map literal

/-- The kind of a given spelling. -/
def Kind.ofSpelling? (text : String) : Option Kind :=
  Kind.all.find? fun kind => kind.spelling = text

theorem Kind.spelling_of_ofSpelling? {text : String} {kind : Kind}
    (h : Kind.ofSpelling? text = some kind) : kind.spelling = text := by
  simpa using List.find?_some h

end ScriptSandbox
