/-!
# Node kinds

The kinds of node of a script's syntax tree.  Compound assignments and binary
operators share their arithmetic, so a kind is built from smaller choices.
`Kind.spelling` is the kind's spelling in a tree file, and `Kind.ofSpelling?` reads it
back.
-/

namespace ScriptSandbox

inductive NameForm where
  | unqualified
  | fullyQualified
  | relative
  deriving DecidableEq, Repr

inductive Statement where
  | inlineHtml
  | functionDecl
  | classDecl
  | methodDecl
  | classConstDecl
  | propertyDecl
  | propertyItem
  | interfaceDecl
  | traitDecl
  | traitUse
  | globalDecl
  | staticDecl
  | staticVar
  | constDecl
  | haltCompiler
  | namespaceDecl
  | useDecl
  | useItem
  | echo
  | expression
  | nop
  | goto
  | label
  | ifBranch
  | elseIfBranch
  | elseBranch
  | breakLoop
  | continueLoop
  | switch
  | switchCase
  | tryCatch
  | catchClause
  | finallyClause
  | throwError
  | unset
  | returnValue
  | whileLoop
  | doLoop
  | forLoop
  | foreachLoop
  | declare
  | declareItem
  deriving DecidableEq, Repr

/-- Operators that have a compound assignment as well. -/
inductive Arithmetic where
  | bitwiseAnd
  | bitwiseOr
  | bitwiseXor
  | concat
  | div
  | minus
  | mod
  | mul
  | plus
  | pow
  | shiftLeft
  | shiftRight
  deriving DecidableEq, Repr

inductive Comparison where
  | booleanAnd
  | booleanOr
  | equal
  | greater
  | greaterOrEqual
  | identical
  | logicalAnd
  | logicalOr
  | logicalXor
  | notEqual
  | notIdentical
  | smaller
  | smallerOrEqual
  deriving DecidableEq, Repr

inductive Unary where
  | bitwiseNot
  | booleanNot
  | postDec
  | postInc
  | preDec
  | preInc
  | minus
  | plus
  deriving DecidableEq, Repr

inductive Cast where
  | array
  | bool
  | double
  | int
  | object
  | string
  | unset
  deriving DecidableEq, Repr

inductive Expression where
  | funcCall
  | methodCall
  | staticCall
  | new
  | variableRef
  | constFetch
  | classConstFetch
  | staticPropertyFetch
  | propertyFetch
  | arrayDimFetch
  | closure
  | closureUse
  | errorSuppress
  | shellExec
  | yield
  | array
  | arrayItem
  | eval
  | exit
  | includeFile
  | print
  | clone
  | empty
  | isset
  | instanceOf
  | list
  | assign
  | assignRef
  | assignOp (operator : Arithmetic)
  | arithmetic (operator : Arithmetic)
  | comparison (operator : Comparison)
  | unary (operator : Unary)
  | ternary
  | cast (target : Cast)
  deriving DecidableEq, Repr

inductive MagicConst where
  | classOf
  | dir
  | file
  | functionOf
  | line
  | methodOf
  | namespaceOf
  | traitOf
  deriving DecidableEq, Repr

inductive Literal where
  | string
  | encapsed
  | encapsedPart
  | decimal
  | integer
  | magicConst (which : MagicConst)
  deriving DecidableEq, Repr

inductive Kind where
  | name (form : NameForm)
  | arg
  | param
  | const
  | statement (which : Statement)
  | expression (which : Expression)
  | literal (which : Literal)
  deriving DecidableEq, Repr

end ScriptSandbox
