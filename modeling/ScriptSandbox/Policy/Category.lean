import ScriptSandbox.Text.Case
import ScriptSandbox.Text.Lines

/-!
# Categories of names

Every name that a script uses belongs to a category.  `Category.normalize` gives
the one spelling under which a name is stored and compared: without leading
backslashes, and in small or capital letters where case does not matter.
-/

namespace ScriptSandbox

inductive Category where
  | functions
  | variables
  | globals
  | superglobals
  | constants
  | magicConstants
  | namespaces
  | aliases
  | classes
  | interfaces
  | traits
  | keywords
  | operators
  | primitives
  | types
  deriving DecidableEq, Repr

namespace Category

def name : Category → String
  | .functions => "functions"
  | .variables => "variables"
  | .globals => "globals"
  | .superglobals => "superglobals"
  | .constants => "constants"
  | .magicConstants => "magic_constants"
  | .namespaces => "namespaces"
  | .aliases => "aliases"
  | .classes => "classes"
  | .interfaces => "interfaces"
  | .traits => "traits"
  | .keywords => "keywords"
  | .operators => "operators"
  | .primitives => "primitives"
  | .types => "types"

def all : List Category :=
  [.functions, .variables, .globals, .superglobals, .constants, .magicConstants, .namespaces,
    .aliases, .classes, .interfaces, .traits, .keywords, .operators, .primitives, .types]

def ofName? (name : String) : Option Category :=
  all.find? fun category => category.name = name

@[simp] theorem mem_all (category : Category) : category ∈ all := by
  cases category <;> simp [all]

@[simp] theorem ofName?_name (category : Category) : ofName? category.name = some category := by
  cases category <;> decide

inductive Folding where
  | lower
  | upper
  | exact
  deriving DecidableEq, Repr

def folding : Category → Folding
  | .superglobals | .magicConstants => .upper
  | .functions | .classes | .interfaces | .traits | .types | .namespaces | .aliases
  | .keywords | .primitives => .lower
  | .variables | .globals | .constants | .operators => .exact

def Folding.apply : Folding → String → String
  | .lower, name => Text.lower name
  | .upper, name => Text.upper name
  | .exact, name => name

def normalize (category : Category) (name : String) : String :=
  category.folding.apply (Text.dropLeading '\\' name)

end Category

end ScriptSandbox
