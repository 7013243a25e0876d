/-!
# Options

The options of one sandbox are the name of the variable that holds its runtime
and a set of flags.  An `allow` flag admits a construct, an `overwrite` flag
turns a built-in into a call on the runtime, and an `autoWhitelist` flag lets a
script whitelist what it defines itself.
-/

namespace ScriptSandbox

inductive Feature where
  | functions
  | closures
  | casting
  | classes
  | interfaces
  | traits
  | constants
  | globals
  | generators
  | staticVariables
  | objects
  | references
  | errorSuppressing
  | halting
  | namespaces
  | aliases
  | escaping
  | backticks
  | variables
  deriving DecidableEq, Repr

inductive Interception where
  | definedFuncs
  | funcGetArgs
  | superglobals
  deriving DecidableEq, Repr

inductive Definable where
  | functions
  | constants
  | globals
  | classes
  | interfaces
  | traits
  deriving DecidableEq, Repr

inductive Flag where
  | allow (feature : Feature)
  | overwrite (interception : Interception)
  | autoWhitelist (definable : Definable)
  deriving DecidableEq, Repr

def Feature.word : Feature → String
  | .functions => "functions"
  | .closures => "closures"
  | .casting => "casting"
  | .classes => "classes"
  | .interfaces => "interfaces"
  | .traits => "traits"
  | .constants => "constants"
  | .globals => "globals"
  | .generators => "generators"
  | .staticVariables => "static_variables"
  | .objects => "objects"
  | .references => "references"
  | .errorSuppressing => "error_suppressing"
  | .halting => "halting"
  | .namespaces => "namespaces"
  | .aliases => "aliases"
  | .escaping => "escaping"
  | .backticks => "backticks"
  | .variables => "variables"

def Interception.word : Interception → String
  | .definedFuncs => "defined_funcs"
  | .funcGetArgs => "func_get_args"
  | .superglobals => "superglobals"

def Definable.word : Definable → String
  | .functions => "functions"
  | .constants => "constants"
  | .globals => "globals"
  | .classes => "classes"
  | .interfaces => "interfaces"
  | .traits => "traits"

def Flag.name : Flag → String
  | .allow feature => "allow_" ++ feature.word
  | .overwrite interception => "overwrite_" ++ interception.word
  | .autoWhitelist definable => "auto_whitelist_" ++ definable.word

def Feature.all : List Feature :=
  [.functions, .closures, .casting, .classes, .interfaces, .traits, .constants, .globals,
    .generators, .staticVariables, .objects, .references, .errorSuppressing, .halting,
    .namespaces, .aliases, .escaping, .backticks, .variables]

def Interception.all : List Interception :=
  [.definedFuncs, .funcGetArgs, .superglobals]

def Definable.all : List Definable :=
  [.functions, .constants, .globals, .classes, .interfaces, .traits]

def Flag.all : List Flag :=
  Feature.all.map .allow ++ Interception.all.map .overwrite ++ Definable.all.map .autoWhitelist

def Flag.ofName? (name : String) : Option Flag :=
  Flag.all.find? fun flag => flag.name = name

structure Options where
  handle : String
  enabled : Flag → Bool

/-- References and variables are allowed from the start; other features have to be asked for. -/
def Flag.initially : Flag → Bool
  | .allow .references => true
  | .allow .variables => true
  | .allow _ => false
  | .overwrite _ => true
  | .autoWhitelist _ => true

def Options.default : Options := ⟨"__sandbox", Flag.initially⟩

def Options.setFlag (options : Options) (flag : Flag) (value : Bool) : Options :=
  { options with enabled := fun other => if other = flag then value else options.enabled other }

end ScriptSandbox
