import ScriptSandbox.Policy.Audit
import ScriptSandbox.Policy.Category
import ScriptSandbox.Policy.Options

/-!
# Policy stores

A store holds what one sandbox permits and what it has defined: the lists of
allowed and denied names, the predicates, and the tables of names that the
runtime provides.  Names are stored in their normal spelling.  Lists and tables
only grow.
-/

namespace ScriptSandbox

/-- A predicate is asked about a name in its normal spelling, with further arguments. -/
abbrev Predicate := String → List Json → Bool

structure Consultation where
  category : Category
  name : String
  extra : List Json
  deriving Repr

structure Store where
  options : Options
  audited : Bool
  log : List AuditEntry
  consultations : List Consultation
  allowed : List (Category × String)
  denied : List (Category × String)
  predicates : Category → Option Predicate
  overrides : List String
  declared : List String
  classes : Record String
  namespaces : List String
  aliases : Record (Option String)
  magicConsts : List String

def insertNew {α : Type} [DecidableEq α] (items : List α) (item : α) : List α :=
  if item ∈ items then items else items ++ [item]

namespace Store

def empty (options : Options) (audited : Bool) : Store :=
  { options, audited
    log := []
    consultations := []
    allowed := []
    denied := []
    predicates := fun _ => none
    overrides := []
    declared := []
    classes := []
    namespaces := []
    aliases := []
    magicConsts := [] }

def handle (store : Store) : String := store.options.handle

def flag (store : Store) (flag : Flag) : Bool := store.options.enabled flag

def allows (store : Store) (feature : Feature) : Bool := store.flag (.allow feature)

def record (store : Store) (entry : AuditEntry) : Store :=
  if store.audited then { store with log := store.log ++ [entry] } else store

/-- An empty name is not listed. -/
def whitelist (store : Store) (category : Category) (name : String) : Store :=
  let key := category.normalize name
  if key = "" ∨ (category, key) ∈ store.allowed then store
  else
    { store with allowed := store.allowed ++ [(category, key)] }.record
      (.whitelist category.name key)

def blacklist (store : Store) (category : Category) (name : String) : Store :=
  let key := category.normalize name
  if key = "" then store
  else { store with denied := insertNew store.denied (category, key) }

def namesIn (category : Category) (entries : List (Category × String)) : List String :=
  (entries.filter fun entry => entry.1 = category).map Prod.snd

def allowedIn (store : Store) (category : Category) : List String :=
  namesIn category store.allowed

def deniedIn (store : Store) (category : Category) : List String :=
  namesIn category store.denied

def hasWhitelist (store : Store) (category : Category) : Bool :=
  !(store.allowedIn category).isEmpty

def hasBlacklist (store : Store) (category : Category) : Bool :=
  !(store.deniedIn category).isEmpty

def isWhitelisted (store : Store) (category : Category) (name : String) : Bool :=
  (category, category.normalize name) ∈ store.allowed

def isBlacklisted (store : Store) (category : Category) (name : String) : Bool :=
  (category, category.normalize name) ∈ store.denied

def setPredicate (store : Store) (category : Category) (predicate : Option Predicate) : Store :=
  { store with
    predicates := fun other => if other = category then predicate else store.predicates other }

/--
A deny-list rejects its names; without one, an allow-list rejects all others.
When variables are not allowed as such, each has to be on the allow-list.
-/
def listsAccept (store : Store) (category : Category) (key : String) : Bool :=
  (if store.hasBlacklist category then (category, key) ∉ store.denied
    else !store.hasWhitelist category || (category, key) ∈ store.allowed) &&
  (category ≠ .variables || store.allows .variables || (category, key) ∈ store.allowed)

/-- Whether a name is permitted: the lists only reject, the predicate decides the rest. -/
def check (store : Store) (category : Category) (name : String) (extra : List Json) : Bool :=
  let key := category.normalize name
  store.listsAccept category key &&
    match store.predicates category with
    | none => true
    | some predicate => predicate key extra

/-- Notes that the predicate was asked, if the lists leave the decision to it. -/
def noteCheck (store : Store) (category : Category) (name : String) (extra : List Json) : Store :=
  let key := category.normalize name
  if store.listsAccept category key && (store.predicates category).isSome then
    { store with consultations := store.consultations ++ [⟨category, key, extra⟩] }
  else store

/-- The runtime answers calls of the function. -/
def override (store : Store) (name : String) : Store :=
  { store with overrides := insertNew store.overrides (Category.functions.normalize name) }

def isOverridden (store : Store) (name : String) : Bool :=
  Category.functions.normalize name ∈ store.overrides

def declare (store : Store) (name : String) : Store :=
  { store with declared := insertNew store.declared (Category.functions.normalize name) }

def isDeclared (store : Store) (name : String) : Bool :=
  Category.functions.normalize name ∈ store.declared

/-- The last substitute of a class counts. -/
def defineClass (store : Store) (name substitute : String) : Store :=
  { store with
    classes := Record.set store.classes (Category.classes.normalize name)
      (Text.dropLeading '\\' substitute) }

def substitute? (store : Store) (name : String) : Option String :=
  Record.get? store.classes (Category.classes.normalize name)

def isDefinedClass (store : Store) (name : String) : Bool :=
  (store.substitute? name).isSome

def substituteFor (store : Store) (name : String) : String :=
  (store.substitute? name).getD name

def isDefinedNamespace (store : Store) (name : String) : Bool :=
  store.namespaces.any fun other =>
    Category.namespaces.normalize other = Category.namespaces.normalize name

/-- The first spelling of a namespace counts. -/
def defineNamespace (store : Store) (name : String) : Store :=
  if store.isDefinedNamespace name then store
  else
    { store with namespaces := store.namespaces ++ [Text.dropLeading '\\' name] }.record
      (.namespaceDecl name)

def isDefinedAlias (store : Store) (name : String) : Bool :=
  Record.has store.aliases (Category.aliases.normalize name)

/-- The first alias of a name counts. -/
def defineAlias (store : Store) (name : String) (shortName : Option String) : Store :=
  let key := Category.aliases.normalize name
  if Record.has store.aliases key then store
  else { store with aliases := Record.set store.aliases key shortName }.record
    (.aliasName key shortName)

def aliasOf? (store : Store) (name : String) : Option String :=
  (Record.get? store.aliases (Category.aliases.normalize name)).join

def defineMagicConst (store : Store) (name : String) : Store :=
  { store with
    magicConsts := insertNew store.magicConsts (Category.magicConstants.normalize name) }

def isDefinedMagicConst (store : Store) (name : String) : Bool :=
  Category.magicConstants.normalize name ∈ store.magicConsts

end Store

end ScriptSandbox
