import ScriptSandbox.Record
import ScriptSandbox.Text.Lines
import ScriptSandbox.Text.Quoted

/-!
# Files

Paths, the faults that reading and writing can meet, and a file tree as a value.
The tree is seen from the working directory.  Nothing is known of what lies
outside it, except that the root and the directories above are there.
-/

namespace ScriptSandbox.CommandLine

inductive FileFault where
  | missing (path : String)
  | exists (path : String)
  | notADirectory (path : String)
  | isADirectory (path : String)
  | nameTooLong (path : String)
  | nullCharacter
  deriving DecidableEq, Repr

def FileFault.message : FileFault → String
  | .missing path => "[Errno 2] No such file or directory: " ++ Text.quoted path
  | .exists path => "[Errno 17] File exists: " ++ Text.quoted path
  | .notADirectory path => "[Errno 20] Not a directory: " ++ Text.quoted path
  | .isADirectory path => "[Errno 21] Is a directory: " ++ Text.quoted path
  | .nameTooLong path => "[Errno 36] File name too long: " ++ Text.quoted path
  | .nullCharacter => "embedded null byte"

structure Path where
  root : String
  parts : List String
  deriving DecidableEq, Repr

/-- Empty parts and single dots are dropped; exactly two leading slashes are kept. -/
def Path.ofText (text : String) : Path :=
  let parts := (Text.split '/' text).filter fun part => part ≠ "" && part ≠ "."
  match text.toList with
  | '/' :: '/' :: '/' :: _ => ⟨"/", parts⟩
  | '/' :: '/' :: _ => ⟨"//", parts⟩
  | '/' :: _ => ⟨"/", parts⟩
  | _ => ⟨"", parts⟩

def Path.text (path : Path) : String :=
  if path.root = "" && path.parts.isEmpty then "."
  else path.root ++ "/".intercalate path.parts

def Path.parent (path : Path) : Path :=
  { path with parts := path.parts.dropLast }

/--
Names on the way from the working directory, or from the root, which is the first
name then.  Double dots come first only, and lead to the directories above.
-/
abbrev Location := List String

namespace Location

def root : Location := ["/"]

def start (path : Path) : Location :=
  if path.root = "" then [] else root

/-- The working directory, the directories above it, and the root. -/
def isTop (location : Location) : Bool :=
  location = root || location.all (· = "..")

def above (location : Location) : Location :=
  if location = root then root
  else if location.all (· = "..") then ".." :: location
  else location.dropLast

def step (location : Location) (name : String) : Location :=
  if name = ".." then location.above else location ++ [name]

def isInside (location : Location) : Bool :=
  location.head? ≠ some ".." && location.head? ≠ some "/"

end Location

structure Files where
  texts : List (Location × String)
  directories : List Location
  deriving Repr

inductive Entry where
  | file (text : String)
  | directory
  | nothing
  deriving DecidableEq, Repr

def greatestName : Nat := 255

def greatestPath : Nat := 4095

namespace Files

def ofTexts (texts : List (Path × String)) : Files :=
  ⟨texts.map fun file => (file.1.parts, file.2), []⟩

def entryAt (files : Files) (location : Location) : Entry :=
  match files.texts.find? (·.1 = location) with
  | some file => .file file.2
  | none =>
      if location.isTop || files.directories.contains location ||
          files.texts.any fun file => location.isPrefixOf file.1 then .directory
      else .nothing

/-- Where a path leads, seen from `here`; every part but the last has to be a directory. -/
def follow (files : Files) (path : String) (here : Location) :
    List String → Except FileFault Location
  | [] => .ok here
  | name :: rest =>
      match files.entryAt here with
      | .file _ => .error (.notADirectory path)
      | .nothing => .error (.missing path)
      | .directory =>
          if greatestName < name.utf8ByteSize then .error (.nameTooLong path)
          else follow files path (here.step name) rest

def locate (files : Files) (path : Path) : Except FileFault Location :=
  if path.text.toList.contains '\x00' then .error .nullCharacter
  else if greatestPath < path.text.utf8ByteSize then .error (.nameTooLong path.text)
  else files.follow path.text (Location.start path) path.parts

def read (files : Files) (path : Path) : Except FileFault String := do
  match files.entryAt (← files.locate path) with
  | .file text => .ok text
  | .directory => .error (.isADirectory path.text)
  | .nothing => .error (.missing path.text)

def makeIn (files : Files) (path : Path) : Except FileFault Files := do
  let location ← files.locate path
  match files.entryAt location with
  | .file _ => .error (.exists path.text)
  | .directory => .ok files
  | .nothing => .ok { files with directories := files.directories ++ [location] }

/-- Takes the parts of the path last first; where it leads nowhere yet, its parent is made. -/
def makeFrom (files : Files) (root : String) : List String → Except FileFault Files
  | [] => files.makeIn ⟨root, []⟩
  | part :: rest =>
      let path : Path := ⟨root, (part :: rest).reverse⟩
      match files.makeIn path with
      | .error (.missing _) => do (← makeFrom files root rest).makeIn path
      | result => result

def makeDirectory (files : Files) (path : Path) : Except FileFault Files :=
  files.makeFrom path.root path.parts.reverse

def put (files : Files) (location : Location) (text : String) : Files :=
  if files.texts.any (·.1 = location) then
    { files with
      texts := files.texts.map fun file =>
        if file.1 = location then (location, text) else file }
  else { files with texts := files.texts ++ [(location, text)] }

/-- Puts a text at a path, given what was there; its directory is made. -/
def change (files : Files) (path : Path) (text : Option String → String) :
    Except FileFault Files := do
  let files ← files.makeDirectory path.parent
  let location ← files.locate path
  match files.entryAt location with
  | .directory => .error (.isADirectory path.text)
  | .file old => .ok (files.put location (text (some old)))
  | .nothing => .ok (files.put location (text none))

def write (files : Files) (path : Path) (text : String) : Except FileFault Files :=
  files.change path fun _ => text

def append (files : Files) (path : Path) (text : String) : Except FileFault Files :=
  files.change path fun old => old.getD "" ++ text

def made (before after : Files) : List (Location × String) :=
  after.texts.filter fun file =>
    file.1.isInside && before.texts.all fun other => other.1 ≠ file.1

end Files

end ScriptSandbox.CommandLine
