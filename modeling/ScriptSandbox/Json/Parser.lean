import ScriptSandbox.Json.Token

/-!
# Reading JSON

The reader goes through the tokens once, with a stack of the arrays and objects
that are still open and a note of what may come next.
-/

namespace ScriptSandbox.Json

/-- An open array or object: what it holds so far, last first. -/
inductive Frame where
  | items (done : List Json)
  | entries (done : List (String × Json))
  | member (done : List (String × Json)) (name : String)
  deriving Repr

inductive Expected where
  | value
  | valueOrClose
  | name
  | nameOrClose
  | colonAfter (name : String)
  | commaOrClose
  | nothing (result : Json)
  deriving Repr

structure Reader where
  frames : List Frame
  expected : Expected
  deriving Repr

namespace Reader

def start : Reader := ⟨[], .value⟩

/-- A finished value goes into the innermost open array or object. -/
def complete (value : Json) : List Frame → Option Reader
  | [] => some ⟨[], .nothing value⟩
  | .items done :: frames => some ⟨.items (value :: done) :: frames, .commaOrClose⟩
  | .member done name :: frames =>
      some ⟨.entries ((name, value) :: done) :: frames, .commaOrClose⟩
  | .entries _ :: _ => none

def openOrScalar (frames : List Frame) : Token → Option Reader
  | .scalar value => complete (.scalar value) frames
  | .openArr => some ⟨.items [] :: frames, .valueOrClose⟩
  | .openObj => some ⟨.entries [] :: frames, .nameOrClose⟩
  | _ => none

/-- A repeated name keeps its first place and its last value. -/
def close (frames : List Frame) : Token → Option Reader
  | .closeArr =>
      match frames with
      | .items done :: frames => complete (.arr done.reverse) frames
      | _ => none
  | .closeObj =>
      match frames with
      | .entries done :: frames => complete (.obj (Record.ofEntries done.reverse)) frames
      | _ => none
  | _ => none

def step (reader : Reader) (token : Token) : Option Reader :=
  match reader.expected, token with
  | .value, token => openOrScalar reader.frames token
  | .valueOrClose, .closeArr => close reader.frames .closeArr
  | .valueOrClose, token => openOrScalar reader.frames token
  | .name, .scalar (.str name) => some ⟨reader.frames, .colonAfter name⟩
  | .nameOrClose, .scalar (.str name) => some ⟨reader.frames, .colonAfter name⟩
  | .nameOrClose, .closeObj => close reader.frames .closeObj
  | .colonAfter name, .colon =>
      match reader.frames with
      | .entries done :: frames => some ⟨.member done name :: frames, .value⟩
      | _ => none
  | .commaOrClose, .comma =>
      match reader.frames with
      | .items _ :: _ => some ⟨reader.frames, .value⟩
      | .entries _ :: _ => some ⟨reader.frames, .name⟩
      | _ => none
  | .commaOrClose, token => close reader.frames token
  | _, _ => none

def result? (reader : Reader) : Option Json :=
  match reader.expected with
  | .nothing result => some result
  | _ => none

end Reader

def ofTokens? (tokens : List Token) : Option Json := do
  (← tokens.foldlM Reader.step .start).result?

def parse? (text : String) : Option Json := do
  ofTokens? (← tokens? text)

end ScriptSandbox.Json
