import ShaderPipeline.Json.Token

/-!
JSON values of texts.

Tokens are taken one by one by a reader that keeps the arrays and objects it stands in, innermost first.
-/

set_option autoImplicit false
set_option relaxedAutoImplicit false

namespace ShaderPipeline.Json

/-- Members of an object, without a key where the string for it stands for no text. -/
abbrev Members := List (Option String × Json)

/-- The object with some members; it cannot be read if one of them has no key. -/
def ofMembers (members : Members) : Json :=
  match members.mapM fun m => m.1.map (·, m.2) with
  | some readable => .object readable
  | none => .unreadable

/-- An array or object that has been opened, with what it holds so far, last first. -/
inductive Frame where
  | array (elements : List Json)
  | object (members : Members) (key : Option String)

inductive Expected where
  | value
  | valueOrEnd
  | keyOrEnd
  | key (members : Members)
  | colon (members : Members) (key : Option String)
  | separator
  | nothing (value : Json)

structure Reader where
  frames : List Frame
  expected : Expected

namespace Reader

def start : Reader :=
  ⟨[], .value⟩

def complete (frames : List Frame) (v : Json) : Reader :=
  match frames with
  | [] => ⟨[], .nothing v⟩
  | .array elements :: outer => ⟨.array (v :: elements) :: outer, .separator⟩
  | .object members key :: outer => ⟨.object ((key, v) :: members) key :: outer, .separator⟩

def beginValue (frames : List Frame) : Token → Option Reader
  | .scalar v => some (complete frames v)
  | .string text => some (complete frames ((text.map Json.string).getD .unreadable))
  | .openArray => some ⟨.array [] :: frames, .valueOrEnd⟩
  | .openObject => some ⟨.object [] none :: frames, .keyOrEnd⟩
  | _ => none

def step (r : Reader) (t : Token) : Option Reader :=
  match r.expected, t, r.frames with
  | .value, t, frames => beginValue frames t
  | .valueOrEnd, .closeArray, _ :: outer => some (complete outer (.array []))
  | .valueOrEnd, t, frames => beginValue frames t
  | .keyOrEnd, .closeObject, _ :: outer => some (complete outer (.object []))
  | .keyOrEnd, .string key, frames => some ⟨frames, .colon [] key⟩
  | .key members, .string key, frames => some ⟨frames, .colon members key⟩
  | .colon members key, .colon, _ :: outer => some ⟨.object members key :: outer, .value⟩
  | .separator, .comma, .array elements :: outer => some ⟨.array elements :: outer, .value⟩
  | .separator, .comma, .object members key :: outer =>
      some ⟨.object members key :: outer, .key members⟩
  | .separator, .closeArray, .array elements :: outer =>
      some (complete outer (.array elements.reverse))
  | .separator, .closeObject, .object members _ :: outer =>
      some (complete outer (ofMembers members.reverse))
  | _, _, _ => none

def value? (r : Reader) : Option Json :=
  match r.expected with
  | .nothing v => some v
  | _ => none

end Reader

def read? (s : String) : Option Json := do
  let tokens ← tokens? s.toList
  let r ← tokens.foldlM Reader.step Reader.start
  r.value?

end ShaderPipeline.Json
