import ShaderPipeline.Text.Blank

/-!
JSON values and the reading of records from them.

Objects keep their members in order, also repeated ones.  Whole numbers are kept exactly and all others
as the bits of a binary64 number, so that `1` and `1.0` differ.  A record is read from an object by key or
from an array by position.  What stands for no value does no harm where nothing is read from it.
-/

set_option autoImplicit false
set_option relaxedAutoImplicit false

namespace ShaderPipeline

inductive Json where
  | null
  | bool (b : Bool)
  | integer (n : Int)
  | float (bits : UInt64)
  | string (s : String)
  | array (elements : List Json)
  | object (members : List (String × Json))
  /-- A string that stands for no text, an object with such a string as a key, or a number too large for
  binary64. -/
  | unreadable
  deriving Inhabited

namespace Json

def ofNat (n : Nat) : Json :=
  .integer n

def ofList {α : Type} (encode : α → Json) (xs : List α) : Json :=
  .array (xs.map encode)

/-- An encoded value, or null where there is none. -/
def ofOption {α : Type} (encode : α → Json) : Option α → Json
  | some a => encode a
  | none => .null

def string? : Json → Option String
  | .string s => some s
  | _ => none

def bool? : Json → Option Bool
  | .bool b => some b
  | _ => none

def word? : Json → Option Nat
  | .integer n => if 0 ≤ n ∧ n < UInt32.size then some n.toNat else none
  | _ => none

def list? {α : Type} (decode : Json → Option α) : Json → Option (List α)
  | .array xs => xs.mapM decode
  | _ => none

def nullable? {α : Type} (decode : Json → Option α) : Json → Option (Option α)
  | .null => some none
  | v => (decode v).map some

def members? {α : Type} (decode : Json → Option α) : Json → Option (List (String × α))
  | .object ms => ms.mapM fun m => (decode m.2).map (m.1, ·)
  | _ => none

/-- The name of a choice without content: a string, or an object whose one member is null. -/
def choice? : Json → Option String
  | .string s => some s
  | .object [(s, .null)] => some s
  | _ => none

structure Record where
  fields : List (String × Json)
  /-- Whether the fields were given by position. -/
  positional : Bool

def distinctKeys : List (String × Json) → Bool
  | [] => true
  | m :: ms => !ms.any (·.1 == m.1) && distinctKeys ms

/-- Takes a value as a record with the given fields.  An array has them in order; an object has none of
them twice, and nothing else if the record is closed. -/
def record? (names : List String) (closed : Bool) : Json → Option Record
  | .object ms =>
      let known := ms.filter (names.contains ·.1)
      if distinctKeys known && (!closed || known.length == ms.length) then some ⟨known, false⟩
      else none
  | .array xs => if xs.length ≤ names.length then some ⟨names.zip xs, true⟩ else none
  | _ => none

namespace Record

def field? (r : Record) (name : String) : Option Json :=
  (r.fields.find? (·.1 == name)).map (·.2)

def required {α : Type} (r : Record) (name : String) (decode : Json → Option α) : Option α :=
  (r.field? name).bind decode

def defaulted {α : Type} (r : Record) (name : String) (default : α) (decode : Json → Option α) :
    Option α :=
  match r.field? name with
  | some v => decode v
  | none => some default

/-- A field that may be null, and may be left out unless fields are given by position. -/
def optional {α : Type} (r : Record) (name : String) (decode : Json → Option α) :
    Option (Option α) :=
  match r.field? name with
  | some v => nullable? decode v
  | none => if r.positional then none else some none

end Record

end Json

end ShaderPipeline
