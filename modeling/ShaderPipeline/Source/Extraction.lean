import ShaderPipeline.Source.Directive
import ShaderPipeline.Text.Line

/-!
Passes that take lines out of a body: its version, its interface directives, its constants.

A line that is taken out leaves an empty line, so that all others keep their numbers.
-/

set_option autoImplicit false
set_option relaxedAutoImplicit false

namespace ShaderPipeline

namespace Extraction

def startsWith (word : String) (cs : List Char) : Bool :=
  (Text.dropStart? word.toList cs).isSome

/-- Whether a trimmed line is anything but empty, a comment, or a line mark. -/
def isCode (trimmed : List Char) : Bool :=
  !trimmed.isEmpty && !startsWith "//" trimmed && !startsWith "#line" trimmed

/-- The version that stands before all code, trimmed, and the lines without it. -/
def version : List String → Option String × List String
  | [] => (none, [])
  | line :: rest =>
      let trimmed := Text.dropBlankEnds line.toList
      if startsWith "#version" trimmed then (some (String.ofList trimmed), "" :: rest)
      else if isCode trimmed then (none, line :: rest)
      else
        let (found, rest) := version rest
        (found, line :: rest)

end Extraction

/-- What the interface directives of a body ask for. -/
structure InterfaceRequest where
  /-- The lines of all override regions, if there are any regions. -/
  override : Option (List String)
  noFragmentOutput : Bool
  deriving DecidableEq, Repr

namespace InterfaceRequest

def empty : InterfaceRequest :=
  ⟨none, false⟩

def addRegion (r : InterfaceRequest) (lines : List String) : InterfaceRequest :=
  { r with override := some (r.override.getD [] ++ lines) }

end InterfaceRequest

namespace Extraction

/-- The lines outside override regions, and what the directives ask for beyond a given request.  The first
argument holds the lines of the region that is open. -/
def interfaceFrom :
    Option (List String) → InterfaceRequest → List String →
      Except SourceError (List String × InterfaceRequest)
  | none, request, [] => .ok ([], request)
  | some _, _, [] => .error .unbalancedOverride
  | region, request, line :: rest => do
      let found ← (Directive.recognizeInterface line.toList).value? line
      let (kept, region, request) ← match found, region with
        | some .overrideBegin, none => pure ("", some [], request)
        | some .overrideBegin, some _ => throw .unbalancedOverride
        | some .overrideEnd, none => throw .unbalancedOverride
        | some .overrideEnd, some lines => pure ("", none, request.addRegion lines)
        | some .noFragmentOutput, region =>
            pure ("", region, { request with noFragmentOutput := true })
        | none, some lines => pure ("", some (lines ++ [line]), request)
        | none, none => pure (line, none, request)
      let (after, request) ← interfaceFrom region request rest
      pure (kept :: after, request)

/-- The lines without interface directives and override regions, and what the directives ask for. -/
def interface (lines : List String) : Except SourceError (List String × InterfaceRequest) :=
  interfaceFrom none .empty lines

end Extraction

/-- A specialization constant and the number it is set by. -/
structure SourceConstant where
  number : UInt32
  type : String
  name : String
  value : String
  deriving DecidableEq, Repr

namespace SourceConstant

def id (c : SourceConstant) : Nat :=
  c.number.toNat

def declaration (c : SourceConstant) : String :=
  s!"layout(constant_id = {c.number}) const {c.type} {c.name} = {c.value};"

end SourceConstant

namespace Extraction

/-- The lines without constant declarations, and the constants, numbered in one word from `first` on; zero follows
the greatest number. -/
def constants (first : UInt32) :
    List String → Except SourceError (List String × List SourceConstant)
  | [] => .ok ([], [])
  | line :: rest => do
      match ← (Directive.recognizeConstant line.toList).value? line with
      | some d =>
          let (after, later) ← constants (first + 1) rest
          pure ("" :: after, ⟨first, d.type, d.name, d.value⟩ :: later)
      | none =>
          let (after, later) ← constants first rest
          pure (line :: after, later)

end Extraction

end ShaderPipeline
