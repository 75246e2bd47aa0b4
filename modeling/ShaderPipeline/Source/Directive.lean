import ShaderPipeline.Source.Error

/-!
Directives: the lines of a body that are addressed to the generator.

There are four families.  A line that opens with the keyword of a family is a directive of it or malformed;
every other line is ordinary.  Between the parts of a directive stand spaces and tabs, and a line comment may
follow it.
-/

set_option autoImplicit false
set_option relaxedAutoImplicit false

namespace ShaderPipeline

inductive Recognition (α : Type) where
  | ordinary
  | malformed
  | directive (value : α)
  deriving DecidableEq, Repr

namespace Recognition

/-- The directive on a line that opens as one, if it could be read. -/
def ofParsed {α : Type} : Option α → Recognition α
  | some value => directive value
  | none => malformed

/-- The directive on a line, if there is one; a malformed one is an error that shows the line. -/
def value? {α : Type} (r : Recognition α) (line : String) : Except SourceError (Option α) :=
  match r with
  | ordinary => .ok none
  | malformed => .error (.malformedDirective (Text.trim line))
  | directive value => .ok (some value)

end Recognition

/-- A directive that another file be spliced in. -/
structure Include where
  name : String
  /-- Whether the file is looked up in the library only. -/
  isLibrary : Bool
  deriving DecidableEq, Repr

/-- A directive about what a stage takes in and puts out. -/
inductive InterfaceDirective where
  | overrideBegin
  | overrideEnd
  | noFragmentOutput
  deriving DecidableEq, Repr

/-- The parts of a specialization constant as a line declares it. -/
structure ConstantDeclaration where
  type : String
  name : String
  value : String
  deriving DecidableEq, Repr

namespace Directive

def isGap (c : Char) : Bool :=
  c == ' ' || c == '\t'

def isIdentifierChar (c : Char) : Bool :=
  c.isAlphanum || c == '_'

def skipGap (cs : List Char) : List Char :=
  cs.dropWhile isGap

def skipGap? : List Char → Option (List Char)
  | c :: cs => if isGap c then some (skipGap cs) else none
  | [] => none

def skipWord? (word : String) (cs : List Char) : Option (List Char) :=
  Text.dropStart? word.toList cs

/-- The characters up to the first that fails a test, at least one, and what follows. -/
def takeSome? (test : Char → Bool) (cs : List Char) : Option (List Char × List Char) :=
  match cs.takeWhile test with
  | [] => none
  | taken => some (taken, cs.dropWhile test)

def identifier? (cs : List Char) : Option (List Char × List Char) :=
  takeSome? isIdentifierChar cs

/-- What stands between two marks, at least one character, and what follows the second mark. -/
def delimited? (first last : Char) : List Char → Option (List Char × List Char)
  | [] => none
  | c :: cs => do
      guard (c == first)
      let (inner, rest) ← takeSome? (· != last) cs
      match rest with
      | [] => none
      | _ :: after => some (inner, after)

/-- Whether nothing follows but a gap and a comment. -/
def endsLine (cs : List Char) : Bool :=
  match skipGap cs with
  | [] => true
  | rest => (skipWord? "//" rest).isSome

/-- Whether a line opens with a keyword that nothing but a blank, a quote or an angle follows. -/
def opensWith (keyword : String) (line : List Char) : Bool :=
  match skipWord? keyword (Text.dropBlankStart line) with
  | none => false
  | some [] => true
  | some (c :: _) => Text.isBlank c || c == '"' || c == '<'

def pragmaBody? (line : List Char) : Option (List Char) := do
  let cs ← skipWord? "#" (skipGap line)
  let cs ← skipWord? "pragma" (skipGap cs)
  skipGap? cs

def pragmaName? (line : List Char) : Option String := do
  let (name, _) ← identifier? (← pragmaBody? line)
  pure (String.ofList name)

/-- The name of an included file in quotes or angles, and what follows it. -/
def includeTarget? (cs : List Char) : Option (Include × List Char) :=
  match delimited? '"' '"' cs with
  | some (name, rest) => some (⟨String.ofList name, false⟩, rest)
  | none => (delimited? '<' '>' cs).map fun r => (⟨String.ofList r.1, true⟩, r.2)

def parseInclude? (line : List Char) : Option Include := do
  let cs ← skipWord? "#include" (skipGap line)
  let (target, rest) ← includeTarget? (skipGap cs)
  guard (endsLine rest)
  pure target

def recognizeInclude (line : List Char) : Recognition Include :=
  if opensWith "#include" line then .ofParsed (parseInclude? line) else .ordinary

/-- The word `begin` or `end` and what follows it. -/
def overrideEdge? (cs : List Char) : Option (InterfaceDirective × List Char) :=
  match skipWord? "begin" cs with
  | some rest => some (.overrideBegin, rest)
  | none => (skipWord? "end" cs).map (.overrideEnd, ·)

def parseOverride? (line : List Char) : Option InterfaceDirective := do
  let cs ← skipWord? "interface_override" (← pragmaBody? line)
  let (edge, rest) ← overrideEdge? (← skipGap? cs)
  guard (endsLine rest)
  pure edge

def recognizeInterface (line : List Char) : Recognition InterfaceDirective :=
  match pragmaName? line with
  | some "no_fragment_output" => .directive .noFragmentOutput
  | some "interface_override" => .ofParsed (parseOverride? line)
  | _ => .ordinary

/-- A group name, in quotes or as an identifier, and what follows it. -/
def groupName? (cs : List Char) : Option (List Char × List Char) :=
  match delimited? '"' '"' cs with
  | some named => some named
  | none => identifier? cs

def parseBlock? (line : List Char) : Option String := do
  let cs ← skipWord? "use_resource_block" (← pragmaBody? line)
  let (group, rest) ← groupName? (← skipGap? cs)
  guard (endsLine rest)
  pure (String.ofList group)

def recognizeBlock (line : List Char) : Recognition String :=
  match pragmaName? line with
  | some "use_resource_block" => .ofParsed (parseBlock? line)
  | _ => .ordinary

/-- The parts of a constant declaration; its value is not blank. -/
def parseConstant? (line : List Char) : Option ConstantDeclaration := do
  let cs ← skipWord? "spec_const" (skipGap line)
  let (type, cs) ← identifier? (← skipGap? cs)
  let (name, cs) ← identifier? (← skipGap? cs)
  let cs ← skipWord? "=" (skipGap cs)
  let (value, cs) ← takeSome? (· != ';') (skipGap cs)
  let rest ← skipWord? ";" cs
  guard (endsLine rest)
  let value := Text.dropBlankEnd value
  guard (!value.isEmpty)
  pure ⟨String.ofList type, String.ofList name, String.ofList value⟩

def recognizeConstant (line : List Char) : Recognition ConstantDeclaration :=
  if opensWith "spec_const" line then .ofParsed (parseConstant? line) else .ordinary

end Directive

end ShaderPipeline
