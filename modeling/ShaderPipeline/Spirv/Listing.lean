import ShaderPipeline.Decimal.Shortest
import ShaderPipeline.Spirv.Extended
import ShaderPipeline.Spirv.Module

/-!
Listings of modules: one line of text for each instruction, section after section.

A constant outside functions shows its number as its type says, and an instruction of an imported extended set
shows its name.
-/

set_option autoImplicit false
set_option relaxedAutoImplicit false

namespace ShaderPipeline.Spirv

def idText (id : Id) : String :=
  s!"%{id}"

/-- The name of a value of a family, or its number. -/
def EnumKind.valueText (k : EnumKind) (value : Nat) : String :=
  (k.valueName? value).getD (toString value)

def MaskKind.valueText (k : MaskKind) (value : Nat) : String :=
  if value = 0 then "None" else "|".intercalate (k.names value)

def Operand.listing : Operand → String
  | id value => idText value
  | literal value => toString value
  | wideLiteral value => toString value
  | text value => Text.quoted value
  | symbol kind value => kind.valueText value
  | mask kind value => kind.valueText value
  | operation op => op.title

namespace Instruction

def line (i : Instruction) (operands : List String) : String :=
  let space := if operands.isEmpty then "" else " "
  let result := match i.result with
    | some id => s!"{idText id} = "
    | none => ""
  let type := match i.type with
    | some id => s!"  {idText id}{space}"
    | none => ""
  result ++ "Op" ++ i.op.title ++ type ++ space ++ " ".intercalate operands

def listing (i : Instruction) : String :=
  i.line (i.operands.map Operand.listing)

end Instruction

def NumericType.numeral : NumericType → Operand → String
  | int _ true, .literal value => toString value.toInt32
  | int _ true, .wideLiteral value => toString value.toInt64
  | float _, .literal value => Decimal.binary32.numeral value.toNat
  | float _, .wideLiteral value => Decimal.binary64.numeral value.toNat
  | _, operand => operand.listing

namespace Module

def numericTypes (m : Module) : NumericTypes :=
  m.globals.foldl NumericTypes.track []

def globalListing (m : Module) (i : Instruction) : String :=
  match i.op, i.type.bind m.numericTypes.find? with
  | .constant, some type => i.line (i.operands.map type.numeral)
  | _, _ => i.listing

/-- The extended set that an import brings in, if it is one of the known ones. -/
def importedSet? (i : Instruction) : Option ExtendedSet :=
  match i.operands with
  | [.text name] => ExtendedSet.ofTitle? name
  | _ => none

/-- The known extended set that an id stands for; of several imports the last one counts. -/
def extendedSet? (m : Module) (id : Id) : Option ExtendedSet :=
  (((m.ofSection .imports).filter (·.result == some id)).filterMap importedSet?).getLast?

def localListing (m : Module) (i : Instruction) : String :=
  match i.op, i.operands with
  | .extInst, .id set :: .literal number :: arguments =>
      match (m.extendedSet? set).bind (·.name? number.toNat) with
      | some name => i.line (idText set :: name :: arguments.map Operand.listing)
      | none => i.listing
  | _, _ => i.listing

def functionListing (m : Module) (f : Function) : List String :=
  f.start.listing :: f.parameters.map Instruction.listing
    ++ f.blocks.flatMap (fun b => b.label.listing :: b.body.map m.localListing)
    ++ f.finish.toList.map Instruction.listing

/-- The sections before the globals, in the order in which they are listed. -/
def preamble : List Section :=
  [.capabilities, .extensions, .imports, .memoryModel, .entryPoints, .executionModes, .sources, .names,
    .processes, .annotations]

/-- The instructions that a section is listed with: of the memory models only the last one. -/
def listed (m : Module) (s : Section) : List Instruction :=
  if s = .memoryModel then (m.ofSection s).getLast?.toList else m.ofSection s

def headerListing (h : Header) : List String :=
  ["; SPIR-V", s!"; Version: {h.major}.{h.minor}", "; Generator: rspirv", s!"; Bound: {h.bound}"]

def listing (m : Module) : String :=
  "\n".intercalate (headerListing m.header
    ++ preamble.flatMap (fun s => (m.listed s).map Instruction.listing)
    ++ m.globals.map m.globalListing
    ++ m.functions.flatMap m.functionListing)

def listingOfWords (words : List UInt32) : Except ModuleFault String :=
  (ofWords words).map listing

end Module

end ShaderPipeline.Spirv
