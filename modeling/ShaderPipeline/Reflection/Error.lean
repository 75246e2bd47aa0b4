import ShaderPipeline.Reflection.Basic

/-!
Why a compiled stage is refused.
-/

set_option autoImplicit false
set_option relaxedAutoImplicit false

namespace ShaderPipeline

/-- Why the type of a variable is not that of a descriptor. -/
inductive TypeFault where
  | undefined
  | malformedImage
  | unsupportedOpaque
  | uniformNoBlock
  | storageNoBlock
  deriving DecidableEq, Repr

def TypeFault.message : TypeFault → String
  | undefined => "undefined type"
  | malformedImage => "malformed image type"
  | unsupportedOpaque => "unsupported opaque type"
  | uniformNoBlock => "uniform variable is not a block"
  | storageNoBlock => "storage buffer variable is not a block"

inductive ReflectError where
  | malformed (fault : Spirv.ModuleFault)
  | memberTooLarge (block member : String)
  | attributeTooLarge (name : String)
  | invalidType (name : String) (fault : TypeFault)
  | sharedSlot (set binding : Nat) (first second : String)
  | missingSlot (name : String)
  | slotMismatch (resource : ResourceKey) (expectedSet expectedBinding set binding : Nat)
  | constantNotScalar (name : String)
  | severalPushBlocks (first second : String)
  deriving DecidableEq, Repr

namespace ReflectError

def kind : ReflectError → ErrorKind
  | malformed _ | memberTooLarge _ _ | attributeTooLarge _ => .invalidBinary
  | invalidType _ _ => .invalidDescriptorType
  | sharedSlot _ _ _ _ => .duplicateDescriptorType
  | missingSlot _ => .invalidBindingIndex
  | slotMismatch _ _ _ _ _ => .bindingMismatch
  | constantNotScalar _ => .unsupportedSpecConstant
  | severalPushBlocks _ _ => .multiplePushConstantBlocks

def invalidBinary (what : String) : String :=
  "invalid SPIR-V binary: " ++ what

def message : ReflectError → String
  | malformed fault => invalidBinary fault.message
  | memberTooLarge block member =>
      invalidBinary s!"push-constant member `{block}.{member}` does not fit in 32 bits"
  | attributeTooLarge name => invalidBinary s!"the attribute `{name}` does not fit in 32 bits"
  | invalidType name fault =>
      s!"the resource `{name}` has an invalid descriptor type: {fault.message}"
  | sharedSlot set binding first second =>
      s!"`{first}` and `{second}` both use set {set} binding {binding}"
  | missingSlot name => s!"the resource `{name}` has no descriptor set or binding"
  | slotMismatch resource expectedSet expectedBinding set binding =>
      s!"`{resource.display}` is declared at set {expectedSet} binding {expectedBinding} "
        ++ s!"but reflected at set {set} binding {binding}"
  | constantNotScalar name => s!"the specialization constant `{name}` is not a scalar"
  | severalPushBlocks first second =>
      s!"push-constant blocks `{first}` and `{second}` are declared in one stage"

instance : Reportable ReflectError :=
  ⟨kind, message⟩

end ReflectError

end ShaderPipeline
