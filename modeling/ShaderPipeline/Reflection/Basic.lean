import ShaderPipeline.Reflection.Usage
import ShaderPipeline.Spirv.Types

/-!
What is found out about a compiled stage: usages, a push-constant block, attributes and specialization
constants.
-/

set_option autoImplicit false
set_option relaxedAutoImplicit false

namespace ShaderPipeline

open Spirv (inWord? saturated)

structure PushMember where
  name : String
  size : Nat
  offset : Nat
  deriving DecidableEq, Repr

structure PushBlock where
  stages : StageSet
  name : String
  members : List PushMember
  /-- Where the block starts when the blocks of all stages follow each other. -/
  offset : Nat
  deriving DecidableEq, Repr

namespace PushBlock

/-- The furthest end of some members, if none of them ends beyond a word. -/
def membersEnd? : Nat → List PushMember → Option Nat
  | reached, [] => some reached
  | reached, m :: rest => do membersEnd? (max reached (← inWord? (m.offset + m.size))) rest

/-- The size of a block, which is the furthest end of its members, if that fits in a word. -/
def size? (b : PushBlock) : Option Nat :=
  membersEnd? 0 b.members

/-- The size of a block, or the greatest word if it does not fit in one. -/
def size (b : PushBlock) : Nat :=
  b.size?.getD (UInt32.size - 1)

end PushBlock

structure Attribute where
  name : String
  location : Nat
  /-- Where the attribute starts when the attributes of its list follow each other. -/
  offset : Nat
  format : Format
  deriving DecidableEq, Repr

/-- The value of a specialization constant; floating-point numbers are given by their bits. -/
inductive SpecValue where
  | bool (value : Bool)
  | int32 (value : Int32)
  | uint32 (value : UInt32)
  | int64 (value : Int64)
  | uint64 (value : UInt64)
  | float32 (bits : UInt32)
  | float64 (bits : UInt64)
  deriving DecidableEq

namespace SpecValue

def kind : SpecValue → ScalarKind
  | bool _ => .bool
  | int32 _ => .int32
  | uint32 _ => .uint32
  | int64 _ => .int64
  | uint64 _ => .uint64
  | float32 _ => .float32
  | float64 _ => .float64

def raw : SpecValue → UInt64
  | bool value => if value then 1 else 0
  | int32 value => value.toUInt32.toUInt64
  | uint32 value => value.toUInt64
  | int64 value => value.toUInt64
  | uint64 value => value
  | float32 bits => bits.toUInt64
  | float64 bits => bits

def ofRaw : ScalarKind → UInt64 → SpecValue
  | .bool, bits => bool (bits != 0)
  | .int32, bits => int32 bits.toUInt32.toInt32
  | .uint32, bits => uint32 bits.toUInt32
  | .int64, bits => int64 bits.toInt64
  | .uint64, bits => uint64 bits
  | .float32, bits => float32 bits.toUInt32
  | .float64, bits => float64 bits

end SpecValue

/-- A constant that can be given another value when a pipeline is made. -/
structure SpecConstant where
  id : Nat
  name : String
  value : SpecValue
  deriving DecidableEq

structure StageReflection where
  stage : StageSet
  /-- By set and binding. -/
  usages : List Usage
  pushConstant : Option PushBlock
  /-- In order of declaration. -/
  inputs : List Attribute
  /-- In order of declaration. -/
  outputs : List Attribute
  constants : List SpecConstant
  deriving DecidableEq

end ShaderPipeline
