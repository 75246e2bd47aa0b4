import ShaderPipeline.Format
import ShaderPipeline.Spirv.Lookup

/-!
Types of a module: what arrays hold, how many components vectors have, and how many bytes values take.

A type refers to others by id, so each traversal is given a bound on its depth, which is one more than the
number of globals: a type that does not contain itself is never nested deeper.  Sizes that do not fit in a word
are absent.
-/

set_option autoImplicit false
set_option relaxedAutoImplicit false

namespace ShaderPipeline.Spirv

def inWord? (n : Nat) : Option Nat :=
  if n < UInt32.size then some n else none

/-- A number, or the greatest word if it does not fit in one. -/
def saturated (n : Nat) : Nat :=
  min n (UInt32.size - 1)

namespace Module

def typeDepth (m : Module) : Nat :=
  m.globals.length + 1

/-- What a type holds under its outer arrays, and `count` times the number of elements. -/
def stripArraysWithin (m : Module) : Nat → Nat → Id → Id × Nat
  | 0, count, id => (id, count)
  | depth + 1, count, id =>
      match m.definition? id with
      | none => (id, count)
      | some i =>
          match i.op, i.operands with
          | .typeArray, [.id element, .id length] =>
              stripArraysWithin m depth
                (saturated (count * (m.constantWord? length).getD 0)) element
          | .typeRuntimeArray, [.id element] => stripArraysWithin m depth 0 element
          | _, _ => (id, count)

/-- What a type holds under its outer arrays, and the number of elements: the product of all lengths, or zero if
a length is not known. -/
def stripArrays (m : Module) (id : Id) : Id × Nat :=
  m.stripArraysWithin m.typeDepth 1 id

/-- The element type of an array type; other types are their own. -/
def elementType (m : Module) (id : Id) : Id :=
  match m.definition? id with
  | none => id
  | some i =>
      match i.op, i.operands with
      | .typeArray, .id element :: _ | .typeRuntimeArray, .id element :: _ => element
      | _, _ => id

def scalarKind? (m : Module) (id : Id) : Option ScalarKind := do
  let i ← m.definition? id
  match i.op, i.operands with
  | .typeBool, _ => some .bool
  | .typeInt, .literal width :: signed =>
      match width.toNat, signed == [.literal 1] with
      | 32, true => some .int32
      | 32, false => some .uint32
      | 64, true => some .int64
      | 64, false => some .uint64
      | _, _ => none
  | .typeFloat, .literal width :: _ =>
      match width.toNat with
      | 32 => some .float32
      | 64 => some .float64
      | _ => none
  | _, _ => none

structure Components where
  scalar : ScalarKind
  count : Nat
  isMatrix : Bool
  deriving DecidableEq, Repr

/-- The components of a type that is nested no deeper than given. -/
def componentsWithin? (m : Module) : Nat → Id → Option Components
  | 0, _ => none
  | depth + 1, id => do
      let i ← m.definition? id
      match i.op, i.operands with
      | .typeVector, [.id component, .literal count] =>
          pure ⟨← m.scalarKind? component, count.toNat, false⟩
      | .typeMatrix, [.id column, .literal columns] =>
          let rows ← componentsWithin? m depth column
          pure ⟨rows.scalar, ← inWord? (rows.count * columns.toNat), true⟩
      | _, _ => pure ⟨← m.scalarKind? id, 1, false⟩

def components? (m : Module) (id : Id) : Option Components :=
  m.componentsWithin? m.typeDepth id

/-- The end of the furthest of some members; a member without an offset starts at the end so far. -/
def membersEnd? (size? : Id → Option Nat) (offset? : Nat → Option Nat) :
    Nat → Nat → List Id → Option Nat
  | _, reached, [] => some reached
  | index, reached, member :: rest => do
      let size ← size? member
      let stop ← inWord? ((offset? index).getD reached + size)
      membersEnd? size? offset? (index + 1) (max reached stop) rest

def sizeWithin? (m : Module) : Nat → Id → Option Nat
  | 0, _ => none
  | depth + 1, id =>
      match m.definition? id with
      | none => some 0
      | some i =>
          match i.op, i.operands with
          | .typeBool, _ => some 4
          | .typeInt, .literal width :: _ | .typeFloat, .literal width :: _ =>
              some (width.toNat / 8)
          | .typeVector, [.id element, .literal count]
          | .typeMatrix, [.id element, .literal count] => do
              inWord? ((← sizeWithin? m depth element) * count.toNat)
          | .typeArray, [.id element, .id length] => do
              let stride ← match m.decorationWord? id .arrayStride with
                | some stride => some stride
                | none => sizeWithin? m depth element
              inWord? (stride * (m.constantWord? length).getD 0)
          | .typeStruct, _ =>
              membersEnd? (sizeWithin? m depth) (m.memberDecorationWord? id · .offset) 0 0
                ((m.members? id).getD [])
          | _, _ => some 0

/-- How many bytes a type takes in a block, if that fits in a word. -/
def size? (m : Module) (id : Id) : Option Nat :=
  m.sizeWithin? m.typeDepth id

end Module

end ShaderPipeline.Spirv
