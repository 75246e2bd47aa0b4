import ShaderPipeline.Catalog.Basic

/-!
Usages: what stages are found to use at the slots of descriptor sets.

Usages are ordered by slot; the other fields only break ties, and all of them do, so that usages which neither
comes before the other are the same.
-/

set_option autoImplicit false
set_option relaxedAutoImplicit false

namespace ShaderPipeline

/-- The order of keys: by group, then by name. -/
def ResourceKey.order (a b : ResourceKey) : Ordering :=
  (compare a.group b.group).then (compare a.name b.name)

instance : Ord ResourceKey :=
  ⟨ResourceKey.order⟩

structure Usage where
  stages : StageSet
  name : String
  /-- The resource of the catalog, if the usage comes from a resource group. -/
  resource : Option ResourceKey
  access : Access
  kind : DescriptorKind
  binding : Nat
  set : Nat
  /-- The number of descriptors; zero if it is not bounded. -/
  count : Nat
  deriving DecidableEq, Repr

namespace Usage

def slot (u : Usage) : Nat × Nat :=
  (u.set, u.binding)

/-- The order of slots: by set, then by binding. -/
def slotOrder (a b : Nat × Nat) : Ordering :=
  (compare a.1 b.1).then (compare a.2 b.2)

def order (a b : Usage) : Ordering :=
  (slotOrder a.slot b.slot)
    |>.then (compare a.kind.code b.kind.code)
    |>.then (compare a.name b.name)
    |>.then (compare a.resource b.resource)
    |>.then (compare a.stages.bits b.stages.bits)
    |>.then (compare a.access.bits b.access.bits)
    |>.then (compare a.count b.count)

def sort (us : List Usage) : List Usage :=
  us.mergeSort fun a b => (order a b).isLE

/-- Whether two usages are of one resource at one slot, whatever stages use it in whatever way. -/
def isSameSlot (a b : Usage) : Bool :=
  a.set == b.set && a.binding == b.binding && a.kind == b.kind && a.name == b.name
    && a.resource == b.resource

end Usage

end ShaderPipeline
