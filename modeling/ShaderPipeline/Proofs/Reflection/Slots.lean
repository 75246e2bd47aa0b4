import ShaderPipeline.Proofs.Catalog.Lookup
import ShaderPipeline.Proofs.Outcome
import ShaderPipeline.Reflection.Stage

/-!
The slots of descriptor variables and the slots that the catalog gives to their names.

The check of one variable decides by its name alone: it is free if no listed group declares the name, and else
bound to the place of the first that does and to the binding there.  Every descriptor variable passes the check
before a stage is accepted.  Main statement: the usages of an accepted stage are where the catalog puts them, and
a stage with a variable that is elsewhere is not accepted.
-/

set_option autoImplicit false
set_option relaxedAutoImplicit false

namespace ShaderPipeline

open Outcome

namespace StageContext

variable {c : StageContext} {name : String} {place set binding : Nat} {r : Resource}

theorem checkSlot_of_declared (labelled : c.catalog.IsLabelled)
    (declared : c.catalog.DeclaredFirst c.groups name place r) :
    c.checkSlot name set binding =
      if place = set ∧ r.binding = binding then .ok (some r)
      else .error (.slotMismatch r.key place r.binding set binding) := by
  have found : c.catalog.findResource? c.groups name = some r :=
    Catalog.findResource?_eq_some.mpr ⟨place, declared⟩
  simp only [checkSlot, found, declared.idxOf? labelled, Option.getD_some]

private theorem checkSlot_of_undeclared
    (undeclared : ∀ group ∈ c.groups, c.catalog.declared? name group = none) :
    c.checkSlot name set binding = .ok none := by
  simp only [checkSlot, Catalog.findResource?_eq_none.mpr undeclared]

/-- Whether the catalog has no objection to a name at a slot, and says what the name stands for. -/
def Agrees (c : StageContext) (name : String) (set binding : Nat) (key : Option ResourceKey) :
    Prop :=
  (∃ place r, c.catalog.DeclaredFirst c.groups name place r ∧
      key = some r.key ∧ binding = r.binding ∧ set = place) ∨
    (∀ group ∈ c.groups, c.catalog.declared? name group = none) ∧ key = none

private theorem agrees_of_checkSlot (labelled : c.catalog.IsLabelled) {found : Option Resource}
    (passed : c.checkSlot name set binding = .ok found) :
    c.Agrees name set binding (found.map Resource.key) := by
  cases lookup : c.catalog.findResource? c.groups name with
  | none =>
    have undeclared := Catalog.findResource?_eq_none.mp lookup
    rw [checkSlot_of_undeclared undeclared] at passed
    obtain rfl := Except.ok.inj passed
    exact .inr ⟨undeclared, rfl⟩
  | some r =>
    obtain ⟨place, declared⟩ := Catalog.findResource?_eq_some.mp lookup
    rw [checkSlot_of_declared labelled declared] at passed
    split at passed
    · rename_i slot
      obtain rfl := Except.ok.inj passed
      exact .inl ⟨place, r, declared, rfl, slot.2.symm, slot.1.symm⟩
    · cases passed

end StageContext

namespace Spirv

/-- Whether a variable is of a storage class whose variables are descriptors. -/
def Variable.IsDescriptor (v : Variable) : Prop :=
  v.storage = .uniformConstant ∨ v.storage = .uniform ∨ v.storage = .storageBuffer

namespace Module

variable {m : Module} {c : StageContext} {stage : StageSet} {v : Variable}

/-- The name of a descriptor variable, which may be that of the type under its arrays. -/
def descriptorName (m : Module) (v : Variable) : String :=
  m.variableName v.id (m.stripArrays v.target).1

/-- The usage of a descriptor variable whose kind and slot are known. -/
def usageAt (m : Module) (c : StageContext) (stage : StageSet) (v : Variable)
    (kind : DescriptorKind) (set binding : Nat) (resource : Option Resource) : Usage :=
  { stages := stage
    name := m.descriptorName v
    resource := resource.map Resource.key
    access := m.access c v.id (m.stripArrays v.target).1 kind resource
    kind
    binding
    set
    count := (m.stripArrays v.target).2 }

private theorem descriptorKind_ne_none (descriptor : v.IsDescriptor) (type : Id) :
    m.descriptorKind v.storage type ≠ .ok none := by
  unfold descriptorKind
  cases m.definition? type with
  | none => exact nofun
  | some i =>
    rcases descriptor with storage | storage | storage <;> simp only [storage]
    · split
      · exact nofun
      · exact nofun
      · cases imageKind i.operands <;> exact nofun
      · exact nofun
    · split
      · exact nofun
      · split <;> exact nofun
    · split <;> exact nofun

theorem usage?_eq_ok (descriptor : v.IsDescriptor) {earlier : List Usage} {found : Option Usage} :
    m.usage? c stage earlier v = .ok found ↔
      ∃ kind set binding resource,
        m.descriptorKind v.storage (m.stripArrays v.target).1 = .ok (some kind) ∧
          m.decorationWord? v.id .descriptorSet = some set ∧
          m.decorationWord? v.id .binding = some binding ∧
          (∀ u ∈ earlier, u.slot ≠ (set, binding)) ∧
          c.checkSlot (m.descriptorName v) set binding = .ok resource ∧
          found = some (m.usageAt c stage v kind set binding resource) := by
  have storage : [StorageClass.uniformConstant, .uniform, .storageBuffer].contains v.storage = true := by
    rcases descriptor with storage | storage | storage <;> simp [storage]
  have kinds := descriptorKind_ne_none (m := m) descriptor (m.stripArrays v.target).1
  simp only [usage?, storage, not_true_eq_false, if_false, bind_eq_ok, mapError_eq_ok]
  constructor
  · rintro ⟨kind | kind, known, done⟩
    · exact absurd known kinds
    simp only at done
    split at done
    · rename_i set sets
      split at done
      · rename_i binding bindings
        split at done
        · obtain ⟨_, stopped, _⟩ := bind_eq_ok.mp done
          exact absurd stopped throw_ne_ok
        · rename_i free
          obtain ⟨resource, checked, done⟩ := bind_eq_ok.mp done
          refine ⟨kind, set, binding, resource, known, sets, bindings, ?_, checked,
            (pure_eq_ok.mp done).symm⟩
          intro u hu at_slot
          cases taken : earlier.find? (fun u => decide (u.slot = (set, binding))) with
          | some first => exact free first taken
          | none => simpa [at_slot] using List.find?_eq_none.mp taken u hu
      · exact absurd done throw_ne_ok
    · exact absurd done throw_ne_ok
  · rintro ⟨kind, set, binding, resource, known, sets, bindings, free, checked, rfl⟩
    have taken : earlier.find? (fun u => decide (u.slot = (set, binding))) = none :=
      List.find?_eq_none.mpr (by simpa using free)
    refine ⟨some kind, known, ?_⟩
    simp only [sets, bindings, taken]
    exact bind_eq_ok.mpr ⟨resource, checked, rfl⟩

theorem usage?_of_not_descriptor (other : ¬ v.IsDescriptor) (earlier : List Usage) :
    m.usage? c stage earlier v = .ok none := by
  have storage : [StorageClass.uniformConstant, .uniform, .storageBuffer].contains v.storage = false := by
    simpa [Variable.IsDescriptor] using other
  simp only [usage?, storage, Bool.false_eq_true, not_false_eq_true, if_true]
  rfl

/-- Whether a usage is that of a descriptor variable, with the resource that the check found in its slot. -/
structure Reflects (m : Module) (c : StageContext) (v : Variable) (u : Usage) : Prop where
  descriptor : v.IsDescriptor
  name_eq : u.name = m.descriptorName v
  set_eq : m.decorationWord? v.id .descriptorSet = some u.set
  binding_eq : m.decorationWord? v.id .binding = some u.binding
  checked : ∃ found, c.checkSlot u.name u.set u.binding = .ok found ∧
    u.resource = found.map Resource.key

/-- Whether a usage is that of a descriptor variable. -/
def IsUsageOf (m : Module) (c : StageContext) (stage : StageSet) (v : Variable) (u : Usage) : Prop :=
  v.IsDescriptor ∧ ∃ kind set binding resource,
    m.descriptorKind v.storage (m.stripArrays v.target).1 = .ok (some kind) ∧
      m.decorationWord? v.id .descriptorSet = some set ∧ m.decorationWord? v.id .binding = some binding ∧
        c.checkSlot (m.descriptorName v) set binding = .ok resource ∧
          u = m.usageAt c stage v kind set binding resource

theorem IsUsageOf.reflects {u : Usage} (h : m.IsUsageOf c stage v u) : m.Reflects c v u := by
  obtain ⟨descriptor, kind, set, binding, resource, _, sets, bindings, checked, rfl⟩ := h
  exact ⟨descriptor, rfl, sets, bindings, resource, checked, rfl⟩

theorem IsUsageOf.unique {u w : Usage} (h : m.IsUsageOf c stage v u) (h' : m.IsUsageOf c stage v w) : u = w := by
  obtain ⟨_, kind, set, binding, resource, kinds, sets, bindings, checked, rfl⟩ := h
  obtain ⟨_, kind', set', binding', resource', kinds', sets', bindings', checked', rfl⟩ := h'
  obtain rfl := Option.some.inj (Except.ok.inj (kinds.symm.trans kinds'))
  obtain rfl := Option.some.inj (sets.symm.trans sets')
  obtain rfl := Option.some.inj (bindings.symm.trans bindings')
  obtain rfl := Except.ok.inj (checked.symm.trans checked')
  rfl

private theorem isUsageOf_of_usage? (descriptor : v.IsDescriptor) {earlier : List Usage} {usage : Option Usage}
    (done : m.usage? c stage earlier v = .ok usage) : ∃ u, usage = some u ∧ m.IsUsageOf c stage v u := by
  obtain ⟨kind, set, binding, resource, kinds, sets, bindings, _, checked, rfl⟩ := (usage?_eq_ok descriptor).mp done
  exact ⟨_, rfl, descriptor, kind, set, binding, resource, kinds, sets, bindings, checked, rfl⟩

private theorem mem_usagesFrom {earlier found : List Usage} {vs : List Variable}
    (done : m.usagesFrom c stage earlier vs = .ok found) :
    (∀ u, u ∈ found ↔ u ∈ earlier ∨ ∃ v ∈ vs, m.IsUsageOf c stage v u) ∧
      ∀ v ∈ vs, v.IsDescriptor → ∃ u, m.IsUsageOf c stage v u := by
  induction vs generalizing earlier with
  | nil =>
    obtain rfl := Except.ok.inj done
    simp
  | cons v rest ih =>
    obtain ⟨usage, first, later⟩ := bind_eq_ok.mp done
    obtain ⟨members, complete⟩ := ih later
    have own : (∀ u, u ∈ usage.toList ↔ m.IsUsageOf c stage v u) ∧
        (v.IsDescriptor → ∃ u, m.IsUsageOf c stage v u) := by
      by_cases descriptor : v.IsDescriptor
      · obtain ⟨w, rfl, usageOf⟩ := isUsageOf_of_usage? descriptor first
        refine ⟨fun u => ?_, fun _ => ⟨w, usageOf⟩⟩
        rw [Option.toList_some, List.mem_singleton]
        exact ⟨fun same => same ▸ usageOf, fun other => other.unique usageOf⟩
      · rw [usage?_of_not_descriptor descriptor] at first
        obtain rfl := Except.ok.inj first
        exact ⟨fun u => iff_of_false List.not_mem_nil fun usageOf => descriptor usageOf.1, fun h => absurd h descriptor⟩
    refine ⟨fun u => ?_, List.forall_mem_cons.mpr ⟨own.2, complete⟩⟩
    rw [members, List.mem_append, own.1, List.exists_mem_cons_iff, or_assoc]

theorem mem_usages {found : List Usage} (done : m.usages c stage = .ok found) {u : Usage} :
    u ∈ found ↔ ∃ v ∈ m.globalVariables, m.IsUsageOf c stage v u := by
  obtain ⟨unsorted, accepted, rfl⟩ := map_eq_ok.mp done
  rw [Usage.sort, List.mem_mergeSort, (mem_usagesFrom accepted).1]
  exact or_iff_right List.not_mem_nil

private theorem reflects_of_usages {found : List Usage} (done : m.usages c stage = .ok found) :
    (∀ u ∈ found, ∃ v ∈ m.globalVariables, m.Reflects c v u) ∧
      ∀ v ∈ m.globalVariables, v.IsDescriptor → ∃ u ∈ found, m.Reflects c v u := by
  constructor
  · intro u hu
    obtain ⟨v, hv, own⟩ := (mem_usages done).mp hu
    exact ⟨v, hv, own.reflects⟩
  · intro v hv descriptor
    obtain ⟨unsorted, accepted, _⟩ := map_eq_ok.mp done
    obtain ⟨u, own⟩ := (mem_usagesFrom accepted).2 v hv descriptor
    exact ⟨u, (mem_usages done).mpr ⟨v, hv, own⟩, own.reflects⟩

theorem reflection_eq_ok {r : StageReflection} :
    m.reflection c stage = .ok r ↔
      r.stage = stage ∧ m.usages c stage = .ok r.usages ∧ m.pushConstant stage = .ok r.pushConstant ∧
        m.inputs stage = .ok r.inputs ∧ m.outputs stage = .ok r.outputs ∧ m.constants = .ok r.constants := by
  constructor
  · intro done
    obtain ⟨usages, found, done⟩ := bind_eq_ok.mp done
    obtain ⟨block, blocked, done⟩ := bind_eq_ok.mp done
    obtain ⟨inputs, taken, done⟩ := bind_eq_ok.mp done
    obtain ⟨outputs, given, done⟩ := bind_eq_ok.mp done
    obtain ⟨constants, specialized, done⟩ := bind_eq_ok.mp done
    obtain rfl := pure_eq_ok.mp done
    exact ⟨rfl, found, blocked, taken, given, specialized⟩
  · rintro ⟨rfl, found, blocked, taken, given, specialized⟩
    rw [reflection, found, blocked, taken, given, specialized]
    rfl

theorem usages_of_reflection {r : StageReflection} (done : m.reflection c stage = .ok r) :
    m.usages c stage = .ok r.usages :=
  (reflection_eq_ok.mp done).2.1

end Module

end Spirv

open Spirv

namespace StageReflection

theorem ofBinary_eq_ok {c : StageContext} {stage : StageSet} {binary : List UInt32}
    {r : StageReflection} :
    ofBinary c stage binary = .ok r ↔
      ∃ m, Module.ofWords binary = .ok m ∧ m.reflection c stage = .ok r := by
  simp only [ofBinary, bind_eq_ok, mapError_eq_ok]

/-- The usages of an accepted stage are at the slots that the catalog gives to their names, and a stage with a
descriptor variable that is elsewhere is not accepted. -/
theorem accepted_usages_agree_with_catalog (c : StageContext) (stage : StageSet)
    (labelled : c.catalog.IsLabelled) (binary : List UInt32) :
    (∀ r, ofBinary c stage binary = .ok r →
        ∀ u ∈ r.usages, c.Agrees u.name u.set u.binding u.resource) ∧
      ∀ m, Module.ofWords binary = .ok m → ∀ v ∈ m.globalVariables, v.IsDescriptor →
        ∀ place resource, c.catalog.DeclaredFirst c.groups (m.descriptorName v) place resource →
          (m.decorationWord? v.id .descriptorSet ≠ some place ∨
            m.decorationWord? v.id .binding ≠ some resource.binding) →
          ∀ r, ofBinary c stage binary ≠ .ok r := by
  constructor
  · intro r done u hu
    obtain ⟨m, _, reflected⟩ := ofBinary_eq_ok.mp done
    obtain ⟨v, _, reflects⟩ := (Module.reflects_of_usages (Module.usages_of_reflection reflected)).1 u hu
    obtain ⟨found, checked, resource⟩ := reflects.checked
    rw [resource]
    exact StageContext.agrees_of_checkSlot labelled checked
  · intro m read v hv descriptor place resource declared elsewhere r done
    obtain ⟨m', read', reflected⟩ := ofBinary_eq_ok.mp done
    obtain rfl := Except.ok.inj (read.symm.trans read')
    obtain ⟨u, _, reflects⟩ :=
      (Module.reflects_of_usages (Module.usages_of_reflection reflected)).2 v hv descriptor
    obtain ⟨found, checked, _⟩ := reflects.checked
    rw [reflects.name_eq, StageContext.checkSlot_of_declared labelled declared] at checked
    split at checked
    · rename_i slot
      rw [reflects.set_eq, reflects.binding_eq, slot.1, slot.2] at elsewhere
      simp at elsewhere
    · cases checked

/-- A module with a sampler `lights` at binding 2 of set 0. -/
def lightWords : List UInt32 :=
  [0x07230203, 0x00010000, 0, 5, 0,
    0x00040005, 3, 0x6867696c, 0x00007374,
    0x00040047, 3, 34, 0,
    0x00040047, 3, 33, 2,
    0x0002001a, 1,
    0x00040020, 2, 0, 1,
    0x0004003b, 2, 3, 0]

/-- A context whose catalog has a sampler `lights` at a binding of the first set. -/
def lightContext (binding : Nat) : StageContext :=
  ⟨⟨[], [⟨"Lighting", [⟨"lights", .sampler, binding, "Lighting", .unknown, .plane, false, 0, "", [],
    "", 0, []⟩], []⟩]⟩, "lit", ["Lighting", "Missing", "Lighting"]⟩

private theorem lightWords_usages :
    (ofBinary (lightContext 2) (.of .vertex) lightWords).toOption.map
      (fun r => r.usages.map (·.name)) = some ["lights"] := by
  decide +kernel

private theorem lightWords_variables :
    (Module.ofWords lightWords).toOption.map (fun m =>
      (m.globalVariables, m.descriptorName ⟨3, .uniformConstant, 1⟩,
        m.decorationWord? 3 .binding)) =
      some ([⟨3, .uniformConstant, 1⟩], "lights", some 2) := by
  decide +kernel

theorem accepted_usages_agree_with_lightContext :
    (lightContext 2).catalog.IsLabelled ∧ (lightContext 3).catalog.IsLabelled ∧
      (∃ r, ofBinary (lightContext 2) (.of .vertex) lightWords = .ok r ∧ r.usages ≠ [] ∧
        ∀ u ∈ r.usages, (lightContext 2).Agrees u.name u.set u.binding u.resource) ∧
      ∀ r, ofBinary (lightContext 3) (.of .vertex) lightWords ≠ .ok r := by
  have labelled : ∀ binding, (lightContext binding).catalog.IsLabelled := by
    simp [Catalog.IsLabelled, lightContext]
  have usages := lightWords_usages
  have parts := lightWords_variables
  have declared : ∃ r, (lightContext 3).catalog.DeclaredFirst (lightContext 3).groups "lights" 0 r ∧
      r.binding = 3 :=
    ⟨_, ⟨⟨"Lighting", rfl, rfl⟩, nofun⟩, rfl⟩
  refine ⟨labelled 2, labelled 3, ?_, ?_⟩
  · cases done : ofBinary (lightContext 2) (.of .vertex) lightWords with
    | error e => simp [done, Except.toOption] at usages
    | ok r =>
      refine ⟨r, rfl, ?_, ?_⟩
      · rintro none
        simp [done, Except.toOption, none] at usages
      · exact (accepted_usages_agree_with_catalog _ _ (labelled 2) lightWords).1 r done
  · cases read : Module.ofWords lightWords with
    | error e => simp [read, Except.toOption] at parts
    | ok m =>
      simp only [read, Except.toOption, Option.map_some, Option.some.injEq, Prod.mk.injEq] at parts
      obtain ⟨listed, called, bound⟩ := parts
      obtain ⟨resource, declared, binding⟩ := declared
      refine (accepted_usages_agree_with_catalog _ (.of .vertex) (labelled 3) lightWords).2 m read
        ⟨3, .uniformConstant, 1⟩ (by simp [listed]) (.inl rfl) 0 resource (called ▸ declared) ?_
      rw [bound, binding]
      exact .inr (by decide)

end StageReflection

end ShaderPipeline
