import ShaderPipeline.Proofs.Reflection.Slots

/-!
The descriptor variables of a module, and what kinds of descriptors they hold.

A variable of a descriptor storage class is a descriptor if the type under its arrays is opaque, for uniform constants,
or else a block.  Main statements: kinds and faults of types are what reflection finds, every descriptor variable has
the one or the other, and the descriptor variables are those that the globals declare.
-/

set_option autoImplicit false
set_option relaxedAutoImplicit false

namespace ShaderPipeline.Spirv.Module

variable {m : Module}

section Kinds

/-- The descriptor kind of an image type, by the number of its dimension and by how it is sampled. -/
inductive IsImageKind : Nat → Nat → DescriptorKind → Prop
  | attachment {sampled : Nat} : IsImageKind 6 sampled .inputAttachment
  | storageTexels : IsImageKind 5 2 .storageTexelBuffer
  | uniformTexels {sampled : Nat} (other : sampled ≠ 2) : IsImageKind 5 sampled .uniformTexelBuffer
  | storageImage {dim : Nat} (plain : dim ≠ 5 ∧ dim ≠ 6) : IsImageKind dim 2 .storageImage
  | sampledImage {dim sampled : Nat} (plain : dim ≠ 5 ∧ dim ≠ 6) (other : sampled ≠ 2) :
      IsImageKind dim sampled .sampledImage

/-- Whether operands are those of an image type with a dimension and a way of being sampled. -/
def IsImageShape (operands : List Operand) (dim : Nat) (sampled : UInt32) : Prop :=
  ∃ texel depth arrayed multisampled rest,
    operands = texel :: .symbol .dim dim :: depth :: arrayed :: multisampled :: .literal sampled :: rest

/-- The descriptor kind of the variables of a storage class and a type that is no array. -/
inductive HasKind (m : Module) : StorageClass → Id → DescriptorKind → Prop
  | sampler {type : Id} {i : Instruction} (known : m.definition? type = some i)
      (op : i.op = .typeSampler) : HasKind m .uniformConstant type .sampler
  | combined {type : Id} {i : Instruction} (known : m.definition? type = some i)
      (op : i.op = .typeSampledImage) : HasKind m .uniformConstant type .combinedImageSampler
  | image {type : Id} {i : Instruction} {dim : Nat} {sampled : UInt32} {kind : DescriptorKind}
      (known : m.definition? type = some i) (op : i.op = .typeImage)
      (shape : IsImageShape i.operands dim sampled) (kind_eq : IsImageKind dim sampled.toNat kind) :
      HasKind m .uniformConstant type kind
  | uniformBlock {type : Id} {i : Instruction} (known : m.definition? type = some i)
      (op : i.op = .typeStruct) (plain : m.isDecorated type .bufferBlock = false) :
      HasKind m .uniform type .uniformBuffer
  | bufferBlock {type : Id} {i : Instruction} (known : m.definition? type = some i)
      (op : i.op = .typeStruct) (marked : m.isDecorated type .bufferBlock = true) :
      HasKind m .uniform type .storageBuffer
  | storageBlock {type : Id} {i : Instruction} (known : m.definition? type = some i)
      (op : i.op = .typeStruct) : HasKind m .storageBuffer type .storageBuffer

/-- Why the variables of a storage class and a type that is no array are no descriptors. -/
inductive HasFault (m : Module) : StorageClass → Id → TypeFault → Prop
  | undefined {storage : StorageClass} {type : Id} (absent : m.definition? type = none) :
      HasFault m storage type .undefined
  | malformedImage {type : Id} {i : Instruction} (known : m.definition? type = some i)
      (op : i.op = .typeImage) (shapeless : ∀ dim sampled, ¬ IsImageShape i.operands dim sampled) :
      HasFault m .uniformConstant type .malformedImage
  | unsupportedOpaque {type : Id} {i : Instruction} (known : m.definition? type = some i)
      (op : i.op ≠ .typeSampler ∧ i.op ≠ .typeSampledImage ∧ i.op ≠ .typeImage) :
      HasFault m .uniformConstant type .unsupportedOpaque
  | uniformNoBlock {type : Id} {i : Instruction} (known : m.definition? type = some i)
      (op : i.op ≠ .typeStruct) : HasFault m .uniform type .uniformNoBlock
  | storageNoBlock {type : Id} {i : Instruction} (known : m.definition? type = some i)
      (op : i.op ≠ .typeStruct) : HasFault m .storageBuffer type .storageNoBlock

private theorem imageKind_of_shape {operands : List Operand} {dim : Nat} {sampled : UInt32} {kind : DescriptorKind}
    (shape : IsImageShape operands dim sampled) (kind_eq : IsImageKind dim sampled.toNat kind) :
    imageKind operands = .ok kind := by
  obtain ⟨_, _, _, _, _, rfl⟩ := shape
  generalize count : sampled.toNat = n at kind_eq
  simp only [imageKind, count]
  cases kind_eq with
  | attachment => rfl
  | storageTexels => rfl
  | uniformTexels other => split <;> simp_all
  | storageImage plain => split <;> simp_all
  | sampledImage plain other => split <;> simp_all

private theorem exists_isImageKind (dim sampled : Nat) : ∃ kind, IsImageKind dim sampled kind := by
  by_cases attachment : dim = 6
  · subst attachment
    exact ⟨_, .attachment⟩
  by_cases stored : sampled = 2
  · subst stored
    by_cases texels : dim = 5
    · subst texels
      exact ⟨_, .storageTexels⟩
    · exact ⟨_, .storageImage ⟨texels, attachment⟩⟩
  · by_cases texels : dim = 5
    · subst texels
      exact ⟨_, .uniformTexels stored⟩
    · exact ⟨_, .sampledImage ⟨texels, attachment⟩ stored⟩

private theorem imageKind_of_shapeless {operands : List Operand}
    (shapeless : ∀ dim sampled, ¬ IsImageShape operands dim sampled) :
    imageKind operands = .error .malformedImage := by
  unfold imageKind
  split
  · exact absurd ⟨_, _, _, _, _, rfl⟩ (shapeless _ _)
  · rfl

theorem HasKind.descriptorKind_eq {storage : StorageClass} {type : Id} {kind : DescriptorKind}
    (h : m.HasKind storage type kind) : m.descriptorKind storage type = .ok (some kind) := by
  unfold descriptorKind
  cases h with
  | sampler known op => simp only [known, op]; rfl
  | combined known op => simp only [known, op]; rfl
  | image known op shape kind_eq => simp only [known, op, imageKind_of_shape shape kind_eq]; rfl
  | uniformBlock known op plain => simp only [known, op, plain]; rfl
  | bufferBlock known op marked => simp only [known, op, marked]; rfl
  | storageBlock known op => simp only [known, op]; rfl

theorem HasFault.descriptorKind_eq {storage : StorageClass} {type : Id} {fault : TypeFault}
    (h : m.HasFault storage type fault) : m.descriptorKind storage type = .error fault := by
  unfold descriptorKind
  cases h with
  | undefined absent => simp only [absent]; rfl
  | malformedImage known op shapeless => simp only [known, op, imageKind_of_shapeless shapeless]; rfl
  | unsupportedOpaque known op =>
    simp only [known]
    split
    · rename_i sampler
      exact absurd sampler op.1
    · rename_i combined
      exact absurd combined op.2.1
    · rename_i image
      exact absurd image op.2.2
    · rfl
  | uniformNoBlock known op =>
    simp only [known, op, ne_eq, not_false_eq_true, if_true]
    rfl
  | storageNoBlock known op =>
    simp only [known, op, ne_eq, not_false_eq_true, if_true]
    rfl

theorem exists_kind_or_fault {v : Variable} (descriptor : v.IsDescriptor) (type : Id) :
    (∃ kind, m.HasKind v.storage type kind) ∨ ∃ fault, m.HasFault v.storage type fault := by
  cases known : m.definition? type with
  | none => exact .inr ⟨_, .undefined known⟩
  | some i =>
    rcases descriptor with storage | storage | storage <;> rw [storage]
    · by_cases sampler : i.op = .typeSampler
      · exact .inl ⟨_, .sampler known sampler⟩
      by_cases combined : i.op = .typeSampledImage
      · exact .inl ⟨_, .combined known combined⟩
      by_cases image : i.op = .typeImage
      · by_cases shape : ∃ dim sampled, IsImageShape i.operands dim sampled
        · obtain ⟨dim, sampled, shape⟩ := shape
          obtain ⟨kind, kind_eq⟩ := exists_isImageKind dim sampled.toNat
          exact .inl ⟨kind, .image known image shape kind_eq⟩
        · exact .inr ⟨_, .malformedImage known image fun dim sampled h => shape ⟨dim, sampled, h⟩⟩
      · exact .inr ⟨_, .unsupportedOpaque known ⟨sampler, combined, image⟩⟩
    · by_cases block : i.op = .typeStruct
      · cases marked : m.isDecorated type .bufferBlock with
        | false => exact .inl ⟨_, .uniformBlock known block marked⟩
        | true => exact .inl ⟨_, .bufferBlock known block marked⟩
      · exact .inr ⟨_, .uniformNoBlock known block⟩
    · by_cases block : i.op = .typeStruct
      · exact .inl ⟨_, .storageBlock known block⟩
      · exact .inr ⟨_, .storageNoBlock known block⟩

theorem hasKind_of_descriptorKind {v : Variable} (descriptor : v.IsDescriptor) {type : Id} {kind : DescriptorKind}
    (known : m.descriptorKind v.storage type = .ok (some kind)) : m.HasKind v.storage type kind := by
  rcases exists_kind_or_fault descriptor type with ⟨kind', typed⟩ | ⟨fault, faulty⟩
  · have same := known.symm.trans typed.descriptorKind_eq
    exact Option.some.inj (Except.ok.inj same) ▸ typed
  · exact absurd (known.symm.trans faulty.descriptorKind_eq) nofun

end Kinds

section Variables

/-- Whether a global declares a variable: its type points to the target within the storage class. -/
structure Declares (m : Module) (i : Instruction) (v : Variable) : Prop where
  op : i.op = .variableOp
  result : i.result = some v.id
  pointer : ∃ type p, i.type = some type ∧ m.definition? type = some p ∧ p.op = .typePointer ∧
    p.operands = [.symbol .storageClass v.storage.code, .id v.target]

/-- The descriptor variable that a global declares. -/
def descriptorOf? (m : Module) (i : Instruction) : Option Variable :=
  (m.variableOf? i).filter fun v => [.uniformConstant, .uniform, .storageBuffer].contains v.storage

theorem contains_storage_iff {v : Variable} :
    [StorageClass.uniformConstant, .uniform, .storageBuffer].contains v.storage = true ↔ v.IsDescriptor := by
  simp [Variable.IsDescriptor]

private theorem ofCode?_eq_some {code : Nat} {storage : StorageClass} :
    StorageClass.ofCode? code = some storage ↔ code = storage.code := by
  constructor
  · intro found
    have coded := List.find?_some found
    exact (beq_iff_eq.mp coded).symm
  · rintro rfl
    cases storage <;> rfl

private theorem pointer?_eq_some {type target : Id} {storage : StorageClass} :
    m.pointer? type = some (storage, target) ↔
      ∃ p, m.definition? type = some p ∧ p.op = .typePointer ∧
        p.operands = [.symbol .storageClass storage.code, .id target] := by
  unfold pointer?
  constructor
  · intro found
    obtain ⟨p, known, found⟩ := Option.bind_eq_some_iff.mp found
    split at found
    · rename_i code target' op operands
      obtain ⟨storage', coded, same⟩ := Option.map_eq_some_iff.mp found
      obtain ⟨rfl, rfl⟩ := Prod.mk.inj same
      exact ⟨p, known, op, ofCode?_eq_some.mp coded ▸ operands⟩
    · cases found
  · rintro ⟨p, known, op, operands⟩
    have coded : StorageClass.ofCode? storage.code = some storage := ofCode?_eq_some.mpr rfl
    simp [known, op, operands, coded]

theorem variableOf?_eq_some {i : Instruction} {v : Variable} :
    m.variableOf? i = some v ↔ m.Declares i v := by
  unfold variableOf?
  constructor
  · intro found
    split at found
    · rename_i op
      obtain ⟨type, typed, found⟩ := Option.bind_eq_some_iff.mp found
      obtain ⟨⟨storage, target⟩, pointer, found⟩ := Option.bind_eq_some_iff.mp found
      obtain ⟨id, result, found⟩ := Option.bind_eq_some_iff.mp found
      obtain rfl := Option.some.inj found
      obtain ⟨p, known⟩ := pointer?_eq_some.mp pointer
      exact ⟨op, result, type, p, typed, known⟩
    · cases found
  · rintro ⟨op, result, type, p, typed, known⟩
    have pointer : m.pointer? type = some (v.storage, v.target) := pointer?_eq_some.mpr ⟨p, known⟩
    simp [op, typed, result, pointer]

theorem descriptorOf?_eq_some {i : Instruction} {v : Variable} :
    m.descriptorOf? i = some v ↔ m.Declares i v ∧ v.IsDescriptor := by
  rw [descriptorOf?, Option.filter_eq_some_iff, variableOf?_eq_some, contains_storage_iff]

def descriptors (m : Module) : List Variable :=
  m.globals.filterMap m.descriptorOf?

theorem isDescriptor_of_mem_descriptors {v : Variable} (hv : v ∈ m.descriptors) : v.IsDescriptor := by
  obtain ⟨i, _, found⟩ := List.mem_filterMap.mp hv
  exact (descriptorOf?_eq_some.mp found).2

end Variables

end ShaderPipeline.Spirv.Module
