import ShaderPipeline.Proofs.Reflection.Leaves
import ShaderPipeline.Proofs.Shader.PushLayout

/-!
What the range of a push-constant block covers.

The size of a block is the furthest end of its members, and it is the size of the range in every shader that the block
was folded into.  Main statement: every scalar of a block lies within its range, unless it is in a matrix whose columns
are further apart than they are wide, or in an array with more elements than a word can count; an example shows that
the range misses scalars of such a matrix.
-/

set_option autoImplicit false
set_option relaxedAutoImplicit false

namespace ShaderPipeline

open Outcome Spirv

namespace PushBlock

private theorem isSome_membersEnd? {members : List PushMember} (fit : ∀ p ∈ members, p.offset + p.size < UInt32.size)
    (reached : Nat) : (membersEnd? reached members).isSome = true := by
  induction members generalizing reached with
  | nil => rfl
  | cons p rest ih =>
    obtain ⟨first, fit⟩ := List.forall_mem_cons.mp fit
    have stop : inWord? (p.offset + p.size) = some (p.offset + p.size) := inWord?_eq_some.mpr ⟨first, rfl⟩
    rw [membersEnd?, stop]
    exact ih fit _

theorem le_of_membersEnd? {members : List PushMember} {reached stop : Nat}
    (ends : membersEnd? reached members = some stop) :
    reached ≤ stop ∧ ∀ p ∈ members, p.offset + p.size ≤ stop := by
  induction members generalizing reached with
  | nil =>
    obtain rfl := Option.some.inj ends
    exact ⟨Nat.le_refl _, nofun⟩
  | cons p rest ih =>
    obtain ⟨next, fits, ends⟩ := Option.bind_eq_some_iff.mp ends
    obtain ⟨_, rfl⟩ := inWord?_eq_some.mp fits
    obtain ⟨grown, later⟩ := ih ends
    exact ⟨by omega, List.forall_mem_cons.mpr ⟨by omega, later⟩⟩

private theorem end_le_size {b : PushBlock} (fit : ∀ p ∈ b.members, p.offset + p.size < UInt32.size) :
    ∀ p ∈ b.members, p.offset + p.size ≤ b.size := by
  have known : b.size? = some b.size := size?_eq_size (isSome_membersEnd? fit 0)
  exact (le_of_membersEnd? known).2

end PushBlock

namespace Spirv.Module

variable {m : Module}

private theorem pushMembers_spec {block : String} {type : Id} {index : Nat} {members : List Id} {found : List PushMember}
    (done : m.pushMembers block type index members = .ok found) :
    (∀ p ∈ found, p.offset + p.size < UInt32.size) ∧
      ∀ (j : Nat) member offset, members[j]? = some member →
        m.memberDecorationWord? type (index + j) .offset = some offset →
          ∃ p ∈ found, p.offset = offset ∧ m.size? member = some p.size := by
  induction members generalizing index found with
  | nil =>
    obtain rfl := Except.ok.inj done
    exact ⟨nofun, by simp⟩
  | cons member rest ih =>
    rw [pushMembers] at done
    split at done
    · rename_i size sized
      obtain ⟨later, rest', done⟩ := bind_eq_ok.mp done
      obtain rfl := pure_eq_ok.mp done
      obtain ⟨known, fits⟩ := Option.filter_eq_some_iff.mp sized
      obtain ⟨stop, inWord⟩ := Option.isSome_iff_exists.mp fits
      obtain ⟨bound, _⟩ := inWord?_eq_some.mp inWord
      obtain ⟨fit, listed⟩ := ih rest'
      refine ⟨List.forall_mem_cons.mpr ⟨bound, fit⟩, fun j part offset at_place decorated => ?_⟩
      cases j with
      | zero =>
        obtain rfl := Option.some.inj at_place
        refine ⟨_, List.mem_cons_self, ?_, known⟩
        show (m.memberDecorationWord? type index .offset).getD 0 = offset
        rw [Nat.add_zero] at decorated
        rw [decorated, Option.getD_some]
      | succ j =>
        rw [Nat.add_succ, ← Nat.succ_add] at decorated
        obtain ⟨p, hp, placed⟩ := listed j part offset at_place decorated
        exact ⟨p, List.mem_cons_of_mem _ hp, placed⟩
    · exact absurd done throw_ne_ok

private theorem pushBlock_of_pushConstant {stage : StageSet} {shown : Option PushBlock}
    (done : m.pushConstant stage = .ok shown) {v : Variable} (declared : v ∈ m.globalVariables)
    (storage : v.storage = .pushConstant) : ∃ b, shown = some b ∧ m.pushBlock stage v = .ok b := by
  have listed : v ∈ m.globalVariables.filter (·.storage = .pushConstant) :=
    List.mem_filter.mpr ⟨declared, by simpa using storage⟩
  unfold pushConstant at done
  split at done
  · rename_i none
    rw [none] at listed
    cases listed
  · rename_i first rest found
    rw [found] at listed
    obtain ⟨block, made, single⟩ := bind_eq_ok.mp done
    cases rest with
    | nil =>
      obtain rfl := List.mem_singleton.mp listed
      exact ⟨block, (pure_eq_ok.mp single).symm, made⟩
    | cons second _ => exact absurd single throw_ne_ok

private theorem member_in_pushBlock {stage : StageSet} {v : Variable} {b : PushBlock} (done : m.pushBlock stage v = .ok b)
    {members : List Id} (block : m.shape v.target = .struct members) {index offset : Nat} {member : Id}
    (listed : members[index]? = some member)
    (decorated : m.memberDecorationWord? v.target index .offset = some offset) :
    ∃ size, m.size? member = some size ∧ offset + size ≤ b.size := by
  obtain ⟨found, read, done⟩ := bind_eq_ok.mp done
  obtain rfl := pure_eq_ok.mp done
  rw [members?_of_shape block] at read
  obtain ⟨fit, each⟩ := pushMembers_spec read
  obtain ⟨p, hp, rfl, size⟩ := each index member offset listed (by rwa [Nat.zero_add])
  exact ⟨p.size, size, PushBlock.end_le_size fit p hp⟩

private theorem leaf_in_pushBlock {stage : StageSet} {v : Variable} {b : PushBlock} (done : m.pushBlock stage v = .ok b)
    {members : List Id} (block : m.shape v.target = .struct members) (roomy : m.IsRoomy ⟨v.target, 0, none⟩)
    {leaf : Part} {bytes : Nat} (path : m.Reaches ⟨v.target, 0, none⟩ leaf)
    (sized : m.scalarBytes? leaf.type = some bytes) :
    leaf.start + bytes ≤ b.size ∨
      ∃ part, m.IsMemberWithin ⟨v.target, 0, none⟩ part ∧ m.Reaches part leaf ∧ m.Understates part := by
  rcases Relation.ReflTransGen.cases_head path with rfl | ⟨next, held, below⟩
  · have scalar := shape_of_scalarBytes? sized
    rw [block] at scalar
    cases scalar
  · have roomy' := roomy.of_reaches (.single held)
    have member := holds_by_shape held
    rw [block] at member
    cases member with
    | intro shape listed decorated =>
      obtain rfl := Shape.struct.inj (block.symm.trans shape)
      obtain ⟨size, known, inside⟩ := member_in_pushBlock done block listed decorated
      rw [size?] at known
      rcases leaf_in_size (by exact known) roomy' below sized with within | ⟨part, within, reached, understated⟩
      · dsimp only at within
        exact .inl (by omega)
      · exact .inr ⟨part, within.head (.intro shape listed decorated), reached, understated⟩

end Spirv.Module

namespace Shader

open PushBlock ShaderCall

private theorem pushBlock_kept (name : String) (stages : List StageSet) (history : List ShaderCall) :
    ∀ call ∈ (new name stages).acceptedInPlace history, ∀ b, call.pushBlock? = some b →
      b.unplaced ∈ ((new name stages).runInPlace history).2.pushBlocks.map unplaced := by
  have none : ∀ call ∈ ([] : List ShaderCall), ∀ b, call.pushBlock? = some b →
      b.unplaced ∈ (new name stages).pushBlocks.map unplaced := nofun
  apply runInPlace_induction (s := new name stages)
    (P := fun s folded => ∀ call ∈ folded, ∀ b, call.pushBlock? = some b → b.unplaced ∈ s.pushBlocks.map unplaced)
    none
  intro call _ s s' folded known done
  obtain ⟨r, reflects, collated⟩ := on_eq_ok.mp done
  obtain ⟨_, _, blocks, stacked, rfl⟩ := (@collate_eq_ok s s' (call.identity, r)).mp collated
  have shown : call.pushBlock? = r.pushConstant := by
    simp [ShaderCall.pushBlock?, reflects, Except.toOption]
  have table : s.pushBlocks.map unplaced ++ (r.pushConstant.toList.map unplaced) ⊆ blocks.map unplaced := by
    cases brought : r.pushConstant with
    | none =>
      simp only [brought, pushBlocksWith] at stacked
      obtain rfl := Except.ok.inj stacked
      rw [Option.toList_none, List.map_nil, List.append_nil]
      exact List.Subset.refl _
    | some block =>
      simp only [brought, pushBlocksWith] at stacked
      have perm := (isStack_of_stack stacked).perm
      rw [List.map_append] at perm
      exact perm.symm.subset
  intro other ho b brought
  rcases List.mem_append.mp ho with ho | ho
  · exact table (List.mem_append_left _ (known other ho b brought))
  · obtain rfl := List.mem_singleton.mp ho
    refine table (List.mem_append_right _ (List.mem_map_of_mem ?_))
    rw [← shown, brought]
    exact List.mem_singleton_self b

/-- Every scalar of a push-constant block whose arrays are roomy lies within the size that reflection gives the block,
and that its range has in every shader, unless it is in a part whose size leaves some of it out. -/
theorem scalars_in_push_range (c : StageContext) (stage : StageSet) (binary : List UInt32) (r : StageReflection)
    (accepted : StageReflection.ofBinary c stage binary = .ok r) (m : Module) (read : Module.ofWords binary = .ok m)
    (v : Variable) (declared : v ∈ m.globalVariables) (storage : v.storage = .pushConstant) (members : List Id)
    (block : m.shape v.target = .struct members) (roomy : m.IsRoomy ⟨v.target, 0, none⟩) :
    ∃ b, r.pushConstant = some b ∧
      (∀ leaf bytes, m.Reaches ⟨v.target, 0, none⟩ leaf → m.scalarBytes? leaf.type = some bytes →
        leaf.start + bytes ≤ b.size ∨
          ∃ part, m.IsMemberWithin ⟨v.target, 0, none⟩ part ∧ m.Reaches part leaf ∧ m.Understates part) ∧
      ∀ name stages history i, i.stage = stage →
        ShaderCall.parse c i binary ∈ (new name stages).acceptedInPlace history →
          ∃ range ∈ ((new name stages).runInPlace history).2.pushRanges,
            range.stages = stage ∧ range.size = b.size := by
  obtain ⟨m', read', reflected⟩ := StageReflection.ofBinary_eq_ok.mp accepted
  obtain rfl : m = m' := Except.ok.inj (read.symm.trans read')
  obtain ⟨b, shown, made⟩ :=
    Module.pushBlock_of_pushConstant (Module.pushConstant_of_reflection reflected) declared storage
  refine ⟨b, shown, fun leaf bytes path sized => Module.leaf_in_pushBlock made block roomy path sized, ?_⟩
  intro name stages history i at_stage folded
  have brought : (ShaderCall.parse c i binary).pushBlock? = some b := by
    simp [ShaderCall.pushBlock?, ShaderCall.reflection, at_stage, accepted, Except.mapError, Except.toOption, shown]
  obtain ⟨b', hb', same⟩ := List.mem_map.mp (pushBlock_kept name stages history _ folded b brought)
  refine ⟨_, List.mem_map_of_mem hb', ?_, ?_⟩
  · have stages_eq : b'.unplaced.stages = b.unplaced.stages := congrArg (·.stages) same
    exact stages_eq.trans (Module.pushBlock_eq_ok made).1
  · show b'.size = b.size
    rw [← size_unplaced, same, size_unplaced]

section Samples

/-- Whether the elements of all arrays with a stride are scalars that fit in it. -/
def elementsFit (m : Module) : Bool :=
  m.globals.all fun i => i.result.all fun id =>
    match m.shape id, m.decorationWord? id .arrayStride with
    | .array element _, some stride => (m.scalarBytes? element).any (· ≤ stride)
    | _, _ => true

private theorem isRoomy_of_elementsFit {m : Module} (fit : elementsFit m = true) (root : Part) : m.IsRoomy root := by
  intro whole part stride _ held leaf bytes path sized
  cases held with
  | @intro element length count index shape decorated counted bound =>
    obtain ⟨i, known⟩ : ∃ i, m.definition? whole.type = some i := by
      cases known : m.definition? whole.type with
      | none => simp [Module.shape, known] at shape
      | some i => exact ⟨i, rfl⟩
    obtain ⟨hi, result⟩ := Module.mem_of_definition? known
    have listed := List.all_eq_true.mp fit i hi
    simp only [result, Option.all_some, shape, decorated, Option.any_eq_true, decide_eq_true_iff] at listed
    obtain ⟨width, scalar, le⟩ := listed
    obtain rfl := Module.eq_of_scalar_reaches (Module.shape_of_scalarBytes? scalar) path
    obtain rfl := Option.some.inj (scalar.symm.trans sized)
    exact Nat.add_le_add_left le _

/-- A module with a block of push constants that is a matrix of three columns, which are sixteen bytes apart. -/
def turnWords : List UInt32 :=
  [0x07230203, 0x00010000, 0, 9, 0,
    0x00050048, 4, 0, 35, 0,
    0x00040048, 4, 0, 5,
    0x00050048, 4, 0, 7, 16,
    0x00030016, 1, 32,
    0x00040017, 2, 1, 3,
    0x00040018, 3, 2, 3,
    0x0003001e, 4, 3,
    0x00040020, 5, 9, 4,
    0x0004003b, 5, 6, 9]

/-- A module with a block of push constants that is an array of more elements than a word can count. -/
def crowdWords : List UInt32 :=
  [0x07230203, 0x00010000, 0, 9, 0,
    0x00040047, 4, 6, 4,
    0x00050048, 5, 0, 35, 0,
    0x00030016, 1, 32,
    0x00040015, 2, 64, 0,
    0x0005002b, 2, 3, 1, 1,
    0x0004001c, 4, 1, 3,
    0x0003001e, 5, 4,
    0x00040020, 6, 9, 5,
    0x0004003b, 6, 7, 9]

/-- A module with a block of push constants that is an array of three numbers, which are sixteen bytes apart. -/
def gridWords : List UInt32 :=
  [0x07230203, 0x00010000, 0, 9, 0,
    0x00040047, 4, 6, 16,
    0x00050048, 5, 0, 35, 0,
    0x00030016, 1, 32,
    0x00040015, 2, 32, 0,
    0x0004002b, 2, 3, 3,
    0x0004001c, 4, 1, 3,
    0x0003001e, 5, 4,
    0x00040020, 6, 9, 5,
    0x0004003b, 6, 7, 9]

/-- Parses the array of numbers as the vertex stage of a shader. -/
def gridCall : ShaderCall :=
  .parse (StageReflection.lightContext 2) ⟨0, .of .vertex⟩ gridWords

/-- What reflection makes of a binary in which elements fit, with the module that it reads. -/
private def blockOf (binary : List UInt32) : Option (Module × StageReflection) := do
  let m ← (Module.ofWords binary).toOption
  let r ← (StageReflection.ofBinary (StageReflection.lightContext 2) (.of .vertex) binary).toOption
  if elementsFit m then some (m, r) else none

private theorem blockOf_eq_some {binary : List UInt32} {m : Module} {r : StageReflection}
    (shown : blockOf binary = some (m, r)) :
    Module.ofWords binary = .ok m ∧
      StageReflection.ofBinary (StageReflection.lightContext 2) (.of .vertex) binary = .ok r ∧
        ∀ root, m.IsRoomy root := by
  obtain ⟨m', read, shown⟩ := Option.bind_eq_some_iff.mp shown
  obtain ⟨r', accepted, shown⟩ := Option.bind_eq_some_iff.mp shown
  split at shown
  · rename_i fit
    obtain ⟨rfl, rfl⟩ := Prod.mk.inj (Option.some.inj shown)
    exact ⟨toOption_eq_some.mp read, toOption_eq_some.mp accepted, isRoomy_of_elementsFit fit⟩
  · cases shown

private theorem reaches_element {m : Module} {block array number length : Id} {stride count index : Nat}
    (struct : m.shape block = .struct [array]) (offset : m.memberDecorationWord? block 0 .offset = some 0)
    (plain : m.matrixStride? block 0 = none) (elements : m.shape array = .array number length)
    (strided : m.decorationWord? array .arrayStride = some stride) (counted : m.constantNumber? length = some count)
    (bound : index < count) : m.Reaches ⟨block, 0, none⟩ ⟨number, index * stride, none⟩ := by
  have member : m.MemberOf ⟨block, 0, none⟩ ⟨array, 0, none⟩ := by
    have first := Module.MemberOf.intro (p := ⟨block, 0, none⟩) struct (show [array][0]? = some array from rfl) offset
    rwa [plain] at first
  have element : m.ElementOf stride ⟨array, 0, none⟩ ⟨number, 0 + index * stride, none⟩ :=
    .intro elements strided counted bound
  rw [Nat.zero_add] at element
  exact (Relation.ReflTransGen.single (.member member)).tail (.element element)

private theorem blockOf_turnWords :
    (blockOf turnWords).map (fun (m, r) => (m.globalVariables, r.pushConstant.map (·.size),
      [1, 2, 3, 4].map m.shape, [m.memberDecorationWord? 4 0 .offset, m.matrixStride? 4 0])) =
      some ([⟨6, .pushConstant, 4⟩], some 36,
        [.scalar 4, .vector 1 3, .matrix 2 3, .struct [3]], [some 0, some 16]) := by
  decide +kernel

private theorem blockOf_crowdWords :
    (blockOf crowdWords).map (fun (m, r) => (m.globalVariables, r.pushConstant.map (·.size),
      [1, 4, 5].map m.shape,
      [m.memberDecorationWord? 5 0 .offset, m.matrixStride? 5 0, m.decorationWord? 4 .arrayStride,
        m.constantNumber? 3])) =
      some ([⟨7, .pushConstant, 5⟩], some 0,
        [.scalar 4, .array 1 3, .struct [4]], [some 0, none, some 4, some (2 ^ 32 + 1)]) := by
  decide +kernel

private theorem blockOf_gridWords :
    (blockOf gridWords).map (fun (m, r) => (m.globalVariables, r.pushConstant.map (·.size),
      [1, 4, 5].map m.shape,
      [m.memberDecorationWord? 5 0 .offset, m.matrixStride? 5 0, m.decorationWord? 4 .arrayStride,
        m.constantNumber? 3])) =
      some ([⟨7, .pushConstant, 5⟩], some 48,
        [.scalar 4, .array 1 3, .struct [4]], [some 0, none, some 16, some 3]) := by
  decide +kernel

/-- Whether a binary is accepted with roomy arrays in its block, and the block is given a size that a scalar of four
bytes in it ends beyond. -/
def RangeMisses (binary : List UInt32) (leaf : Part) (size : Nat) : Prop :=
  ∃ (m : Module) (r : StageReflection) (v : Variable) (members : List Id) (b : PushBlock),
    Module.ofWords binary = .ok m ∧
      StageReflection.ofBinary (StageReflection.lightContext 2) (.of .vertex) binary = .ok r ∧
      v ∈ m.globalVariables ∧ v.storage = .pushConstant ∧ m.shape v.target = .struct members ∧
      m.IsRoomy ⟨v.target, 0, none⟩ ∧ r.pushConstant = some b ∧ b.size = size ∧
      m.Reaches ⟨v.target, 0, none⟩ leaf ∧ m.scalarBytes? leaf.type = some 4 ∧ size < leaf.start + 4

private theorem rangeMisses_turnWords : RangeMisses turnWords ⟨1, 40, none⟩ 36 := by
  obtain ⟨⟨m, r⟩, known, shown⟩ := Option.map_eq_some_iff.mp blockOf_turnWords
  obtain ⟨read, accepted, roomy⟩ := blockOf_eq_some known
  simp only [List.map_cons, List.map_nil, Prod.mk.injEq, List.cons.injEq, and_true] at shown
  obtain ⟨declared, size, ⟨scalar, vector, matrix, struct⟩, offset, stride⟩ := shown
  obtain ⟨b, found, size⟩ := Option.map_eq_some_iff.mp size
  have width : m.scalarBytes? 1 = some 4 := by
    rw [Module.scalarBytes?, scalar]
  have column : m.vectorBytes? 2 = some 12 := by
    simp [Module.vectorBytes?, vector, width]
  have toMatrix : m.Holds ⟨4, 0, none⟩ ⟨3, 0, some 16⟩ := by
    have member := Module.MemberOf.intro (p := ⟨4, 0, none⟩) struct (show [3][0]? = some 3 from rfl) offset
    rw [stride] at member
    exact .member member
  have toColumn := Module.Holds.column (p := ⟨3, 0, some 16⟩) matrix column (show 2 < 3 by decide)
  have toScalar := Module.Holds.component (p := ⟨2, 32, none⟩) vector width (show 2 < 3 by decide)
  refine ⟨m, r, ⟨6, .pushConstant, 4⟩, [3], b, read, accepted, ?_, rfl, struct, roomy _, found, size,
    ((Relation.ReflTransGen.single toMatrix).tail toColumn).tail toScalar, width, by decide⟩
  rw [declared]
  exact List.mem_singleton_self _

private theorem rangeMisses_crowdWords : RangeMisses crowdWords ⟨1, 0, none⟩ 0 := by
  obtain ⟨⟨m, r⟩, known, shown⟩ := Option.map_eq_some_iff.mp blockOf_crowdWords
  obtain ⟨read, accepted, roomy⟩ := blockOf_eq_some known
  simp only [List.map_cons, List.map_nil, Prod.mk.injEq, List.cons.injEq, and_true] at shown
  obtain ⟨declared, size, ⟨scalar, array, struct⟩, offset, plain, stride, count⟩ := shown
  obtain ⟨b, found, size⟩ := Option.map_eq_some_iff.mp size
  have path := reaches_element struct offset plain array stride count (show 0 < 2 ^ 32 + 1 by decide)
  rw [Nat.zero_mul] at path
  have width : m.scalarBytes? 1 = some 4 := by
    rw [Module.scalarBytes?, scalar]
  refine ⟨m, r, ⟨7, .pushConstant, 5⟩, [4], b, read, accepted, ?_, rfl, struct, roomy _, found, size, path, width,
    by decide⟩
  rw [declared]
  exact List.mem_singleton_self _

/-- The last component of a matrix ends at byte 44, after the 36 bytes that its block is given; an element of an array
that is too long to be counted ends at byte 4, after the 0 bytes of its block. -/
theorem push_range_misses_scalars :
    RangeMisses turnWords ⟨1, 40, none⟩ 36 ∧ RangeMisses crowdWords ⟨1, 0, none⟩ 0 :=
  ⟨rangeMisses_turnWords, rangeMisses_crowdWords⟩

private theorem gridCall_folds : (gridCall.on (new "grid" [.of .vertex])).toOption.isSome = true := by
  decide +kernel

theorem scalars_in_push_range_of_gridWords :
    ∃ (m : Module) (r : StageReflection) (b : PushBlock),
      Module.ofWords gridWords = .ok m ∧ r.pushConstant = some b ∧ b.size = 48 ∧
        (∀ index < 3, m.Reaches ⟨5, 0, none⟩ ⟨1, index * 16, none⟩ ∧
          (index * 16 + 4 ≤ b.size ∨
            ∃ part, m.IsMemberWithin ⟨5, 0, none⟩ part ∧
              m.Reaches part ⟨1, index * 16, none⟩ ∧ m.Understates part)) ∧
        ∃ range ∈ ((new "grid" [.of .vertex]).runInPlace [gridCall]).2.pushRanges,
          range.stages = .of .vertex ∧ range.size = b.size := by
  obtain ⟨⟨m, r⟩, known, shown⟩ := Option.map_eq_some_iff.mp blockOf_gridWords
  obtain ⟨read, accepted, roomy⟩ := blockOf_eq_some known
  simp only [List.map_cons, List.map_nil, Prod.mk.injEq, List.cons.injEq, and_true] at shown
  obtain ⟨declared, size, ⟨scalar, array, struct⟩, offset, plain, stride, count⟩ := shown
  have listed : ⟨7, .pushConstant, 5⟩ ∈ m.globalVariables := by
    rw [declared]
    exact List.mem_singleton_self _
  obtain ⟨b, found, inside, ranges⟩ := scalars_in_push_range _ _ _ r accepted m read _ listed rfl [4] struct (roomy _)
  refine ⟨m, r, b, read, found, ?_, fun index bound => ?_, ranges _ _ _ ⟨0, .of .vertex⟩ rfl ?_⟩
  · rw [found] at size
    exact Option.some.inj size
  · have path := reaches_element struct offset plain array stride count bound
    have width : m.scalarBytes? 1 = some 4 := by
      rw [Module.scalarBytes?, scalar]
    exact ⟨path, inside _ 4 path width⟩
  · obtain ⟨s, done⟩ := Option.isSome_iff_exists.mp gridCall_folds
    rw [← gridCall, acceptedInPlace_cons_of_ok (toOption_eq_some.mp done)]
    exact List.mem_cons_self

end Samples

end Shader

end ShaderPipeline
