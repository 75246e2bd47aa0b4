import ShaderPipeline.Proofs.Reflection.Slots
import ShaderPipeline.Proofs.Text.Words
import ShaderPipeline.Source.Declaration

/-!
The access that decorations tell, and the access that qualifiers tell.

A compiler writes the memory qualifiers of a declaration into the module as decorations of the variable or of all members
of its block.  A module that has lost them is read by the qualifiers of the catalog instead.  Either way reading and
writing are taken away each by a fact of its own, and both ways take them away by the same rule.  Main statement: if the
decorations of a variable are those that its qualifiers ask for, its usage is the same without them.
-/

set_option autoImplicit false
set_option relaxedAutoImplicit false

namespace ShaderPipeline

open Outcome Spirv

/-- The kinds of resources that stages may read and write. -/
def DescriptorKind.storage : List DescriptorKind :=
  [storageBuffer, storageImage, storageTexelBuffer]

/-- The access that is left when writing or reading is taken away. -/
def Access.leaving : Bool → Bool → Access
  | false, false => .readWrite
  | true, false => .read
  | false, true => .write
  | true, true => .none

def Usage.withoutAccess (u : Usage) : Usage :=
  { u with access := .none }

namespace Spirv

def Decoration.tellsAccess : Decoration → Bool
  | nonWritable | nonReadable => true
  | _ => false

namespace Module

def isAccessCode (code : Nat) : Bool :=
  code == Decoration.nonWritable.code || code == Decoration.nonReadable.code

/-- Whether an annotation takes reading or writing away from a variable, or from a member of a type. -/
def restrictsAccess (id type : Id) (i : Instruction) : Bool :=
  match i.op, i.operands with
  | .decorate, .id target :: .symbol .decoration code :: _ => target == id && isAccessCode code
  | .memberDecorate, .id target :: .literal _ :: .symbol .decoration code :: _ => target == type && isAccessCode code
  | _, _ => false

/-- A module without the annotations that take reading or writing away from a variable of a type. -/
def withoutAccess (m : Module) (id type : Id) : Module :=
  { m with filed := m.filed.filter fun p => !(p.1 == .annotations && restrictsAccess id type p.2) }

/-- A module without the annotations that take reading or writing away from a variable. -/
def withoutAccessTo (m : Module) (v : Variable) : Module :=
  m.withoutAccess v.id (m.stripArrays v.target).1

/-- Whether a variable of a type has a decoration: itself, or in all members of its block, of which there are some. -/
def Bears (m : Module) (id type : Id) (d : Decoration) : Prop :=
  m.isDecorated id d ∨
    ∃ members, m.members? type = some members ∧ members ≠ [] ∧ ∀ k < members.length, m.isMemberDecorated type k d

/-- Whether the decorations of a variable are those that memory qualifiers ask for. -/
structure DecoratedFor (m : Module) (v : Variable) (qualifiers : String) : Prop where
  nonWritable : m.Bears v.id (m.stripArrays v.target).1 .nonWritable ↔ Text.HasWord "readonly" qualifiers
  nonReadable : m.Bears v.id (m.stripArrays v.target).1 .nonReadable ↔ Text.HasWord "writeonly" qualifiers

/-- Whether modules are alike but for the decorations that tell access. -/
structure AlikeButAccess (m m' : Module) : Prop where
  sections : ∀ s, s ≠ .annotations → m'.ofSection s = m.ofSection s
  decorations : ∀ id d, d.tellsAccess = false → m'.decoration? id d = m.decoration? id d

section WithoutAccess

variable {m m' : Module} {id type : Id} {s : Section} {d : Decoration}

private theorem ofSection_withoutAccess (other : s ≠ .annotations) :
    (m.withoutAccess id type).ofSection s = m.ofSection s := by
  rw [ofSection, withoutAccess, List.filter_filter, ofSection]
  congr 1
  refine List.filter_congr fun p _ => ?_
  by_cases same : p.1 = s
  · simp [same, other]
  · simp [same]

private theorem annotations_withoutAccess :
    (m.withoutAccess id type).ofSection .annotations =
      (m.ofSection .annotations).filter fun i => !restrictsAccess id type i := by
  rw [ofSection, withoutAccess, List.filter_filter, ofSection, List.filter_map, List.filter_filter]
  congr 1
  refine List.filter_congr fun p _ => ?_
  cases p.1 == Section.annotations <;> simp

private theorem findSome?_filter_of_none {α β : Type} {p : α → Bool} {f : α → Option β} {l : List α}
    (none' : ∀ a, p a = false → f a = none) : (l.filter p).findSome? f = l.findSome? f := by
  induction l with
  | nil => rfl
  | cons a l ih =>
    by_cases kept : p a = true
    · rw [List.filter_cons_of_pos kept, List.findSome?_cons, List.findSome?_cons, ih]
    · have gone : p a = false := Bool.eq_false_iff.mpr kept
      rw [List.filter_cons_of_neg kept, List.findSome?_cons, none' a gone, ih]

private theorem isAccessCode_code (d : Decoration) : isAccessCode d.code = d.tellsAccess := by
  cases d <;> rfl

private theorem givenDecoration?_of_kept {i : Instruction} (kept : restrictsAccess id type i = false)
    (tells : d.tellsAccess = true) : givenDecoration? id d i = none := by
  unfold givenDecoration?
  split
  · rename_i target code operands op shape
    refine if_neg ?_
    rintro ⟨rfl, rfl⟩
    simp [restrictsAccess, op, shape, isAccessCode_code, tells] at kept
  · rfl

private theorem givenMemberDecoration?_of_kept {i : Instruction} {member : Nat} (kept : restrictsAccess id type i = false)
    (tells : d.tellsAccess = true) : givenMemberDecoration? type member d i = none := by
  unfold givenMemberDecoration?
  split
  · rename_i target index code operands op shape
    refine if_neg ?_
    rintro ⟨rfl, _, rfl⟩
    simp [restrictsAccess, op, shape, isAccessCode_code, tells] at kept
  · rfl

private theorem givenDecoration?_of_restricts {i : Instruction} {other : Id} (restricts : restrictsAccess id type i = true)
    (silent : d.tellsAccess = false) : givenDecoration? other d i = none := by
  unfold givenDecoration?
  split
  · rename_i target code operands op shape
    refine if_neg ?_
    rintro ⟨_, rfl⟩
    simp [restrictsAccess, op, shape, isAccessCode_code, silent] at restricts
  · rfl

private theorem alike_withoutAccess (m : Module) (id type : Id) : m.AlikeButAccess (m.withoutAccess id type) := by
  refine ⟨fun s => ofSection_withoutAccess, fun other d silent => ?_⟩
  rw [decoration?, annotations_withoutAccess, decoration?]
  refine findSome?_filter_of_none fun i gone => ?_
  have restricts : restrictsAccess id type i = true := by simpa using gone
  exact givenDecoration?_of_restricts restricts silent

private theorem isDecorated_withoutAccess (tells : d.tellsAccess = true) :
    (m.withoutAccess id type).isDecorated id d = false := by
  have absent : (m.withoutAccess id type).decoration? id d = none := by
    rw [decoration?, annotations_withoutAccess, List.findSome?_eq_none_iff]
    intro i hi
    exact givenDecoration?_of_kept (by simpa using (List.mem_filter.mp hi).2) tells
  rw [isDecorated, absent]
  rfl

private theorem isMemberDecorated_withoutAccess {member : Nat} (tells : d.tellsAccess = true) :
    (m.withoutAccess id type).isMemberDecorated type member d = false := by
  have absent : (m.withoutAccess id type).memberDecoration? type member d = none := by
    rw [memberDecoration?, annotations_withoutAccess, List.findSome?_eq_none_iff]
    intro i hi
    exact givenMemberDecoration?_of_kept (by simpa using (List.mem_filter.mp hi).2) tells
  rw [isMemberDecorated, absent]
  rfl

private theorem allMembersDecorated_eq_false {m : Module} (none' : ∀ member, m.isMemberDecorated type member d = false) :
    m.allMembersDecorated type d = false := by
  rw [allMembersDecorated]
  cases m.members? type with
  | none => rfl
  | some members =>
    cases members with
    | nil => rfl
    | cons first rest =>
      have first' : 0 ∈ List.range (first :: rest).length := List.mem_range.mpr (Nat.succ_pos _)
      have unmarked : (List.range (first :: rest).length).all (m.isMemberDecorated type · d) = false :=
        List.all_eq_false.mpr ⟨0, first', by rw [none' 0]; exact Bool.false_ne_true⟩
      exact (congrArg _ unmarked).trans (Bool.and_false _)

private theorem decoratedAccess?_withoutAccess (m : Module) (id type : Id) :
    (m.withoutAccess id type).decoratedAccess? id type = none := by
  have members : ∀ d, d.tellsAccess = true → (m.withoutAccess id type).allMembersDecorated type d = false :=
    fun d tells => allMembersDecorated_eq_false fun _ => isMemberDecorated_withoutAccess tells
  have writable : Decoration.nonWritable.tellsAccess = true := rfl
  have readable : Decoration.nonReadable.tellsAccess = true := rfl
  simp only [decoratedAccess?, isDecorated_withoutAccess, members, writable, readable, Bool.or_self]

end WithoutAccess

namespace AlikeButAccess

variable {m m' : Module} {c : StageContext} {stage : StageSet} {id type : Id} {v : Variable}

theorem globals (h : m.AlikeButAccess m') : m'.globals = m.globals :=
  h.sections .globals (by decide)

private theorem definition?_eq (h : m.AlikeButAccess m') (id : Id) : m'.definition? id = m.definition? id := by
  rw [definition?, h.globals, definition?]

private theorem name?_eq (h : m.AlikeButAccess m') (id : Id) : m'.name? id = m.name? id := by
  rw [name?, h.sections .names (by decide), name?]

theorem constantWord?_eq (h : m.AlikeButAccess m') (id : Id) : m'.constantWord? id = m.constantWord? id := by
  rw [constantWord?, h.definition?_eq, constantWord?]

theorem decorationWord?_eq (h : m.AlikeButAccess m') {d : Decoration} (silent : d.tellsAccess = false) (id : Id) :
    m'.decorationWord? id d = m.decorationWord? id d := by
  rw [decorationWord?, h.decorations id d silent, decorationWord?]

theorem stripArraysWithin_eq (h : m.AlikeButAccess m') (depth count : Nat) (id : Id) :
    m'.stripArraysWithin depth count id = m.stripArraysWithin depth count id := by
  induction depth generalizing count id with
  | zero => rfl
  | succ depth ih => simp only [stripArraysWithin, h.definition?_eq, h.constantWord?_eq, ih]

theorem stripArrays_eq (h : m.AlikeButAccess m') (id : Id) : m'.stripArrays id = m.stripArrays id := by
  rw [stripArrays, h.stripArraysWithin_eq, typeDepth, h.globals, stripArrays, typeDepth]

theorem descriptorKind_eq (h : m.AlikeButAccess m') (storage : StorageClass) (type : Id) :
    m'.descriptorKind storage type = m.descriptorKind storage type := by
  have marked : m'.isDecorated type .bufferBlock = m.isDecorated type .bufferBlock := by
    rw [isDecorated, h.decorations type .bufferBlock rfl, isDecorated]
  rw [descriptorKind, h.definition?_eq, marked, descriptorKind]

private theorem descriptorName_eq (h : m.AlikeButAccess m') (v : Variable) : m'.descriptorName v = m.descriptorName v := by
  simp only [descriptorName, variableName, h.stripArrays_eq, h.name?_eq]

private theorem globalVariables_eq (h : m.AlikeButAccess m') : m'.globalVariables = m.globalVariables := by
  have own : m'.variableOf? = m.variableOf? := by
    funext i
    simp only [variableOf?, pointer?, h.definition?_eq]
  rw [globalVariables, own, h.globals, globalVariables]

private theorem usageAt_eq (h : m.AlikeButAccess m') (v : Variable) (kind : DescriptorKind) (set binding : Nat)
    (resource : Option Resource) :
    m'.usageAt c stage v kind set binding resource =
      { m.usageAt c stage v kind set binding resource with
        access := m'.access c v.id (m.stripArrays v.target).1 kind resource } := by
  simp only [usageAt, h.descriptorName_eq, h.stripArrays_eq]

private theorem usagesFrom_ok (h : m.AlikeButAccess m') {earlier earlier' found : List Usage} {vs : List Variable}
    (same : earlier'.map Usage.withoutAccess = earlier.map Usage.withoutAccess)
    (done : m.usagesFrom c stage earlier vs = .ok found) :
    ∃ found', m'.usagesFrom c stage earlier' vs = .ok found' ∧
      found'.map Usage.withoutAccess = found.map Usage.withoutAccess := by
  induction vs generalizing earlier earlier' with
  | nil =>
    obtain rfl := Except.ok.inj done
    exact ⟨earlier', rfl, same⟩
  | cons v rest ih =>
    obtain ⟨usage, first, later⟩ := bind_eq_ok.mp done
    by_cases descriptor : v.IsDescriptor
    · obtain ⟨kind, set, binding, resource, kinds, sets, bindings, free, checked, rfl⟩ :=
        (usage?_eq_ok descriptor).mp first
      have free' : ∀ u ∈ earlier', u.slot ≠ (set, binding) := by
        intro u hu taken
        have listed : u.withoutAccess ∈ earlier.map Usage.withoutAccess := same ▸ List.mem_map_of_mem hu
        obtain ⟨w, hw, alike⟩ := List.mem_map.mp listed
        have slot : w.withoutAccess.slot = u.withoutAccess.slot := congrArg Usage.slot alike
        exact free w hw (Eq.trans slot taken)
      have own : m'.usage? c stage earlier' v = .ok (some (m'.usageAt c stage v kind set binding resource)) := by
        refine (usage?_eq_ok descriptor).mpr ⟨kind, set, binding, resource, ?_, ?_, ?_, free', ?_, rfl⟩
        · rw [h.descriptorKind_eq, h.stripArrays_eq, kinds]
        · rw [h.decorationWord?_eq rfl, sets]
        · rw [h.decorationWord?_eq rfl, bindings]
        · rw [h.descriptorName_eq, checked]
      have kept : (earlier' ++ [m'.usageAt c stage v kind set binding resource]).map Usage.withoutAccess =
          (earlier ++ [m.usageAt c stage v kind set binding resource]).map Usage.withoutAccess := by
        rw [List.map_append, List.map_append, same, h.usageAt_eq]
        rfl
      obtain ⟨found', done', alike⟩ := ih kept later
      exact ⟨found', bind_eq_ok.mpr ⟨_, own, done'⟩, alike⟩
    · rw [usage?_of_not_descriptor descriptor] at first
      obtain rfl := Except.ok.inj first
      have kept : (earlier' ++ []).map Usage.withoutAccess = (earlier ++ []).map Usage.withoutAccess := by
        rw [List.append_nil, List.append_nil, same]
      obtain ⟨found', done', alike⟩ := ih kept later
      exact ⟨found', bind_eq_ok.mpr ⟨none, usage?_of_not_descriptor descriptor earlier', done'⟩, alike⟩

private theorem usages_ok (h : m.AlikeButAccess m') {us : List Usage} (accepted : m.usages c stage = .ok us) :
    ∃ us', m'.usages c stage = .ok us' ∧ (us'.map Usage.withoutAccess).Perm (us.map Usage.withoutAccess) := by
  have sort_perm (l : List Usage) : ((Usage.sort l).map Usage.withoutAccess).Perm (l.map Usage.withoutAccess) :=
    (List.mergeSort_perm l _).map _
  obtain ⟨found, done, rfl⟩ := map_eq_ok.mp accepted
  have start : ([] : List Usage).map Usage.withoutAccess = ([] : List Usage).map Usage.withoutAccess := rfl
  obtain ⟨found', done', kept⟩ := h.usagesFrom_ok start done
  refine ⟨Usage.sort found', ?_, ?_⟩
  · rw [usages, h.globalVariables_eq, done']
    rfl
  · exact (sort_perm found').trans ((List.Perm.of_eq kept).trans (sort_perm found).symm)

end AlikeButAccess

section Access

variable {m : Module} {c : StageContext} {id type : Id} {kind : DescriptorKind} {resource : Option Resource}
  {d : Decoration}

private theorem bears_iff : m.Bears id type d ↔ (m.isDecorated id d || m.allMembersDecorated type d) = true := by
  rw [Bears, Bool.or_eq_true, allMembersDecorated]
  refine or_congr_right ?_
  cases m.members? type with
  | none => simp
  | some members => simp [List.isEmpty_eq_false_iff]

private theorem decoratedAccess?_getD : (m.decoratedAccess? id type).getD .readWrite =
    .leaving (m.isDecorated id .nonWritable || m.allMembersDecorated type .nonWritable)
      (m.isDecorated id .nonReadable || m.allMembersDecorated type .nonReadable) := by
  rw [decoratedAccess?]
  generalize (m.isDecorated id .nonWritable || m.allMembersDecorated type .nonWritable) = nonWritable
  generalize (m.isDecorated id .nonReadable || m.allMembersDecorated type .nonReadable) = nonReadable
  cases nonWritable <;> cases nonReadable <;> rfl

private theorem access_of_fallback {fallback : Access}
    (known : ((resource.bind fun r => c.catalog.resource? r.key).bind fun r =>
      Access.ofQualifiers? (r.qualifiersFor c.shader)).getD .readWrite = fallback)
    (agree : ∀ access, m.decoratedAccess? id type = some access → access = fallback) :
    m.access c id type kind resource = if kind.isReadOnly then .read else fallback := by
  rw [access]
  refine if_congr Iff.rfl rfl ?_
  cases told : m.decoratedAccess? id type with
  | none => exact known
  | some access => exact agree access told

end Access

end Module

end Spirv

namespace Access

private theorem ofQualifiers?_getD (qualifiers : String) : (ofQualifiers? qualifiers).getD .readWrite =
    .leaving ((Text.words qualifiers).contains "readonly") ((Text.words qualifiers).contains "writeonly") := by
  rw [ofQualifiers?]
  generalize (Text.words qualifiers).contains "readonly" = readonly
  generalize (Text.words qualifiers).contains "writeonly" = writeonly
  cases readonly <;> cases writeonly <;> rfl

private theorem includes_leaving (a b : Bool) :
    (leaving a b).includes .write = !a ∧ (leaving a b).includes .read = !b := by
  cases a <;> cases b <;> decide

end Access

namespace Text

def Surrounds (part text : String) : Prop :=
  ∃ head tail, text = head ++ part ++ tail

variable {part text : String}

theorem Surrounds.last (head part : String) : Surrounds part (head ++ part) :=
  ⟨head, "", by rw [String.append_empty]⟩

theorem Surrounds.before (h : Surrounds part text) (more : String) : Surrounds part (text ++ more) := by
  obtain ⟨head, tail, rfl⟩ := h
  exact ⟨head, tail ++ more, String.append_assoc ..⟩

theorem Surrounds.after (more : String) (h : Surrounds part text) : Surrounds part (more ++ text) := by
  obtain ⟨head, tail, rfl⟩ := h
  exact ⟨more ++ head, tail, by simp only [String.append_assoc]⟩

end Text

section Qualifiers

open Text (HasWord words)

variable {r : Resource} {shader word qualifiers : String}

private theorem contains_words (some' : word.toList ≠ []) (solid : word.toList.all (!Text.isBlank ·) = true) :
    (words qualifiers).contains word = true ↔ HasWord word qualifiers := by
  have unbroken : ∀ c ∈ word.toList, ¬ Text.isBlank c := fun c hc => by
    simpa using List.all_eq_true.mp solid c hc
  rw [List.contains_iff_mem, Text.mem_words some' unbroken]

private theorem contains_readonly : (words qualifiers).contains "readonly" = true ↔ HasWord "readonly" qualifiers :=
  contains_words (by decide) (by decide)

private theorem contains_writeonly : (words qualifiers).contains "writeonly" = true ↔ HasWord "writeonly" qualifiers :=
  contains_words (by decide) (by decide)

namespace Resource

private theorem mem_words_qualifiersFor : word ∈ words (r.qualifiersFor shader) ↔
    word ∈ words r.qualifiers ∨ ∃ own ∈ r.shaderQualifiers.find? (·.1 == shader), word ∈ words own.2 := by
  rw [qualifiersFor]
  cases r.shaderQualifiers.find? (·.1 == shader) with
  | none => simp
  | some own =>
    obtain ⟨_, extra⟩ := own
    by_cases none' : (r.qualifiers == "") = true
    · have silent : words r.qualifiers = [] := by
        rw [eq_of_beq none']
        rfl
      simp [none', silent]
    · simp [none', Text.words_append]

private theorem words_qualifierText (qualifiers : String) : words (qualifierText qualifiers) = words qualifiers := by
  rw [qualifierText]
  split
  · rename_i blank
    rw [Text.words_of_isBlankText blank]
    rfl
  · have spaced := Text.words_append (Text.trim qualifiers) ""
    rw [String.append_empty] at spaced
    rw [spaced, Text.words_trim]
    exact List.append_nil _

private theorem declaration?_of_storage (storage : r.kind ∈ DescriptorKind.storage) (set : Nat) :
    ∃ text, r.declaration? set shader = some text ∧
      Text.Surrounds (qualifierText (r.qualifiersFor shader)) text := by
  have kinds : r.kind = .storageBuffer ∨ r.kind = .storageImage ∨ r.kind = .storageTexelBuffer := by
    simpa [DescriptorKind.storage] using storage
  rw [declaration?]
  generalize qualifierText (r.qualifiersFor shader) = qualifiers
  -- In each case what is written behind the qualifiers is taken off until they are last.
  rcases kinds with kind | kind | kind
  · rw [kind]
    by_cases unbounded : r.isUnbounded
    · refine ⟨_, if_pos unbounded, .after _ ?_⟩
      repeat first | exact .last _ _ | refine .before ?_ _
    · refine ⟨_, if_neg unbounded, ?_⟩
      repeat first | exact .last _ _ | refine .before ?_ _
  · rw [kind]
    refine ⟨_, rfl, ?_⟩
    repeat first | exact .last _ _ | refine .before ?_ _
  · rw [kind]
    refine ⟨_, rfl, ?_⟩
    repeat first | exact .last _ _ | refine .before ?_ _

end Resource

namespace Spirv.Module

variable {m : Module} {c : StageContext} {stage : StageSet} {id type : Id} {v : Variable} {u : Usage}

theorem DecoratedFor.decoratedAccess? (h : m.DecoratedFor v qualifiers) {access : Access}
    (told : m.decoratedAccess? v.id (m.stripArrays v.target).1 = some access) :
    access = (Access.ofQualifiers? qualifiers).getD .readWrite := by
  have writable := Bool.eq_iff_iff.mpr (bears_iff.symm.trans (h.nonWritable.trans contains_readonly.symm))
  have readable := Bool.eq_iff_iff.mpr (bears_iff.symm.trans (h.nonReadable.trans contains_writeonly.symm))
  calc access
      _ = (m.decoratedAccess? v.id (m.stripArrays v.target).1).getD .readWrite := by rw [told, Option.getD_some]
      _ = .leaving ((words qualifiers).contains "readonly") ((words qualifiers).contains "writeonly") := by
        rw [decoratedAccess?_getD, writable, readable]
      _ = (Access.ofQualifiers? qualifiers).getD .readWrite := (Access.ofQualifiers?_getD qualifiers).symm

private theorem alike_withoutAccessTo (m : Module) (v : Variable) : m.AlikeButAccess (m.withoutAccessTo v) :=
  alike_withoutAccess m v.id (m.stripArrays v.target).1

theorem DecoratedFor.access_eq (h : m.DecoratedFor v (r.qualifiersFor c.shader)) (kind : DescriptorKind)
    {resource : Option Resource} (named : resource.map Resource.key = some r.key)
    (declared : c.catalog.resource? r.key = some r) :
    m.access c v.id (m.stripArrays v.target).1 kind resource =
        (if kind.isReadOnly then .read else (Access.ofQualifiers? (r.qualifiersFor c.shader)).getD .readWrite) ∧
      (m.withoutAccessTo v).access c v.id (m.stripArrays v.target).1 kind resource =
        m.access c v.id (m.stripArrays v.target).1 kind resource := by
  obtain ⟨found, rfl, key⟩ := Option.map_eq_some_iff.mp named
  have known : (((some found).bind fun r => c.catalog.resource? r.key).bind fun r =>
      Access.ofQualifiers? (r.qualifiersFor c.shader)).getD .readWrite =
        (Access.ofQualifiers? (r.qualifiersFor c.shader)).getD .readWrite := by
    rw [Option.bind_some, key, declared, Option.bind_some]
  have told : m.access c v.id (m.stripArrays v.target).1 kind (some found) =
      if kind.isReadOnly then .read else (Access.ofQualifiers? (r.qualifiersFor c.shader)).getD .readWrite :=
    access_of_fallback known fun _ => h.decoratedAccess?
  have silent : ∀ access, (m.withoutAccessTo v).decoratedAccess? v.id (m.stripArrays v.target).1 = some access →
      access = (Access.ofQualifiers? (r.qualifiersFor c.shader)).getD .readWrite := by
    intro access some'
    rw [withoutAccessTo, decoratedAccess?_withoutAccess] at some'
    cases some'
  exact ⟨told, (access_of_fallback known silent).trans told.symm⟩

private theorem DecoratedFor.isUsageOf_withoutAccessTo (h : m.DecoratedFor v (r.qualifiersFor c.shader))
    (own : m.IsUsageOf c stage v u) (named : u.resource = some r.key) (declared : c.catalog.resource? r.key = some r) :
    (m.withoutAccessTo v).IsUsageOf c stage v u := by
  have alike := alike_withoutAccessTo m v
  obtain ⟨descriptor, kind, set, binding, resource, kinds, sets, bindings, checked, rfl⟩ := own
  refine ⟨descriptor, kind, set, binding, resource, ?_, ?_, ?_, ?_, ?_⟩
  · rw [alike.descriptorKind_eq, alike.stripArrays_eq, kinds]
  · rw [alike.decorationWord?_eq rfl, sets]
  · rw [alike.decorationWord?_eq rfl, bindings]
  · rw [alike.descriptorName_eq, checked]
  · rw [alike.usageAt_eq, (h.access_eq kind named declared).2]
    rfl

private theorem DecoratedFor.access_of_storage (h : m.DecoratedFor v (r.qualifiersFor c.shader))
    (own : m.IsUsageOf c stage v u) (named : u.resource = some r.key) (declared : c.catalog.resource? r.key = some r)
    (storage : u.kind ∈ DescriptorKind.storage) :
    u.access = (Access.ofQualifiers? (r.qualifiersFor c.shader)).getD .readWrite := by
  have free : ∀ kind ∈ DescriptorKind.storage, kind.isReadOnly = false := by decide
  obtain ⟨_, kind, set, binding, resource, _, _, _, _, rfl⟩ := own
  have whole := (h.access_eq kind named declared).1
  rwa [free kind storage, if_neg Bool.false_ne_true] at whole

/-- If the decorations of a variable are those that the qualifiers of its resource ask for, then its usage is the same
without them, and its access is what the qualifiers say. -/
theorem usage_same_without_decorations {us : List Usage} (storage : r.kind ∈ DescriptorKind.storage)
    (declared : c.catalog.resource? r.key = some r) (accepted : m.usages c stage = .ok us)
    (global : v ∈ m.globalVariables) (own : m.IsUsageOf c stage v u) (named : u.resource = some r.key)
    (decorated : m.DecoratedFor v (r.qualifiersFor c.shader)) :
    (∃ us', (m.withoutAccessTo v).usages c stage = .ok us' ∧ u ∈ us ∧ u ∈ us' ∧
        (us'.map Usage.withoutAccess).Perm (us.map Usage.withoutAccess)) ∧
      (∀ w, (m.withoutAccessTo v).IsUsageOf c stage v w ↔ w = u) ∧
      (u.kind ∈ DescriptorKind.storage →
        u.access = (Access.ofQualifiers? (r.qualifiersFor c.shader)).getD .readWrite ∧
          (u.access.includes .write ↔ ¬ HasWord "readonly" (r.qualifiersFor c.shader)) ∧
            (u.access.includes .read ↔ ¬ HasWord "writeonly" (r.qualifiersFor c.shader))) ∧
      (∀ set, ∃ text, r.declaration? set c.shader = some text ∧
        Text.Surrounds (Resource.qualifierText (r.qualifiersFor c.shader)) text) ∧
      ∀ word, word ∈ words (Resource.qualifierText (r.qualifiersFor c.shader)) ↔
        word ∈ words r.qualifiers ∨ ∃ extra ∈ r.shaderQualifiers.find? (·.1 == c.shader), word ∈ words extra.2 := by
  have alike := alike_withoutAccessTo m v
  have same := decorated.isUsageOf_withoutAccessTo own named declared
  refine ⟨?_, fun w => ⟨fun other => other.unique same, fun equal => equal ▸ same⟩, fun kinds => ?_,
    fun set => Resource.declaration?_of_storage storage set, fun word => ?_⟩
  · obtain ⟨us', accepted', kept⟩ := alike.usages_ok accepted
    have global' : v ∈ (m.withoutAccessTo v).globalVariables := alike.globalVariables_eq ▸ global
    exact ⟨us', accepted', (mem_usages accepted).mpr ⟨v, global, own⟩,
      (mem_usages accepted').mpr ⟨v, global', same⟩, kept⟩
  · have told := decorated.access_of_storage own named declared kinds
    refine ⟨told, ?_, ?_⟩
    · rw [told, Access.ofQualifiers?_getD, (Access.includes_leaving _ _).1, ← contains_readonly]
      simp
    · rw [told, Access.ofQualifiers?_getD, (Access.includes_leaving _ _).2, ← contains_writeonly]
      simp
  · rw [Resource.words_qualifierText, Resource.mem_words_qualifiersFor]

/-- A module with a block `particles` at binding 1 of set 0, of which the only member is not to be written. -/
def particleWords : List UInt32 :=
  [0x07230203, 0x00010000, 0, 6, 0,
    0x00050005, 5, 0x74726170, 0x656c6369, 0x00000073,
    0x00040047, 5, 34, 0,
    0x00040047, 5, 33, 1,
    0x00040048, 2, 0, 24,
    0x00040015, 1, 32, 0,
    0x0003001e, 2, 1,
    0x00040020, 3, 12, 2,
    0x0004003b, 3, 5, 12]

/-- Coherent particles, which the shader `lit` only reads. -/
def particles : Resource :=
  ⟨"particles", .storageBuffer, 1, "Lighting", .unknown, .plane, false, 0, "coherent", [("lit", "readonly")],
    "uint count;", 0, []⟩

def particleContext : StageContext :=
  ⟨⟨[], [⟨"Lighting", [particles], []⟩]⟩, "lit", ["Lighting"]⟩

private def particleUsage : Usage :=
  ⟨.of .compute, "particles", some ⟨"Lighting", "particles"⟩, .read, .storageBuffer, 1, 0, 1⟩

private theorem particleWords_parts :
    (ofWords particleWords).toOption.map (fun m =>
      (m.globalVariables, (m.usages particleContext (.of .compute)).toOption, (m.stripArrays 2).1)) =
      some ([⟨5, .storageBuffer, 2⟩], some [particleUsage], 2) := by
  decide +kernel

private theorem particleWords_decorations :
    (ofWords particleWords).toOption.map (fun m =>
      (m.isDecorated 5 .nonWritable || m.allMembersDecorated 2 .nonWritable,
        m.isDecorated 5 .nonReadable || m.allMembersDecorated 2 .nonReadable)) = some (true, false) := by
  decide +kernel

private theorem particles_words :
    (words (particles.qualifiersFor "lit")).contains "readonly" = true ∧
      (words (particles.qualifiersFor "lit")).contains "writeonly" = false := by
  decide +kernel

theorem particles_same_without_decorations :
    ∃ m us u, ofWords particleWords = .ok m ∧ m.usages particleContext (.of .compute) = .ok us ∧ u ∈ us ∧
      u.kind = .storageBuffer ∧ u.access = .read ∧ m.DecoratedFor ⟨5, .storageBuffer, 2⟩ (particles.qualifiersFor "lit") ∧
        ∃ us', (m.withoutAccessTo ⟨5, .storageBuffer, 2⟩).usages particleContext (.of .compute) = .ok us' ∧ u ∈ us' := by
  have parts := particleWords_parts
  have decorations := particleWords_decorations
  cases read : ofWords particleWords with
  | error e => simp [read, Except.toOption] at parts
  | ok m =>
    simp only [read, Except.toOption, Option.map_some, Option.some.injEq, Prod.mk.injEq] at parts decorations
    obtain ⟨listed, reflected, core⟩ := parts
    have accepted : m.usages particleContext (.of .compute) = .ok [particleUsage] := by
      cases done : m.usages particleContext (.of .compute) with
      | error e => simp [done] at reflected
      | ok us => simpa [done] using reflected
    have decorated : m.DecoratedFor ⟨5, .storageBuffer, 2⟩ (particles.qualifiersFor "lit") := by
      constructor
      · rw [core, bears_iff, decorations.1, ← contains_readonly, particles_words.1]
      · rw [core, bears_iff, decorations.2, ← contains_writeonly, particles_words.2]
    obtain ⟨v, global, own⟩ := (mem_usages accepted).mp List.mem_cons_self
    obtain rfl : v = ⟨5, .storageBuffer, 2⟩ := by simpa [listed] using global
    obtain ⟨⟨us', accepted', _, kept, _⟩, _⟩ :=
      usage_same_without_decorations (by decide) (by decide +kernel) accepted global own rfl decorated
    exact ⟨m, _, particleUsage, rfl, accepted, List.mem_cons_self, rfl, rfl, decorated, us', accepted', kept⟩

end Spirv.Module

end Qualifiers

end ShaderPipeline
