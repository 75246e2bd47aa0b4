import Mathlib.Data.List.Pairwise
import ShaderPipeline.Proofs.Reflection.Usages

/-!
The order of usages, and modules that declare their variables in another order.

Usages are ordered by slot, and by all their other fields where slots are the same, so that sorting comes to one list
for each collection of usages.  The usage of a variable depends on what ids stand for, but not on the place of the
variable.  Main statement: the order of usages is total, and modules that differ in the order of their variables have the
same usages.
-/

set_option autoImplicit false
set_option relaxedAutoImplicit false

namespace ShaderPipeline

open Outcome Std

private theorem DescriptorKind.eq_of_code_eq {a b : DescriptorKind} (same : a.code = b.code) : a = b := by
  cases a <;> cases b <;> first | rfl | cases same

namespace Usage

instance : LawfulEqCmp order where
  eq_of_compare {a b} equal := by
    obtain ⟨equal, counts⟩ := Ordering.then_eq_eq.mp equal
    obtain ⟨equal, accesses⟩ := Ordering.then_eq_eq.mp equal
    obtain ⟨equal, stages⟩ := Ordering.then_eq_eq.mp equal
    obtain ⟨equal, resources⟩ := Ordering.then_eq_eq.mp equal
    obtain ⟨equal, names⟩ := Ordering.then_eq_eq.mp equal
    obtain ⟨slots, kinds⟩ := Ordering.then_eq_eq.mp equal
    obtain ⟨set, binding⟩ := Prod.mk.inj (LawfulEqCmp.eq_of_compare slots)
    have kind := DescriptorKind.eq_of_code_eq (LawfulEqOrd.eq_of_compare kinds)
    have name := LawfulEqOrd.eq_of_compare names
    have resource := LawfulEqOrd.eq_of_compare resources
    have stage : a.stages = b.stages := congrArg StageSet.mk (LawfulEqOrd.eq_of_compare stages)
    have access : a.access = b.access := congrArg Access.mk (LawfulEqOrd.eq_of_compare accesses)
    have count := LawfulEqOrd.eq_of_compare counts
    cases a
    cases b
    simp_all

private theorem sort_eq_of_perm {us vs : List Usage} (perm : us.Perm vs) : sort us = sort vs := by
  have same : (sort us).Perm (sort vs) := (sort_perm us).trans (perm.trans (sort_perm vs).symm)
  refine same.eq_of_pairwise ?_ (pairwise_sort us) (pairwise_sort vs)
  intro a b _ _ before after
  exact LawfulEqCmp.eq_of_compare (OrientedCmp.isLE_antisymm before after)

end Usage

namespace Spirv.Module

variable {m m' : Module} {c : StageContext} {stage : StageSet}

/-- Whether modules have the same instructions, names and annotations, and ids stand for the same types and constants,
whatever the order in which variables are declared. -/
structure Reorders (m m' : Module) : Prop where
  globals : m.globals.Perm m'.globals
  types : ∀ id i, i.op ≠ .variableOp → (m.definition? id = some i ↔ m'.definition? id = some i)
  names : m.ofSection .names = m'.ofSection .names
  annotations : m.ofSection .annotations = m'.ofSection .annotations

section Distinct

private theorem definition?_eq_some_of_once (once : (m.globals.filterMap (·.result)).Nodup) {id : Id} {i : Instruction} :
    m.definition? id = some i ↔ i ∈ m.globals ∧ i.result = some id := by
  constructor
  · exact mem_of_definition?
  · rintro ⟨hi, result⟩
    cases known : m.definition? id with
    | none =>
      have absent := List.find?_eq_none.mp known i (List.mem_reverse.mpr hi)
      simp [result] at absent
    | some j =>
      obtain ⟨hj, result'⟩ := mem_of_definition? known
      by_contra other
      have apart := List.pairwise_filterMap.mp once
      have : Std.Symm fun a b : Instruction => ∀ x, a.result = some x → ∀ y, b.result = some y → x ≠ y :=
        ⟨fun a b apart x hx y hy => (apart y hy x hx).symm⟩
      exact apart.forall hi hj (fun same => other (same ▸ rfl)) id result id result' rfl

private theorem reorders_of_perm (once : (m.globals.filterMap (·.result)).Nodup) (globals : m.globals.Perm m'.globals)
    (names : m.ofSection .names = m'.ofSection .names)
    (annotations : m.ofSection .annotations = m'.ofSection .annotations) : m.Reorders m' := by
  refine ⟨globals, fun id i _ => ?_, names, annotations⟩
  have once' := (globals.filterMap _).nodup_iff.mp once
  rw [definition?_eq_some_of_once once, definition?_eq_some_of_once once', globals.mem_iff]

end Distinct

section Accepted

variable {v : Variable} {vs : List Variable} {earlier found us : List Usage}

private theorem usage?_eq_ok_iff (descriptor : v.IsDescriptor) {usage : Option Usage} :
    m.usage? c stage earlier v = .ok usage ↔
      ∃ u, usage = some u ∧ m.IsUsageOf c stage v u ∧ ∀ w ∈ earlier, w.slot ≠ u.slot := by
  rw [usage?_eq_ok descriptor]
  constructor
  · rintro ⟨kind, set, binding, resource, kinds, sets, bindings, free, checked, rfl⟩
    exact ⟨_, rfl, ⟨descriptor, kind, set, binding, resource, kinds, sets, bindings, checked, rfl⟩, free⟩
  · rintro ⟨_, rfl, ⟨_, kind, set, binding, resource, kinds, sets, bindings, checked, rfl⟩, free⟩
    exact ⟨kind, set, binding, resource, kinds, sets, bindings, free, checked, rfl⟩

private theorem usagesFrom_eq_ok (descriptors : ∀ v ∈ vs, v.IsDescriptor)
    (apart : earlier.Pairwise fun u w => u.slot ≠ w.slot) :
    m.usagesFrom c stage earlier vs = .ok found ↔
      ∃ us, found = earlier ++ us ∧ List.Forall₂ (m.IsUsageOf c stage) vs us ∧
        found.Pairwise fun u w => u.slot ≠ w.slot := by
  induction vs generalizing earlier with
  | nil =>
    rw [usagesFrom]
    constructor
    · intro done
      obtain rfl := Except.ok.inj done
      exact ⟨[], (List.append_nil _).symm, .nil, apart⟩
    · rintro ⟨us, rfl, none, _⟩
      obtain rfl := List.forall₂_nil_left_iff.mp none
      rw [List.append_nil]
  | cons v rest ih =>
    obtain ⟨descriptor, descriptors⟩ := List.forall_mem_cons.mp descriptors
    have extended : ∀ u : Usage, (∀ w ∈ earlier, w.slot ≠ u.slot) → (earlier ++ [u]).Pairwise fun u w => u.slot ≠ w.slot := by
      intro u free
      refine List.pairwise_append.mpr ⟨apart, List.pairwise_singleton _ _, fun w hw u' hu' => ?_⟩
      rw [List.mem_singleton.mp hu']
      exact free w hw
    rw [usagesFrom, bind_eq_ok]
    constructor
    · rintro ⟨usage, first, later⟩
      obtain ⟨u, rfl, own, free⟩ := (usage?_eq_ok_iff descriptor).mp first
      obtain ⟨us, rfl, all, apart'⟩ := (ih descriptors (extended u free)).mp later
      exact ⟨u :: us, List.append_assoc _ _ _, .cons own all, apart'⟩
    · rintro ⟨us, rfl, all, apart'⟩
      obtain ⟨u, us, own, later, rfl⟩ := List.forall₂_cons_left_iff.mp all
      have free : ∀ w ∈ earlier, w.slot ≠ u.slot :=
        fun w hw => (List.pairwise_append.mp apart').2.2 w hw u List.mem_cons_self
      refine ⟨some u, (usage?_eq_ok_iff descriptor).mpr ⟨u, rfl, own, free⟩, ?_⟩
      exact (ih descriptors (extended u free)).mpr ⟨us, List.append_cons _ _ _, later, apart'⟩

private theorem usages_eq_ok : m.usages c stage = .ok us ↔
    ∃ found, List.Forall₂ (m.IsUsageOf c stage) m.descriptors found ∧
      (found.Pairwise fun u w => u.slot ≠ w.slot) ∧ us = Usage.sort found := by
  rw [usages_eq_usagesFrom_descriptors, map_eq_ok]
  have descriptors : ∀ v ∈ m.descriptors, v.IsDescriptor := fun _ => isDescriptor_of_mem_descriptors
  constructor
  · rintro ⟨found, accepted, rfl⟩
    obtain ⟨found, rfl, all, apart⟩ := (usagesFrom_eq_ok descriptors .nil).mp accepted
    exact ⟨found, all, apart, rfl⟩
  · rintro ⟨found, all, apart, rfl⟩
    exact ⟨found, (usagesFrom_eq_ok descriptors .nil).mpr ⟨found, rfl, all, apart⟩, rfl⟩

end Accepted

namespace Reorders

theorem symm (h : m.Reorders m') : m'.Reorders m where
  globals := h.globals.symm
  types id i other := (h.types id i other).symm
  names := h.names.symm
  annotations := h.annotations.symm

section Lookup

variable {α : Type} {f : Instruction → Option α}

private theorem bind_definition?_eq_some (h : m.Reorders m') (blind : ∀ i, i.op = .variableOp → f i = none) {id : Id} {a : α}
    (found : (m.definition? id).bind f = some a) : (m'.definition? id).bind f = some a := by
  obtain ⟨i, known, found⟩ := Option.bind_eq_some_iff.mp found
  have other : i.op ≠ .variableOp := by
    intro variable'
    rw [blind i variable'] at found
    cases found
  rw [(h.types id i other).mp known]
  exact found

private theorem bind_definition?_eq (h : m.Reorders m') (blind : ∀ i, i.op = .variableOp → f i = none) (id : Id) :
    (m.definition? id).bind f = (m'.definition? id).bind f :=
  Option.ext fun _ => ⟨h.bind_definition?_eq_some blind, h.symm.bind_definition?_eq_some blind⟩

theorem constantWord?_eq (h : m.Reorders m') (id : Id) : m.constantWord? id = m'.constantWord? id :=
  h.bind_definition?_eq (fun i op => by simp only [op]) id

private theorem pointer?_eq (h : m.Reorders m') (id : Id) : m.pointer? id = m'.pointer? id :=
  h.bind_definition?_eq (fun i op => by simp only [op]) id

private theorem members?_eq (h : m.Reorders m') (id : Id) : m.members? id = m'.members? id :=
  h.bind_definition?_eq (fun i op => by simp only [op]) id

private theorem arrayShape?_eq (h : m.Reorders m') (id : Id) : m.arrayShape? id = m'.arrayShape? id := by
  rw [arrayShape?, h.bind_definition?_eq (fun i op => by simp only [op]) id]
  simp only [h.constantWord?_eq]
  rfl

theorem stripArrays_eq (h : m.Reorders m') (id : Id) : m.stripArrays id = m'.stripArrays id := by
  have within : ∀ depth count id, m.stripArraysWithin depth count id = m'.stripArraysWithin depth count id := by
    intro depth
    induction depth with
    | zero => exact fun _ _ => rfl
    | succ depth ih =>
      intro count id
      rw [stripArraysWithin_succ, stripArraysWithin_succ, h.arrayShape?_eq]
      simp only [ih]
  have depth : m.typeDepth = m'.typeDepth := congrArg (· + 1) h.globals.length_eq
  rw [stripArrays, within, depth, stripArrays]

private theorem isDecorated_eq (h : m.Reorders m') (id : Id) (d : Decoration) : m.isDecorated id d = m'.isDecorated id d := by
  rw [isDecorated, decoration?, h.annotations]
  rfl

theorem decorationWord?_eq (h : m.Reorders m') (id : Id) (d : Decoration) :
    m.decorationWord? id d = m'.decorationWord? id d := by
  rw [decorationWord?, decoration?, h.annotations]
  rfl

private theorem variableName_eq (h : m.Reorders m') (id type : Id) : m.variableName id type = m'.variableName id type := by
  rw [variableName, name?, name?, h.names]
  rfl

private theorem allMembersDecorated_eq (h : m.Reorders m') (type : Id) (d : Decoration) :
    m.allMembersDecorated type d = m'.allMembersDecorated type d := by
  simp only [allMembersDecorated, isMemberDecorated, memberDecoration?, h.members?_eq, h.annotations]

theorem access_eq (h : m.Reorders m') (id type : Id) (kind : DescriptorKind) (resource : Option Resource) :
    m.access c id type kind resource = m'.access c id type kind resource := by
  simp only [access, decoratedAccess?, h.isDecorated_eq, h.allMembersDecorated_eq]

end Lookup

section Usages

variable {v : Variable} {u : Usage} {us : List Usage}

private theorem hasKind (h : m.Reorders m') {storage : StorageClass} {type : Id} {kind : DescriptorKind}
    (typed : m.HasKind storage type kind) : m'.HasKind storage type kind := by
  -- What has a kind is no variable.
  have moved : ∀ {i op}, m.definition? type = some i → i.op = op → op ≠ .variableOp → m'.definition? type = some i :=
    fun known op other => (h.types type _ (op ▸ other)).mp known
  cases typed with
  | sampler known op => exact .sampler (moved known op (by decide)) op
  | combined known op => exact .combined (moved known op (by decide)) op
  | image known op shape kind_eq => exact .image (moved known op (by decide)) op shape kind_eq
  | uniformBlock known op plain =>
    exact .uniformBlock (moved known op (by decide)) op (h.isDecorated_eq type .bufferBlock ▸ plain)
  | bufferBlock known op marked =>
    exact .bufferBlock (moved known op (by decide)) op (h.isDecorated_eq type .bufferBlock ▸ marked)
  | storageBlock known op => exact .storageBlock (moved known op (by decide)) op

private theorem isUsageOf (h : m.Reorders m') (own : m.IsUsageOf c stage v u) : m'.IsUsageOf c stage v u := by
  obtain ⟨descriptor, kind, set, binding, resource, kinds, sets, bindings, checked, rfl⟩ := own
  have name : m.descriptorName v = m'.descriptorName v := by
    rw [descriptorName, h.stripArrays_eq, h.variableName_eq, descriptorName]
  rw [h.stripArrays_eq] at kinds
  rw [h.decorationWord?_eq] at sets bindings
  rw [name] at checked
  refine ⟨descriptor, kind, set, binding, resource, ?_, sets, bindings, checked, ?_⟩
  · exact (h.hasKind (hasKind_of_descriptorKind descriptor kinds)).descriptorKind_eq
  · simp only [usageAt, name, h.stripArrays_eq, h.access_eq]

private theorem descriptors_perm (h : m.Reorders m') : m.descriptors.Perm m'.descriptors := by
  have same : m.descriptorOf? = m'.descriptorOf? := by
    funext i
    rw [descriptorOf?, variableOf?, descriptorOf?, variableOf?]
    simp only [h.pointer?_eq]
  rw [descriptors, same]
  exact h.globals.filterMap _

theorem usages (h : m.Reorders m') (done : m.usages c stage = .ok us) : m'.usages c stage = .ok us := by
  obtain ⟨found, all, apart, rfl⟩ := usages_eq_ok.mp done
  -- The usages move with their variables, and sorting brings them back.
  obtain ⟨found', all', perm⟩ := List.perm_comp_forall₂ h.descriptors_perm.symm all
  refine usages_eq_ok.mpr ⟨found', all'.imp fun _ _ => h.isUsageOf, ?_, Usage.sort_eq_of_perm perm.symm⟩
  exact perm.symm.pairwise apart fun other => other.symm

end Usages

end Reorders

/-- The order of usages is total, leaves no field out, and is that of slots where slots differ.  So there is one sorted
list for each collection of usages, and one for modules that differ in the order of their variables. -/
theorem usages_have_one_order :
    (∀ a b c : Usage, (a.order b).isLE → (b.order c).isLE → (a.order c).isLE) ∧
      (∀ a b : Usage, (a.order b).isLE → (b.order a).isLE → a = b) ∧
      (∀ a b : Usage, (a.order b).isLE ∨ (b.order a).isLE) ∧
      (∀ a b : Usage, a.order b = .eq ↔ a = b) ∧
      (∀ a b : Usage, a.slot ≠ b.slot →
        a.order b = if a.set < b.set ∨ a.set = b.set ∧ a.binding < b.binding then .lt else .gt) ∧
      (∀ us : List Usage, (Usage.sort us).Perm us ∧ (Usage.sort us).Pairwise fun a b => (a.order b).isLE) ∧
      (∀ us vs : List Usage, us.Perm vs → Usage.sort us = Usage.sort vs) ∧
      ∀ m m' : Module, m.Reorders m' → ∀ c stage,
        (∀ us, m.usages c stage = .ok us ↔ m'.usages c stage = .ok us) ∧
          ∀ r r', m.reflection c stage = .ok r → m'.reflection c stage = .ok r' → r.usages = r'.usages := by
  refine ⟨?_, ?_, ?_, ?_, ?_, ?_, ?_, ?_⟩
  · intro a b c ab bc
    exact TransCmp.isLE_trans ab bc
  · intro a b ab ba
    exact LawfulEqCmp.eq_of_compare (OrientedCmp.isLE_antisymm ab ba)
  · intro a b
    exact Bool.or_eq_true_iff.mp (Usage.isLE_total a b)
  · intro a b
    exact LawfulEqCmp.compare_eq_iff_eq
  · intro a b apart
    rw [Usage.order_of_slot_ne apart]
    split
    · rename_i before
      exact Usage.slotOrder_eq_lt.mpr before
    · rename_i after
      cases slots : Usage.slotOrder a.slot b.slot with
      | lt => exact absurd (Usage.slotOrder_eq_lt.mp slots) after
      | eq => exact absurd (LawfulEqCmp.eq_of_compare slots) apart
      | gt => rfl
  · intro us
    exact ⟨Usage.sort_perm us, Usage.pairwise_sort us⟩
  · intro us vs perm
    exact Usage.sort_eq_of_perm perm
  · intro m m' h c stage
    have same : ∀ us, m.usages c stage = .ok us ↔ m'.usages c stage = .ok us := fun us => ⟨h.usages, h.symm.usages⟩
    refine ⟨same, fun r r' done done' => ?_⟩
    have found := (same _).mp (usages_of_reflection done)
    exact Except.ok.inj (found.symm.trans (usages_of_reflection done'))

/-- A module with samplers 3 and 4 at bindings 2 and 1 of set 0, declared one after the other. -/
def lampWords (first second : Id) : List UInt32 :=
  [0x07230203, 0x00010000, 0, 5, 0,
    0x00040005, 3, 0x6867696c, 0x00007374,
    0x00040047, 3, 34, 0,
    0x00040047, 3, 33, 2,
    0x00040047, 4, 34, 0,
    0x00040047, 4, 33, 1,
    0x0002001a, 1,
    0x00040020, 2, 0, 1,
    0x0004003b, 2, first, 0,
    0x0004003b, 2, second, 0]

open StageReflection (lightContext)

private theorem lampWords_usages :
    (ofWords (lampWords 3 4) >>= fun m => (ofWords (lampWords 4 3)).map fun m' =>
      (decide ((m.globals.filterMap (·.result)).Nodup ∧ m.globals.Perm m'.globals ∧
          m.ofSection .names = m'.ofSection .names ∧ m.ofSection .annotations = m'.ofSection .annotations),
        decide (m.globals = m'.globals),
        (m.usagesFrom (lightContext 2) (.of .vertex) [] m.globalVariables).toOption.map fun us => us.map (·.name))) =
      .ok (true, false, some ["lights", "_4"]) := by
  decide +kernel

theorem usages_have_one_order_of_lampWords :
    ∃ m m', ofWords (lampWords 3 4) = .ok m ∧ ofWords (lampWords 4 3) = .ok m' ∧ m.globals ≠ m'.globals ∧
      m.Reorders m' ∧ ∃ us, us.length = 2 ∧ m.usages (lightContext 2) (.of .vertex) = .ok us ∧
        m'.usages (lightContext 2) (.of .vertex) = .ok us := by
  obtain ⟨m, read, rest⟩ := bind_eq_ok.mp lampWords_usages
  obtain ⟨m', read', shown⟩ := map_eq_ok.mp rest
  simp only [Prod.mk.injEq, decide_eq_true_eq, decide_eq_false_iff_not] at shown
  obtain ⟨⟨once, globals, names, annotations⟩, moved, listed⟩ := shown
  have reorders := reorders_of_perm once globals names annotations
  obtain ⟨us, found, called⟩ := Option.map_eq_some_iff.mp listed
  have accepted : m.usages (lightContext 2) (.of .vertex) = .ok (Usage.sort us) :=
    map_eq_ok.mpr ⟨us, toOption_eq_some.mp found, rfl⟩
  have two : (Usage.sort us).length = 2 := by
    rw [(Usage.sort_perm us).length_eq, ← List.length_map (·.name), called]
    rfl
  obtain ⟨_, _, _, _, _, _, _, reordered⟩ := usages_have_one_order
  have same := (reordered m m' reorders (lightContext 2) (.of .vertex)).1 (Usage.sort us)
  exact ⟨m, m', read, read', moved, reorders, Usage.sort us, two, accepted, same.mp accepted⟩

end Spirv.Module

end ShaderPipeline
