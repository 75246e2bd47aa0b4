import Mathlib.Data.List.Forall2
import ShaderPipeline.Proofs.Reflection.Descriptors
import ShaderPipeline.Proofs.Reflection.Nesting
import ShaderPipeline.Proofs.Shader.Merge

/-!
The usages of a module and its descriptor variables.

A variable of a descriptor storage class is refused if the type under its arrays is no descriptor type, if it has no
slot, if a variable before it has the same slot, or if the catalog puts its name elsewhere.  Main statement: a module
is accepted when none of its descriptor variables is refused, it has one usage for each of them, by increasing slot,
and else its error is that of the first variable that is refused.
-/

set_option autoImplicit false
set_option relaxedAutoImplicit false

namespace ShaderPipeline

open Outcome Std

namespace Usage

instance : TransCmp order :=
  inferInstanceAs (TransCmp (compareLex (compareLex (compareLex (compareLex (compareLex (compareLex
    (compareLex (compareOn Usage.set) (compareOn Usage.binding)) (compareOn fun u : Usage => u.kind.code))
    (compareOn Usage.name)) (compareOn Usage.resource)) (compareOn fun u => u.stages.bits))
    (compareOn fun u => u.access.bits)) (compareOn Usage.count)))

theorem order_of_slot_ne {a b : Usage} (apart : a.slot ≠ b.slot) : order a b = slotOrder a.slot b.slot := by
  cases slots : slotOrder a.slot b.slot with
  | eq => exact absurd (LawfulEqCmp.eq_of_compare slots) apart
  | lt => simp [order, slots, Ordering.then]
  | gt => simp [order, slots, Ordering.then]

theorem slotOrder_eq_lt {a b : Nat × Nat} :
    slotOrder a b = .lt ↔ a.1 < b.1 ∨ a.1 = b.1 ∧ a.2 < b.2 := by
  simp [slotOrder, Ordering.then_eq_lt, Nat.compare_eq_lt]

theorem sort_perm (us : List Usage) : (sort us).Perm us :=
  List.mergeSort_perm us _

theorem isLE_total (a b : Usage) : (order a b).isLE || (order b a).isLE := by
  cases before : order a b with
  | lt | eq => rfl
  | gt =>
    have after : order b a = .lt := OrientedCmp.eq_swap.trans (congrArg Ordering.swap before)
    rw [after]
    rfl

theorem pairwise_sort (us : List Usage) : (sort us).Pairwise fun a b => (order a b).isLE := by
  apply List.pairwise_mergeSort
  · intro a b c ab bc
    exact TransCmp.isLE_trans ab bc
  · exact isLE_total

private theorem ordered_sort {us : List Usage} (apart : us.Pairwise fun a b => a.slot ≠ b.slot) :
    (sort us).Pairwise fun a b => slotOrder a.slot b.slot = .lt := by
  have apart' : (sort us).Pairwise fun a b => a.slot ≠ b.slot :=
    (sort_perm us).symm.pairwise apart fun h => h.symm
  refine ((pairwise_sort us).and apart').imp ?_
  rintro a b ⟨le, ne⟩
  rw [order_of_slot_ne ne] at le
  cases slots : slotOrder a.slot b.slot with
  | lt => rfl
  | eq => exact absurd (LawfulEqCmp.eq_of_compare slots) ne
  | gt => simp [slots] at le

end Usage

namespace StageContext

/-- Whether the catalog puts what a name stands for at another slot: its set is the place of the group of the
resource among the listed ones. -/
def Contradicts (c : StageContext) (name : String) (set binding : Nat) (r : Resource) : Prop :=
  c.catalog.findResource? c.groups name = some r ∧
    ¬ ((c.groups.idxOf? r.group).getD 0 = set ∧ r.binding = binding)

private theorem checkSlot_eq_ok {c : StageContext} {name : String} {set binding : Nat} {found : Option Resource} :
    c.checkSlot name set binding = .ok found ↔
      found = c.catalog.findResource? c.groups name ∧ ∀ r, ¬ c.Contradicts name set binding r := by
  unfold checkSlot Contradicts
  cases c.catalog.findResource? c.groups name with
  | none => simp [eq_comm]
  | some r =>
    by_cases placed : (c.groups.idxOf? r.group).getD 0 = set ∧ r.binding = binding
    · simp [placed, eq_comm]
    · simp [placed]

private theorem checkSlot_eq_error {c : StageContext} {name : String} {set binding : Nat} {e : ReflectError}
    (failed : c.checkSlot name set binding = .error e) :
    ∃ r, c.Contradicts name set binding r ∧
      e = .slotMismatch r.key ((c.groups.idxOf? r.group).getD 0) r.binding set binding := by
  unfold checkSlot at failed
  split at failed
  · cases failed
  · rename_i r found
    dsimp only at failed
    split at failed
    · cases failed
    · rename_i elsewhere
      exact ⟨r, ⟨found, elsewhere⟩, (Except.error.inj failed).symm⟩

end StageContext

namespace Spirv.Module

variable {m : Module} {c : StageContext} {stage : StageSet}

section Variables

private theorem usagesFrom_cons_of_not_descriptor {v : Variable} (other : ¬ v.IsDescriptor) (earlier : List Usage)
    (rest : List Variable) :
    m.usagesFrom c stage earlier (v :: rest) = m.usagesFrom c stage earlier rest := by
  rw [usagesFrom, usage?_of_not_descriptor other]
  show m.usagesFrom c stage (earlier ++ []) rest = _
  rw [List.append_nil]

private theorem usagesFrom_filterMap (globals : List Instruction) (earlier : List Usage) :
    m.usagesFrom c stage earlier (globals.filterMap m.variableOf?) =
      m.usagesFrom c stage earlier (globals.filterMap m.descriptorOf?) := by
  induction globals generalizing earlier with
  | nil => rfl
  | cons i rest ih =>
    cases found : m.variableOf? i with
    | none =>
      have absent : m.descriptorOf? i = none := by rw [descriptorOf?, found, Option.filter_none]
      rw [List.filterMap_cons_none found, List.filterMap_cons_none absent, ih]
    | some v =>
      rw [List.filterMap_cons_some found]
      by_cases descriptor : v.IsDescriptor
      · have listed : m.descriptorOf? i = some v :=
          descriptorOf?_eq_some.mpr ⟨variableOf?_eq_some.mp found, descriptor⟩
        rw [List.filterMap_cons_some listed, usagesFrom, usagesFrom]
        cases m.usage? c stage earlier v with
        | error e => rfl
        | ok usage => exact ih _
      · have passed : m.descriptorOf? i = none := by
          refine Option.eq_none_iff_forall_not_mem.mpr fun w hw => descriptor ?_
          obtain ⟨declared, storage⟩ := descriptorOf?_eq_some.mp hw
          obtain rfl := Option.some.inj (found.symm.trans (variableOf?_eq_some.mpr declared))
          exact storage
        rw [List.filterMap_cons_none passed, usagesFrom_cons_of_not_descriptor descriptor, ih]

theorem usages_eq_usagesFrom_descriptors :
    m.usages c stage = (m.usagesFrom c stage [] m.descriptors).map Usage.sort := by
  rw [usages, globalVariables, usagesFrom_filterMap, descriptors]

end Variables

section Conditions

/-- Whether a variable has a kind as a descriptor, for what it holds under its arrays. -/
def IsOfKind (m : Module) (v : Variable) (core : Id) (kind : DescriptorKind) : Prop :=
  (∃ lengths, m.Unwraps v.target lengths core) ∧ m.HasKind v.storage core kind

def HasSlot (m : Module) (v : Variable) (set binding : Nat) : Prop :=
  m.decorationWord? v.id .descriptorSet = some set ∧ m.decorationWord? v.id .binding = some binding

/-- Whether a usage is what a descriptor variable comes to. -/
structure Describes (m : Module) (c : StageContext) (stage : StageSet) (v : Variable) (u : Usage) : Prop where
  stages_eq : u.stages = stage
  type : ∃ lengths core, m.Unwraps v.target lengths core ∧ m.HasKind v.storage core u.kind ∧
    u.name = m.variableName v.id core ∧ u.count = descriptorCount lengths ∧
      u.access = m.access c v.id core u.kind (c.catalog.findResource? c.groups u.name)
  slot : m.HasSlot v u.set u.binding
  resource_eq : u.resource = (c.catalog.findResource? c.groups u.name).map Resource.key

/-- Why a descriptor variable is refused after others.  What comes first in the list is looked at first. -/
inductive Refused (m : Module) (c : StageContext) (earlier : List Variable) (v : Variable) : ReflectError → Prop
  | type {lengths : List (Option Nat)} {core : Id} {fault : TypeFault} (unwraps : m.Unwraps v.target lengths core)
      (faulty : m.HasFault v.storage core fault) :
      Refused m c earlier v (.invalidType (m.variableName v.id core) fault)
  | slot {core : Id} {kind : DescriptorKind} (typed : m.IsOfKind v core kind)
      (missing : m.decorationWord? v.id .descriptorSet = none ∨ m.decorationWord? v.id .binding = none) :
      Refused m c earlier v (.missingSlot (m.variableName v.id core))
  | shared {core core' : Id} {kind kind' : DescriptorKind} {set binding : Nat} {w : Variable}
      (typed : m.IsOfKind v core kind) (placed : m.HasSlot v set binding) (before : w ∈ earlier)
      (typed' : m.IsOfKind w core' kind') (placed' : m.HasSlot w set binding) :
      Refused m c earlier v
        (.sharedSlot set binding (m.variableName w.id core') (m.variableName v.id core))
  | contradicted {core : Id} {kind : DescriptorKind} {set binding : Nat} {r : Resource}
      (typed : m.IsOfKind v core kind) (placed : m.HasSlot v set binding)
      (free : ∀ w ∈ earlier, ¬ m.HasSlot w set binding)
      (elsewhere : c.Contradicts (m.variableName v.id core) set binding r) :
      Refused m c earlier v
        (.slotMismatch r.key ((c.groups.idxOf? r.group).getD 0) r.binding set binding)

/-- Whether descriptor variables have types and slots of their own that the catalog does not contradict. -/
structure Sound (m : Module) (c : StageContext) (vs : List Variable) : Prop where
  typed : ∀ v ∈ vs, ∃ core kind, m.IsOfKind v core kind
  placed : ∀ v ∈ vs, ∃ set binding, m.HasSlot v set binding
  apart : vs.Pairwise fun v w => ∀ set binding, m.HasSlot v set binding → ¬ m.HasSlot w set binding
  agreed : ∀ v ∈ vs, ∀ core kind set binding r, m.IsOfKind v core kind → m.HasSlot v set binding →
    ¬ c.Contradicts (m.variableName v.id core) set binding r

theorem IsOfKind.unique {v : Variable} {core core' : Id} {kind kind' : DescriptorKind}
    (h : m.IsOfKind v core kind) (h' : m.IsOfKind v core' kind') : core = core' ∧ kind = kind' := by
  obtain ⟨⟨_, unwraps⟩, typed⟩ := h
  obtain ⟨⟨_, unwraps'⟩, typed'⟩ := h'
  obtain ⟨-, rfl⟩ := unwraps.unique unwraps'
  have same := typed.descriptorKind_eq.symm.trans typed'.descriptorKind_eq
  exact ⟨rfl, Option.some.inj (Except.ok.inj same)⟩

theorem HasSlot.unique {v : Variable} {set set' binding binding' : Nat} (h : m.HasSlot v set binding)
    (h' : m.HasSlot v set' binding') : set = set' ∧ binding = binding' :=
  ⟨Option.some.inj (h.1.symm.trans h'.1), Option.some.inj (h.2.symm.trans h'.2)⟩

private theorem Describes.isOfKind {v : Variable} {u : Usage} (h : m.Describes c stage v u) :
    ∃ core, m.IsOfKind v core u.kind ∧ u.name = m.variableName v.id core := by
  obtain ⟨lengths, core, unwraps, typed, name, _⟩ := h.type
  exact ⟨core, ⟨⟨lengths, unwraps⟩, typed⟩, name⟩

private theorem sound_nil : m.Sound c [] :=
  ⟨nofun, nofun, .nil, nofun⟩

theorem Sound.concat {vs : List Variable} (h : m.Sound c vs) {v : Variable} (own : m.Sound c [v])
    (free : ∀ w ∈ vs, ∀ set binding, m.HasSlot w set binding → ¬ m.HasSlot v set binding) :
    m.Sound c (vs ++ [v]) where
  typed w hw := (List.mem_append.mp hw).elim (h.typed w) (own.typed w)
  placed w hw := (List.mem_append.mp hw).elim (h.placed w) (own.placed w)
  apart := by
    refine List.pairwise_append.mpr ⟨h.apart, own.apart, fun w hw v' hv' => ?_⟩
    obtain rfl := List.mem_singleton.mp hv'
    exact free w hw
  agreed w hw := (List.mem_append.mp hw).elim (h.agreed w) (own.agreed w)

private theorem Sound.not_refused {before after : List Variable} {v : Variable}
    (h : m.Sound c (before ++ v :: after)) (e : ReflectError) : ¬ m.Refused c before v e := by
  have hv : v ∈ before ++ v :: after := List.mem_append_right _ List.mem_cons_self
  obtain ⟨core, kind, typed⟩ := h.typed v hv
  obtain ⟨set, binding, placed⟩ := h.placed v hv
  intro refused
  cases refused with
  | type unwraps faulty =>
    obtain ⟨⟨_, unwraps'⟩, kinds⟩ := typed
    obtain ⟨-, rfl⟩ := unwraps.unique unwraps'
    have same := faulty.descriptorKind_eq.symm.trans kinds.descriptorKind_eq
    cases same
  | slot _ missing =>
    rcases missing with missing | missing
    · exact absurd (missing.symm.trans placed.1) nofun
    · exact absurd (missing.symm.trans placed.2) nofun
  | shared _ placed hw _ placed' =>
    obtain ⟨_, _, apart⟩ := List.pairwise_append.mp h.apart
    exact apart _ hw v List.mem_cons_self _ _ placed' placed
  | contradicted typed placed _ elsewhere => exact h.agreed v hv _ _ _ _ _ typed placed elsewhere

end Conditions

section Runs

private theorem usage?_eq_error {v : Variable} (descriptor : v.IsDescriptor) {earlier : List Usage} {e : ReflectError}
    (failed : m.usage? c stage earlier v = .error e) :
    let core := (m.stripArrays v.target).1
    let name := m.descriptorName v
    (∃ fault, m.HasFault v.storage core fault ∧ e = .invalidType name fault) ∨
      ∃ kind, m.HasKind v.storage core kind ∧
        ((m.decorationWord? v.id .descriptorSet = none ∨ m.decorationWord? v.id .binding = none) ∧
            e = .missingSlot name ∨
          ∃ set binding, m.HasSlot v set binding ∧
            ((∃ u ∈ earlier, u.slot = (set, binding) ∧ e = .sharedSlot set binding u.name name) ∨
              (∀ u ∈ earlier, u.slot ≠ (set, binding)) ∧ c.checkSlot name set binding = .error e)) := by
  intro core name
  have storage := contains_storage_iff.mpr descriptor
  simp only [usage?, storage, not_true_eq_false, if_false] at failed
  rcases exists_kind_or_fault descriptor core with ⟨kind, typed⟩ | ⟨fault, faulty⟩
  · refine .inr ⟨kind, typed, ?_⟩
    rw [typed.descriptorKind_eq] at failed
    cases sets : m.decorationWord? v.id .descriptorSet with
    | none =>
      rw [sets] at failed
      exact .inl ⟨.inl rfl, (Except.error.inj failed).symm⟩
    | some set =>
      cases bindings : m.decorationWord? v.id .binding with
      | none =>
        rw [sets, bindings] at failed
        exact .inl ⟨.inr rfl, (Except.error.inj failed).symm⟩
      | some binding =>
        refine .inr ⟨set, binding, ⟨sets, bindings⟩, ?_⟩
        rw [sets, bindings] at failed
        cases taken : earlier.find? (fun u => decide (u.slot = (set, binding))) with
        | some first =>
          have shown := List.find?_some taken
          simp only [taken] at failed
          exact .inl ⟨first, List.mem_of_find?_eq_some taken, of_decide_eq_true shown,
            (Except.error.inj failed).symm⟩
        | none =>
          simp only [taken] at failed
          cases checked : c.checkSlot (m.descriptorName v) set binding with
          | error e' =>
            rw [descriptorName] at checked
            simp only [checked] at failed
            refine .inr ⟨?_, congrArg _ (Except.error.inj failed)⟩
            simpa using List.find?_eq_none.mp taken
          | ok resource =>
            rw [descriptorName] at checked
            simp only [checked] at failed
            cases failed
  · rw [faulty.descriptorKind_eq] at failed
    exact .inl ⟨fault, faulty, (Except.error.inj failed).symm⟩

private theorem HasSlot.eq_slot {w : Variable} {u : Usage} (h : m.Describes c stage w u) {set binding : Nat}
    (placed : m.HasSlot w set binding) : u.slot = (set, binding) := by
  obtain ⟨sets, bindings⟩ := h.slot.unique placed
  exact Prod.ext sets bindings

private theorem free_iff {before : List Variable} {earlier : List Usage}
    (known : List.Forall₂ (m.Describes c stage) before earlier) {set binding : Nat} :
    (∀ u ∈ earlier, u.slot ≠ (set, binding)) ↔ ∀ w ∈ before, ¬ m.HasSlot w set binding := by
  induction known with
  | nil => simp
  | cons first _ ih =>
    simp only [List.forall_mem_cons, ih, and_congr_left_iff]
    intro _
    constructor
    · exact fun elsewhere placed => elsewhere (placed.eq_slot first)
    · intro elsewhere at_slot
      obtain ⟨rfl, rfl⟩ := Prod.mk.inj at_slot
      exact elsewhere first.slot

private theorem exists_described {before : List Variable} {earlier : List Usage}
    (known : List.Forall₂ (m.Describes c stage) before earlier) {u : Usage} (hu : u ∈ earlier) :
    ∃ w ∈ before, m.Describes c stage w u := by
  induction known with
  | nil => cases hu
  | cons first _ ih =>
    rcases List.mem_cons.mp hu with rfl | hu
    · exact ⟨_, List.mem_cons_self, first⟩
    · obtain ⟨w, hw, described⟩ := ih hu
      exact ⟨w, List.mem_cons_of_mem _ hw, described⟩

private theorem describes_of_usage? (acyclic : m.Acyclic) {v : Variable} (descriptor : v.IsDescriptor)
    {before : List Variable} {earlier : List Usage}
    (known : List.Forall₂ (m.Describes c stage) before earlier) {found : Option Usage}
    (done : m.usage? c stage earlier v = .ok found) :
    (∃ u, found = some u ∧ m.Describes c stage v u) ∧ m.Sound c [v] ∧
      ∀ w ∈ before, ∀ set binding, m.HasSlot w set binding → ¬ m.HasSlot v set binding := by
  obtain ⟨lengths, unwraps, count⟩ := acyclic.stripArrays_unwraps v.target
  obtain ⟨kind, set, binding, resource, kinds, sets, bindings, free, checked, rfl⟩ :=
    (usage?_eq_ok descriptor).mp done
  obtain ⟨rfl, agreed⟩ := StageContext.checkSlot_eq_ok.mp checked
  have typed := hasKind_of_descriptorKind descriptor kinds
  have own : m.IsOfKind v (m.stripArrays v.target).1 kind := ⟨⟨lengths, unwraps⟩, typed⟩
  have placed : m.HasSlot v set binding := ⟨sets, bindings⟩
  refine ⟨⟨_, rfl, rfl, ?_, placed, rfl⟩, ⟨?_, ?_, List.pairwise_singleton _ _, ?_⟩, ?_⟩
  · exact ⟨lengths, _, unwraps, typed, rfl, count, rfl⟩
  · simpa using ⟨_, _, own⟩
  · simpa using ⟨_, _, placed⟩
  · intro w hw core kind' set' binding' r typed' placed'
    obtain rfl := List.mem_singleton.mp hw
    obtain ⟨rfl, -⟩ := own.unique typed'
    obtain ⟨rfl, rfl⟩ := placed.unique placed'
    exact agreed r
  · intro w hw set' binding' placed' both
    obtain ⟨rfl, rfl⟩ := placed.unique both
    exact (free_iff known).mp free w hw placed'

private theorem refused_of_usage? (acyclic : m.Acyclic) {v : Variable} (descriptor : v.IsDescriptor)
    {before : List Variable} {earlier : List Usage}
    (known : List.Forall₂ (m.Describes c stage) before earlier) {e : ReflectError}
    (failed : m.usage? c stage earlier v = .error e) : m.Refused c before v e := by
  obtain ⟨lengths, unwraps, _⟩ := acyclic.stripArrays_unwraps v.target
  rcases usage?_eq_error descriptor failed with ⟨fault, faulty, rfl⟩ | ⟨kind, typed, wrong⟩
  · exact .type unwraps faulty
  have own : m.IsOfKind v (m.stripArrays v.target).1 kind := ⟨⟨lengths, unwraps⟩, typed⟩
  rcases wrong with ⟨missing, rfl⟩ | ⟨set, binding, placed, ⟨u, hu, at_slot, rfl⟩ | ⟨free, checked⟩⟩
  · exact .slot own missing
  · obtain ⟨w, hw, described⟩ := exists_described known hu
    obtain ⟨core, typed', called⟩ := described.isOfKind
    obtain ⟨rfl, rfl⟩ := Prod.mk.inj at_slot
    rw [called]
    exact .shared own placed hw typed' described.slot
  · obtain ⟨r, elsewhere, rfl⟩ := StageContext.checkSlot_eq_error checked
    exact .contradicted own placed ((free_iff known).mp free) elsewhere

private theorem usagesFrom_spec (acyclic : m.Acyclic) {before : List Variable} {earlier : List Usage}
    (known : List.Forall₂ (m.Describes c stage) before earlier) (sound : m.Sound c before) (vs : List Variable)
    (descriptors : ∀ v ∈ vs, v.IsDescriptor) :
    match m.usagesFrom c stage earlier vs with
    | .ok found => m.Sound c (before ++ vs) ∧ List.Forall₂ (m.Describes c stage) (before ++ vs) found
    | .error e => ∃ passed v after, vs = passed ++ v :: after ∧ m.Sound c (before ++ passed) ∧
        m.Refused c (before ++ passed) v e := by
  induction vs generalizing before earlier with
  | nil =>
    rw [usagesFrom, List.append_nil]
    exact ⟨sound, known⟩
  | cons v rest ih =>
    obtain ⟨descriptor, descriptors⟩ := List.forall_mem_cons.mp descriptors
    rw [usagesFrom]
    cases first : m.usage? c stage earlier v with
    | error e =>
      refine ⟨[], v, rest, rfl, ?_, ?_⟩
      · rwa [List.append_nil]
      · rw [List.append_nil]
        exact refused_of_usage? acyclic descriptor known first
    | ok usage =>
      obtain ⟨⟨u, rfl, described⟩, own, free⟩ := describes_of_usage? acyclic descriptor known first
      have known' := List.rel_append known (.cons described .nil)
      have later := ih known' (sound.concat own free) descriptors
      have split : before ++ v :: rest = before ++ [v] ++ rest := (List.append_cons before v rest)
      show match m.usagesFrom c stage (earlier ++ [u]) rest with
        | .ok found => m.Sound c (before ++ v :: rest) ∧
            List.Forall₂ (m.Describes c stage) (before ++ v :: rest) found
        | .error e => ∃ passed w after, v :: rest = passed ++ w :: after ∧ m.Sound c (before ++ passed) ∧
            m.Refused c (before ++ passed) w e
      cases run : m.usagesFrom c stage (earlier ++ [u]) rest with
      | ok found =>
        rw [run] at later
        rw [split]
        exact later
      | error e =>
        rw [run] at later
        obtain ⟨passed, w, after, rfl, sound', refused⟩ := later
        refine ⟨v :: passed, w, after, rfl, ?_, ?_⟩
        · rwa [List.append_cons]
        · rwa [List.append_cons]

private theorem slots_apart {vs : List Variable} {us : List Usage}
    (known : List.Forall₂ (m.Describes c stage) vs us)
    (apart : vs.Pairwise fun v w => ∀ set binding, m.HasSlot v set binding → ¬ m.HasSlot w set binding) :
    us.Pairwise fun a b => a.slot ≠ b.slot := by
  induction known with
  | nil => exact .nil
  | cons first later ih =>
    obtain ⟨free, apart⟩ := List.pairwise_cons.mp apart
    have elsewhere := (free_iff later).mpr fun w hw => free w hw _ _ first.slot
    exact List.pairwise_cons.mpr ⟨fun u hu same => elsewhere u hu same.symm, ih apart⟩

/-- A module has one usage for each of its descriptor variables, by increasing slot, if all of them are sound, and
else fails with the error of the first variable that is refused. -/
theorem usages_iff_descriptors_sound (m : Module) (acyclic : m.Acyclic) (c : StageContext) (stage : StageSet) :
    (∀ i v, m.descriptorOf? i = some v ↔ m.Declares i v ∧ v.IsDescriptor) ∧
      ((∃ us, m.usages c stage = .ok us) ↔ m.Sound c m.descriptors) ∧
      (∀ us, m.usages c stage = .ok us →
        (∃ found, found.Perm us ∧ List.Forall₂ (m.Describes c stage) m.descriptors found) ∧
          us.Pairwise fun a b => a.set < b.set ∨ a.set = b.set ∧ a.binding < b.binding) ∧
      ∀ e, m.usages c stage = .error e →
        ∃ before v after, m.descriptors = before ++ v :: after ∧ m.Sound c before ∧
          m.Refused c before v e := by
  have none : List.Forall₂ (m.Describes c stage) [] [] := .nil
  have run := usagesFrom_spec acyclic none sound_nil m.descriptors
    fun _ => isDescriptor_of_mem_descriptors
  refine ⟨fun _ _ => descriptorOf?_eq_some, ?_⟩
  rw [usages_eq_usagesFrom_descriptors]
  cases ended : m.usagesFrom c stage [] m.descriptors with
  | ok found =>
    rw [ended] at run
    obtain ⟨sound, known⟩ := run
    refine ⟨⟨fun _ => sound, fun _ => ⟨_, rfl⟩⟩, ?_, nofun⟩
    intro us sorted
    obtain rfl := Except.ok.inj sorted
    refine ⟨⟨found, (Usage.sort_perm found).symm, known⟩, ?_⟩
    have ordered := Usage.ordered_sort (slots_apart known sound.apart)
    exact ordered.imp Usage.slotOrder_eq_lt.mp
  | error e =>
    rw [ended] at run
    obtain ⟨before, v, after, split, sound, refused⟩ := run
    refine ⟨⟨nofun, fun all => ?_⟩, nofun, ?_⟩
    · rw [split] at all
      exact absurd refused (all.not_refused e)
    · intro e' failed
      obtain rfl := Except.error.inj failed
      exact ⟨before, v, after, split, sound, refused⟩

open StageReflection (lightWords lightContext)

private theorem lightWords_descriptors :
    (ofWords lightWords).map (fun m => (m.isAscending, m.descriptors,
      [2, 3].map fun binding =>
        (m.usages (lightContext binding) (.of .vertex)).map fun us => us.map (·.name))) =
      .ok (true, [⟨3, .uniformConstant, 1⟩],
        [.ok ["lights"], .error (.slotMismatch ⟨"Lighting", "lights"⟩ 0 3 0 2)]) := by
  decide +kernel

theorem usages_iff_descriptors_sound_of_lightWords :
    ∃ m, ofWords lightWords = .ok m ∧ m.Acyclic ∧ m.descriptors = [⟨3, .uniformConstant, 1⟩] ∧
      m.Sound (lightContext 2) m.descriptors ∧ ¬ m.Sound (lightContext 3) m.descriptors ∧
        m.Refused (lightContext 3) [] ⟨3, .uniformConstant, 1⟩
          (.slotMismatch ⟨"Lighting", "lights"⟩ 0 3 0 2) := by
  obtain ⟨m, read, shown⟩ := map_eq_ok.mp lightWords_descriptors
  simp only [Prod.mk.injEq, List.map_cons, List.map_nil, List.cons.injEq, and_true] at shown
  obtain ⟨ascending, listed, accepted, failed⟩ := shown
  have acyclic := acyclic_of_isAscending ascending
  obtain ⟨_, sound, _⟩ := usages_iff_descriptors_sound m acyclic (lightContext 2) (.of .vertex)
  obtain ⟨_, sound', _, refused⟩ := usages_iff_descriptors_sound m acyclic (lightContext 3) (.of .vertex)
  obtain ⟨us, found, _⟩ := map_eq_ok.mp accepted
  have stopped : m.usages (lightContext 3) (.of .vertex) =
      .error (.slotMismatch ⟨"Lighting", "lights"⟩ 0 3 0 2) := by
    cases run : m.usages (lightContext 3) (.of .vertex) with
    | ok us => simp [run, Except.map] at failed
    | error e => simpa [run, Except.map] using failed
  obtain ⟨before, v, after, split, _, why⟩ := refused _ stopped
  refine ⟨m, read, acyclic, listed, sound.mp ⟨us, found⟩, fun all => ?_, ?_⟩
  · obtain ⟨us, done⟩ := sound'.mpr all
    exact absurd (stopped.symm.trans done) nofun
  · rw [listed] at split
    cases before with
    | nil =>
      obtain ⟨rfl, -⟩ := List.cons.inj split
      exact why
    | cons _ _ => simp at split

end Runs

end Spirv.Module

end ShaderPipeline
