import Mathlib.Algebra.BigOperators.Group.List.Basic
import Mathlib.Data.Finset.Card
import Mathlib.Logic.Relation
import ShaderPipeline.Spirv.Types

/-!
What the types of a module are made of.

In an acyclic module no type is part of itself, and then every type has a height, which is at most the number of
globals; a traversal that may go so deep comes to its end.  Main statement: stripping arrays leads to what is held
under all array levels, and counts the product of their lengths as far as it fits in a word, or zero if a length is
not known.
-/

set_option autoImplicit false
set_option relaxedAutoImplicit false

namespace ShaderPipeline.Spirv

/-- The types that a type is made of.  A pointer is made of none, so that structures may point to their like. -/
def Instruction.parts (i : Instruction) : List Id :=
  match i.op, i.operands with
  | .typeVector, .id part :: _ | .typeMatrix, .id part :: _ | .typeArray, .id part :: _
  | .typeRuntimeArray, .id part :: _ => [part]
  | .typeStruct, operands => operands.filterMap fun operand => match operand with
      | .id part => some part
      | _ => none
  | _, _ => []

theorem saturated_eq_self {n : Nat} (fits : n < UInt32.size) : saturated n = n := by
  unfold saturated
  omega

private theorem saturated_saturated_mul (a b : Nat) : saturated (saturated a * b) = saturated (a * b) := by
  unfold saturated
  rcases Nat.le_total a (UInt32.size - 1) with fits | exceeds
  · rw [Nat.min_eq_left fits]
  · rw [Nat.min_eq_right exceeds]
    rcases Nat.eq_zero_or_pos b with rfl | positive
    · simp
    · have bound : UInt32.size - 1 ≤ (UInt32.size - 1) * b := Nat.le_mul_of_pos_right _ positive
      have grown : (UInt32.size - 1) * b ≤ a * b := Nat.mul_le_mul_right b exceeds
      omega

namespace Module

def HasPart (m : Module) (whole part : Id) : Prop :=
  ∃ i, m.definition? whole = some i ∧ part ∈ i.parts

def Acyclic (m : Module) : Prop :=
  ∀ id, ¬ Relation.TransGen m.HasPart id id

variable {m : Module}

theorem mem_of_definition? {id : Id} {i : Instruction} (known : m.definition? id = some i) :
    i ∈ m.globals ∧ i.result = some id := by
  have member := List.mem_of_find?_eq_some known
  have result := List.find?_some known
  exact ⟨List.mem_reverse.mp member, by simpa using result⟩

def isAscending (m : Module) : Bool :=
  m.globals.all fun i => i.result.all fun id => i.parts.all (· < id)

theorem acyclic_of_rank (rank : Id → Nat) (falls : ∀ whole part, m.HasPart whole part → rank part < rank whole) :
    m.Acyclic := by
  have smaller : ∀ whole part, Relation.TransGen m.HasPart whole part → rank part < rank whole := by
    intro whole part path
    induction path with
    | single has => exact falls _ _ has
    | tail _ has ih => exact Nat.lt_trans (falls _ _ has) ih
  intro id cycle
  exact Nat.lt_irrefl _ (smaller id id cycle)

theorem acyclic_of_isAscending (ascending : m.isAscending = true) : m.Acyclic := by
  refine acyclic_of_rank UInt32.toNat ?_
  rintro whole part ⟨i, known, listed⟩
  obtain ⟨hi, result⟩ := mem_of_definition? known
  have all := List.all_eq_true.mp ascending i hi
  rw [result] at all
  have less : part < whole := of_decide_eq_true (List.all_eq_true.mp all part listed)
  exact UInt32.lt_iff_toNat_lt.mp less

theorem Acyclic.exists_height (acyclic : m.Acyclic) :
    ∃ height : Id → Nat, (∀ whole part, m.HasPart whole part → height part < height whole) ∧
      ∀ id, height id < m.typeDepth := by
  classical
  let defined : Finset Id := (m.globals.filterMap (·.result)).toFinset
  -- The height of a type counts the globals that it is made of, at any depth, itself among them.
  let below : Id → Finset Id := fun id => defined.filter (Relation.ReflTransGen m.HasPart id)
  refine ⟨fun id => (below id).card, ?_, ?_⟩
  · intro whole part has
    have known : whole ∈ defined := by
      obtain ⟨i, known, _⟩ := has
      obtain ⟨hi, result⟩ := mem_of_definition? known
      exact List.mem_toFinset.mpr (List.mem_filterMap.mpr ⟨i, hi, result⟩)
    have own : whole ∈ below whole := Finset.mem_filter.mpr ⟨known, .refl⟩
    have outside : whole ∉ below part := by
      intro inside
      obtain ⟨_, back⟩ := Finset.mem_filter.mp inside
      exact acyclic whole (Relation.TransGen.head' has back)
    have within : below part ⊆ below whole := by
      intro id inside
      obtain ⟨defined, path⟩ := Finset.mem_filter.mp inside
      exact Finset.mem_filter.mpr ⟨defined, path.head has⟩
    apply Finset.card_lt_card
    exact ⟨within, fun back => outside (back own)⟩
  · intro id
    have few : (below id).card ≤ defined.card := Finset.card_filter_le _ _
    have listed : defined.card ≤ (m.globals.filterMap (·.result)).length := List.toFinset_card_le _
    have all : (m.globals.filterMap (·.result)).length ≤ m.globals.length :=
      List.length_filterMap_le _ _
    show (below id).card < m.globals.length + 1
    omega

/-- What is computed of a type from its parts, down to a depth that no type exceeds, does not depend on the depth. -/
theorem Acyclic.fixpoint {α : Type} (acyclic : m.Acyclic) {within : Nat → Id → α} {step : (Id → α) → Id → α}
    (succ : ∀ depth id, within (depth + 1) id = step (within depth) id)
    (congr : ∀ f g id, (∀ part, m.HasPart id part → f part = g part) → step f id = step g id) (id : Id) :
    within m.typeDepth id = step (within m.typeDepth) id := by
  obtain ⟨height, falls, bounded⟩ := acyclic.exists_height
  -- Above its height the depth makes no difference to a type.
  have enough : ∀ depth depth' id, height id < depth → height id < depth' →
      within depth id = within depth' id := by
    intro depth
    induction depth with
    | zero => exact fun _ _ deep => absurd deep (Nat.not_lt_zero _)
    | succ depth ih =>
      intro depth' id deep deep'
      obtain ⟨depth', rfl⟩ : ∃ d, depth' = d + 1 := ⟨depth' - 1, by omega⟩
      rw [succ, succ]
      apply congr
      intro part has
      have lower := falls id part has
      exact ih depth' part (by omega) (by omega)
  have top : within m.typeDepth id = step (within m.globals.length) id := succ _ _
  rw [top]
  apply congr
  intro part has
  have lower := falls id part has
  have low : height id < m.globals.length + 1 := bounded id
  exact enough _ _ part (by omega) (bounded part)

section Arrays

/-- The element type and the length of an array type; a length is known if it is a constant that fits in a word. -/
def arrayShape? (m : Module) (id : Id) : Option (Id × Option Nat) :=
  (m.definition? id).bind fun i =>
    match i.op, i.operands with
    | .typeArray, [.id element, .id length] => some (element, m.constantWord? length)
    | .typeRuntimeArray, [.id element] => some (element, none)
    | _, _ => none

/-- What a type holds under all its array levels, with their lengths from the outermost on. -/
inductive Unwraps (m : Module) : Id → List (Option Nat) → Id → Prop
  | core {id : Id} (plain : m.arrayShape? id = none) : Unwraps m id [] id
  | level {id element core : Id} {length : Option Nat} {lengths : List (Option Nat)}
      (shape : m.arrayShape? id = some (element, length)) (rest : Unwraps m element lengths core) :
      Unwraps m id (length :: lengths) core

def descriptorCount (lengths : List (Option Nat)) : Nat :=
  saturated (lengths.map (·.getD 0)).prod

theorem hasPart_of_arrayShape? {id element : Id} {length : Option Nat}
    (shape : m.arrayShape? id = some (element, length)) : m.HasPart id element := by
  obtain ⟨i, known, found⟩ := Option.bind_eq_some_iff.mp shape
  refine ⟨i, known, ?_⟩
  split at found
  · rename_i op operands
    obtain ⟨rfl, -⟩ := Prod.mk.inj (Option.some.inj found)
    simp [Instruction.parts, op, operands]
  · rename_i op operands
    obtain ⟨rfl, -⟩ := Prod.mk.inj (Option.some.inj found)
    simp [Instruction.parts, op, operands]
  · cases found

theorem Unwraps.unique {id core core' : Id} {lengths lengths' : List (Option Nat)}
    (h : m.Unwraps id lengths core) (h' : m.Unwraps id lengths' core') :
    lengths = lengths' ∧ core = core' := by
  induction h generalizing lengths' core' with
  | core plain =>
    cases h' with
    | core _ => exact ⟨rfl, rfl⟩
    | level shape _ => simp [plain] at shape
  | level shape _ ih =>
    cases h' with
    | core plain => simp [plain] at shape
    | level shape' rest =>
      obtain ⟨rfl, rfl⟩ := Prod.mk.inj (Option.some.inj (shape.symm.trans shape'))
      obtain ⟨rfl, rfl⟩ := ih rest
      exact ⟨rfl, rfl⟩

theorem Unwraps.plain {id core : Id} {lengths : List (Option Nat)} (h : m.Unwraps id lengths core) :
    m.arrayShape? core = none := by
  induction h with
  | core plain => exact plain
  | level _ _ ih => exact ih

private theorem arrayShape?_of_other {id : Id} {i : Instruction} (known : m.definition? id = some i)
    (array : ∀ element length, i.op = .typeArray → i.operands = [.id element, .id length] → False)
    (runtime : ∀ element, i.op = .typeRuntimeArray → i.operands = [.id element] → False) :
    m.arrayShape? id = none := by
  rw [arrayShape?, known, Option.bind_some]
  split
  · rename_i op operands
    exact absurd operands (array _ _ op)
  · rename_i op operands
    exact absurd operands (runtime _ op)
  · rfl

theorem stripArraysWithin_succ (depth count : Nat) (id : Id) :
    m.stripArraysWithin (depth + 1) count id =
      match m.arrayShape? id with
      | none => (id, count)
      | some (element, length) => m.stripArraysWithin depth (saturated (count * length.getD 0)) element := by
  rw [stripArraysWithin]
  cases known : m.definition? id with
  | none =>
    have shape : m.arrayShape? id = none := by rw [arrayShape?, known, Option.bind_none]
    rw [shape]
  | some i =>
    dsimp only
    split
    · rename_i element length op operands
      have shape : m.arrayShape? id = some (element, m.constantWord? length) := by
        simp [arrayShape?, known, op, operands]
      rw [shape]
    · rename_i element op operands
      have shape : m.arrayShape? id = some (element, none) := by
        simp [arrayShape?, known, op, operands]
      have none : saturated 0 = 0 := saturated_eq_self (by decide)
      rw [shape]
      simp only [Option.getD_none, Nat.mul_zero, none]
    · rename_i array runtime
      rw [arrayShape?_of_other known array runtime]

theorem Unwraps.stripArraysWithin_eq {id core : Id} {lengths : List (Option Nat)}
    (h : m.Unwraps id lengths core) {depth count : Nat} (deep : lengths.length < depth)
    (fits : count < UInt32.size) :
    m.stripArraysWithin depth count id =
      (core, saturated (count * (lengths.map (·.getD 0)).prod)) := by
  induction h generalizing depth count with
  | core plain =>
    obtain ⟨depth, rfl⟩ : ∃ d, depth = d + 1 := ⟨depth - 1, by simp at deep; omega⟩
    rw [stripArraysWithin_succ, plain]
    simp [saturated_eq_self fits]
  | @level id element core length lengths shape _ ih =>
    obtain ⟨depth, rfl⟩ : ∃ d, depth = d + 1 := ⟨depth - 1, by simp at deep; omega⟩
    have deep' : lengths.length < depth := by simpa using deep
    have fits' : saturated (count * length.getD 0) < UInt32.size := by
      unfold saturated
      omega
    rw [stripArraysWithin_succ, shape]
    simp only [ih deep' fits', saturated_saturated_mul, List.map_cons, List.prod_cons, Nat.mul_assoc]

private theorem Acyclic.exists_unwraps (acyclic : m.Acyclic) (id : Id) :
    ∃ lengths core, m.Unwraps id lengths core ∧ lengths.length < m.typeDepth := by
  obtain ⟨height, falls, bounded⟩ := acyclic.exists_height
  have unwraps : ∀ n id, height id = n →
      ∃ lengths core, m.Unwraps id lengths core ∧ lengths.length ≤ height id := by
    intro n
    induction n using Nat.strong_induction_on with
    | _ n ih =>
      intro id at_height
      cases shape : m.arrayShape? id with
      | none => exact ⟨[], id, .core shape, Nat.zero_le _⟩
      | some found =>
        obtain ⟨element, length⟩ := found
        have lower := falls id element (hasPart_of_arrayShape? shape)
        obtain ⟨lengths, core, rest, few⟩ := ih (height element) (at_height ▸ lower) element rfl
        refine ⟨length :: lengths, core, .level shape rest, ?_⟩
        simp only [List.length_cons]
        omega
  obtain ⟨lengths, core, h, few⟩ := unwraps (height id) id rfl
  exact ⟨lengths, core, h, Nat.lt_of_le_of_lt few (bounded id)⟩

theorem Acyclic.stripArrays_unwraps (acyclic : m.Acyclic) (id : Id) :
    ∃ lengths, m.Unwraps id lengths (m.stripArrays id).1 ∧
      (m.stripArrays id).2 = descriptorCount lengths := by
  obtain ⟨lengths, core, h, deep⟩ := acyclic.exists_unwraps id
  have stripped : m.stripArrays id = (core, descriptorCount lengths) := by
    have whole := h.stripArraysWithin_eq deep (show 1 < UInt32.size by decide)
    rwa [Nat.one_mul] at whole
  rw [stripped]
  exact ⟨lengths, h, rfl⟩

end Arrays

end Module

end ShaderPipeline.Spirv
