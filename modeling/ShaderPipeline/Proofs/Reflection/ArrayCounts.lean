import Mathlib.Algebra.BigOperators.Ring.List
import ShaderPipeline.Proofs.Reflection.Leaves
import ShaderPipeline.Proofs.Reflection.Loading

/-!
How many elements nested arrays hold.

A level of a nested array is unbounded or has a length, which need not be a constant.  Main statement: stripping arrays
from a type ends at a type that is no array, and counts the product of all lengths or the greatest word, whichever is
less; but nothing, if a level is unbounded or its length is zero or no constant that fits in a word.
-/

set_option autoImplicit false
set_option relaxedAutoImplicit false

namespace ShaderPipeline.Spirv

inductive ArrayLevel where
  | unbounded
  | sized (length : Id)
  deriving DecidableEq, Repr

namespace Module

variable {m : Module}

/-- The levels of a type from the outermost on, and what is no level any more. -/
inductive Layers (m : Module) : Id → List ArrayLevel → Id → Prop
  | core {id : Id} (plain : m.arrayShape? id = none) : Layers m id [] id
  | sized {id element length core : Id} {i : Instruction} {levels : List ArrayLevel}
      (known : m.definition? id = some i) (op : i.op = .typeArray) (operands : i.operands = [.id element, .id length])
      (rest : Layers m element levels core) : Layers m id (.sized length :: levels) core
  | unbounded {id element core : Id} {i : Instruction} {levels : List ArrayLevel}
      (known : m.definition? id = some i) (op : i.op = .typeRuntimeArray) (operands : i.operands = [.id element])
      (rest : Layers m element levels core) : Layers m id (.unbounded :: levels) core

/-- Whether a level has some number of elements, of those that count. -/
inductive HasElements (m : Module) : ArrayLevel → Nat → Prop
  | sized {length : Id} {n : Nat} (constant : m.constantNumber? length = some n) (positive : 0 < n)
      (fits : n < UInt32.size) : HasElements m (.sized length) n

section Levels

def elements? (m : Module) : ArrayLevel → Option Nat
  | .unbounded => none
  | .sized length => m.constantWord? length

private theorem hasElements_iff {level : ArrayLevel} {n : Nat} :
    m.HasElements level n ↔ m.elements? level = some n ∧ 0 < n := by
  constructor
  · rintro ⟨constant, positive, fits⟩
    exact ⟨constantWord?_eq_some.mpr ⟨constant, fits⟩, positive⟩
  · rintro ⟨known, positive⟩
    cases level with
    | unbounded => cases known
    | sized length =>
      obtain ⟨constant, fits⟩ := constantWord?_eq_some.mp known
      exact .sized constant positive fits

private theorem Unwraps.exists_layers {id core : Id} {lengths : List (Option Nat)} (h : m.Unwraps id lengths core) :
    ∃ levels, m.Layers id levels core ∧ lengths = levels.map m.elements? := by
  induction h with
  | core plain => exact ⟨[], .core plain, rfl⟩
  | level shape _ ih =>
    obtain ⟨levels, rest, rfl⟩ := ih
    obtain ⟨i, known, found⟩ := Option.bind_eq_some_iff.mp shape
    split at found
    · rename_i element length op operands
      obtain ⟨rfl, rfl⟩ := Prod.mk.inj (Option.some.inj found)
      exact ⟨.sized length :: levels, .sized known op operands rest, rfl⟩
    · rename_i element op operands
      obtain ⟨rfl, rfl⟩ := Prod.mk.inj (Option.some.inj found)
      exact ⟨.unbounded :: levels, .unbounded known op operands rest, rfl⟩
    · cases found

private theorem no_array_of_plain {words : List UInt32} (read : ofWords words = .ok m) {id : Id} {i : Instruction}
    (known : m.definition? id = some i) (plain : m.arrayShape? id = none) :
    i.op ≠ .typeArray ∧ i.op ≠ .typeRuntimeArray := by
  have listed := (mem_of_definition? known).1
  constructor
  · intro op
    obtain ⟨ids, two, operands⟩ := exists_ids_of_ofWords read listed 2 (by rw [op]; rfl)
    obtain ⟨element, length, rfl⟩ := List.length_eq_two.mp two
    simp [arrayShape?, known, op, operands] at plain
  · intro op
    obtain ⟨ids, one, operands⟩ := exists_ids_of_ofWords read listed 1 (by rw [op]; rfl)
    obtain ⟨element, rfl⟩ := List.length_eq_one_iff.mp one
    simp [arrayShape?, known, op, operands] at plain

private theorem descriptorCount_eq_zero {levels : List ArrayLevel} {level : ArrayLevel} (listed : level ∈ levels)
    (missing : ∀ n, ¬ m.HasElements level n) : descriptorCount (levels.map m.elements?) = 0 := by
  have zero : (m.elements? level).getD 0 = 0 := by
    cases known : m.elements? level with
    | none => rfl
    | some n =>
      have none := missing n
      rw [hasElements_iff, known] at none
      exact Nat.eq_zero_of_not_pos fun positive => none ⟨rfl, positive⟩
  have factor : 0 ∈ (levels.map m.elements?).map (·.getD 0) := by
    rw [List.map_map]
    exact List.mem_map.mpr ⟨level, listed, zero⟩
  rw [descriptorCount, List.prod_eq_zero factor]
  exact saturated_eq_self (by decide)

private theorem saturated_eq_ite (n : Nat) : saturated n = if n < UInt32.size then n else UInt32.size - 1 := by
  unfold saturated
  split <;> omega

end Levels

/-- Stripping arrays goes through all levels of a type.  The count is zero if a level has no elements that count, else
the product of all numbers of elements as far as it fits in a word. -/
theorem stripArrays_counts_elements (acyclic : m.Acyclic) (id : Id) :
    ∃ levels, m.Layers id levels (m.stripArrays id).1 ∧
      (∀ words, ofWords words = .ok m → ∀ i, m.definition? (m.stripArrays id).1 = some i →
        i.op ≠ .typeArray ∧ i.op ≠ .typeRuntimeArray) ∧
      ((∃ level ∈ levels, ∀ n, ¬ m.HasElements level n) ∧ (m.stripArrays id).2 = 0 ∨
        ∃ counts, List.Forall₂ m.HasElements levels counts ∧
          (m.stripArrays id).2 = if counts.prod < UInt32.size then counts.prod else UInt32.size - 1) := by
  obtain ⟨lengths, unwraps, counted⟩ := acyclic.stripArrays_unwraps id
  obtain ⟨levels, layers, rfl⟩ := unwraps.exists_layers
  refine ⟨levels, layers, ?_, ?_⟩
  · intro words read i known
    exact no_array_of_plain read known unwraps.plain
  · -- A level that does not count makes the product zero, even if the levels above it exceed a word.
    by_cases missing : ∃ level ∈ levels, ∀ n, ¬ m.HasElements level n
    · obtain ⟨level, listed, none⟩ := missing
      exact .inl ⟨⟨level, listed, none⟩, counted.trans (descriptorCount_eq_zero listed none)⟩
    · push Not at missing
      have all : ∀ level ∈ levels, m.HasElements level ((m.elements? level).getD 0) := by
        intro level listed
        obtain ⟨n, has⟩ := missing level listed
        rwa [(hasElements_iff.mp has).1]
      refine .inr ⟨(levels.map m.elements?).map (·.getD 0), ?_, ?_⟩
      · rw [List.map_map, List.forall₂_map_right_iff, List.forall₂_same]
        exact all
      · rw [counted, descriptorCount, saturated_eq_ite]

/-- A module with arrays 4 to 6 of which the innermost is unbounded, and arrays 7 and 8 of 65536 elements each. -/
def nestedArrayWords : List UInt32 :=
  [0x07230203, 0x00010000, 0, 9, 0,
    0x00030016, 1, 32,
    0x00040015, 2, 32, 0,
    0x0004002b, 2, 3, 0x10000,
    0x0003001d, 4, 1,
    0x0004001c, 5, 4, 3,
    0x0004001c, 6, 5, 3,
    0x0004001c, 7, 1, 3,
    0x0004001c, 8, 7, 3]

private theorem nestedArrayWords_stripped :
    (ofWords nestedArrayWords).map (fun m => (m.isAscending, m.stripArrays 6, m.stripArrays 8)) =
      .ok (true, (1, 0), (1, 0xffffffff)) := by
  decide +kernel

/-- The count for the levels of type 8 is the greatest word, and stays zero under type 6 where two levels exceed it. -/
theorem stripArrays_counts_elements_of_nestedArrayWords :
    ∃ m, ofWords nestedArrayWords = .ok m ∧ m.Acyclic ∧ (m.stripArrays 6).2 = 0 ∧
      (∃ levels, m.Layers 6 levels 1) ∧
      ∃ levels counts, m.Layers 8 levels 1 ∧ List.Forall₂ m.HasElements levels counts ∧
        UInt32.size - 1 ≤ counts.prod := by
  obtain ⟨m, read, shown⟩ := Outcome.map_eq_ok.mp nestedArrayWords_stripped
  simp only [Prod.mk.injEq] at shown
  obtain ⟨ascending, unbounded, bounded⟩ := shown
  have acyclic := acyclic_of_isAscending ascending
  obtain ⟨levels, layers, _, _⟩ := stripArrays_counts_elements acyclic 6
  obtain ⟨levels', layers', _, counted⟩ := stripArrays_counts_elements acyclic 8
  rw [unbounded] at layers
  rw [bounded] at layers' counted
  refine ⟨m, read, acyclic, congrArg Prod.snd unbounded, ⟨levels, layers⟩, ?_⟩
  rcases counted with ⟨_, zero⟩ | ⟨counts, all, product⟩
  · exact absurd zero (by decide)
  · refine ⟨levels', counts, layers', all, ?_⟩
    have size : UInt32.size = 4294967296 := rfl
    split at product <;> omega

end Module

end ShaderPipeline.Spirv
