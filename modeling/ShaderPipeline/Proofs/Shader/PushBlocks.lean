import Mathlib.Algebra.Ring.Nat
import Mathlib.Data.List.Nodup
import Mathlib.Data.List.Perm.Basic
import ShaderPipeline.Shader.Collation

/-!
Where push-constant blocks lie.

Blocks fit behind an offset when all of them have a size and the last of them ends within a word.  Then, and only
then, they can be placed, each behind the one before it.  Main statements: when blocks can be stacked, and that
blocks of different rank are stacked in one way, whatever order and offsets they had before.
-/

set_option autoImplicit false
set_option relaxedAutoImplicit false

namespace ShaderPipeline

theorem Spirv.inWord?_eq_some {n m : Nat} : inWord? n = some m ↔ n < UInt32.size ∧ n = m := by
  simp [inWord?]

namespace PushBlock

/-- Whether blocks can lie one behind the other from an offset on. -/
def Fits (offset : Nat) (blocks : List PushBlock) : Prop :=
  (∀ b ∈ blocks, b.size?.isSome) ∧ offset + (blocks.map size).sum < UInt32.size

/-- The blocks one behind the other from an offset on. -/
def place : Nat → List PushBlock → List PushBlock
  | _, [] => []
  | offset, b :: rest => { b with offset } :: place (offset + b.size) rest

def unplaced (b : PushBlock) : PushBlock :=
  { b with offset := 0 }

@[simp] theorem size?_unplaced (b : PushBlock) : b.unplaced.size? = b.size? := rfl

@[simp] theorem size_unplaced (b : PushBlock) : b.unplaced.size = b.size := rfl

@[simp] theorem rank_unplaced (stages : List StageSet) (b : PushBlock) :
    rank stages b.unplaced = rank stages b := rfl

theorem size?_eq_size {b : PushBlock} (known : b.size?.isSome) : b.size? = some b.size := by
  obtain ⟨n, hn⟩ := Option.isSome_iff_exists.mp known
  simp [size, hn]

private theorem placeFrom_cons_of_next {offset next : Nat} {b : PushBlock} {rest : List PushBlock}
    (step : (b.size?.bind fun size => Spirv.inWord? (offset + size)) = some next) :
    placeFrom offset (b :: rest) =
      (placeFrom next rest).map ({ b with offset } :: ·) := by
  simp only [placeFrom, step]
  cases placeFrom next rest <;> rfl

private theorem fits_cons {offset : Nat} {b : PushBlock} {rest : List PushBlock} :
    Fits offset (b :: rest) ↔ b.size?.isSome ∧ Fits (offset + b.size) rest := by
  simp only [Fits, List.forall_mem_cons, List.map_cons, List.sum_cons, and_assoc, Nat.add_assoc]

private theorem next_of_fits {offset : Nat} {b : PushBlock} {rest : List PushBlock}
    (known : b.size?.isSome) (fits : Fits (offset + b.size) rest) :
    (b.size?.bind fun size => Spirv.inWord? (offset + size)) = some (offset + b.size) := by
  have bound : offset + b.size < UInt32.size := Nat.lt_of_le_of_lt (Nat.le_add_right _ _) fits.2
  simp [size?_eq_size known, Spirv.inWord?_eq_some, bound]

private theorem placeFrom_of_fits {offset : Nat} {blocks : List PushBlock} (fits : Fits offset blocks) :
    placeFrom offset blocks = .ok (place offset blocks) := by
  induction blocks generalizing offset with
  | nil => rfl
  | cons b rest ih =>
    obtain ⟨known, fits⟩ := fits_cons.mp fits
    rw [placeFrom_cons_of_next (next_of_fits known fits), ih fits]
    rfl

private theorem fits_of_placeFrom {offset : Nat} {blocks placed : List PushBlock}
    (start : offset < UInt32.size) (done : placeFrom offset blocks = .ok placed) :
    Fits offset blocks := by
  induction blocks generalizing offset placed with
  | nil => exact ⟨by simp, by simpa using start⟩
  | cons b rest ih =>
    cases step : b.size?.bind fun size => Spirv.inWord? (offset + size) with
    | none => simp [placeFrom, step] at done
    | some next =>
      obtain ⟨size, known, inWord⟩ := Option.bind_eq_some_iff.mp step
      obtain ⟨bound, rfl⟩ := Spirv.inWord?_eq_some.mp inWord
      have size_eq : b.size = size := by simp [PushBlock.size, known]
      rw [placeFrom_cons_of_next step] at done
      cases later : placeFrom (offset + size) rest with
      | error e => simp [later, Except.map] at done
      | ok placed =>
        exact fits_cons.mpr ⟨by simp [known], size_eq ▸ ih bound later⟩

theorem exists_of_placeFrom_eq_error {offset : Nat} {blocks : List PushBlock} {e : CollateError}
    (failed : placeFrom offset blocks = .error e) : ∃ b ∈ blocks, e = .pushOverflow b.name := by
  induction blocks generalizing offset with
  | nil => cases failed
  | cons b rest ih =>
    cases step : b.size?.bind fun size => Spirv.inWord? (offset + size) with
    | none =>
      simp only [placeFrom, step] at failed
      exact ⟨b, List.mem_cons_self, (Except.error.inj failed).symm⟩
    | some next =>
      rw [placeFrom_cons_of_next step] at failed
      cases later : placeFrom next rest with
      | ok placed => simp [later, Except.map] at failed
      | error e' =>
        obtain rfl : e' = e := by simpa [later, Except.map] using failed
        obtain ⟨b', hb', named⟩ := ih later
        exact ⟨b', List.mem_cons_of_mem b hb', named⟩

theorem Fits.perm {offset : Nat} {blocks blocks' : List PushBlock} (fits : Fits offset blocks)
    (perm : (blocks.map unplaced).Perm (blocks'.map unplaced)) : Fits offset blocks' := by
  have sizes : (blocks.map size).Perm (blocks'.map size) := by
    simpa [Function.comp_def] using perm.map size
  refine ⟨fun b hb => ?_, sizes.sum_nat ▸ fits.2⟩
  obtain ⟨a, ha, same⟩ := List.mem_map.mp (perm.symm.subset (List.mem_map_of_mem hb))
  have known := fits.1 a ha
  rwa [← size?_unplaced, same, size?_unplaced] at known

theorem Fits.of_append {offset : Nat} {blocks more : List PushBlock}
    (fits : Fits offset (blocks ++ more)) : Fits offset blocks := by
  obtain ⟨known, bound⟩ := fits
  simp only [List.map_append, List.sum_append] at bound
  exact ⟨fun b hb => known b (List.mem_append_left _ hb), by omega⟩

private theorem map_unplaced_place (offset : Nat) (blocks : List PushBlock) :
    (place offset blocks).map unplaced = blocks.map unplaced := by
  induction blocks generalizing offset with
  | nil => rfl
  | cons b rest ih => simp [place, unplaced, ih]

private theorem place_congr {offset : Nat} {blocks blocks' : List PushBlock}
    (same : blocks.map unplaced = blocks'.map unplaced) :
    place offset blocks = place offset blocks' := by
  induction blocks generalizing offset blocks' with
  | nil => rw [List.map_eq_nil_iff.mp same.symm]
  | cons b rest ih =>
    obtain ⟨b', rest', rfl, first, later⟩ := List.map_eq_cons_iff.mp same.symm
    have sizes : b'.size = b.size := by rw [← size_unplaced, first, size_unplaced]
    have head : { b with offset } = { b' with offset } := by
      simpa [unplaced] using first.symm
    rw [place, place, head, sizes, ih later.symm]

/-- Blocks in the order of stages, each behind the one before it. -/
structure IsStack (stages : List StageSet) (table blocks : List PushBlock) : Prop where
  perm : (table.map unplaced).Perm (blocks.map unplaced)
  ordered : table.Pairwise fun a b => rank stages a ≤ rank stages b
  placed : place 0 table = table
  fits : Fits 0 blocks

theorem isStack_nil (stages : List StageSet) : IsStack stages [] [] :=
  ⟨.refl _, .nil, rfl, by simp [Fits, UInt32.size]⟩

private theorem ordered_of_unplaced {stages : List StageSet} {blocks blocks' : List PushBlock}
    (same : blocks.map unplaced = blocks'.map unplaced)
    (ordered : blocks.Pairwise fun a b => rank stages a ≤ rank stages b) :
    blocks'.Pairwise fun a b => rank stages a ≤ rank stages b := by
  have mapped : (blocks.map unplaced).Pairwise fun a b => rank stages a ≤ rank stages b :=
    List.pairwise_map.mpr ordered
  rw [same, List.pairwise_map] at mapped
  exact mapped

theorem stack_isOk_iff (stages : List StageSet) (blocks : List PushBlock) :
    (∃ table, stack stages blocks = .ok table) ↔ Fits 0 blocks := by
  have perm := List.mergeSort_perm blocks fun a b => rank stages a ≤ rank stages b
  constructor
  · rintro ⟨table, done⟩
    exact (fits_of_placeFrom (by simp [UInt32.size]) done).perm (perm.map unplaced)
  · intro fits
    exact ⟨_, placeFrom_of_fits (fits.perm (perm.map unplaced).symm)⟩

theorem isStack_of_stack {stages : List StageSet} {blocks table : List PushBlock}
    (done : stack stages blocks = .ok table) : IsStack stages table blocks := by
  have fits := (stack_isOk_iff stages blocks).mp ⟨table, done⟩
  have perm := List.mergeSort_perm blocks fun a b => rank stages a ≤ rank stages b
  have placed : placeFrom 0 (blocks.mergeSort fun a b => rank stages a ≤ rank stages b) = _ :=
    placeFrom_of_fits (fits.perm (perm.map unplaced).symm)
  obtain rfl : _ = table := Except.ok.inj (placed.symm.trans done)
  have same := map_unplaced_place 0 (blocks.mergeSort fun a b => rank stages a ≤ rank stages b)
  refine ⟨same ▸ perm.map unplaced, ordered_of_unplaced same.symm ?_, place_congr same, fits⟩
  have sorted : (blocks.mergeSort fun a b => decide (rank stages a ≤ rank stages b)).Pairwise
      fun a b => decide (rank stages a ≤ rank stages b) = true :=
    List.pairwise_mergeSort (fun a b c => by simpa using Nat.le_trans)
      (fun a b => by simpa using Nat.le_total _ _) blocks
  exact sorted.imp of_decide_eq_true

theorem IsStack.of_unplaced {stages : List StageSet} {table blocks blocks' : List PushBlock}
    (h : IsStack stages table blocks) (perm : (blocks.map unplaced).Perm (blocks'.map unplaced)) :
    IsStack stages table blocks' :=
  ⟨h.perm.trans perm, h.ordered, h.placed, h.fits.perm perm⟩

theorem IsStack.unique {stages : List StageSet} {table table' blocks blocks' : List PushBlock}
    (h : IsStack stages table blocks) (h' : IsStack stages table' blocks')
    (perm : blocks.Perm blocks') (ranks : (blocks.map (rank stages)).Nodup) : table = table' := by
  have same : (table.map unplaced).Perm (table'.map unplaced) :=
    (h.perm.trans (perm.map unplaced)).trans h'.perm.symm
  have distinct : ((table.map unplaced).map (rank stages)).Nodup := by
    refine (h.perm.map (rank stages)).nodup_iff.mpr ?_
    simpa [Function.comp_def] using ranks
  have equal : table.map unplaced = table'.map unplaced := by
    have ordered : (table.map unplaced).Pairwise fun a b => rank stages a ≤ rank stages b :=
      List.pairwise_map.mpr h.ordered
    have ordered' : (table'.map unplaced).Pairwise fun a b => rank stages a ≤ rank stages b :=
      List.pairwise_map.mpr h'.ordered
    refine same.eq_of_pairwise ?_ ordered ordered'
    intro a b ha hb ab ba
    exact List.inj_on_of_nodup_map distinct ha (same.symm.subset hb) (Nat.le_antisymm ab ba)
  rw [← h.placed, ← h'.placed, place_congr equal]

end PushBlock

end ShaderPipeline
