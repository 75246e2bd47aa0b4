import Mathlib.Algebra.Ring.Nat
import Mathlib.Tactic.ByContra
import ShaderPipeline.Stage

/-!
Sets of a single stage: their bits are a power of two, and two of them share a bit only if they are the same.
-/

set_option autoImplicit false
set_option relaxedAutoImplicit false

namespace ShaderPipeline.StageSet

theorem isSingle_iff_isPowerOfTwo {a : StageSet} :
    a.isSingle = true ↔ a.bits.toNat.isPowerOfTwo := by
  rw [← Nat.ne_zero_and_sub_one_eq_zero_iff_isPowerOfTwo]
  simp only [isSingle, bne_iff_ne, beq_iff_eq, Bool.and_eq_true, ne_eq, ← UInt32.toNat_inj]
  refine and_congr_right fun nonzero => ?_
  have one_le : (1 : UInt32) ≤ a.bits := by
    rw [UInt32.le_iff_toNat_le]
    exact Nat.one_le_iff_ne_zero.mpr nonzero
  simp [UInt32.toNat_sub_of_le _ _ one_le]

private theorem eq_of_two_pow_and {i j : Nat} (shared : 2 ^ i &&& 2 ^ j ≠ 0) : i = j := by
  by_contra different
  refine shared (Nat.eq_of_testBit_eq fun k => ?_)
  simp only [Nat.testBit_and, Nat.testBit_two_pow, Nat.zero_testBit, Bool.and_eq_false_iff,
    decide_eq_false_iff_not]
  omega

theorem intersects_iff_eq {a b : StageSet} (single : a.isSingle = true) (single' : b.isSingle = true) :
    a.intersects b = true ↔ a = b := by
  obtain ⟨i, hi⟩ := isSingle_iff_isPowerOfTwo.mp single
  obtain ⟨j, hj⟩ := isSingle_iff_isPowerOfTwo.mp single'
  constructor
  · intro shared
    have nonzero : a.bits.toNat &&& b.bits.toNat ≠ 0 := by
      simpa [intersects, ← UInt32.toNat_inj] using shared
    rw [hi, hj] at nonzero
    obtain rfl := eq_of_two_pow_and nonzero
    have bits : a.bits = b.bits := UInt32.toNat_inj.mp (hi.trans hj.symm)
    cases a
    cases b
    simpa using bits
  · rintro rfl
    have nonzero : a.bits.toNat ≠ 0 := hi ▸ Nat.ne_of_gt (Nat.two_pow_pos i)
    simpa [intersects, ← UInt32.toNat_inj] using nonzero

theorem contains_iff_eq {a : StageSet} (single : a.isSingle = true) (s : Stage) : a.contains s = true ↔ a = .of s :=
  intersects_iff_eq single (by cases s <;> rfl)

end ShaderPipeline.StageSet
