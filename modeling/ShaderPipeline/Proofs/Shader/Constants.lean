import ShaderPipeline.Proofs.Distinct
import ShaderPipeline.Shader.Collation

/-!
Specialization constants by number.

A constant is put among others only if its number is free, so the first one with a number stays.
-/

set_option autoImplicit false
set_option relaxedAutoImplicit false

namespace ShaderPipeline.SpecConstant

/-- Whether constants are ordered by number and no two of them share one. -/
def Ordered (constants : List SpecConstant) : Prop :=
  constants.Pairwise fun a b => a.id < b.id

theorem Ordered.nodup {constants : List SpecConstant} (ordered : Ordered constants) :
    (constants.map (·.id)).Nodup :=
  List.pairwise_map.mpr (ordered.imp Nat.ne_of_lt)

/-- What is held after a constant was put among others: the others, and the constant if its number was free. -/
theorem mem_insert {constants : List SpecConstant} (ordered : Ordered constants)
    (c d : SpecConstant) :
    d ∈ c.insert constants ↔ d ∈ constants ∨ (d = c ∧ ∀ e ∈ constants, e.id ≠ c.id) := by
  induction constants with
  | nil => simp [insert]
  | cons first rest ih =>
    obtain ⟨before, tail⟩ := List.pairwise_cons.mp ordered
    simp only [insert]
    split
    · rename_i less
      have fresh : ∀ e ∈ first :: rest, e.id ≠ c.id := by
        intro e he
        rcases List.mem_cons.mp he with rfl | he
        · exact Nat.ne_of_gt less
        · exact Nat.ne_of_gt (Nat.lt_trans less (before e he))
      rw [List.mem_cons (a := d) (b := c), or_comm, and_iff_left fresh]
    · split
      · rename_i same
        refine (or_iff_left ?_).symm
        rintro ⟨_, fresh⟩
        exact fresh first List.mem_cons_self same.symm
      · rename_i le ne
        rw [List.mem_cons, ih tail, List.mem_cons, or_assoc, List.forall_mem_cons,
          and_iff_right (Ne.symm ne)]

theorem Ordered.insert {constants : List SpecConstant} (ordered : Ordered constants)
    (c : SpecConstant) : Ordered (c.insert constants) := by
  induction constants with
  | nil => simp [Ordered, SpecConstant.insert]
  | cons first rest ih =>
    obtain ⟨before, tail⟩ := List.pairwise_cons.mp ordered
    simp only [SpecConstant.insert]
    split
    · rename_i less
      refine List.pairwise_cons.mpr ⟨?_, ordered⟩
      intro e he
      rcases List.mem_cons.mp he with rfl | he
      · exact less
      · exact Nat.lt_trans less (before e he)
    · split
      · exact ordered
      · rename_i le ne
        refine List.pairwise_cons.mpr ⟨?_, ih tail⟩
        intro e he
        rcases (mem_insert tail c e).mp he with he | ⟨rfl, _⟩
        · exact before e he
        · omega

theorem insertAll_spec {constants : List SpecConstant} (ordered : Ordered constants)
    (more : List SpecConstant) :
    Ordered (more.foldl (fun cs c => c.insert cs) constants) ∧
      ∀ id, (∃ d ∈ more.foldl (fun cs c => c.insert cs) constants, d.id = id) ↔
        ∃ d ∈ constants ++ more, d.id = id := by
  induction more generalizing constants with
  | nil => exact ⟨ordered, by simp⟩
  | cons c rest ih =>
    obtain ⟨ordered', ids⟩ := ih (ordered.insert c)
    refine ⟨ordered', fun id => ?_⟩
    rw [List.foldl_cons, ids]
    constructor
    · rintro ⟨d, hd, same⟩
      rcases List.mem_append.mp hd with hd | hd
      · rcases (mem_insert ordered c d).mp hd with hd | ⟨rfl, _⟩
        · exact ⟨d, List.mem_append_left _ hd, same⟩
        · exact ⟨d, by simp, same⟩
      · exact ⟨d, by simp [hd], same⟩
    · rintro ⟨d, hd, same⟩
      rcases List.mem_append.mp hd with hd | hd
      · exact ⟨d, List.mem_append_left _ ((mem_insert ordered c d).mpr (.inl hd)), same⟩
      · rcases List.mem_cons.mp hd with rfl | hd
        · by_cases known : ∃ e ∈ constants, e.id = d.id
          · obtain ⟨e, he, equal⟩ := known
            exact ⟨e, List.mem_append_left _ ((mem_insert ordered d e).mpr (.inl he)),
              equal.trans same⟩
          · have fresh : ∀ e ∈ constants, e.id ≠ d.id := by simpa using known
            exact ⟨d, List.mem_append_left _ ((mem_insert ordered d d).mpr (.inr ⟨rfl, fresh⟩)),
              same⟩
        · exact ⟨d, List.mem_append_right _ hd, same⟩

theorem find?_insertAll {constants : List SpecConstant} (ordered : Ordered constants)
    (more : List SpecConstant) (k : Nat) :
    (more.foldl (fun cs c => c.insert cs) constants).find? (·.id == k) =
      (constants ++ more).find? (·.id == k) := by
  induction more generalizing constants with
  | nil => rw [List.foldl_nil, List.append_nil]
  | cons c rest ih =>
    have one : (c.insert constants).find? (·.id == k) = (constants ++ [c]).find? (·.id == k) := by
      refine Option.ext fun d => ?_
      rw [find?_eq_some_of_nodup (ordered.insert c).nodup, mem_insert ordered, List.find?_append,
        Option.or_eq_some_iff, find?_eq_some_of_nodup ordered.nodup, List.find?_eq_none]
      simp only [beq_iff_eq, List.find?_singleton, Option.ite_none_right_eq_some, Option.some.injEq]
      constructor
      · rintro ⟨hd | ⟨rfl, fresh⟩, rfl⟩
        · exact .inl ⟨hd, rfl⟩
        · exact .inr ⟨fresh, rfl, rfl⟩
      · rintro (⟨hd, rfl⟩ | ⟨fresh, rfl, rfl⟩)
        · exact ⟨.inl hd, rfl⟩
        · exact ⟨.inr ⟨rfl, fresh⟩, rfl⟩
    rw [List.foldl_cons, ih (ordered.insert c), List.find?_append, one, ← List.find?_append,
      ← List.append_cons]

end ShaderPipeline.SpecConstant
