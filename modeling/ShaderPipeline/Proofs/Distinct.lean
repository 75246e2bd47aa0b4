import Mathlib.Data.List.Induction
import Mathlib.Data.List.Nodup

/-!
Lists with distinct members or distinct keys.

Of a list only the first occurrence of each member may be kept; a further member then comes last, unless it
occurred before, and all else follows from that.  Where keys are distinct, looking up a key finds the one member
that has it.
-/

set_option autoImplicit false
set_option relaxedAutoImplicit false

namespace ShaderPipeline

section FirstOccurrences

variable {α : Type} [DecidableEq α]

theorem eraseDups_concat (l : List α) (a : α) :
    (l ++ [a]).eraseDups = if a ∈ l then l.eraseDups else l.eraseDups ++ [a] := by
  by_cases known : a ∈ l <;> simp [List.eraseDups_append, List.removeAll, known, List.eraseDups_cons]

theorem mem_eraseDups (l : List α) (a : α) : a ∈ l.eraseDups ↔ a ∈ l := by
  induction l using List.reverseRecOn with
  | nil => simp
  | append_singleton l b ih =>
    rw [eraseDups_concat]
    split
    · rename_i known
      simp only [ih, List.mem_append, List.mem_singleton]
      exact ⟨.inl, fun h => h.elim id fun equal => equal ▸ known⟩
    · simp only [List.mem_append, ih]

theorem nodup_eraseDups (l : List α) : l.eraseDups.Nodup := by
  induction l using List.reverseRecOn with
  | nil => simp
  | append_singleton l b ih =>
    rw [eraseDups_concat]
    split
    · exact ih
    · rename_i fresh
      refine List.nodup_append.mpr ⟨ih, by simp, ?_⟩
      intro a ha c hc equal
      exact fresh (List.mem_singleton.mp hc ▸ equal ▸ (mem_eraseDups l a).mp ha)

theorem pairwise_idxOf_eraseDups (l : List α) : l.eraseDups.Pairwise fun a b => l.idxOf a < l.idxOf b := by
  induction l using List.reverseRecOn with
  | nil => simp
  | append_singleton l c ih =>
    have kept : l.eraseDups.Pairwise fun a b => (l ++ [c]).idxOf a < (l ++ [c]).idxOf b := by
      refine ih.imp_of_mem fun {a b} ha hb before => ?_
      rw [List.idxOf_append_of_mem ((mem_eraseDups l a).mp ha), List.idxOf_append_of_mem ((mem_eraseDups l b).mp hb)]
      exact before
    rw [eraseDups_concat]
    split
    · exact kept
    · rename_i fresh
      refine List.pairwise_append.mpr ⟨kept, List.pairwise_singleton _ _, ?_⟩
      intro a ha b hb
      have known := (mem_eraseDups l a).mp ha
      have inside := List.idxOf_lt_length_of_mem known
      rw [List.mem_singleton.mp hb, List.idxOf_append_of_mem known, List.idxOf_append_of_notMem fresh]
      omega

end FirstOccurrences

section Keys

variable {α β : Type} [BEq α] [LawfulBEq α]

theorem find?_eq_some_of_nodup {key : β → α} {l : List β} (distinct : (l.map key).Nodup)
    {k : α} {b : β} : l.find? (key · == k) = some b ↔ b ∈ l ∧ key b = k := by
  constructor
  · intro found
    exact ⟨List.mem_of_find?_eq_some found, by simpa using List.find?_some found⟩
  · rintro ⟨hb, has_key⟩
    cases found : l.find? (key · == k) with
    | none => simpa [has_key] using List.find?_eq_none.mp found b hb
    | some c =>
      have same : key c = key b := by
        simpa [has_key] using List.find?_some found
      rw [List.inj_on_of_nodup_map distinct (List.mem_of_find?_eq_some found) hb same]

theorem find?_perm {key : β → α} {l l' : List β} (perm : l.Perm l')
    (distinct : (l.map key).Nodup) (k : α) : l.find? (key · == k) = l'.find? (key · == k) := by
  refine Option.ext fun b => ?_
  rw [find?_eq_some_of_nodup distinct,
    find?_eq_some_of_nodup ((perm.map key).nodup_iff.mp distinct), perm.mem_iff]

end Keys

end ShaderPipeline
