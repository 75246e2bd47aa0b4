import Mathlib.Data.List.Perm.Basic
import ShaderPipeline.Shader.Collation

/-!
Descriptor sets under their numbers, with the usages of each under their bindings.

A table is looked up by its keys, and what is found there determines it as long as its keys increase.  Main
statements: entering a usage changes what is found at its slot and nowhere else, and leaves every usage under its
own set and binding and no set empty; tables that are kept so and find the same at each slot are equal.
-/

set_option autoImplicit false
set_option relaxedAutoImplicit false

namespace ShaderPipeline

namespace NumberTable

variable {α : Type} {t t' : NumberTable α} {key k : Nat} {f : Option α → α} {a : α}

def Ascends (t : NumberTable α) : Prop :=
  t.Pairwise fun e e' => e.1 < e'.1

private theorem lookup_cons (e : Nat × α) (t : NumberTable α) (k : Nat) :
    (e :: t : NumberTable α).lookup k = if k = e.1 then some e.2 else t.lookup k := by
  obtain ⟨first, a⟩ := e
  by_cases same : k = first
  · simp [same]
  · simp only [List.lookup_cons, beq_eq_false_iff_ne.mpr same, if_neg same]

private theorem lookup_of_lt (before : ∀ e ∈ t, key < e.1) : t.lookup key = none := by
  refine List.lookup_eq_none_iff.mpr fun e he => ?_
  simpa using Nat.ne_of_lt (before e he)

private theorem Ascends.nodup (h : t.Ascends) : t.Nodup := by
  refine h.imp ?_
  rintro _ _ less rfl
  exact Nat.lt_irrefl _ less

theorem Ascends.mem_iff_lookup (h : t.Ascends) : (k, a) ∈ t ↔ t.lookup k = some a := by
  induction t with
  | nil => simp
  | cons e rest ih =>
    obtain ⟨before, later⟩ := List.pairwise_cons.mp h
    rw [lookup_cons]
    by_cases same : k = e.1
    · subst same
      have absent : (e.1, a) ∉ rest := fun he => Nat.lt_irrefl e.1 (before (e.1, a) he)
      simp [absent, Prod.ext_iff, eq_comm]
    · have other : (k, a) ≠ e := fun equal => same (congrArg Prod.fst equal)
      simp [same, other, ih later]

private theorem key_of_mem_change {e : Nat × α} (he : e ∈ t.change key f) :
    e.1 = key ∨ ∃ e' ∈ t, e'.1 = e.1 := by
  induction t with
  | nil => exact .inl (congrArg Prod.fst (List.mem_singleton.mp he))
  | cons first rest ih =>
    rw [change] at he
    split at he
    · rcases List.mem_cons.mp he with rfl | he
      · exact .inl rfl
      · exact .inr ⟨e, he, rfl⟩
    · rcases List.mem_cons.mp he with rfl | he
      · exact .inr ⟨first, List.mem_cons_self, rfl⟩
      · exact .inr ⟨e, List.mem_cons_of_mem _ he, rfl⟩
    · rcases List.mem_cons.mp he with rfl | he
      · exact .inr ⟨_, List.mem_cons_self, rfl⟩
      · rcases ih he with same | ⟨e', he', same⟩
        · exact .inl same
        · exact .inr ⟨e', List.mem_cons_of_mem _ he', same⟩

theorem Ascends.change (h : t.Ascends) (key : Nat) (f : Option α → α) : (t.change key f).Ascends := by
  induction t with
  | nil => exact List.pairwise_singleton _ _
  | cons first rest ih =>
    obtain ⟨before, later⟩ := List.pairwise_cons.mp h
    rw [NumberTable.change]
    split
    · rename_i less
      have less : key < first.1 := Nat.compare_eq_lt.mp less
      refine List.pairwise_cons.mpr ⟨fun e he => ?_, h⟩
      rcases List.mem_cons.mp he with rfl | he
      · exact less
      · exact Nat.lt_trans less (before e he)
    · exact List.pairwise_cons.mpr ⟨before, later⟩
    · rename_i greater
      refine List.pairwise_cons.mpr ⟨fun e he => ?_, ih later⟩
      rcases key_of_mem_change he with same | ⟨e', he', same⟩
      · exact same ▸ Nat.compare_eq_gt.mp greater
      · exact same ▸ before e' he'

private theorem Ascends.lookup_change (h : t.Ascends) (key : Nat) (f : Option α → α) (k : Nat) :
    (t.change key f).lookup k = if k = key then some (f (t.lookup key)) else t.lookup k := by
  induction t with
  | nil => exact lookup_cons _ _ _
  | cons first rest ih =>
    obtain ⟨before, later⟩ := List.pairwise_cons.mp h
    rw [NumberTable.change]
    split
    · rename_i less
      have less : key < first.1 := Nat.compare_eq_lt.mp less
      have fresh : (first :: rest : NumberTable α).lookup key = none := by
        refine lookup_of_lt fun e he => ?_
        rcases List.mem_cons.mp he with rfl | he
        · exact less
        · exact Nat.lt_trans less (before e he)
      rw [lookup_cons, fresh]
    · rename_i equal
      obtain rfl : key = first.1 := Nat.compare_eq_eq.mp equal
      simp only [lookup_cons, if_true]
      split <;> rfl
    · rename_i greater
      have other : key ≠ first.1 := (Nat.ne_of_lt (Nat.compare_eq_gt.mp greater)).symm
      rw [lookup_cons, lookup_cons, lookup_cons, if_neg other, ih later]
      by_cases same : k = first.1
      · simp [same, other.symm]
      · simp only [same, if_false]

theorem Ascends.ext (h : t.Ascends) (h' : t'.Ascends) (same : ∀ k, t.lookup k = t'.lookup k) :
    t = t' := by
  have perm : t.Perm t' := by
    refine (List.perm_ext_iff_of_nodup h.nodup h'.nodup).mpr fun e => ?_
    rw [h.mem_iff_lookup, h'.mem_iff_lookup, same]
  exact perm.eq_of_pairwise (fun _ _ _ _ less less' => absurd less (Nat.lt_asymm less')) h h'

private theorem change_ne_nil (t : NumberTable α) (key : Nat) (f : Option α → α) : t.change key f ≠ [] := by
  cases t with
  | nil => exact List.cons_ne_nil _ _
  | cons first rest =>
    rw [change]
    split <;> exact List.cons_ne_nil _ _

end NumberTable

open NumberTable

namespace DescriptorSet

/-- Whether a set has each of its usages once, under its own set and binding. -/
structure Keyed (d : DescriptorSet) : Prop where
  ascends : d.bindings.Ascends
  slots : ∀ binding u, (binding, u) ∈ d.bindings → u.slot = (d.set, binding)

private theorem keyed_empty (set : Nat) : (empty set).Keyed :=
  ⟨.nil, nofun⟩

variable {d : DescriptorSet} {u : Usage}

private theorem slot_onto {known? : Option Usage} (slots : ∀ known, known? = some known → known.slot = u.slot) :
    (u.onto known?).slot = u.slot := by
  cases known? with
  | none => rfl
  | some known => exact slots known rfl

theorem Keyed.enter (h : d.Keyed) (own : u.set = d.set) : (d.enter u).Keyed where
  ascends := h.ascends.change u.binding u.onto
  slots binding v hv := by
    have found := (h.ascends.change u.binding u.onto).mem_iff_lookup.mp hv
    rw [h.ascends.lookup_change] at found
    split at found
    · rename_i same
      obtain rfl := Option.some.inj found
      have at_slot : u.slot = (d.set, binding) := Prod.ext own same.symm
      refine (slot_onto fun known found => ?_).trans at_slot
      exact (h.slots u.binding known (h.ascends.mem_iff_lookup.mpr found)).trans (same ▸ at_slot.symm)
    · exact h.slots binding v (h.ascends.mem_iff_lookup.mpr found)

end DescriptorSet

namespace SetTable

/-- Whether a table has its sets under their own numbers, none of them empty, and the usages of each under their own
bindings. -/
structure Keyed (t : SetTable) : Prop where
  ascends : t.Ascends
  numbers : ∀ set d, (set, d) ∈ t → d.set = set
  inhabited : ∀ set d, (set, d) ∈ t → d.bindings ≠ []
  keyed : ∀ set d, (set, d) ∈ t → d.Keyed

theorem keyed_nil : Keyed [] :=
  ⟨.nil, nofun, nofun, nofun⟩

variable {t t' : SetTable} {u : Usage} {slot : Nat × Nat}

private theorem Keyed.getD (h : t.Keyed) (set : Nat) :
    ((t.lookup set).getD (.empty set)).Keyed ∧ ((t.lookup set).getD (.empty set)).set = set := by
  cases found : t.lookup set with
  | none => exact ⟨DescriptorSet.keyed_empty set, rfl⟩
  | some d =>
    have hd : (set, d) ∈ t := h.ascends.mem_iff_lookup.mpr found
    exact ⟨h.keyed set d hd, h.numbers set d hd⟩

private theorem Keyed.mem_enter (h : t.Keyed) {set : Nat} {d : DescriptorSet} :
    (set, d) ∈ t.enter u ↔
      (set = u.set ∧ d = ((t.lookup u.set).getD (.empty u.set)).enter u) ∨ (set ≠ u.set ∧ (set, d) ∈ t) := by
  rw [SetTable.enter, (h.ascends.change _ _).mem_iff_lookup, h.ascends.lookup_change, h.ascends.mem_iff_lookup]
  by_cases same : set = u.set <;> simp [same, eq_comm]

theorem Keyed.enter (h : t.Keyed) (u : Usage) : (t.enter u).Keyed := by
  obtain ⟨keyed, number⟩ := h.getD u.set
  refine ⟨h.ascends.change _ _, fun set d hd => ?_, fun set d hd => ?_, fun set d hd => ?_⟩
  all_goals rcases h.mem_enter.mp hd with ⟨rfl, rfl⟩ | ⟨_, hd⟩
  · exact number
  · exact h.numbers set d hd
  · exact change_ne_nil _ _ _
  · exact h.inhabited set d hd
  · exact keyed.enter number.symm
  · exact h.keyed set d hd

theorem Keyed.enterAll (h : t.Keyed) (us : List Usage) : Keyed (us.foldl .enter t) := by
  induction us generalizing t with
  | nil => exact h
  | cons u us ih => exact ih (h.enter u)

/-- A usage that is entered is found at its slot, merged with the one that was there, and nowhere else. -/
theorem Keyed.usageAt?_enter (h : t.Keyed) (u : Usage) (slot : Nat × Nat) :
    (t.enter u).usageAt? slot = if slot = u.slot then some (u.onto (t.usageAt? u.slot)) else t.usageAt? slot := by
  obtain ⟨set, binding⟩ := slot
  obtain ⟨keyed, _⟩ := h.getD u.set
  simp only [usageAt?, SetTable.enter, h.ascends.lookup_change, Usage.slot, Prod.mk.injEq]
  by_cases own : set = u.set
  · subst own
    simp only [if_true, Option.bind_some, true_and, DescriptorSet.enter, keyed.ascends.lookup_change]
    cases t.lookup u.set <;> rfl
  · simp [own]

theorem Keyed.slot_of_usageAt? (h : t.Keyed) (found : t.usageAt? slot = some u) : u.slot = slot := by
  obtain ⟨d, hd, hu⟩ := Option.bind_eq_some_iff.mp found
  have hd := h.ascends.mem_iff_lookup.mpr hd
  have keyed := h.keyed slot.1 d hd
  rw [keyed.slots slot.2 u (keyed.ascends.mem_iff_lookup.mpr hu), h.numbers slot.1 d hd]

private theorem Keyed.exists_usageAt? (h : t.Keyed) {set : Nat} {d : DescriptorSet}
    (found : t.lookup set = some d) : ∃ binding u, t.usageAt? (set, binding) = some u := by
  have hd := h.ascends.mem_iff_lookup.mpr found
  obtain ⟨⟨binding, u⟩, hu⟩ := List.exists_mem_of_ne_nil _ (h.inhabited set d hd)
  refine ⟨binding, u, Option.bind_eq_some_iff.mpr ⟨d, found, ?_⟩⟩
  exact (h.keyed set d hd).ascends.mem_iff_lookup.mp hu

theorem Keyed.ext (h : t.Keyed) (h' : t'.Keyed) (same : ∀ slot, t.usageAt? slot = t'.usageAt? slot) :
    t = t' := by
  have found : ∀ {t t' : SetTable}, t.Keyed → t'.Keyed → (∀ slot, t.usageAt? slot = t'.usageAt? slot) →
      ∀ set d, t.lookup set = some d → t'.lookup set = some d := by
    intro t t' h h' same set d hd
    obtain ⟨binding, u, hu⟩ := h.exists_usageAt? hd
    obtain ⟨d', hd', _⟩ := Option.bind_eq_some_iff.mp ((same (set, binding)).symm.trans hu)
    have member := h.ascends.mem_iff_lookup.mpr hd
    have member' := h'.ascends.mem_iff_lookup.mpr hd'
    have bindings : d.bindings = d'.bindings := by
      refine (h.keyed set d member).ascends.ext (h'.keyed set d' member').ascends fun binding => ?_
      simpa [usageAt?, hd, hd'] using same (set, binding)
    have number : d.set = d'.set := (h.numbers set d member).trans (h'.numbers set d' member').symm
    obtain ⟨set', bindings'⟩ := d
    obtain ⟨_, _⟩ := d'
    subst number bindings
    exact hd'
  refine h.ascends.ext h'.ascends fun set => Option.ext fun d => ?_
  exact ⟨found h h' same set d, found h' h (fun slot => (same slot).symm) set d⟩

end SetTable

end ShaderPipeline
