import ShaderPipeline.Proofs.Shader.SetTable

/-!
Merging the usages of one slot, and tables that hold one usage for each slot.

A usage is the merge of some usages when it has what is said of all of them together; there is at most one, and
the order of the usages does not count.  A table tabulates usages when it has at each slot the merge of those
there.  Main statements: entering a usage of the right kind tabulates one usage more, and usages that are tabulated
in another order have the same table.
-/

set_option autoImplicit false
set_option relaxedAutoImplicit false

namespace ShaderPipeline

open Std

instance : TransOrd ResourceKey :=
  inferInstanceAs (TransCmp (compareLex (compareOn ResourceKey.group) (compareOn ResourceKey.name)))

instance : LawfulEqOrd ResourceKey where
  eq_of_compare {a b} equal := by
    obtain ⟨groups, names⟩ := Ordering.then_eq_eq.mp equal
    have group : a.group = b.group := LawfulEqOrd.eq_of_compare groups
    have name : a.name = b.name := LawfulEqOrd.eq_of_compare names
    cases a
    cases b
    simp_all

def StageSet.unionOf (sets : List StageSet) : StageSet :=
  sets.foldl .union .empty

def Access.unionOf (accesses : List Access) : Access :=
  accesses.foldl .union .none

namespace Usage

instance : TransCmp slotOrder :=
  inferInstanceAs (TransCmp (compareLex (compareOn Prod.fst) (compareOn Prod.snd)))

instance : LawfulEqCmp slotOrder where
  eq_of_compare {a b} equal := by
    obtain ⟨sets, bindings⟩ := Ordering.then_eq_eq.mp equal
    exact Prod.ext (LawfulEqOrd.eq_of_compare sets) (LawfulEqOrd.eq_of_compare bindings)

instance : TransCmp namingOrder :=
  inferInstanceAs (TransCmp (compareLex (compareOn Usage.resource) (compareOn Usage.name)))

private theorem naming_eq_of_isLE {a b : Usage} (ab : (namingOrder a b).isLE) (ba : (namingOrder b a).isLE) :
    a.resource = b.resource ∧ a.name = b.name := by
  have equal : namingOrder a b = .eq := OrientedCmp.isLE_antisymm ab ba
  obtain ⟨resources, names⟩ := Ordering.then_eq_eq.mp equal
  exact ⟨LawfulEqOrd.eq_of_compare resources, LawfulEqOrd.eq_of_compare names⟩

private theorem namingOrder_congr {a b : Usage} (c : Usage) (resources : a.resource = b.resource)
    (names : a.name = b.name) : namingOrder a c = namingOrder b c := by
  simp only [namingOrder, resources, names]

/-- The usage that some usages of one slot make together. -/
structure IsMerge (u : Usage) (us : List Usage) : Prop where
  slot_eq : ∀ v ∈ us, v.slot = u.slot
  kind_eq : ∀ v ∈ us, v.kind = u.kind
  stages_eq : u.stages = .unionOf (us.map (·.stages))
  access_eq : u.access = .unionOf (us.map (·.access))
  count_eq : u.count = (us.map (·.count)).foldl max 0
  /-- Key and name come from one of the usages. -/
  named : ∃ v ∈ us, v.resource = u.resource ∧ v.name = u.name
  /-- No usage has a key and name that are preferred. -/
  least : ∀ v ∈ us, (namingOrder u v).isLE

private theorem isMerge_singleton (u : Usage) : IsMerge u [u] where
  slot_eq := by simp
  kind_eq := by simp
  stages_eq := by simp [StageSet.unionOf, StageSet.union, StageSet.empty]
  access_eq := by simp [Access.unionOf, Access.union, Access.none]
  count_eq := by simp
  named := ⟨u, List.mem_singleton_self u, rfl, rfl⟩
  least := by simp [ReflCmp.isLE_rfl]

private theorem merge_naming (a b : Usage) :
    ((a.merge b).resource = a.resource ∧ (a.merge b).name = a.name ∧ (namingOrder a b).isLE) ∨
      ((a.merge b).resource = b.resource ∧ (a.merge b).name = b.name ∧
        (namingOrder b a).isLE) := by
  cases less : (namingOrder b a).isLT with
  | true =>
    refine .inr ⟨by simp [merge, less], by simp [merge, less], ?_⟩
    rw [Ordering.isLE_eq_isLT_or_isEq, less, Bool.true_or]
  | false =>
    refine .inl ⟨by simp [merge, less], by simp [merge, less], ?_⟩
    have swapped : namingOrder a b = (namingOrder b a).swap := OrientedCmp.eq_swap
    rw [swapped, Ordering.isLE_swap]
    exact Ordering.not_isLT_eq_isGE ▸ congrArg (!·) less

theorem IsMerge.merge {a v : Usage} {us : List Usage} (h : IsMerge a us)
    (slots : v.slot = a.slot) (kinds : v.kind = a.kind) : IsMerge (a.merge v) (us ++ [v]) where
  slot_eq w hw := by
    rcases List.mem_append.mp hw with hw | hw
    · exact h.slot_eq w hw
    · exact List.mem_singleton.mp hw ▸ slots
  kind_eq w hw := by
    rcases List.mem_append.mp hw with hw | hw
    · exact h.kind_eq w hw
    · exact List.mem_singleton.mp hw ▸ kinds
  stages_eq := by
    simpa [StageSet.unionOf, Usage.merge] using congrArg (·.union v.stages) h.stages_eq
  access_eq := by
    simpa [Access.unionOf, Usage.merge] using congrArg (·.union v.access) h.access_eq
  count_eq := by
    simpa [Usage.merge] using congrArg (max · v.count) h.count_eq
  named := by
    obtain ⟨w, hw, resources, names⟩ := h.named
    rcases merge_naming a v with ⟨resource, name, _⟩ | ⟨resource, name, _⟩
    · exact ⟨w, List.mem_append_left _ hw, resources.trans resource.symm, names.trans name.symm⟩
    · exact ⟨v, by simp, resource.symm, name.symm⟩
  least w hw := by
    rcases merge_naming a v with ⟨resource, name, before⟩ | ⟨resource, name, before⟩
    · rw [namingOrder_congr w resource name]
      rcases List.mem_append.mp hw with hw | hw
      · exact h.least w hw
      · exact List.mem_singleton.mp hw ▸ before
    · rw [namingOrder_congr w resource name]
      rcases List.mem_append.mp hw with hw | hw
      · exact TransCmp.isLE_trans before (h.least w hw)
      · exact List.mem_singleton.mp hw ▸ ReflCmp.isLE_rfl

private theorem unionOf_stages_perm {us vs : List StageSet} (perm : us.Perm vs) :
    StageSet.unionOf us = StageSet.unionOf vs :=
  perm.foldl_eq' (fun a _ b _ c => by
    simp only [StageSet.union, UInt32.or_assoc, UInt32.or_comm a.bits]) _

private theorem unionOf_access_perm {us vs : List Access} (perm : us.Perm vs) :
    Access.unionOf us = Access.unionOf vs :=
  perm.foldl_eq' (fun a _ b _ c => by
    simp only [Access.union, UInt32.or_assoc, UInt32.or_comm a.bits]) _

private theorem max_count_perm {us vs : List Nat} (perm : us.Perm vs) :
    us.foldl max 0 = vs.foldl max 0 :=
  perm.foldl_eq' (fun a _ b _ c => by omega) _

theorem IsMerge.unique {u u' : Usage} {us us' : List Usage} (h : IsMerge u us)
    (h' : IsMerge u' us') (perm : us.Perm us') : u = u' := by
  obtain ⟨v, hv, resources, names⟩ := h.named
  obtain ⟨v', hv', resources', names'⟩ := h'.named
  have slots : u.slot = u'.slot := (h.slot_eq v hv).symm.trans (h'.slot_eq v (perm.subset hv))
  have kinds : u.kind = u'.kind := (h.kind_eq v hv).symm.trans (h'.kind_eq v (perm.subset hv))
  have stages : u.stages = u'.stages := by
    rw [h.stages_eq, h'.stages_eq, unionOf_stages_perm (perm.map _)]
  have access : u.access = u'.access := by
    rw [h.access_eq, h'.access_eq, unionOf_access_perm (perm.map _)]
  have counts : u.count = u'.count := by
    rw [h.count_eq, h'.count_eq, max_count_perm (perm.map _)]
  have before : (namingOrder v v').isLE := by
    rw [namingOrder_congr v' resources names]
    exact h.least v' (perm.symm.subset hv')
  have after : (namingOrder v' v).isLE := by
    rw [namingOrder_congr v resources' names']
    exact h'.least v (perm.subset hv)
  obtain ⟨resource, name⟩ := naming_eq_of_isLE before after
  obtain ⟨sets, bindings⟩ := Prod.mk.inj slots
  cases u
  cases u'
  simp_all

def atSlot (slot : Nat × Nat) (us : List Usage) : List Usage :=
  us.filter (·.slot == slot)

theorem mem_atSlot {slot : Nat × Nat} {us : List Usage} {u : Usage} :
    u ∈ atSlot slot us ↔ u ∈ us ∧ u.slot = slot := by
  simp [atSlot]

private theorem atSlot_append_of_eq {v : Usage} {slot : Nat × Nat} (us : List Usage)
    (at_slot : v.slot = slot) : atSlot slot (us ++ [v]) = atSlot slot us ++ [v] := by
  simp [atSlot, at_slot]

private theorem atSlot_append_of_ne {v : Usage} {slot : Nat × Nat} (us : List Usage)
    (elsewhere : v.slot ≠ slot) : atSlot slot (us ++ [v]) = atSlot slot us := by
  simp [atSlot, elsewhere]

private theorem atSlot_eq_nil {slot : Nat × Nat} {us : List Usage} (none : ∀ v ∈ us, v.slot ≠ slot) :
    atSlot slot us = [] :=
  List.filter_eq_nil_iff.mpr fun v hv => by simpa using none v hv

/-- A table that has, at each slot that some usages have, the merge of those there, and nothing else. -/
structure Tabulates (t : SetTable) (us : List Usage) : Prop where
  keyed : t.Keyed
  merged : ∀ slot u, t.usageAt? slot = some u → IsMerge u (atSlot slot us)
  covered : ∀ v ∈ us, ∃ u, t.usageAt? v.slot = some u

theorem tabulates_nil : Tabulates [] [] :=
  ⟨SetTable.keyed_nil, nofun, nofun⟩

variable {t t' : SetTable} {us us' : List Usage}

private theorem Tabulates.isMerge_onto (h : Tabulates t us) {v : Usage}
    (kinds : ∀ known, t.usageAt? v.slot = some known → known.kind = v.kind) :
    IsMerge (v.onto (t.usageAt? v.slot)) (atSlot v.slot (us ++ [v])) := by
  rw [atSlot_append_of_eq us rfl]
  cases found : t.usageAt? v.slot with
  | none =>
    have fresh : atSlot v.slot us = [] := by
      refine atSlot_eq_nil fun w hw same => ?_
      obtain ⟨u, hu⟩ := h.covered w hw
      rw [same, found] at hu
      cases hu
    rw [fresh]
    exact isMerge_singleton v
  | some known =>
    exact (h.merged v.slot known found).merge (h.keyed.slot_of_usageAt? found).symm (kinds known found).symm

theorem Tabulates.enter (h : Tabulates t us) {v : Usage}
    (kinds : ∀ known, t.usageAt? v.slot = some known → known.kind = v.kind) :
    Tabulates (t.enter v) (us ++ [v]) where
  keyed := h.keyed.enter v
  merged slot u hu := by
    rw [h.keyed.usageAt?_enter] at hu
    split at hu
    · rename_i same
      obtain rfl := Option.some.inj hu
      exact same ▸ h.isMerge_onto kinds
    · rename_i elsewhere
      rw [atSlot_append_of_ne us (Ne.symm elsewhere)]
      exact h.merged slot u hu
  covered w hw := by
    rw [h.keyed.usageAt?_enter]
    split
    · exact ⟨_, rfl⟩
    · rename_i elsewhere
      rcases List.mem_append.mp hw with hw | hw
      · exact h.covered w hw
      · exact absurd (congrArg slot (List.mem_singleton.mp hw)) elsewhere

theorem Tabulates.exists_usageAt?_iff (h : Tabulates t us) (slot : Nat × Nat) :
    (∃ u, t.usageAt? slot = some u) ↔ ∃ v ∈ us, v.slot = slot := by
  constructor
  · rintro ⟨u, hu⟩
    obtain ⟨v, hv, _⟩ := (h.merged slot u hu).named
    exact ⟨v, mem_atSlot.mp hv⟩
  · rintro ⟨v, hv, rfl⟩
    exact h.covered v hv

private theorem Tabulates.usageAt?_of_perm (h : Tabulates t us) (h' : Tabulates t' us')
    (perm : us.Perm us') {slot : Nat × Nat} {u : Usage} (hu : t.usageAt? slot = some u) :
    t'.usageAt? slot = some u := by
  obtain ⟨v, hv, rfl⟩ := (h.exists_usageAt?_iff slot).mp ⟨u, hu⟩
  obtain ⟨u', hu'⟩ := h'.covered v (perm.subset hv)
  rw [hu', (h.merged _ u hu).unique (h'.merged _ u' hu') (perm.filter _)]

theorem Tabulates.unique (h : Tabulates t us) (h' : Tabulates t' us') (perm : us.Perm us') : t = t' :=
  h.keyed.ext h'.keyed fun _ =>
    Option.ext fun _ => ⟨h.usageAt?_of_perm h' perm, h'.usageAt?_of_perm h perm.symm⟩

end Usage

end ShaderPipeline
