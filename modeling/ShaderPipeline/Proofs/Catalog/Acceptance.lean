import ShaderPipeline.Catalog.Document
import ShaderPipeline.Proofs.Catalog.Lookup
import ShaderPipeline.Proofs.Outcome

/-!
What the acceptance of a catalog tells about its groups.

The checks run through lists and compare each member with all earlier ones, so that a list passes exactly when its
members go together pairwise.  Main statement: a document that is accepted has labelled resources and distinct names,
so that names find what they stand for; and the stages of its shaders are told apart by names and stages.
-/

set_option autoImplicit false
set_option relaxedAutoImplicit false

namespace ShaderPipeline

open Outcome

def Resource.GoesWith (a b : Resource) : Prop :=
  a.name ≠ b.name ∧ (a.kind.isDescriptor → b.kind.isDescriptor → a.binding ≠ b.binding)

namespace Catalog

private theorem checkResources_cons {group : String} {earlier rest : List Resource} {r : Resource} :
    checkResources group earlier (r :: rest) = .ok () ↔
      (∀ e ∈ earlier, e.GoesWith r) ∧ checkResources group (earlier ++ [r]) rest = .ok () := by
  rw [checkResources]
  by_cases named : earlier.any (·.name == r.name)
  · obtain ⟨e, he, same⟩ := List.any_eq_true.mp named
    refine ⟨fun h => ?_, fun h => absurd (by simpa using same) (h.1 e he).1⟩
    rw [if_pos named] at h
    cases h
  · have fresh : ∀ e ∈ earlier, e.name ≠ r.name := by
      simpa using named
    rw [if_neg named]
    split
    · rename_i e found
      have clash : (e.kind.isDescriptor ∧ r.kind.isDescriptor) ∧ e.binding = r.binding := by
        simpa using List.find?_some found
      have member := List.mem_of_find?_eq_some found
      exact ⟨nofun, fun h => absurd clash.2 ((h.1 e member).2 clash.1.1 clash.1.2)⟩
    · rename_i absent
      have apart : ∀ e ∈ earlier, e.kind.isDescriptor → r.kind.isDescriptor →
          e.binding ≠ r.binding := by
        simpa using List.find?_eq_none.mp absent
      exact ⟨fun h => ⟨fun e he => ⟨fresh e he, apart e he⟩, h⟩, And.right⟩

private theorem checkResources_eq_ok {group : String} {earlier rs : List Resource} :
    checkResources group earlier rs = .ok () ↔
      (∀ r ∈ rs, ∀ e ∈ earlier, e.GoesWith r) ∧ rs.Pairwise Resource.GoesWith := by
  induction rs generalizing earlier with
  | nil => simp [checkResources]
  | cons r rest ih =>
    rw [checkResources_cons, ih, List.pairwise_cons]
    simp only [List.mem_append, List.mem_singleton, List.forall_mem_cons]
    constructor
    · rintro ⟨first, later, pairwise⟩
      exact ⟨⟨first, fun s hs e he => later s hs e (.inl he)⟩,
        fun s hs => later s hs r (.inr rfl), pairwise⟩
    · rintro ⟨⟨first, later⟩, among, pairwise⟩
      refine ⟨first, fun s hs e he => ?_, pairwise⟩
      rcases he with he | rfl
      · exact later s hs e he
      · exact among s hs

private theorem checkResourceGroups_cons {earlier : List String} {g : ResourceGroup}
    {rest : List ResourceGroup} :
    checkResourceGroups earlier (g :: rest) = .ok () ↔
      g.name ∉ earlier ∧ g.resources.Pairwise Resource.GoesWith ∧
        checkResourceGroups (earlier ++ [g.name]) rest = .ok () := by
  have own : checkResources g.name [] g.resources = .ok () ↔
      g.resources.Pairwise Resource.GoesWith := by
    simp [checkResources_eq_ok]
  rw [checkResourceGroups, ← own]
  by_cases known : g.name ∈ earlier
  · simp [known]
  · have checked : (∃ u, checkResources g.name [] g.resources = .ok u) ↔
        checkResources g.name [] g.resources = .ok () :=
      ⟨fun ⟨(), h⟩ => h, fun h => ⟨(), h⟩⟩
    simp [known, bind_eq_ok, checked]

/-- Resource groups are accepted when their names are new and distinct and the resources of each go together. -/
theorem checkResourceGroups_eq_ok {earlier : List String} {groups : List ResourceGroup} :
    checkResourceGroups earlier groups = .ok () ↔
      (∀ g ∈ groups, g.name ∉ earlier) ∧ (groups.map (·.name)).Nodup ∧
        ∀ g ∈ groups, g.resources.Pairwise Resource.GoesWith := by
  induction groups generalizing earlier with
  | nil => simp [checkResourceGroups]
  | cons g rest ih =>
    have later : (∀ h ∈ rest, h.name ∉ earlier ++ [g.name]) ↔
        (∀ h ∈ rest, h.name ∉ earlier) ∧ g.name ∉ rest.map (·.name) := by
      simp only [List.mem_append, List.mem_singleton, not_or, List.mem_map, not_exists, not_and]
      exact forall₂_and
    rw [checkResourceGroups_cons, ih, later, List.map_cons, List.nodup_cons]
    simp only [List.forall_mem_cons]
    constructor
    · rintro ⟨fresh, own, ⟨old, other⟩, distinct, rest_own⟩
      exact ⟨⟨fresh, old⟩, ⟨other, distinct⟩, own, rest_own⟩
    · rintro ⟨⟨fresh, old⟩, ⟨other, distinct⟩, own, rest_own⟩
      exact ⟨fresh, own, ⟨old, other⟩, distinct, rest_own⟩

/-- A catalog in which names find what they stand for: resources carry the names of their groups, group names are
distinct, and the resources of a group go together. -/
structure IsUnambiguous (c : Catalog) : Prop where
  labelled : c.IsLabelled
  groupsDistinct : (c.resourceGroups.map (·.name)).Nodup
  goTogether : ∀ g ∈ c.resourceGroups, g.resources.Pairwise Resource.GoesWith

private theorem group_of_resolve {e : ResourceEntry} {group : String} {r : Resource}
    (resolved : e.resolve group = .ok r) : r.group = group := by
  simp only [ResourceEntry.resolve, bind_eq_ok, pure_eq_ok] at resolved
  obtain ⟨_, _, _, _, _, _, _, _, rfl⟩ := resolved
  rfl

private theorem labels_of_resolve {e : ResourceGroupEntry} {g : ResourceGroup}
    (resolved : e.resolve = .ok g) : ∀ r ∈ g.resources, r.group = g.name := by
  simp only [ResourceGroupEntry.resolve, bind_eq_ok, pure_eq_ok] at resolved
  obtain ⟨rs, each, rfl⟩ := resolved
  intro r hr
  obtain ⟨entry, _, made⟩ := exists_of_mapM_eq_ok each hr
  exact group_of_resolve made

private theorem isUnambiguous_of_ofDocument {d : CatalogDocument} {root : Path} {c : Catalog}
    (accepted : ofDocument d root = .ok c) : c.IsUnambiguous := by
  rw [ofDocument] at accepted
  cases hs : d.shaderGroups with
  | none => simp [hs] at accepted
  | some shaders =>
    cases hg : d.resourceGroups with
    | none => simp [hs, hg] at accepted
    | some entries =>
      simp only [hs, hg, ofGroups, bind_eq_ok, pure_eq_ok] at accepted
      obtain ⟨_, _, groups, each, ⟨⟩, checked, _, _, rfl⟩ := accepted
      obtain ⟨-, distinct, together⟩ := checkResourceGroups_eq_ok.mp checked
      refine ⟨fun g hg => ?_, distinct, together⟩
      obtain ⟨entry, _, made⟩ := exists_of_mapM_eq_ok each hg
      exact labels_of_resolve made

theorem isUnambiguous_of_ofText {text : String} {root : Path} {c : Catalog}
    (accepted : ofText text root = .ok c) : c.IsUnambiguous := by
  rw [ofText] at accepted
  split at accepted
  · rw [ofJson] at accepted
    split at accepted
    · exact isUnambiguous_of_ofDocument accepted
    · cases accepted
  · cases accepted

private theorem checkStages_eq_ok {shader : String} {earlier : List StageSet}
    {stages : List StageSource} :
    checkStages shader earlier stages = .ok () ↔
      (∀ s ∈ stages, s.stage.isSingle = true ∧ s.stage ∉ earlier) ∧ (stages.map (·.stage)).Nodup := by
  induction stages generalizing earlier with
  | nil => simp [checkStages]
  | cons s rest ih =>
    have later : (∀ t ∈ rest, t.stage.isSingle = true ∧ t.stage ∉ earlier ++ [s.stage]) ↔
        (∀ t ∈ rest, t.stage.isSingle = true ∧ t.stage ∉ earlier) ∧
          s.stage ∉ rest.map (·.stage) := by
      simp only [List.mem_append, List.mem_singleton, not_or, List.mem_map, not_exists, not_and,
        ← and_assoc]
      exact forall₂_and
    rw [checkStages, List.map_cons, List.nodup_cons, List.forall_mem_cons]
    by_cases refused : (!s.stage.isSingle || earlier.contains s.stage) = true
    · rw [if_pos refused]
      refine ⟨nofun, fun h => ?_⟩
      simp [h.1.1.1, h.1.1.2] at refused
    · have fine : s.stage.isSingle = true ∧ s.stage ∉ earlier := by
        simpa using refused
      rw [if_neg refused, ih, later]
      exact ⟨fun h => ⟨⟨fine, h.1.1⟩, h.1.2, h.2⟩, fun h => ⟨⟨h.1.2, h.2.1⟩, h.2.2⟩⟩

private theorem checkShaderGroups_cons {earlier : List String} {g : ShaderGroup}
    {rest : List ShaderGroup} :
    checkShaderGroups earlier (g :: rest) = .ok () ↔
      g.name ∉ earlier ∧ checkStages g.name [] g.stages = .ok () ∧
        checkShaderGroups (earlier ++ [g.name]) rest = .ok () := by
  rw [checkShaderGroups]
  by_cases known : g.name ∈ earlier
  · simp [known]
  · have checked : (∃ u, checkStages g.name [] g.stages = .ok u) ↔
        checkStages g.name [] g.stages = .ok () :=
      ⟨fun ⟨(), h⟩ => h, fun h => ⟨(), h⟩⟩
    simp [known, bind_eq_ok, checked]

/-- Shaders are accepted when their names are new and distinct and the stages of each are single and distinct. -/
theorem checkShaderGroups_eq_ok {earlier : List String} {groups : List ShaderGroup} :
    checkShaderGroups earlier groups = .ok () ↔
      (∀ g ∈ groups, g.name ∉ earlier) ∧ (groups.map (·.name)).Nodup ∧
        ∀ g ∈ groups, (∀ s ∈ g.stages, s.stage.isSingle = true) ∧
          (g.stages.map (·.stage)).Nodup := by
  induction groups generalizing earlier with
  | nil => simp [checkShaderGroups]
  | cons g rest ih =>
    have later : (∀ h ∈ rest, h.name ∉ earlier ++ [g.name]) ↔
        (∀ h ∈ rest, h.name ∉ earlier) ∧ g.name ∉ rest.map (·.name) := by
      simp only [List.mem_append, List.mem_singleton, not_or, List.mem_map, not_exists, not_and]
      exact forall₂_and
    have own : checkStages g.name [] g.stages = .ok () ↔
        (∀ s ∈ g.stages, s.stage.isSingle = true) ∧ (g.stages.map (·.stage)).Nodup := by
      simp [checkStages_eq_ok]
    rw [checkShaderGroups_cons, own, ih, later, List.map_cons, List.nodup_cons]
    simp only [List.forall_mem_cons]
    constructor
    · rintro ⟨fresh, stages, ⟨old, other⟩, distinct, rest_stages⟩
      exact ⟨⟨fresh, old⟩, ⟨other, distinct⟩, stages, rest_stages⟩
    · rintro ⟨⟨fresh, old⟩, ⟨other, distinct⟩, stages, rest_stages⟩
      exact ⟨fresh, stages, ⟨old, other⟩, distinct, rest_stages⟩

/-- Whether a name and a stage tell every stage of a catalog from all others. -/
structure StagesDistinct (c : Catalog) : Prop where
  names : (c.shaderGroups.map (·.name)).Nodup
  single : ∀ g ∈ c.shaderGroups, ∀ s ∈ g.stages, s.stage.isSingle = true
  stages : ∀ g ∈ c.shaderGroups, (g.stages.map (·.stage)).Nodup

theorem stagesDistinct_of_ofGroups {shaders : List ShaderGroup} {resources : List ResourceGroup}
    {c : Catalog} (accepted : ofGroups shaders resources = .ok c) : c.StagesDistinct := by
  rw [ofGroups] at accepted
  obtain ⟨_, _, accepted⟩ := bind_eq_ok.mp accepted
  obtain ⟨_, checked, accepted⟩ := bind_eq_ok.mp accepted
  obtain rfl := pure_eq_ok.mp accepted
  obtain ⟨_, names, each⟩ := checkShaderGroups_eq_ok.mp checked
  exact ⟨names, fun g hg => (each g hg).1, fun g hg => (each g hg).2⟩

end Catalog

end ShaderPipeline
